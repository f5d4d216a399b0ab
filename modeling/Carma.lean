import Carma.AStarLaws
import Carma.AStarOptimality
import Carma.AStarSolver
import Carma.AlgorithmWindows
import Carma.Arbitrator
import Carma.ArbitratorPlanning
import Carma.ArbitratorStateMachine
import Carma.AsdDataPacket
import Carma.BSMConvertor
import Carma.BSMMessage
import Carma.BSMMessageLaws
import Carma.BrakePressures
import Carma.CandidateFollowerLoop
import Carma.CartesianObject
import Carma.CoarseArrivals
import Carma.CoarseHops
import Carma.CoarsePathLaws
import Carma.CoarsePathNeighbors
import Carma.CommandGenerator
import Carma.CommandGeneratorLaws
import Carma.ConflictAgreement
import Carma.ConflictAttribution
import Carma.ConflictBookkeeping
import Carma.ConflictDecisions
import Carma.ConflictManager
import Carma.CooperativeMerge
import Carma.CooperativeMergeLaws
import Carma.CopiedManeuvers
import Carma.CruisingLaws
import Carma.CruisingPlugin
import Carma.DelphiESRCANClient
import Carma.DelphiESRCANClientLaws
import Carma.DelphiESRCommandChanges
import Carma.DelphiESRCommandLaws
import Carma.DelphiESRCommands
import Carma.DsrcClient
import Carma.EadIntersectionLaws
import Carma.EadIntersectionManager
import Carma.FineHops
import Carma.FinePathNeighbors
import Carma.FuelCostModels
import Carma.FutureManeuverSteps
import Carma.FutureManeuvers
import Carma.GuidanceCommands
import Carma.GuidanceNode
import Carma.GuidanceNodeLaws
import Carma.GuidanceRobotStatus
import Carma.GuidanceRouteService
import Carma.GuidanceV2IService
import Carma.InterfaceWorker
import Carma.InterfaceWorkerLaws
import Carma.IntersectionGeometry
import Carma.IntervalTree
import Carma.IntervalTreeLaws
import Carma.IntervalTreeSpecs
import Carma.LaneChangeLaws
import Carma.LaneChangePlugin
import Carma.LaneDistances
import Carma.LaneGeometry
import Carma.LargeMessageHandler
import Carma.LateralBackfill
import Carma.LeaderSelection
import Carma.Lib.Bands
import Carma.Lib.BinaryHeap
import Carma.Lib.BitFields
import Carma.Lib.Boxes
import Carma.Lib.Crc
import Carma.Lib.Deltas
import Carma.Lib.Descents
import Carma.Lib.ExactDouble
import Carma.Lib.FreeWindows
import Carma.Lib.GreedyGroups
import Carma.Lib.Packing
import Carma.Lib.Handshakes
import Carma.Lib.Hops
import Carma.Lib.Interleavings
import Carma.Lib.Legs
import Carma.Lib.Loops
import Carma.Lib.Narrowing
import Carma.Lib.Network
import Carma.Lib.Places
import Carma.Lib.Polylines
import Carma.Lib.Records
import Carma.Lib.Retries
import Carma.Lib.RingBuffers
import Carma.Lib.Runs
import Carma.Lib.SortedMap
import Carma.Lib.SortedSet
import Carma.Lib.Stretches
import Carma.Lib.Strips
import Carma.Lib.Text
import Carma.Lib.Ticks
import Carma.Lib.UniformMotion
import Carma.Lib.Walks
import Carma.Lib.WrappingIds
import Carma.LightBarLaws
import Carma.LightBarManager
import Carma.LightSchedule
import Carma.Location
import Carma.ManeuverListing
import Carma.ManeuverPlanner
import Carma.Maneuvers
import Carma.MapMessage
import Carma.MapMessageLaws
import Carma.MatrixPivots
import Carma.MatrixSolver
import Carma.MessagePlaces
import Carma.MobilityHelperLaws
import Carma.MobilityHelpers
import Carma.MobilityOffsetLaws
import Carma.MobilityOperationMessage
import Carma.MobilityPathMessage
import Carma.MobilityRequestMessage
import Carma.MobilityRouter
import Carma.MobilityRouterLaws
import Carma.MotionTails
import Carma.NSpatialHashMap
import Carma.NSpatialHashMapLaws
import Carma.NSpatialHashMapSpecs
import Carma.NeighborBase
import Carma.NextManeuver
import Carma.ObjectCollisionChecker
import Carma.ObjectPredictions
import Carma.ObjectTimeMargins
import Carma.ObjectTracker
import Carma.ObjectTrackerIds
import Carma.ObjectTrackerMerge
import Carma.ObjectTrackerTimes
import Carma.ObstacleDowntracks
import Carma.PathBounds
import Carma.PathErrors
import Carma.PathMessages
import Carma.PathPlaces
import Carma.PidSymmetry
import Carma.PlanInterpolator
import Carma.PlanInterpolatorLaws
import Carma.PlatoonManager
import Carma.PlatoonNetwork
import Carma.PlatoonOrder
import Carma.PlatoonRoom
import Carma.PlatoonStrategies
import Carma.Platooning
import Carma.PlatooningLaws
import Carma.PluginLifecycleHandler
import Carma.PluginLifecycleLaws
import Carma.PolyHoloA
import Carma.ProgressCallbacks
import Carma.ProgressOnTime
import Carma.PubSub
import Carma.RSUMeterLaws
import Carma.RSUMeterWorker
import Carma.Route
import Carma.RouteBuilding
import Carma.RouteFollowingPlugin
import Carma.RouteInsertions
import Carma.RouteLanes
import Carma.RouteMessages
import Carma.RouteProgress
import Carma.RouteSearch
import Carma.RouteStarts
import Carma.RouteSubsections
import Carma.RouteWaypoints
import Carma.RouteWorker
import Carma.SPATConvertor
import Carma.SPATConvertorLaws
import Carma.SPATMessage
import Carma.ScManager
import Carma.ScManagerIncoming
import Carma.ScManagerLaws
import Carma.ScManagerOutgoing
import Carma.SignalFilters
import Carma.SpatConversion
import Carma.SrxPidParams
import Carma.StoredRoutes
import Carma.TargetDistances
import Carma.TimeCostModel
import Carma.TotalTrajectory
import Carma.Tracking
import Carma.TrafficSignalPlanning
import Carma.Trajectory
import Carma.TrajectoryConverter
import Carma.TrajectoryExecutor
import Carma.TrajectoryExecutorWorker
import Carma.TrajectoryInvariant
import Carma.TrajectoryLaws
import Carma.TrajectorySpecs
import Carma.TrajectoryValidator
import Carma.TrajectoryValidatorLaws
import Carma.TrajectoryWindows
import Carma.TruckFeedback
import Carma.TruckTypeLaws
import Carma.TruckTypes
import Carma.TwistHistoryBuffer
import Carma.TwistInterpolation
import Carma.UniformPaths
import Carma.VehicleAwareness
import Carma.WaypointMessages
import Carma.Wma6Filter
import Carma.YieldPlugin
