-- The laws of the interface worker: what each call does to the list of drivers,
-- and when a system that says it is ready has its critical drivers.
import Carma.InterfaceWorker

open lib.runs

namespace carma.interface_manager

/-! ## The list of drivers -/

namespace InterfaceWorker

/-- The names of the drivers. -/
def names (w : InterfaceWorker) : List String := w.drivers.map DriverInfo.name

theorem getDriverIndex_eq_none {w : InterfaceWorker} {name : String} :
    w.getDriverIndex name = none ↔ name ∉ w.names := by
  unfold getDriverIndex names
  rw [List.findIdx?_eq_none_iff]
  simp

theorem getDriverIndex_get {w : InterfaceWorker} {name : String} {index : ℕ}
    (h : w.getDriverIndex name = some index) :
    ∃ known, w.drivers[index]? = some known ∧ known.name = name := by
  obtain ⟨hi, hname, _⟩ := List.findIdx?_eq_some_iff_getElem.mp h
  exact ⟨w.drivers[index], List.getElem?_eq_getElem hi, by simpa using hname⟩

/-- The first status of a driver that operates, or of a slow position driver. -/
theorem handleNewDriverStatus_new {w : InterfaceWorker} {d : DriverInfo} (cap : List String)
    (now : ℤ) (hnew : d.name ∉ w.names)
    (hup : d.state = .OPERATIONAL ∨ d.state = .DEGRADED ∧ d.position = true) :
    w.handleNewDriverStatus d (some cap) now =
      ({ w with
          drivers := w.drivers ++ [{ d with capabilities := some cap }]
          positionReady := w.positionReady || d.position
          lonControllerReady := w.lonControllerReady || (d.lonController && !d.position)
          startedWaiting := now }, [.bindWithDriver d.name]) := by
  unfold handleNewDriverStatus discoverDriver
  rw [getDriverIndex_eq_none.mpr hnew]
  rcases hup with hup | ⟨hslow, hposition⟩
  · simp only [hup, if_true]
    cases d.position <;> cases d.lonController <;> simp
  · simp [hslow, hposition]

/-- All that a status can do: nothing, replace the driver of that name, or add it. -/
theorem handleNewDriverStatus_cases (w : InterfaceWorker) (d : DriverInfo)
    (api : Option (List String)) (now : ℤ) :
    w.handleNewDriverStatus d api now = (w, []) ∨
    (∃ index known, w.drivers[index]? = some known ∧ known.name = d.name ∧
      w.handleNewDriverStatus d api now =
        ({ w with drivers := w.drivers.set index { d with capabilities := api } },
          if d.Critical ∧ d.Down then
            [.errorShutdown ("FAULT detected in critical driver: " ++ d.name)]
          else [])) ∨
    (∃ cap, d.name ∉ w.names ∧ api = some cap ∧
      (d.state = .OPERATIONAL ∨ d.state = .DEGRADED ∧ d.position = true) ∧
      w.handleNewDriverStatus d api now =
        ({ w with
            drivers := w.drivers ++ [{ d with capabilities := api }]
            positionReady := w.positionReady || d.position
            lonControllerReady := w.lonControllerReady || (d.lonController && !d.position)
            startedWaiting := now }, [.bindWithDriver d.name])) := by
  unfold handleNewDriverStatus
  rcases hindex : w.getDriverIndex d.name with _ | index
  · rcases api with _ | cap
    · exact Or.inl rfl
    · have hnew := getDriverIndex_eq_none.mp hindex
      by_cases hup : d.state = .OPERATIONAL ∨ d.state = .DEGRADED ∧ d.position = true
      · have hcall := handleNewDriverStatus_new cap now hnew hup
        unfold handleNewDriverStatus at hcall
        rw [hindex] at hcall
        exact Or.inr (Or.inr ⟨cap, hnew, rfl, hup, hcall⟩)
      · left
        obtain ⟨hfast, hslow⟩ := not_or.mp hup
        simp only [discoverDriver]
        rw [if_neg hfast, if_neg hslow]
  · obtain ⟨known, hknown, hname⟩ := getDriverIndex_get hindex
    unfold updateDriver
    by_cases hsame : w.drivers[index]?.any d.equalCategoryAndState
    · left
      simp [hsame]
    · refine Or.inr (Or.inl ⟨index, known, hknown, hname, ?_⟩)
      simp [hsame]

/-- All that a broken bond can do: raise an alert, and remove a driver that is down. -/
theorem handleBrokenBond_cases (w : InterfaceWorker) (name : String) :
    (w.call (.handleBrokenBond name)).2.all (fun r => !r.isShutdown) ∧
    ((w.call (.handleBrokenBond name)).1 = w ∨
      ∃ index driver, w.drivers[index]? = some driver ∧ driver.Down ∧
        (w.call (.handleBrokenBond name)).1 =
          { w with drivers := w.drivers.eraseIdx index }) := by
  unfold call handleBrokenBond
  rcases hindex : w.getDriverIndex name with _ | index
  · simp [hindex]
  · obtain ⟨known, hknown, _⟩ := getDriverIndex_get hindex
    simp only [hindex, Option.bind_some, hknown, Option.map_some]
    refine ⟨?_, ?_⟩
    · split_ifs <;> simp [Request.isShutdown]
    · by_cases hdown : known.Down
      · exact Or.inr ⟨index, known, hknown, hdown, by simp [hdown]⟩
      · exact Or.inl (by simp [hdown])

/-- All that a question whether the system is ready can do: answer, and set the system
operational where both flags are set. -/
theorem isSystemReady_cases (w : InterfaceWorker) (now readyAt : ℤ) :
    (w.systemOperational = true ∧ w.isSystemReady now readyAt = (true, w, [])) ∨
    (w.positionReady = true ∧ w.lonControllerReady = true ∧
      w.isSystemReady now readyAt =
        (true, { w with systemOperational := true, systemReadyTime := readyAt }, [])) ∨
    ∃ asked, w.isSystemReady now readyAt = (false, w, asked) := by
  unfold isSystemReady
  by_cases hop : w.systemOperational = true
  · left
    exact ⟨hop, by rw [if_pos hop]⟩
  · right
    rw [if_neg hop]
    by_cases hwait : (now - w.startedWaiting).bmod (2 ^ 64) > (1000 * w.waitTime).bmod (2 ^ 32)
    · rw [if_pos hwait]
      by_cases hflags : (w.lonControllerReady && w.positionReady) = true
      · left
        obtain ⟨hlon, hposition⟩ := Bool.and_eq_true_iff.mp hflags
        exact ⟨hposition, hlon, by rw [if_pos hflags]⟩
      · right
        rw [if_neg hflags]
        exact ⟨_, rfl⟩
    · right
      rw [if_neg hwait]
      exact ⟨_, rfl⟩

theorem names_set {w : InterfaceWorker} {index : ℕ} {known d : DriverInfo}
    (hknown : w.drivers[index]? = some known) (hname : known.name = d.name) :
    (w.drivers.set index d).map DriverInfo.name = w.names := by
  unfold names
  apply List.ext_getElem?
  intro j
  rw [List.getElem?_map, List.getElem?_map, List.getElem?_set]
  by_cases hj : index = j
  · obtain ⟨hlen, hget⟩ := List.getElem?_eq_some_iff.mp hknown
    subst hj
    simp [hlen, hget, hname]
  · simp [hj]

theorem mem_set_of_ne {l : List DriverInfo} {index : ℕ} {known e d : DriverInfo}
    (hknown : l[index]? = some known) (he : e ∈ l) (hne : e ≠ known) : e ∈ l.set index d := by
  obtain ⟨j, hj⟩ := List.mem_iff_getElem?.mp he
  have hij : index ≠ j := by
    rintro rfl
    exact hne (Option.some.inj (hj.symm.trans hknown))
  exact List.mem_iff_getElem?.mpr ⟨j, by rw [List.getElem?_set_ne hij, hj]⟩

theorem mem_eraseIdx_of_ne {l : List DriverInfo} {index : ℕ} {known e : DriverInfo}
    (hknown : l[index]? = some known) (he : e ∈ l) (hne : e ≠ known) : e ∈ l.eraseIdx index := by
  obtain ⟨j, hj⟩ := List.mem_iff_getElem?.mp he
  refine List.mem_eraseIdx_iff_getElem?.mpr ⟨j, ?_, hj⟩
  rintro rfl
  exact hne (Option.some.inj (hj.symm.trans hknown))

end InterfaceWorker

/-! ## What the flags say -/

/-- Each driver has a name of its own, and each flag says whether a driver of its
category was added. -/
structure FlagsTrue (h : History) : Prop where
  names : h.worker.names.Nodup
  position : h.worker.positionReady = true ↔ ∃ d ∈ h.added, d.position = true
  lonController : h.worker.lonControllerReady = true ↔ ∃ d ∈ h.added, d.lonController = true

/-- Each category whose flag is set has a driver, and no critical driver is down. -/
structure Manned (w : InterfaceWorker) : Prop where
  position : w.positionReady = true → ∃ d ∈ w.drivers, d.position = true
  lonController : w.lonControllerReady = true → ∃ d ∈ w.drivers, d.lonController = true
  up : ∀ d ∈ w.drivers, d.Critical → ¬ d.Down

structure Fit (h : History) : Prop where
  flags : FlagsTrue h
  answered : h.worker.systemOperational = true → true ∈ h.answers
  manned : h.ShutdownAsked ∨ h.worker.systemOperational = true ∨ Manned h.worker

/-- The status of a driver does not break the flags. A driver that covers both
categories comes after a controller, and until the system operates or was told to
shut down, no status takes the last driver of a category from the list. -/
def Orderly (h : History) : Call → Prop
  | .handleNewDriverStatus d driverApi _ =>
    if d.name ∈ h.worker.names then
      h.ShutdownAsked ∨ h.worker.systemOperational = true ∨ d.Critical ∧ d.Down ∨
        (h.worker.positionReady = true → d.position = true ∨
          ∃ e ∈ h.worker.drivers, e.name ≠ d.name ∧ e.position = true) ∧
        (h.worker.lonControllerReady = true → d.lonController = true ∨
          ∃ e ∈ h.worker.drivers, e.name ≠ d.name ∧ e.lonController = true)
    else
      driverApi ≠ none → d.state = .OPERATIONAL ∨ d.state = .DEGRADED →
        d.position = true → d.lonController = true → h.worker.lonControllerReady = true
  | _ => True

instance (h : History) : ∀ c, Decidable (Orderly h c)
  | .handleNewDriverStatus _ _ _ => by unfold Orderly; infer_instance
  | .setWaitTime _ => isTrue trivial
  | .handleBrokenBond _ => isTrue trivial
  | .isSystemReady _ _ => isTrue trivial

/-- The first time that the system says it is ready, it has both critical drivers or
was told to shut down. -/
def ReadyMeansManned (h : History) : Call → Prop
  | .isSystemReady now readyAt =>
    true ∉ h.answers → (h.worker.isSystemReady now readyAt).1 = true →
      (∃ d ∈ h.worker.drivers, d.position = true) ∧
        (∃ d ∈ h.worker.drivers, d.lonController = true) ∨ h.ShutdownAsked
  | _ => True

instance (h : History) : ∀ c, Decidable (ReadyMeansManned h c)
  | .isSystemReady _ _ => by unfold ReadyMeansManned; infer_instance
  | .setWaitTime _ => isTrue trivial
  | .handleBrokenBond _ => isTrue trivial
  | .handleNewDriverStatus _ _ _ => isTrue trivial

theorem shutdownAsked_call {h : History} (c : Call) (hasked : h.ShutdownAsked) :
    (h.call c).ShutdownAsked := by
  obtain ⟨r, hr, hshutdown⟩ := hasked
  exact ⟨r, List.mem_append_left _ hr, hshutdown⟩

theorem added_call {h : History} {c : Call}
    (hold : ∀ d ∈ (h.worker.call c).1.drivers, d.name ∈ h.worker.names) :
    (h.call c).added = h.added := by
  have hnone : (h.worker.call c).1.drivers.filter
      (fun d => h.worker.getDriverIndex d.name = none) = [] := by
    apply List.filter_eq_nil_iff.mpr
    intro d hd hnew
    exact InterfaceWorker.getDriverIndex_eq_none.mp (by simpa using hnew) (hold d hd)
  simp [History.call, hnone]

/-- A call that keeps the flags and brings in no name keeps what they say. -/
theorem flagsTrue_call {h : History} {c : Call} (hf : FlagsTrue h)
    (hnames : (h.worker.call c).1.names.Sublist h.worker.names)
    (hposition : (h.worker.call c).1.positionReady = h.worker.positionReady)
    (hlon : (h.worker.call c).1.lonControllerReady = h.worker.lonControllerReady) :
    FlagsTrue (h.call c) := by
  have hadded : (h.call c).added = h.added :=
    added_call (fun d hd => hnames.subset (List.mem_map_of_mem hd))
  refine ⟨hf.names.sublist hnames, ?_, ?_⟩
  · rw [hadded, ← hf.position, ← hposition]
    rfl
  · rw [hadded, ← hf.lonController, ← hlon]
    rfl

/-! ## One call -/

theorem fit_idle {h : History} {c : Call} (hf : Fit h) (hsame : (h.worker.call c).1 = h.worker) :
    Fit (h.call c) := by
  have hflags : FlagsTrue (h.call c) :=
    flagsTrue_call hf.flags (by rw [hsame]) (by rw [hsame]) (by rw [hsame])
  have hworker : (h.call c).worker = h.worker := hsame
  refine ⟨hflags, ?_, ?_⟩
  · intro hop
    rw [hworker] at hop
    exact List.mem_append_left _ (hf.answered hop)
  · rw [hworker]
    exact hf.manned.imp_left (shutdownAsked_call c)

/-- The worker that has `d` in place of the driver at `index`. -/
theorem manned_set {w : InterfaceWorker} {index : ℕ} {known d : DriverInfo} (hw : Manned w)
    (hknown : w.drivers[index]? = some known) (hname : known.name = d.name)
    (hup : ¬ (d.Critical ∧ d.Down))
    (hposition : w.positionReady = true → d.position = true ∨
      ∃ e ∈ w.drivers, e.name ≠ d.name ∧ e.position = true)
    (hlon : w.lonControllerReady = true → d.lonController = true ∨
      ∃ e ∈ w.drivers, e.name ≠ d.name ∧ e.lonController = true) :
    Manned { w with drivers := w.drivers.set index d } := by
  have hin : d ∈ w.drivers.set index d := by
    obtain ⟨hlen, _⟩ := List.getElem?_eq_some_iff.mp hknown
    exact List.mem_set hlen _
  have hother : ∀ e ∈ w.drivers, e.name ≠ d.name → e ∈ w.drivers.set index d := by
    intro e he hne
    apply InterfaceWorker.mem_set_of_ne hknown he
    rintro rfl
    exact hne hname
  refine ⟨?_, ?_, ?_⟩
  · intro hready
    rcases hposition hready with hd | ⟨e, he, hne, hcat⟩
    · exact ⟨d, hin, hd⟩
    · exact ⟨e, hother e he hne, hcat⟩
  · intro hready
    rcases hlon hready with hd | ⟨e, he, hne, hcat⟩
    · exact ⟨d, hin, hd⟩
    · exact ⟨e, hother e he hne, hcat⟩
  · intro e he hcritical hdown
    rcases List.mem_or_eq_of_mem_set he with hold | rfl
    · exact hw.up e hold hcritical hdown
    · exact hup ⟨hcritical, hdown⟩

/-- A driver that is replaced by its new status. -/
theorem fit_replaced {h : History} {d : DriverInfo} {api : Option (List String)} {now : ℤ}
    {index : ℕ} {known : DriverInfo} (hf : Fit h)
    (hok : Orderly h (.handleNewDriverStatus d api now))
    (hknown : h.worker.drivers[index]? = some known) (hname : known.name = d.name)
    (hcall : h.worker.handleNewDriverStatus d api now =
      ({ h.worker with drivers := h.worker.drivers.set index { d with capabilities := api } },
        if d.Critical ∧ d.Down then
          [.errorShutdown ("FAULT detected in critical driver: " ++ d.name)]
        else [])) :
    Fit (h.call (.handleNewDriverStatus d api now)) := by
  have hstep : h.worker.call (.handleNewDriverStatus d api now) = _ := hcall
  have hnames : (h.worker.drivers.set index { d with capabilities := api }).map DriverInfo.name =
      h.worker.names := InterfaceWorker.names_set hknown hname
  have hlisted : d.name ∈ h.worker.names :=
    List.mem_map.mpr ⟨known, List.mem_of_getElem? hknown, hname⟩
  have hop : (h.call (.handleNewDriverStatus d api now)).worker.systemOperational =
      h.worker.systemOperational := by
    simp only [History.call, hstep]
  refine ⟨flagsTrue_call hf.flags ?_ (by rw [hstep]) (by rw [hstep]), ?_, ?_⟩
  · rw [hstep]
    unfold InterfaceWorker.names at hnames ⊢
    rw [hnames]
  · intro hready
    rw [hop] at hready
    exact List.mem_append_left _ (hf.answered hready)
  · rw [hop]
    by_cases hdown : d.Critical ∧ d.Down
    · left
      refine ⟨.errorShutdown ("FAULT detected in critical driver: " ++ d.name), ?_, rfl⟩
      simp only [History.call, hstep, if_pos hdown]
      simp
    · rcases hf.manned with hasked | hready | hmanned
      · exact Or.inl (shutdownAsked_call _ hasked)
      · exact Or.inr (Or.inl hready)
      · simp only [Orderly, if_pos hlisted] at hok
        rcases hok with hasked | hready | hbad | ⟨hposition, hlon⟩
        · exact Or.inl (shutdownAsked_call _ hasked)
        · exact Or.inr (Or.inl hready)
        · exact absurd hbad hdown
        · right
          right
          simp only [History.call, hstep]
          exact manned_set hmanned hknown hname hdown hposition hlon

theorem added_append {h : History} {c : Call} {d : DriverInfo} (hnew : d.name ∉ h.worker.names)
    (hcall : (h.worker.call c).1.drivers = h.worker.drivers ++ [d]) :
    (h.call c).added = h.added ++ [d] := by
  have hold : h.worker.drivers.filter (fun e => h.worker.getDriverIndex e.name = none) = [] := by
    apply List.filter_eq_nil_iff.mpr
    intro e he hnone
    exact InterfaceWorker.getDriverIndex_eq_none.mp (by simpa using hnone)
      (List.mem_map_of_mem he)
  have hnone := InterfaceWorker.getDriverIndex_eq_none.mpr hnew
  simp [History.call, hcall, List.filter_append, hold, hnone]

theorem Manned.added {w : InterfaceWorker} (h : Manned w) {d : DriverInfo} (now : ℤ)
    (hup : d.state = .OPERATIONAL ∨ d.state = .DEGRADED) :
    Manned { w with
      drivers := w.drivers ++ [d]
      positionReady := w.positionReady || d.position
      lonControllerReady := w.lonControllerReady || (d.lonController && !d.position)
      startedWaiting := now } := by
  refine ⟨?_, ?_, ?_⟩
  · intro hready
    rcases Bool.or_eq_true _ _ ▸ hready with hready | hd
    · obtain ⟨e, he, hcat⟩ := h.position hready
      exact ⟨e, List.mem_append_left _ he, hcat⟩
    · exact ⟨d, by simp, hd⟩
  · intro hready
    rcases Bool.or_eq_true _ _ ▸ hready with hready | hd
    · obtain ⟨e, he, hcat⟩ := h.lonController hready
      exact ⟨e, List.mem_append_left _ he, hcat⟩
    · exact ⟨d, by simp, (Bool.and_eq_true _ _ ▸ hd).1⟩
  · intro e he hcritical hdown
    rcases List.mem_append.mp he with hold | hlast
    · exact h.up e hold hcritical hdown
    · obtain rfl := List.mem_singleton.mp hlast
      rcases hup with hup | hup
      · rcases hdown with hdown | hdown <;> simp [hup] at hdown
      · rcases hdown with hdown | hdown <;> simp [hup] at hdown

/-- A driver that is added. -/
theorem fit_added {h : History} {d : DriverInfo} {api : Option (List String)} {now : ℤ}
    {cap : List String} (hf : Fit h) (hok : Orderly h (.handleNewDriverStatus d api now))
    (hnew : d.name ∉ h.worker.names) (hapi : api = some cap)
    (hup : d.state = .OPERATIONAL ∨ d.state = .DEGRADED ∧ d.position = true)
    (hcall : h.worker.handleNewDriverStatus d api now =
      ({ h.worker with
          drivers := h.worker.drivers ++ [{ d with capabilities := api }]
          positionReady := h.worker.positionReady || d.position
          lonControllerReady := h.worker.lonControllerReady || (d.lonController && !d.position)
          startedWaiting := now }, [.bindWithDriver d.name])) :
    Fit (h.call (.handleNewDriverStatus d api now)) := by
  have hstep : h.worker.call (.handleNewDriverStatus d api now) = _ := hcall
  have hadded : (h.call (.handleNewDriverStatus d api now)).added =
      h.added ++ [{ d with capabilities := api }] := added_append hnew (by rw [hstep])
  -- the flag of the controller lags behind only for a driver that has both categories
  have hboth : d.position = true → d.lonController = true →
      h.worker.lonControllerReady = true := by
    simp only [Orderly, if_neg hnew] at hok
    exact hok (by simp [hapi]) (hup.imp_right And.left)
  have hnames : (h.call (.handleNewDriverStatus d api now)).worker.names =
      h.worker.names ++ [d.name] := by
    simp [History.call, hstep, InterfaceWorker.names]
  have hop : (h.call (.handleNewDriverStatus d api now)).worker.systemOperational =
      h.worker.systemOperational := by
    simp only [History.call, hstep]
  refine ⟨⟨?_, ?_, ?_⟩, ?_, ?_⟩
  · rw [hnames]
    refine List.nodup_append.mpr ⟨hf.flags.names, by simp, ?_⟩
    rintro name hname _ hlast rfl
    exact hnew (List.mem_singleton.mp hlast ▸ hname)
  · rw [hadded]
    simp [History.call, hstep, hf.flags.position, or_and_right, exists_or]
  · rw [hadded]
    have hlon : (h.worker.lonControllerReady || (d.lonController && !d.position)) = true ↔
        h.worker.lonControllerReady = true ∨ d.lonController = true := by
      cases hp : d.position <;> cases hl : d.lonController <;> simp
      exact hboth hp hl
    have hready : (h.call (.handleNewDriverStatus d api now)).worker.lonControllerReady =
        (h.worker.lonControllerReady || (d.lonController && !d.position)) := by
      simp only [History.call, hstep]
    rw [hready, hlon, hf.flags.lonController]
    simp [or_and_right, exists_or]
  · intro hready
    rw [hop] at hready
    exact List.mem_append_left _ (hf.answered hready)
  · rw [hop]
    refine (hf.manned.imp_left (shutdownAsked_call _)).imp_right (Or.imp_right ?_)
    intro hmanned
    simp only [History.call, hstep]
    exact hmanned.added (d := { d with capabilities := api }) now (hup.imp_right And.left)

theorem fit_bond {h : History} (hf : Fit h) (name : String) :
    Fit (h.call (.handleBrokenBond name)) := by
  obtain ⟨_, hsame | ⟨index, driver, hdriver, hdown, hcall⟩⟩ :=
    h.worker.handleBrokenBond_cases name
  · exact fit_idle hf hsame
  · have hworker : (h.call (.handleBrokenBond name)).worker =
        { h.worker with drivers := h.worker.drivers.eraseIdx index } := hcall
    refine ⟨flagsTrue_call hf.flags ?_ (by rw [hcall]) (by rw [hcall]), ?_, ?_⟩
    · rw [hcall]
      exact (List.eraseIdx_sublist _ _).map _
    · intro hready
      rw [hworker] at hready
      exact List.mem_append_left _ (hf.answered hready)
    · rw [hworker]
      refine (hf.manned.imp_left (shutdownAsked_call _)).imp_right (Or.imp_right ?_)
      intro hmanned
      -- a driver that is down is not critical, so it was not the one of its category
      have hkept : ∀ e ∈ h.worker.drivers, e.Critical → e ∈ h.worker.drivers.eraseIdx index := by
        intro e he hcritical
        apply InterfaceWorker.mem_eraseIdx_of_ne hdriver he
        rintro rfl
        exact hmanned.up e he hcritical hdown
      refine ⟨?_, ?_, ?_⟩
      · intro hready
        obtain ⟨e, he, hcat⟩ := hmanned.position hready
        exact ⟨e, hkept e he (Or.inl hcat), hcat⟩
      · intro hready
        obtain ⟨e, he, hcat⟩ := hmanned.lonController hready
        exact ⟨e, hkept e he (Or.inr hcat), hcat⟩
      · intro e he
        exact hmanned.up e (List.eraseIdx_subset he)

theorem fit_ready {h : History} (hf : Fit h) (now readyAt : ℤ) :
    Fit (h.call (.isSystemReady now readyAt)) := by
  rcases h.worker.isSystemReady_cases now readyAt with
    ⟨_, hanswer⟩ | ⟨_, _, hanswer⟩ | ⟨asked, hanswer⟩
  · apply fit_idle hf
    simp only [InterfaceWorker.call, hanswer]
  · have hcall : h.worker.call (.isSystemReady now readyAt) =
        ({ h.worker with systemOperational := true, systemReadyTime := readyAt }, []) := by
      simp only [InterfaceWorker.call, hanswer]
    refine ⟨flagsTrue_call hf.flags ?_ (by rw [hcall]) (by rw [hcall]), fun _ => ?_, ?_⟩
    · rw [hcall]
      exact List.Sublist.refl _
    · simp [History.call, InterfaceWorker.answers, hanswer]
    · right
      left
      simp only [History.call, hcall]
  · apply fit_idle hf
    simp only [InterfaceWorker.call, hanswer]

theorem fit_call {h : History} {c : Call} (hf : Fit h) (hok : Orderly h c) : Fit (h.call c) := by
  cases c with
  | setWaitTime wait => exact ⟨flagsTrue_call hf.flags (List.Sublist.refl _) rfl rfl,
      fun hop => List.mem_append_left _ (hf.answered hop),
      (hf.manned.imp_left (shutdownAsked_call _)).imp_right
        (Or.imp_right fun hm => ⟨hm.position, hm.lonController, hm.up⟩)⟩
  | handleNewDriverStatus d api now =>
    rcases h.worker.handleNewDriverStatus_cases d api now with
      hsame | ⟨index, known, hknown, hname, hcall⟩ | ⟨cap, hnew, hapi, hup, hcall⟩
    · apply fit_idle hf
      simp only [InterfaceWorker.call, hsame]
    · exact fit_replaced hf hok hknown hname hcall
    · exact fit_added hf hok hnew hapi hup hcall
  | handleBrokenBond name => exact fit_bond hf name
  | isSystemReady now readyAt => exact fit_ready hf now readyAt

theorem readyMeansManned_of_fit {h : History} (hf : Fit h) (c : Call) : ReadyMeansManned h c := by
  cases c with
  | isSystemReady now readyAt =>
    intro hfirst hready
    rcases h.worker.isSystemReady_cases now readyAt with
      ⟨hop, _⟩ | ⟨hposition, hlon, _⟩ | ⟨asked, hanswer⟩
    · exact absurd (hf.answered hop) hfirst
    · rcases hf.manned with hasked | hop | hmanned
      · exact Or.inr hasked
      · exact absurd (hf.answered hop) hfirst
      · exact Or.inl ⟨hmanned.position hposition, hmanned.lonController hlon⟩
    · rw [hanswer] at hready
      cases hready
  | _ => trivial

theorem fit_new (now : ℤ) : Fit (History.new now) := by
  refine ⟨⟨List.nodup_nil, ?_, ?_⟩, ?_, Or.inr (Or.inr ⟨?_, ?_, ?_⟩)⟩ <;>
    simp [History.new, InterfaceWorker.new]

/-- The driver that covers both categories and comes before any controller: its flag for
the controller stays unset. -/
theorem flags_lost {h : History} {d : DriverInfo} (cap : List String) (now : ℤ)
    (hnew : d.name ∉ h.worker.names)
    (hup : d.state = .OPERATIONAL ∨ d.state = .DEGRADED ∧ d.position = true)
    (hposition : d.position = true) (hlon : d.lonController = true)
    (hready : h.worker.lonControllerReady = false) :
    ¬ FlagsTrue (h.call (.handleNewDriverStatus d (some cap) now)) := by
  intro hflags
  have hcall := InterfaceWorker.handleNewDriverStatus_new cap now hnew hup
  have hadded := added_append (h := h) (d := { d with capabilities := some cap })
    (c := .handleNewDriverStatus d (some cap) now) hnew
    (by simp only [InterfaceWorker.call, hcall])
  have hset := hflags.lonController.mpr
    ⟨{ d with capabilities := some cap }, by rw [hadded]; simp, hlon⟩
  simp [History.call, InterfaceWorker.call, hcall, hready, hposition] at hset

/-! ## Runs -/

/-- In every run of orderly calls, each driver has a name of its own, the flags say
which categories were added, and the system is ready with its critical drivers. -/
theorem ready_with_critical_drivers (now : ℤ) (calls : List Call)
    (hok : EachCall History.call Orderly (.new now) calls) :
    (∀ h ∈ states History.call (.new now) calls, FlagsTrue h) ∧
      EachCall History.call ReadyMeansManned (.new now) calls :=
  ⟨fun h hh => (states_of_keeps (fun _ _ => fit_call) (fit_new now) hok h hh).flags,
    eachCall_of_keeps (I := Fit)
      (fun _ c hf hok => ⟨readyMeansManned_of_fit hf c, fit_call hf hok⟩) (fit_new now) hok⟩

/-- A run with a controller, a position driver that slows down, and a broken bond. -/
def started : List Call :=
  [.handleNewDriverStatus ⟨"srx", .OPERATIONAL, none, false, false, false, false, true, false⟩
      (some ["speed"]) 100,
    .handleNewDriverStatus ⟨"gps", .OPERATIONAL, none, false, false, true, false, false, false⟩
      (some ["fix"]) 200,
    .handleNewDriverStatus ⟨"gps", .DEGRADED, none, false, false, true, false, false, false⟩
      (some ["fix"]) 300,
    .handleBrokenBond "gps",
    .isSystemReady 10300 10301]

theorem ready_with_critical_drivers_started :
    (∀ h ∈ states History.call (.new 0) started, FlagsTrue h) ∧
      EachCall History.call ReadyMeansManned (.new 0) started :=
  ready_with_critical_drivers 0 started (by decide +kernel)

/-- A driver that covers both categories. -/
def pinpoint : DriverInfo :=
  ⟨"pinpoint", .OPERATIONAL, none, false, false, true, false, true, false⟩

/-- The position driver of this run fails, and its last status names no category. -/
def dropped : List Call :=
  [.handleNewDriverStatus ⟨"srx", .OPERATIONAL, none, false, false, false, false, true, false⟩
      (some ["speed"]) 100,
    .handleNewDriverStatus ⟨"gps", .OPERATIONAL, none, false, false, true, false, false, false⟩
      (some ["fix"]) 200,
    .handleNewDriverStatus ⟨"gps", .FAULT, none, false, false, false, false, false, false⟩ none 300,
    .handleBrokenBond "gps",
    .isSystemReady 10300 10301]

/-- A driver that covers both categories sets one flag, and a system can be ready with no
position driver and no request to shut down. -/
theorem ready_without_drivers :
    ¬ (∀ h ∈ states History.call (.new 0) [.handleNewDriverStatus pinpoint (some []) 100],
        FlagsTrue h) ∧
      ¬ EachCall History.call ReadyMeansManned (.new 0) dropped := by
  refine ⟨?_, by decide +kernel⟩
  intro h
  have hlast := h (History.call (.new 0) (.handleNewDriverStatus pinpoint (some []) 100))
    (by simp [states])
  have hset := hlast.lonController.mpr (by decide +kernel)
  exact absurd hset (by decide +kernel)

end carma.interface_manager
