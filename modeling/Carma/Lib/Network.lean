-- Networks of nodes that send messages. A message that was sent stays in the list of
-- sent messages, so it can be delivered late, out of order, twice or never.
import Mathlib.Logic.Function.Basic

namespace lib.network

/-- The nodes, and every message that was sent. -/
structure Network (ι σ μ : Type*) where
  node : ι → σ
  sent : List μ

namespace Network

variable {ι σ μ : Type*} [DecidableEq ι]

/-- One node takes a new state and sends some messages. -/
def act (w : Network ι σ μ) (i : ι) (s : σ) (ms : List μ) : Network ι σ μ where
  node := Function.update w.node i s
  sent := w.sent ++ ms

@[simp] theorem act_node_self (w : Network ι σ μ) (i : ι) (s : σ) (ms : List μ) :
    (w.act i s ms).node i = s := Function.update_self ..

@[simp] theorem act_node_ne (w : Network ι σ μ) {i j : ι} (h : j ≠ i) (s : σ) (ms : List μ) :
    (w.act i s ms).node j = w.node j := Function.update_of_ne h ..

@[simp] theorem mem_act_sent (w : Network ι σ μ) (i : ι) (s : σ) (ms : List μ) (m : μ) :
    m ∈ (w.act i s ms).sent ↔ m ∈ w.sent ∨ m ∈ ms := List.mem_append

/-- A fact about each node by itself holds after an act when it holds of the new state. -/
theorem act_forall_node {P : ι → σ → Prop} {w : Network ι σ μ} (h : ∀ j, P j (w.node j)) {i : ι}
    {s : σ} (hs : P i s) (ms : List μ) : ∀ j, P j ((w.act i s ms).node j) := by
  intro j
  by_cases hj : j = i
  · subst hj
    rwa [act_node_self]
  · rw [act_node_ne w hj]
    exact h j

/-- A fact about each message by itself holds after an act when it holds of the new ones. -/
theorem act_forall_sent {Q : μ → Prop} {w : Network ι σ μ} (h : ∀ m ∈ w.sent, Q m) {ms : List μ}
    (hms : ∀ m ∈ ms, Q m) (i : ι) (s : σ) : ∀ m ∈ (w.act i s ms).sent, Q m := by
  intro m hm
  rcases (mem_act_sent w i s ms m).mp hm with hm | hm
  · exact h m hm
  · exact hms m hm

/-- A fact about each node and each message holds after an act when it holds of the new
state with every message, and of the other nodes with the new messages. -/
theorem act_forall_pair {R : ι → σ → μ → Prop} {w : Network ι σ μ}
    (h : ∀ j, ∀ m ∈ w.sent, R j (w.node j) m) {i : ι} {s : σ} {ms : List μ}
    (hself : ∀ m, m ∈ w.sent ∨ m ∈ ms → R i s m) (hother : ∀ j ≠ i, ∀ m ∈ ms, R j (w.node j) m) :
    ∀ j, ∀ m ∈ (w.act i s ms).sent, R j ((w.act i s ms).node j) m := by
  intro j m hm
  have hm' := (mem_act_sent w i s ms m).mp hm
  by_cases hj : j = i
  · subst hj
    rw [act_node_self]
    exact hself m hm'
  · rw [act_node_ne w hj]
    rcases hm' with hm' | hm'
    · exact h j m hm'
    · exact hother j hj m hm'

end Network

end lib.network
