-- Ids from a counter of fixed width that wraps: the ids that calls in a row
-- get, and when these are new among the ids in use.
import Mathlib.Algebra.Group.Nat.Defs
import Mathlib.Data.List.Nodup
import Mathlib.Tactic.Common

namespace lib.wrapping_ids

variable {w : ℕ}

/-- The ids of `n` calls in a row, the first of them with `last` in the counter. -/
def handedOut (last : BitVec w) (n : ℕ) : List ℕ :=
  (List.range n).map (fun k => (last + BitVec.ofNat w k).toNat)

@[simp] theorem handedOut_zero (last : BitVec w) : handedOut last 0 = [] := rfl

theorem handedOut_succ (last : BitVec w) (n : ℕ) :
    handedOut last (n + 1) = last.toNat :: handedOut (last + 1) n := by
  unfold handedOut
  rw [List.range_succ_eq_map, List.map_cons, List.map_map]
  congr 1
  · exact congrArg BitVec.toNat (BitVec.add_zero last)
  apply List.map_congr_left
  intro k _
  have : BitVec.ofNat w (k + 1) = 1 + BitVec.ofNat w k := by
    rw [Nat.add_comm, BitVec.ofNat_add]
    rfl
  show (last + BitVec.ofNat w (k + 1)).toNat = _
  rw [this, BitVec.add_assoc]

theorem mem_handedOut {last : BitVec w} {n x : ℕ} :
    x ∈ handedOut last n ↔ ∃ k < n, (last + BitVec.ofNat w k).toNat = x := by
  simp [handedOut]

/-- Two calls that are less than a turn of the counter apart get two ids. -/
theorem handed_ne {last : BitVec w} {j k : ℕ} (hjk : j < k) (hk : k - j < 2 ^ w) :
    (last + BitVec.ofNat w j).toNat ≠ (last + BitVec.ofNat w k).toNat := by
  rw [BitVec.toNat_add, BitVec.toNat_add, BitVec.toNat_ofNat, BitVec.toNat_ofNat]
  intro h
  rw [Nat.add_mod_mod, Nat.add_mod_mod] at h
  have hturns := Nat.dvd_of_mod_eq_zero (Nat.sub_mod_eq_zero_of_mod_eq h.symm)
  have hle := Nat.le_of_dvd (by omega) hturns
  omega

/-- The ids of calls in a row differ as long as the counter does not get round. -/
theorem handedOut_nodup_iff (last : BitVec w) (n : ℕ) : (handedOut last n).Nodup ↔ n ≤ 2 ^ w := by
  constructor
  · intro hnodup
    by_contra hn
    have hlength : (handedOut last n).length = n := by simp [handedOut]
    have hturn : 2 ^ w < (handedOut last n).length := by omega
    have hzero : 0 < (handedOut last n).length := Nat.zero_lt_of_lt hturn
    have hsame : (handedOut last n)[0] = (handedOut last n)[2 ^ w] := by
      simp [handedOut]
    have := (List.Nodup.getElem_inj_iff hnodup).mp hsame
    have := Nat.two_pow_pos w
    omega
  · intro hn
    unfold handedOut
    rw [List.nodup_iff_pairwise_ne, List.pairwise_map]
    refine List.pairwise_lt_range.imp_of_mem ?_
    intro j k _ hk hjk
    rw [List.mem_range] at hk
    exact handed_ne hjk (by omega)

/-- The next `n` ids differ among each other, and none of them is in use. -/
def Fresh (last : BitVec w) (n : ℕ) (held : List ℕ) : Prop :=
  n ≤ 2 ^ w ∧ ∀ k < n, (last + BitVec.ofNat w k).toNat ∉ held

instance (last : BitVec w) (n : ℕ) (held : List ℕ) : Decidable (Fresh last n held) :=
  inferInstanceAs (Decidable (_ ∧ _))

/-- The id of the call that comes after `b` others. -/
def idAt (first : BitVec w) (b : ℕ) : ℕ := (first + BitVec.ofNat w b).toNat

/-- The counter after some calls hands out the ids of the calls that come after them. -/
theorem handedOut_after (first : BitVec w) (started n : ℕ) :
    handedOut (first + BitVec.ofNat w started) n = (List.range' started n).map (idAt first) := by
  unfold handedOut
  rw [List.range'_eq_map_range, List.map_map]
  apply List.map_congr_left
  intro k _
  show (first + BitVec.ofNat w started + BitVec.ofNat w k).toNat = _
  rw [BitVec.add_assoc, ← BitVec.ofNat_add]
  rfl

/-- The next `n` ids are fresh where the calls that are remembered are all among the last
turn of the counter. -/
theorem fresh_of_recent (first : BitVec w) {started n : ℕ} {born : List ℕ} (hn : n ≤ 2 ^ w)
    (hborn : ∀ b ∈ born, b < started ∧ started + n ≤ b + 2 ^ w) :
    Fresh (first + BitVec.ofNat w started) n (born.map (idAt first)) := by
  refine ⟨hn, ?_⟩
  intro k hk hmem
  obtain ⟨b, hb, hsame⟩ := List.mem_map.mp hmem
  obtain ⟨hbefore, hrecent⟩ := hborn b hb
  rw [BitVec.add_assoc, ← BitVec.ofNat_add] at hsame
  exact handed_ne (by omega : b < started + k) (by omega) hsame

/-- With the next `n` ids, ids that were apart stay apart just when those are fresh. -/
theorem append_handedOut_nodup_iff (last : BitVec w) (n : ℕ) (held : List ℕ) :
    (held ++ handedOut last n).Nodup ↔ held.Nodup ∧ Fresh last n held := by
  rw [List.nodup_append, handedOut_nodup_iff]
  constructor
  · rintro ⟨hheld, hn, hnew⟩
    refine ⟨hheld, hn, ?_⟩
    intro k hk hmem
    exact hnew _ hmem _ (mem_handedOut.mpr ⟨k, hk, rfl⟩) rfl
  · rintro ⟨hheld, hn, hnew⟩
    refine ⟨hheld, hn, ?_⟩
    rintro a ha b hb rfl
    obtain ⟨k, hk, rfl⟩ := mem_handedOut.mp hb
    exact hnew k hk ha

/-- The same for new ids in the middle of a list. -/
theorem insert_handedOut_nodup_iff (last : BitVec w) (n : ℕ) (before kept after : List ℕ) :
    (before ++ (kept ++ handedOut last n) ++ after).Nodup ↔
      (before ++ kept ++ after).Nodup ∧ Fresh last n (before ++ kept ++ after) := by
  rw [← append_handedOut_nodup_iff]
  apply List.Perm.nodup_iff
  rw [List.append_assoc, List.append_assoc, List.append_assoc, List.append_assoc]
  have hswap : (handedOut last n ++ after).Perm (after ++ handedOut last n) := List.perm_append_comm
  exact (hswap.append_left kept).append_left before

end lib.wrapping_ids
