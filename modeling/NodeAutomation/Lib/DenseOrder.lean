import Mathlib.Data.Rat.Cast.Order
import Mathlib.Algebra.Order.Ring.Rat
import Mathlib.Data.List.NodupEquivFin
import Mathlib.Tactic.Linarith

/-! Lists of positions that are `0 .. n-1`, in any order, and what opening and closing a gap
does to them. -/

namespace NodeAutomation

def Dense (positions : List ℚ) : Prop :=
  positions.Perm ((List.range positions.length).map fun k : Nat => (k : ℚ))

namespace Dense

/-- Whoever is at the threshold or behind it moves by `delta`. -/
def shift (threshold delta position : ℚ) : ℚ := if threshold ≤ position then position + delta else position

theorem nodup {positions : List ℚ} (h : Dense positions) : positions.Nodup :=
  h.nodup_iff.2 ((List.nodup_range).map Nat.cast_injective)

theorem mem_iff {positions : List ℚ} (h : Dense positions) (x : ℚ) :
    x ∈ positions ↔ ∃ k < positions.length, x = (k : Nat) := by
  rw [List.Perm.mem_iff h, List.mem_map]
  simp only [List.mem_range, eq_comm]

theorem of_nodup {positions : List ℚ} (nodup : positions.Nodup)
    (within : ∀ x ∈ positions, ∃ k < positions.length, x = (k : Nat)) : Dense positions := by
  refine (List.subperm_of_subset nodup fun x member => ?_).perm_of_length_le ?_
  · obtain ⟨k, below, rfl⟩ := within x member
    exact List.mem_map.2 ⟨k, List.mem_range.2 below, rfl⟩
  · rw [List.length_map, List.length_range]

theorem perm {positions others : List ℚ} (h : Dense positions) (same : positions.Perm others) : Dense others := by
  unfold Dense
  rw [← same.length_eq]
  exact same.symm.trans h

theorem shift_injective (threshold : ℚ) : Function.Injective (shift threshold 1) := by
  intro x y equal
  unfold shift at equal
  split at equal <;> split at equal <;> linarith

theorem shift_eq_iff (gap other position : ℚ) :
    shift gap (-1) position = shift other (-1) position ↔ (gap ≤ position ↔ other ≤ position) := by
  unfold shift
  by_cases behind : gap ≤ position <;> by_cases behind' : other ≤ position <;> simp [behind, behind']

theorem shift_open (gap k : Nat) : shift gap 1 k = ((if gap ≤ k then k + 1 else k : Nat) : ℚ) := by
  unfold shift
  by_cases behind : gap ≤ k
  · rw [if_pos (Nat.cast_le.2 behind), if_pos behind, Nat.cast_add, Nat.cast_one]
  · rw [if_neg fun le => behind (Nat.cast_le.1 le), if_neg behind]

theorem shift_close {gap k : Nat} (other : k ≠ gap) :
    shift gap (-1) k = ((if gap ≤ k then k - 1 else k : Nat) : ℚ) := by
  unfold shift
  by_cases behind : gap ≤ k
  · rw [if_pos (Nat.cast_le.2 behind), if_pos behind, Nat.cast_sub (by omega), Nat.cast_one, sub_eq_add_neg]
  · rw [if_neg fun le => behind (Nat.cast_le.1 le), if_neg behind]

theorem of_map {others : List ℚ} {f : ℚ → ℚ} (nodup : others.Nodup)
    (single : ∀ x ∈ others, ∀ y ∈ others, f x = f y → x = y)
    (within : ∀ x ∈ others, ∃ k < others.length, f x = (k : Nat)) : Dense (others.map f) := by
  refine of_nodup (List.Nodup.map_on single nodup) fun y member => ?_
  obtain ⟨x, here, rfl⟩ := List.mem_map.1 member
  rw [List.length_map]
  exact within x here

theorem close {gap : ℚ} {others : List ℚ} (h : Dense (gap :: others)) : Dense (others.map (shift gap (-1))) := by
  obtain ⟨apart, nodup⟩ := List.nodup_cons.1 h.nodup
  obtain ⟨g, _, rfl⟩ := (h.mem_iff gap).1 List.mem_cons_self
  have natural : ∀ x ∈ others, ∃ k, k < others.length + 1 ∧ k ≠ g ∧ x = (k : Nat) := by
    intro x member
    obtain ⟨k, below, rfl⟩ := (h.mem_iff x).1 (List.mem_cons_of_mem _ member)
    exact ⟨k, below, fun same => apart (same ▸ member), rfl⟩
  have bound : g < others.length + 1 := by
    obtain ⟨k, below, same⟩ := (h.mem_iff g).1 List.mem_cons_self
    rwa [Nat.cast_injective same]
  refine of_map nodup (fun x member y member' equal => ?_) fun x member => ?_
  · obtain ⟨j, _, other, rfl⟩ := natural x member
    obtain ⟨k, _, other', rfl⟩ := natural y member'
    rw [shift_close other, shift_close other'] at equal
    have equal := Nat.cast_injective equal
    have same : j = k := by split at equal <;> split at equal <;> omega
    rw [same]
  · obtain ⟨k, below, other, rfl⟩ := natural x member
    rw [shift_close other]
    exact ⟨_, by split <;> omega, rfl⟩

theorem insert {others : List ℚ} (h : Dense others) (gap : Nat) (within : gap ≤ others.length) :
    Dense ((gap : ℚ) :: others.map (shift gap 1)) := by
  have moved : ∀ y ∈ others.map (shift gap 1), ∃ k < others.length + 1, k ≠ gap ∧ y = (k : Nat) := by
    intro y member
    obtain ⟨x, here, rfl⟩ := List.mem_map.1 member
    obtain ⟨k, below, rfl⟩ := (h.mem_iff x).1 here
    rw [shift_open]
    exact ⟨_, by split <;> omega, by split <;> omega, rfl⟩
  refine of_nodup (List.nodup_cons.2 ⟨fun member => ?_, ?_⟩) fun x member => ?_
  · obtain ⟨k, _, other, same⟩ := moved _ member
    exact other (Nat.cast_injective same).symm
  · refine List.Nodup.map_on (fun x member y member' equal => ?_) h.nodup
    obtain ⟨j, _, rfl⟩ := (h.mem_iff x).1 member
    obtain ⟨k, _, rfl⟩ := (h.mem_iff y).1 member'
    rw [shift_open, shift_open] at equal
    have equal := Nat.cast_injective equal
    have same : j = k := by split at equal <;> split at equal <;> omega
    rw [same]
  · rw [List.length_cons, List.length_map]
    cases List.mem_cons.1 member with
    | inl here => exact ⟨gap, by omega, here⟩
    | inr later =>
      obtain ⟨k, below, _, same⟩ := moved x later
      exact ⟨k, below, same⟩

theorem append {others : List ℚ} (h : Dense others) : Dense ((others.length : ℚ) :: others) := by
  have opened := h.insert others.length (Nat.le_refl _)
  have still : others.map (shift others.length 1) = others := by
    refine (List.map_congr_left fun x member => ?_).trans (List.map_id others)
    obtain ⟨k, below, rfl⟩ := (h.mem_iff x).1 member
    rw [shift_open, if_neg (Nat.not_le.2 below)]
    rfl
  rwa [still] at opened

end Dense

end NodeAutomation
