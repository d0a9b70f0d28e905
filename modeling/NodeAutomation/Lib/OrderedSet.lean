import Mathlib.Data.List.Nodup
import Mathlib.Data.List.Dedup

/-! Finite sets that remember the order in which their members were added. The
members carry the proof that none is there twice. -/

namespace NodeAutomation

structure OrderedSet (α : Type*) where
  elems : List α
  nodup : elems.Nodup
  deriving DecidableEq

namespace OrderedSet

variable {α : Type*}

instance : Membership α (OrderedSet α) := ⟨fun s a => a ∈ s.elems⟩

instance : EmptyCollection (OrderedSet α) := ⟨⟨[], List.nodup_nil⟩⟩

def size (s : OrderedSet α) : Nat := s.elems.length

def first (s : OrderedSet α) : Option α := s.elems.head?

variable (s : OrderedSet α)

theorem mem_def (a : α) : a ∈ s ↔ a ∈ s.elems := Iff.rfl

@[simp] theorem not_mem_empty (b : α) : ¬ b ∈ (∅ : OrderedSet α) := List.not_mem_nil

theorem size_eq_zero_iff : s.size = 0 ↔ ∀ a, a ∉ s := by
  rw [size, List.length_eq_zero_iff, List.eq_nil_iff_forall_not_mem]
  exact Iff.rfl

theorem size_le_one_iff : s.size ≤ 1 ↔ ∀ a ∈ s, ∀ b ∈ s, a = b := by
  obtain ⟨elems, nodup⟩ := s
  simp only [size, mem_def]
  cases elems with
  | nil => simp
  | cons a rest =>
    cases rest with
    | nil => simp
    | cons b rest =>
      refine ⟨fun small => absurd small (by simp), fun same => ?_⟩
      have equal := same a List.mem_cons_self b (List.mem_cons_of_mem a List.mem_cons_self)
      rw [equal] at nodup
      exact absurd List.mem_cons_self (List.nodup_cons.1 nodup).1

theorem mem_of_first {s : OrderedSet α} {a : α} (h : s.first = some a) : a ∈ s :=
  List.mem_of_mem_head? h

theorem first_eq_none_iff : s.first = none ↔ ∀ a, a ∉ s := by
  rw [← size_eq_zero_iff, first, List.head?_eq_none_iff, size, List.length_eq_zero_iff]

theorem first_eq_some_iff {s : OrderedSet α} (single : ∀ a ∈ s, ∀ b ∈ s, a = b) (a : α) :
    s.first = some a ↔ a ∈ s := by
  refine ⟨mem_of_first, fun member => ?_⟩
  cases here : s.first with
  | none => exact absurd member ((first_eq_none_iff s).1 here a)
  | some b => rw [single b (mem_of_first here) a member]

variable [DecidableEq α]

def contains (s : OrderedSet α) (a : α) : Bool := decide (a ∈ s.elems)

instance (s : OrderedSet α) (a : α) : Decidable (a ∈ s) := inferInstanceAs (Decidable (a ∈ s.elems))

def add (s : OrderedSet α) (a : α) : OrderedSet α :=
  if h : a ∈ s.elems then s
  else ⟨s.elems ++ [a], List.nodup_append.2
    ⟨s.nodup, List.nodup_singleton a, fun b member c single same => by
      rw [List.mem_singleton.1 single] at same
      exact h (same ▸ member)⟩⟩

def delete (s : OrderedSet α) (a : α) : OrderedSet α := ⟨s.elems.filter (· ≠ a), s.nodup.filter _⟩

def ofList (members : List α) : OrderedSet α := members.foldl add ∅

def union (s t : OrderedSet α) : OrderedSet α := t.elems.foldl add (s.elems.foldl add ∅)

def intersection (s t : OrderedSet α) : OrderedSet α :=
  ⟨s.elems.filter (· ∈ t.elems), s.nodup.filter _⟩

def difference (s t : OrderedSet α) : OrderedSet α :=
  ⟨s.elems.filter (· ∉ t.elems), s.nodup.filter _⟩

@[simp] theorem contains_iff (a : α) : s.contains a = true ↔ a ∈ s := by
  rw [contains, decide_eq_true_iff, mem_def]

@[simp] theorem mem_add (a b : α) : b ∈ s.add a ↔ b ∈ s ∨ b = a := by
  rw [add]
  split
  case isTrue h =>
    refine ⟨.inl, fun member => member.elim id fun same => ?_⟩
    rw [same]
    exact h
  case isFalse => simp [mem_def]

@[simp] theorem mem_delete (a b : α) : b ∈ s.delete a ↔ b ∈ s ∧ b ≠ a := by
  simp [delete, mem_def]

theorem mem_foldl_add (members : List α) (s : OrderedSet α) (b : α) :
    b ∈ members.foldl add s ↔ b ∈ s ∨ b ∈ members := by
  induction members generalizing s with
  | nil => simp
  | cons a rest ih => rw [List.foldl_cons, ih, mem_add, List.mem_cons, or_assoc]

@[simp] theorem mem_ofList (members : List α) (b : α) : b ∈ ofList members ↔ b ∈ members := by
  simp [ofList, mem_foldl_add]

@[simp] theorem mem_union (s t : OrderedSet α) (b : α) : b ∈ s.union t ↔ b ∈ s ∨ b ∈ t := by
  rw [union, mem_foldl_add, mem_foldl_add, ← mem_def t]
  simp [not_mem_empty, ← mem_def]

@[simp] theorem mem_intersection (s t : OrderedSet α) (b : α) :
    b ∈ s.intersection t ↔ b ∈ s ∧ b ∈ t := by
  simp [intersection, mem_def]

@[simp] theorem mem_difference (s t : OrderedSet α) (b : α) :
    b ∈ s.difference t ↔ b ∈ s ∧ b ∉ t := by
  simp [difference, mem_def]

end OrderedSet

end NodeAutomation
