import Mathlib.Data.List.Sort

/-! Sorting is stable, so picking some elements and sorting go in either order. -/

namespace NodeAutomation.StableSort

variable {α : Type*} {r s : α → α → Prop} [DecidableRel r] [DecidableRel s]

theorem orderedInsert_of_forall {a : α} {xs : List α} (before : ∀ b ∈ xs, r a b) :
    xs.orderedInsert r a = a :: xs := by
  cases xs with
  | nil => rfl
  | cons b xs => exact List.orderedInsert_cons_of_le r xs (before b List.mem_cons_self)

theorem filter_orderedInsert [IsTrans α r] (p : α → Bool) (a : α) {xs : List α} (sorted : xs.Pairwise r) :
    (xs.orderedInsert r a).filter p =
      if p a then (xs.filter p).orderedInsert r a else xs.filter p := by
  induction xs with
  | nil =>
    rw [List.orderedInsert_nil, List.filter_singleton]
    split <;> simp_all
  | cons b xs ih =>
    obtain ⟨least, rest⟩ := List.pairwise_cons.1 sorted
    rw [List.orderedInsert_cons]
    split
    case isTrue before =>
      have all : ∀ c ∈ (b :: xs).filter p, r a c := by
        intro c member
        cases List.mem_cons.1 (List.mem_filter.1 member).1 with
        | inl same => exact same ▸ before
        | inr later => exact IsTrans.trans _ _ _ before (least c later)
      rw [orderedInsert_of_forall all, List.filter_cons]
    case isFalse behind =>
      rw [List.filter_cons, ih rest, List.filter_cons]
      by_cases pb : p b = true
      · rw [if_pos pb, if_pos pb]
        split
        case isTrue => rw [List.orderedInsert_of_not_le r _ behind]
        case isFalse => rfl
      · rw [if_neg pb, if_neg pb]

theorem filter_insertionSort [Std.Total r] [IsTrans α r] (p : α → Bool) (xs : List α) :
    (xs.insertionSort r).filter p = (xs.filter p).insertionSort r := by
  induction xs with
  | nil => rfl
  | cons a xs ih =>
    rw [List.insertionSort_cons, filter_orderedInsert p a (List.pairwise_insertionSort r xs), ih, List.filter_cons]
    split <;> rfl

theorem insertionSort_congr {xs : List α} (same : ∀ a ∈ xs, ∀ b ∈ xs, r a b ↔ s a b) :
    xs.insertionSort r = xs.insertionSort s := by
  induction xs with
  | nil => rfl
  | cons a xs ih =>
    rw [List.insertionSort_cons, List.insertionSort_cons,
      ih fun b there c member => same b (List.mem_cons_of_mem a there) c (List.mem_cons_of_mem a member)]
    have agrees : ∀ b ∈ xs.insertionSort s, r a b ↔ s a b := fun b member =>
      same a List.mem_cons_self b (List.mem_cons_of_mem a ((List.perm_insertionSort s xs).mem_iff.1 member))
    generalize xs.insertionSort s = sorted at agrees
    induction sorted with
    | nil => rfl
    | cons b sorted ih' =>
      rw [List.orderedInsert_cons, List.orderedInsert_cons,
        ih' fun c member => agrees c (List.mem_cons_of_mem b member)]
      by_cases before : r a b
      · rw [if_pos before, if_pos ((agrees b List.mem_cons_self).1 before)]
      · rw [if_neg before, if_neg fun h => before ((agrees b List.mem_cons_self).2 h)]

end NodeAutomation.StableSort
