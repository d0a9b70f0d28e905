import Mathlib.Data.List.Perm.Basic
import Mathlib.Order.Basic

/-! A list is thinned from its end: an element goes when it merges into the next
element that stays. -/

namespace NodeAutomation.NeighbourMerge

variable {α : Type*} (merges : α → α → Bool)

/-- An element before the elements that stay behind it. -/
def thinnedBy (x : α) : List α × List α → List α × List α
  | ([], removed) => ([x], removed)
  | (y :: later, removed) =>
    if merges x y then (y :: later, removed ++ [x]) else (x :: y :: later, removed)

/-- The elements that stay, in their order, and those that go, the last one first. -/
def thin : List α → List α × List α
  | [] => ([], [])
  | x :: xs => thinnedBy merges x (thin xs)

/-- What holds whenever an element goes, of it, of the element it merges into and of
those that stay after that one. -/
def WheneverMerged (C : α → α → List α → Prop) : List α → Prop
  | [] => True
  | x :: xs => WheneverMerged C xs ∧
      ∀ y later, (thin merges xs).1 = y :: later → merges x y = true → C x y later

variable {merges} {x : α} {xs : List α}

variable (merges) in
theorem thin_cons_cases (x : α) (xs : List α) :
    (thin merges xs).1 = [] ∧ thin merges (x :: xs) = ([x], (thin merges xs).2) ∨
    ∃ y later, (thin merges xs).1 = y :: later ∧
      (merges x y = true ∧ thin merges (x :: xs) = (y :: later, (thin merges xs).2 ++ [x]) ∨
        merges x y = false ∧ thin merges (x :: xs) = (x :: y :: later, (thin merges xs).2)) := by
  rw [thin]
  cases thinned : thin merges xs with
  | mk remaining removed =>
    cases remaining with
    | nil => exact .inl ⟨rfl, rfl⟩
    | cons y later =>
      refine .inr ⟨y, later, rfl, ?_⟩
      cases merged : merges x y with
      | true => exact .inl ⟨rfl, by simp [thinnedBy, merged]⟩
      | false => exact .inr ⟨rfl, by simp [thinnedBy, merged]⟩

theorem thin_perm (xs : List α) : ((thin merges xs).1 ++ (thin merges xs).2).Perm xs := by
  induction xs with
  | nil => exact .refl _
  | cons x xs ih =>
    cases thin_cons_cases merges x xs with
    | inl alone =>
      rw [alone.1, List.nil_append] at ih
      rw [alone.2]
      exact ih.cons x
    | inr next =>
      obtain ⟨y, later, stays, cases⟩ := next
      rw [stays] at ih
      cases cases with
      | inl merged =>
        rw [merged.2, ← List.append_assoc]
        exact (List.perm_append_singleton x _).trans (ih.cons x)
      | inr apart =>
        rw [apart.2]
        exact ih.cons x

theorem thin_sublist (xs : List α) : (thin merges xs).1.Sublist xs := by
  induction xs with
  | nil => exact .slnil
  | cons x xs ih =>
    cases thin_cons_cases merges x xs with
    | inl alone =>
      rw [alone.2]
      exact List.singleton_sublist.2 List.mem_cons_self
    | inr next =>
      obtain ⟨y, later, stays, cases⟩ := next
      rw [stays] at ih
      cases cases with
      | inl merged => rw [merged.2]; exact ih.cons x
      | inr apart => rw [apart.2]; exact ih.cons_cons x

theorem thin_getLast? (xs : List α) : (thin merges xs).1.getLast? = xs.getLast? := by
  induction xs with
  | nil => rfl
  | cons x xs ih =>
    cases thin_cons_cases merges x xs with
    | inl alone =>
      rw [alone.1] at ih
      have empty : xs = [] := List.getLast?_eq_none_iff.1 ih.symm
      rw [alone.2, empty]
    | inr next =>
      obtain ⟨y, later, stays, cases⟩ := next
      rw [stays] at ih
      have last : (x :: xs).getLast? = (y :: later).getLast? := by
        rw [ih]
        cases xs with
        | nil => cases ih
        | cons z zs => rfl
      cases cases with
      | inl merged => rw [merged.2, last]
      | inr apart => rw [apart.2, last]; rfl

/-- In an ascending list, every element that goes is kept by one that stays behind
it just when this holds at each merge. -/
theorem removed_iff [Preorder α] {Keeps : α → α → Prop} (ascending : xs.Pairwise (· < ·)) :
    (∀ x ∈ (thin merges xs).2, ∃ y ∈ (thin merges xs).1, x < y ∧ Keeps x y) ↔
      WheneverMerged merges (fun x y later => ∃ z ∈ y :: later, Keeps x z) xs := by
  induction xs with
  | nil => exact ⟨fun _ => trivial, fun _ _ member => nomatch member⟩
  | cons x xs ih =>
    obtain ⟨before, ascending⟩ := List.pairwise_cons.1 ascending
    have ih := ih ascending
    have among {z : α} (member : z ∈ (thin merges xs).1) : z ∈ xs := (thin_sublist xs).mem member
    have gone {z : α} (member : z ∈ (thin merges xs).2) : z ∈ xs :=
      (thin_perm xs).subset (List.mem_append_right _ member)
    have notBefore {z : α} (member : z ∈ xs) : ¬ z < x := fun less => lt_asymm less (before z member)
    rw [WheneverMerged, ← ih]
    cases thin_cons_cases merges x xs with
    | inl alone =>
      rw [alone.2, alone.1]
      refine ⟨fun kept => ⟨fun z member => ?_, fun y later stays => (nomatch stays)⟩, fun kept z member => ?_⟩
      · obtain ⟨y, single, less, _⟩ := kept z member
        rw [List.mem_singleton.1 single] at less
        exact absurd less (notBefore (gone member))
      · obtain ⟨y, inEmpty, _⟩ := kept.1 z member
        cases inEmpty
    | inr next =>
      obtain ⟨y, later, stays, cases⟩ := next
      cases cases with
      | inl merged =>
        rw [merged.2, stays]
        refine ⟨fun kept => ⟨fun z member => kept z (List.mem_append_left _ member),
          fun y' later' same _ => ?_⟩, fun kept z member => ?_⟩
        · obtain ⟨z, staying, _, keeps⟩ := kept x (List.mem_append_right _ List.mem_cons_self)
          rw [← same]
          exact ⟨z, staying, keeps⟩
        · cases List.mem_append.1 member with
          | inl member => exact kept.1 z member
          | inr single =>
            rw [List.mem_singleton.1 single]
            obtain ⟨u, staying, keeps⟩ := kept.2 y later rfl merged.1
            exact ⟨u, staying, before u (among (stays ▸ staying)), keeps⟩
      | inr apart =>
        rw [apart.2, stays]
        refine ⟨fun kept => ⟨fun z member => ?_, fun y' later' same merged => ?_⟩,
          fun kept z member => ?_⟩
        · obtain ⟨u, staying, less, keeps⟩ := kept z member
          cases List.mem_cons.1 staying with
          | inl same =>
            rw [same] at less
            exact absurd less (notBefore (gone member))
          | inr staying => exact ⟨u, staying, less, keeps⟩
        · simp [← (List.cons.inj same).1, apart.1] at merged
        · obtain ⟨u, staying, less, keeps⟩ := kept.1 z member
          exact ⟨u, List.mem_cons_of_mem x staying, less, keeps⟩

theorem WheneverMerged.mono {C D : α → α → List α → Prop}
    (implies : ∀ x y later, merges x y = true → C x y later → D x y later)
    (held : WheneverMerged merges C xs) : WheneverMerged merges D xs := by
  induction xs with
  | nil => trivial
  | cons x xs ih =>
    exact ⟨ih held.1, fun y later stays merged => implies x y later merged (held.2 y later stays merged)⟩

end NodeAutomation.NeighbourMerge
