import Mathlib.Data.List.Basic
import Mathlib.Data.List.Lemmas
import Mathlib.Data.List.Perm.Basic
import Mathlib.Data.List.Range

/-! Lists of numbered objects: what stands at which place after an object was added,
replaced or taken out. -/

namespace NodeAutomation.Places

open scoped List

variable {α : Type*} {l : List α} {p : α → Bool} {i j : Nat} {a b : α}

theorem getElem?_append_of_some (here : l[i]? = some a) (more : List α) : (l ++ more)[i]? = some a := by
  rw [List.getElem?_append_left (List.getElem?_eq_some_iff.1 here).1]
  exact here

theorem getElem?_concat (here : (l ++ [a])[i]? = some b) : l[i]? = some b ∨ i = l.length ∧ b = a := by
  cases Nat.lt_or_ge i l.length with
  | inl old => exact .inl ((List.getElem?_append_left old).symm.trans here)
  | inr new =>
    rw [List.getElem?_append_right new, List.getElem?_singleton] at here
    split at here
    case isTrue same => exact .inr ⟨by omega, (Option.some.inj here).symm⟩
    case isFalse => exact absurd here (by simp)

theorem getElem?_modify_eq_some {f : α → α} (here : (l.modify i f)[j]? = some b) :
    ∃ a, l[j]? = some a ∧ b = if i = j then f a else a := by
  rw [List.getElem?_modify] at here
  cases there : l[j]? with
  | none => exact absurd here (by simp [there])
  | some a =>
    rw [there] at here
    refine ⟨a, rfl, ?_⟩
    split at here <;> simp_all

theorem mem_modify {f : α → α} (member : b ∈ l.modify i f) :
    b ∈ l ∨ ∃ a, l[i]? = some a ∧ b = f a := by
  obtain ⟨j, here⟩ := List.mem_iff_getElem?.1 member
  obtain ⟨a, there, same⟩ := getElem?_modify_eq_some here
  split at same
  case isTrue at_ => exact .inr ⟨a, at_ ▸ there, same⟩
  case isFalse => exact .inl (same ▸ List.mem_of_getElem? there)

theorem any_set_of_eq (p : α → Bool) (here : l[i]? = some a) (same : p a = p b) :
    (l.set i b).any p = l.any p := by
  induction l generalizing i with
  | nil => rfl
  | cons c rest ih =>
    cases i with
    | zero =>
      have first : c = a := Option.some.inj here
      rw [List.set_cons_zero, List.any_cons, List.any_cons, first, same]
    | succ i => rw [List.set_cons_succ, List.any_cons, List.any_cons, ih here]

theorem perm_of_find? (found : l.find? p = some a) : l.Perm (a :: l.eraseP p) := by
  induction l with
  | nil => exact absurd found (by simp)
  | cons b rest ih =>
    cases here : p b with
    | true =>
      rw [List.find?_cons_of_pos here] at found
      rw [List.eraseP_cons_of_pos here, Option.some.inj found]
    | false =>
      rw [List.find?_cons_of_neg (by simp [here])] at found
      rw [List.eraseP_cons_of_neg (by simp [here])]
      exact ((ih found).cons b).trans (List.Perm.swap a b _)

theorem perm_eraseIdx (here : l[i]? = some a) : l.Perm (a :: l.eraseIdx i) := by
  obtain ⟨inside, same⟩ := List.getElem?_eq_some_iff.1 here
  rw [← same]
  exact (List.getElem_cons_eraseIdx_perm inside).symm

theorem perm_flatMap_modify {β : Type*} {f : α → α} (g : α → List β) (here : l[i]? = some a) :
    ((l.modify i f).flatMap g ++ g a).Perm (l.flatMap g ++ g (f a)) := by
  induction l generalizing i with
  | nil => cases here
  | cons b rest ih =>
    cases i with
    | zero =>
      cases here
      rw [List.modify_zero_cons, List.flatMap_cons, List.flatMap_cons, List.append_assoc, List.append_assoc]
      calc g (f a) ++ (rest.flatMap g ++ g a)
        _ ~ rest.flatMap g ++ (g (f a) ++ g a) := List.perm_append_comm_assoc _ _ _
        _ ~ rest.flatMap g ++ (g a ++ g (f a)) := List.perm_append_comm.append_left _
        _ ~ g a ++ (rest.flatMap g ++ g (f a)) := List.perm_append_comm_assoc _ _ _
    | succ i =>
      rw [List.modify_succ_cons, List.flatMap_cons, List.flatMap_cons, List.append_assoc, List.append_assoc]
      exact (ih here).append_left (g b)

theorem countP_take_pos (here : l[i]? = some a) (holds : p a = true) (before : i < j) :
    0 < (l.take j).countP p :=
  List.countP_pos_iff.2 ⟨a, List.mem_of_getElem? (by rw [List.getElem?_take_of_lt before, here]), holds⟩

theorem eq_of_countP_le_one (few : l.countP p ≤ 1) (atI : l[i]? = some a) (atJ : l[j]? = some b)
    (holdsA : p a = true) (holdsB : p b = true) : i = j := by
  have apart {i j : Nat} {a b : α} (atI : l[i]? = some a) (atJ : l[j]? = some b)
      (holdsA : p a = true) (holdsB : p b = true) : ¬ i < j := by
    intro before
    have first := countP_take_pos atI holdsA before
    have second : 0 < (l.drop j).countP p :=
      List.countP_pos_iff.2 ⟨b, List.mem_of_getElem? (i := 0) (by rw [List.getElem?_drop]; exact atJ),
        holdsB⟩
    rw [← List.take_append_drop j l, List.countP_append] at few
    omega
  have notBefore := apart atI atJ holdsA holdsB
  have notAfter := apart atJ atI holdsB holdsA
  omega

theorem range_eq_append_cons_iff {n index : Nat} {before after : List Nat} :
    List.range n = before ++ index :: after ↔
      index < n ∧ before = List.range index ∧ after = List.range' (index + 1) (n - (index + 1)) := by
  simp only [List.range_eq_range', List.range'_eq_append_iff, eq_comm (a := index :: after),
    List.range'_eq_cons_iff]
  constructor
  · rintro ⟨k, -, same, here, inside, rest⟩
    have eq : k = index := by omega
    subst eq
    exact ⟨by omega, same, by rw [rest, Nat.sub_sub]⟩
  · rintro ⟨inside, same, rest⟩
    exact ⟨index, by omega, same, by omega, by omega, by rw [rest, Nat.sub_sub]⟩

end NodeAutomation.Places
