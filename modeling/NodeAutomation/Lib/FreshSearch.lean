import Mathlib.Data.List.Perm.Subperm
import Mathlib.Data.List.Nodup

/-! The search `while (taken(name)) name = longer(name)`: when every step makes
the name longer and only finitely many names are taken, it ends at a free one. -/

namespace NodeAutomation.FreshSearch

variable {α β : Type*}

/-- At most `fuel` steps from `name` to a name that is not taken. -/
def skipTaken (taken : α → Bool) (longer : α → α) : (fuel : Nat) → α → α
  | 0, name => name
  | fuel + 1, name => if taken name then skipTaken taken longer fuel (longer name) else name

variable {taken taken' : α → Bool} {longer : α → α} {name : α}

theorem skipTaken_of_free (free : taken name = false) (fuel : Nat) :
    skipTaken taken longer fuel name = name := by
  cases fuel with
  | zero => rfl
  | succ fuel => rw [skipTaken, free, if_neg Bool.false_ne_true]

/-- The taken names go by `code` into a finite list; the names tried so far are
all in it, and each is shorter than the one at hand. -/
theorem skipTaken_free_from {size : α → Nat} {code : α → β} {pool : List β}
    (grows : ∀ x, size x < size (longer x)) (finite : ∀ x, taken x = true → code x ∈ pool)
    (injective : Function.Injective code) (tried : List α) (nodup : tried.Nodup)
    (shorter : ∀ x ∈ tried, taken x = true ∧ size x < size name) (fuel : Nat)
    (enough : pool.length ≤ tried.length + fuel) :
    taken (skipTaken taken longer fuel name) = false := by
  induction fuel generalizing name tried with
  | zero =>
    cases here : taken name with
    | false => exact here
    | true =>
      have fresh : name ∉ tried := fun member => Nat.lt_irrefl _ (shorter name member).2
      have all : ∀ x ∈ name :: tried, taken x = true := by
        intro x member
        cases List.mem_cons.1 member with
        | inl same => exact same ▸ here
        | inr before => exact (shorter x before).1
      have inside : ((name :: tried).map code) ⊆ pool := by
        intro y member
        obtain ⟨x, among, eq⟩ := List.mem_map.1 member
        exact eq ▸ finite x (all x among)
      have distinct : ((name :: tried).map code).Nodup :=
        (List.nodup_cons.2 ⟨fresh, nodup⟩).map injective
      have short := (List.subperm_of_subset distinct inside).length_le
      rw [List.length_map, List.length_cons] at short
      omega
  | succ fuel ih =>
    rw [skipTaken]
    cases here : taken name with
    | false => simpa only [Bool.false_eq_true, if_false] using here
    | true =>
      rw [if_pos rfl]
      refine ih (name :: tried) (List.nodup_cons.2 ⟨?_, nodup⟩) (fun x member => ?_) ?_
      · exact fun member => Nat.lt_irrefl _ (shorter name member).2
      · cases List.mem_cons.1 member with
        | inl same =>
          rw [same]
          exact ⟨here, grows name⟩
        | inr before => exact ⟨(shorter x before).1, Nat.lt_trans (shorter x before).2 (grows name)⟩
      · rw [List.length_cons]
        omega

theorem skipTaken_free (size : α → Nat) (code : α → β) (pool : List β)
    (grows : ∀ x, size x < size (longer x)) (finite : ∀ x, taken x = true → code x ∈ pool)
    (injective : Function.Injective code) {fuel : Nat} (enough : pool.length ≤ fuel) :
    taken (skipTaken taken longer fuel name) = false :=
  skipTaken_free_from grows finite injective [] List.nodup_nil (fun _ member => nomatch member)
    fuel (by rwa [List.length_nil, Nat.zero_add])

theorem skipTaken_keeps {P : α → Prop} (keeps : ∀ x, P x → P (longer x)) (initial : P name)
    (fuel : Nat) : P (skipTaken taken longer fuel name) := by
  induction fuel generalizing name with
  | zero => exact initial
  | succ fuel ih =>
    rw [skipTaken]
    split
    · exact ih (keeps name initial)
    · exact initial

theorem skipTaken_congr {P : α → Prop} (keeps : ∀ x, P x → P (longer x)) (initial : P name)
    (agree : ∀ x, P x → taken x = taken' x) {fuel fuel' : Nat}
    (free : taken (skipTaken taken longer fuel name) = false)
    (free' : taken' (skipTaken taken' longer fuel' name) = false) :
    skipTaken taken longer fuel name = skipTaken taken' longer fuel' name := by
  induction fuel generalizing name fuel' with
  | zero =>
    have here : taken' name = false := agree name initial ▸ free
    rw [skipTaken_of_free here]
    rfl
  | succ fuel ih =>
    cases here : taken name with
    | false => rw [skipTaken_of_free here, skipTaken_of_free (agree name initial ▸ here)]
    | true =>
      have here' : taken' name = true := agree name initial ▸ here
      cases fuel' with
      | zero =>
        rw [skipTaken, here'] at free'
        cases free'
      | succ fuel' =>
        rw [skipTaken, here, if_pos rfl] at free
        rw [skipTaken, here', if_pos rfl] at free'
        rw [skipTaken, here, if_pos rfl, skipTaken, here', if_pos rfl]
        exact ih (keeps name initial) free free'

end NodeAutomation.FreshSearch
