import Mathlib.Logic.Function.Basic

/-! Two partial maps that are inverse to each other: from keys to the handles stored under
them, and from handles to the keys they were made for. -/

namespace NodeAutomation.Pairing

variable {α β : Type*} {f : α → Option β} {g : β → Option α} {a : α} {b : β}

def Paired (f : α → Option β) (g : β → Option α) : Prop := ∀ a b, f a = some b ↔ g b = some a

namespace Paired

theorem none_of_none (h : Paired f g) (none : ∀ a, f a = none) (b : β) : g b = .none := by
  cases there : g b with
  | none => rfl
  | some a => exact nomatch (none a).symm.trans ((h a b).2 there)

variable [DecidableEq α] [DecidableEq β]

theorem add (h : Paired f g) (newKey : f a = none) (newHandle : g b = none) :
    Paired (Function.update f a (some b)) (Function.update g b (some a)) := by
  intro a' b'
  cases eq_or_ne a' a with
  | inl same =>
    cases eq_or_ne b' b with
    | inl same' => simp [same, same']
    | inr other' =>
      have apart : g b' ≠ some a := fun there => nomatch newKey.symm.trans ((h a b').2 there)
      simp [same, other', apart, other'.symm]
  | inr other =>
    cases eq_or_ne b' b with
    | inl same' =>
      have apart : f a' ≠ some b := fun there => nomatch newHandle.symm.trans ((h a' b).1 there)
      simp [other, same', apart, other.symm]
    | inr other' => simp [other, other', h a' b']

theorem remove (h : Paired f g) (pair : f a = some b) :
    Paired (Function.update f a none) (Function.update g b none) := by
  intro a' b'
  cases eq_or_ne a' a with
  | inl same =>
    cases eq_or_ne b' b with
    | inl same' => simp [same, same']
    | inr other' =>
      have apart : g b' ≠ some a := fun there =>
        other' (Option.some.inj (((h a b').2 there).symm.trans pair))
      simp [same, other', apart]
  | inr other =>
    cases eq_or_ne b' b with
    | inl same' =>
      have apart : f a' ≠ some b := fun there =>
        other (Option.some.inj (((h a' b).1 there).symm.trans ((h a b).1 pair)))
      simp [other, same', apart]
    | inr other' => simp [other, other', h a' b']

end Paired

end NodeAutomation.Pairing
