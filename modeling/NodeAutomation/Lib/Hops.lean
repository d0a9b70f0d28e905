import Mathlib.Tactic.TypeStar

/-! Reachability with the steps counted. -/

namespace NodeAutomation

/-- `b` is reached from `a` in exactly that many steps. -/
def Hops {α : Type*} (r : α → α → Prop) : Nat → α → α → Prop
  | 0, a, b => a = b
  | n + 1, a, b => ∃ c, Hops r n a c ∧ r c b

namespace Hops

variable {α : Type*} {r : α → α → Prop} {a b c : α} {n : Nat}

theorem head (step : r a b) (h : Hops r n b c) : Hops r (n + 1) a c := by
  induction n generalizing c with
  | zero => exact ⟨a, rfl, h ▸ step⟩
  | succ n ih =>
    obtain ⟨d, h, last⟩ := h
    exact ⟨d, ih h, last⟩

theorem swap {s : α → α → Prop} (back : ∀ x y, r x y → s y x) (h : Hops r n a b) : Hops s n b a := by
  induction n generalizing b with
  | zero => exact h.symm
  | succ n ih =>
    obtain ⟨d, h, last⟩ := h
    exact head (back d b last) (ih h)

end Hops

end NodeAutomation
