import Mathlib.Data.Nat.Basic

/-! Loops that may not end. A pass of the body leads to another one or out of the loop. -/

namespace NodeAutomation.Loops

variable {σ τ : Type*}

def loop (body : σ → σ ⊕ τ) : (passes : Nat) → σ → Option τ
  | 0, _ => none
  | passes + 1, state =>
    match body state with
    | .inl next => loop body passes next
    | .inr result => some result

def Ends (body : σ → σ ⊕ τ) (state : σ) (result : τ) : Prop := ∃ passes, loop body passes state = some result

variable {body : σ → σ ⊕ τ} {state next : σ} {result other : τ}

theorem ends_of_inl (step : body state = .inl next) : Ends body state result ↔ Ends body next result := by
  constructor
  · rintro ⟨_ | passes, ended⟩
    · cases ended
    · rw [loop, step] at ended
      exact ⟨passes, ended⟩
  · rintro ⟨passes, ended⟩
    refine ⟨passes + 1, ?_⟩
    rw [loop, step]
    exact ended

theorem ends_of_inr (step : body state = .inr other) : Ends body state result ↔ other = result := by
  constructor
  · rintro ⟨_ | passes, ended⟩
    · cases ended
    · rw [loop, step] at ended
      exact Option.some.inj ended
  · rintro rfl
    refine ⟨1, ?_⟩
    rw [loop, step]

theorem Ends.unique (ended : Ends body state result) (also_ended : Ends body state other) : result = other := by
  obtain ⟨passes, ended⟩ := ended
  induction passes generalizing state with
  | zero => cases ended
  | succ passes ih =>
    rw [loop] at ended
    split at ended
    · next next step => exact ih ((ends_of_inl step).1 also_ended) ended
    · next result' step =>
      rw [← Option.some.inj ended]
      exact (ends_of_inr step).1 also_ended

theorem Ends.of_invariant {I : σ → Prop} {Q : τ → Prop} (ended : Ends body state result)
    (again : ∀ state next, I state → body state = .inl next → I next)
    (last : ∀ state result, I state → body state = .inr result → Q result) (initial : I state) : Q result := by
  obtain ⟨passes, ended⟩ := ended
  induction passes generalizing state with
  | zero => cases ended
  | succ passes ih =>
    rw [loop] at ended
    split at ended
    · next next step => exact ih (again state next initial step) ended
    · next result' step =>
      rw [← Option.some.inj ended]
      exact last state result' initial step

end NodeAutomation.Loops
