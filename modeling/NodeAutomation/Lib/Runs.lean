import Mathlib.Data.List.Basic

/-! Properties that hold all along a run: of every action, in the state in which
the run meets it. -/

namespace NodeAutomation.Runs

variable {σ α : Type*} {next : σ → α → σ}

def Along (next : σ → α → σ) (P : σ → α → Prop) : σ → List α → Prop
  | _, [] => True
  | state, action :: actions => P state action ∧ Along next P (next state action) actions

instance decidableAlong {P : σ → α → Prop} [∀ state action, Decidable (P state action)] :
    (state : σ) → (actions : List α) → Decidable (Along next P state actions)
  | _, [] => isTrue trivial
  | state, action :: actions =>
    have : Decidable (Along next P (next state action) actions) :=
      decidableAlong (next state action) actions
    inferInstanceAs (Decidable (P state action ∧ Along next P (next state action) actions))

def after (next : σ → α → σ) (state : σ) (actions : List α) : σ := actions.foldl next state

variable {I : σ → Prop} {W P Q : σ → α → Prop} {state : σ} {actions : List α}

theorem along_iff (step : ∀ s a, I s → W s a → (P s a ↔ Q s a))
    (keep : ∀ s a, I s → W s a → P s a → I (next s a)) (initial : I state)
    (allowed : Along next W state actions) :
    Along next P state actions ↔ Along next Q state actions := by
  induction actions generalizing state with
  | nil => exact Iff.rfl
  | cons action actions ih =>
    have here := step state action initial allowed.1
    refine ⟨fun h => ?_, fun h => ?_⟩
    · have kept := keep state action initial allowed.1 h.1
      exact ⟨here.1 h.1, (ih kept allowed.2).1 h.2⟩
    · have kept := keep state action initial allowed.1 (here.2 h.1)
      exact ⟨here.2 h.1, (ih kept allowed.2).2 h.2⟩

theorem along_of_invariant (step : ∀ s a, I s → W s a → P s a ∧ I (next s a)) (initial : I state)
    (allowed : Along next W state actions) : Along next P state actions := by
  induction actions generalizing state with
  | nil => trivial
  | cons action actions ih =>
    have here := step state action initial allowed.1
    exact ⟨here.1, ih here.2 allowed.2⟩

theorem along_of_forall {R : α → Prop} (holds : ∀ action ∈ actions, R action) :
    Along next (fun _ action => R action) state actions := by
  induction actions generalizing state with
  | nil => trivial
  | cons action actions ih =>
    exact ⟨holds action List.mem_cons_self,
      ih fun other member => holds other (List.mem_cons_of_mem action member)⟩

theorem along_and (first : Along next P state actions) (second : Along next Q state actions) :
    Along next (fun s a => P s a ∧ Q s a) state actions := by
  induction actions generalizing state with
  | nil => trivial
  | cons action actions ih => exact ⟨⟨first.1, second.1⟩, ih first.2 second.2⟩

theorem along_append {before later : List α} :
    Along next P state (before ++ later) ↔
      Along next P state before ∧ Along next P (after next state before) later := by
  induction before generalizing state with
  | nil => exact (iff_of_eq (true_and _)).symm
  | cons action before ih => exact (and_congr_right fun _ => ih).trans and_assoc.symm

theorem along_iff_forall_split : Along next P state actions ↔
    ∀ before action later, actions = before ++ action :: later → P (after next state before) action := by
  refine ⟨fun h before action later split => ?_, fun h => ?_⟩
  · rw [split, along_append] at h
    exact h.2.1
  · induction actions generalizing state with
    | nil => trivial
    | cons action actions ih =>
      refine ⟨h [] action actions rfl, ih fun before other later split => ?_⟩
      exact h (action :: before) other later (by rw [split]; rfl)

theorem Along.here {before later : List α} {action : α} (h : Along next P state (before ++ action :: later)) :
    P (after next state before) action :=
  (along_append.1 h).2.1

theorem holds_after (step : ∀ s a, I s → W s a → I (next s a)) (initial : I state)
    (allowed : Along next W state actions) : I (after next state actions) := by
  induction actions generalizing state with
  | nil => exact initial
  | cons action actions ih => exact ih (step state action initial allowed.1) allowed.2

end NodeAutomation.Runs
