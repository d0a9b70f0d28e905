import NodeAutomation.Lib.Runs

/-! Calls that are suspended at their awaits, over a state they share. A call is known by the
number it was made with. Between two suspensions nothing else runs. -/

namespace NodeAutomation.Interleaving

variable {σ κ ι ρ ε : Type*}

/-- `invoke` runs a call up to its first suspension, `proceed` from one suspension to the
next with what it has waited for; `environment` is what happens around the calls. -/
structure System (σ κ ι ρ ε : Type*) where
  invoke : σ → Nat → ι → σ × κ
  proceed : σ → Nat → κ → ρ → σ × κ
  environment : σ → ε → σ

structure Config (σ κ : Type*) where
  shared : σ
  calls : List κ := []
  deriving DecidableEq

inductive Action (ι ρ ε : Type*) where
  | invoke (call : ι)
  | proceed (number : Nat) (reply : ρ)
  | environment (event : ε)
  deriving DecidableEq

namespace System

variable (system : System σ κ ι ρ ε)

def next (config : Config σ κ) : Action ι ρ ε → Config σ κ
  | .invoke call =>
    let result := system.invoke config.shared config.calls.length call
    { shared := result.1, calls := config.calls ++ [result.2] }
  | .proceed number reply =>
    match config.calls[number]? with
    | none => config
    | some call =>
      let result := system.proceed config.shared number call reply
      { shared := result.1, calls := config.calls.set number result.2 }
  | .environment event => { config with shared := system.environment config.shared event }

abbrev run (config : Config σ κ) (actions : List (Action ι ρ ε)) : Config σ κ :=
  Runs.after system.next config actions

end System

/-- What holds of the shared state after so many calls, and of each call in it. -/
structure Holds (I : σ → Nat → Prop) (J : σ → Nat → κ → Prop) (config : Config σ κ) : Prop where
  shared : I config.shared config.calls.length
  call : ∀ number call, config.calls[number]? = some call → J config.shared number call

/-- Each step keeps what it needs to hold of the shared state and of its own call, and
leaves what holds of the others true. -/
structure Keeps (system : System σ κ ι ρ ε) (I : σ → Nat → Prop) (J : σ → Nat → κ → Prop) : Prop where
  invoke : ∀ s made call, I s made →
    I (system.invoke s made call).1 (made + 1) ∧
      J (system.invoke s made call).1 made (system.invoke s made call).2
  invoke_other : ∀ s made call other otherCall, I s made → other < made → J s other otherCall →
    J (system.invoke s made call).1 other otherCall
  proceed : ∀ s made number call reply, I s made → number < made → J s number call →
    I (system.proceed s number call reply).1 made ∧
      J (system.proceed s number call reply).1 number (system.proceed s number call reply).2
  proceed_other : ∀ s made number call reply other otherCall, I s made → J s number call →
    number ≠ other → J s other otherCall → J (system.proceed s number call reply).1 other otherCall
  environment : ∀ s made event, I s made → I (system.environment s event) made
  environment_call : ∀ s made event number call, I s made → J s number call →
    J (system.environment s event) number call

variable {system : System σ κ ι ρ ε} {I : σ → Nat → Prop} {J : σ → Nat → κ → Prop}
  {config : Config σ κ}

namespace Holds

theorem invoke (call : ι)
    (here : I (system.invoke config.shared config.calls.length call).1 (config.calls.length + 1) ∧
      J (system.invoke config.shared config.calls.length call).1 config.calls.length
        (system.invoke config.shared config.calls.length call).2)
    (others : ∀ other otherCall, config.calls[other]? = some otherCall →
      J (system.invoke config.shared config.calls.length call).1 other otherCall) :
    Holds I J (system.next config (.invoke call)) := by
  refine ⟨?_, fun number suspended found => ?_⟩
  · rw [System.next, List.length_append, List.length_singleton]
    exact here.1
  · by_cases old : number < config.calls.length
    · rw [System.next, List.getElem?_append_left old] at found
      exact others number suspended found
    · rw [System.next, List.getElem?_append_right (Nat.le_of_not_lt old)] at found
      have bound := (List.getElem?_eq_some_iff.1 found).1
      have last : number = config.calls.length := by
        rw [List.length_singleton] at bound
        omega
      rw [last, Nat.sub_self, List.getElem?_cons_zero] at found
      rw [last, ← Option.some.inj found]
      exact here.2

theorem proceed (h : Holds I J config) (number : Nat) (reply : ρ)
    (here : ∀ call, config.calls[number]? = some call →
      I (system.proceed config.shared number call reply).1 config.calls.length ∧
        J (system.proceed config.shared number call reply).1 number
          (system.proceed config.shared number call reply).2)
    (others : ∀ call other otherCall, config.calls[number]? = some call → number ≠ other →
      config.calls[other]? = some otherCall →
      J (system.proceed config.shared number call reply).1 other otherCall) :
    Holds I J (system.next config (.proceed number reply)) := by
  rw [System.next]
  split
  case h_1 => exact h
  case h_2 call found =>
    refine ⟨?_, fun other suspended known => ?_⟩
    · rw [List.length_set]
      exact (here call found).1
    · by_cases same : number = other
      · rw [← same, List.getElem?_set_self (List.getElem?_eq_some_iff.1 found).1] at known
        rw [← same, ← Option.some.inj known]
        exact (here call found).2
      · rw [List.getElem?_set_ne same] at known
        exact others call other suspended found same known

theorem environment (event : ε)
    (here : I (system.environment config.shared event) config.calls.length)
    (others : ∀ number call, config.calls[number]? = some call →
      J (system.environment config.shared event) number call) :
    Holds I J (system.next config (.environment event)) := ⟨here, others⟩

theorem next (h : Holds I J config) (keeps : Keeps system I J) (action : Action ι ρ ε) :
    Holds I J (system.next config action) := by
  cases action with
  | invoke call =>
    exact invoke call (keeps.invoke _ _ call h.shared) fun other otherCall found =>
      keeps.invoke_other _ _ call other otherCall h.shared
        (List.getElem?_eq_some_iff.1 found).1 (h.call other otherCall found)
  | proceed number reply =>
    refine h.proceed number reply (fun call found => ?_) fun call other otherCall found apart known => ?_
    · exact keeps.proceed _ _ number call reply h.shared (List.getElem?_eq_some_iff.1 found).1
        (h.call number call found)
    · exact keeps.proceed_other _ _ number call reply other otherCall h.shared
        (h.call number call found) apart (h.call other otherCall known)
  | environment event =>
    exact Holds.environment event (keeps.environment _ _ event h.shared) fun number call found =>
      keeps.environment_call _ _ event number call h.shared (h.call number call found)

theorem run (h : Holds I J config) (keeps : Keeps system I J)
    (actions : List (Action ι ρ ε)) : Holds I J (system.run config actions) := by
  induction actions generalizing config with
  | nil => exact h
  | cons action actions ih => exact ih (h.next keeps action)

theorem initial {shared : σ} (first : I shared 0) : Holds I J { shared } :=
  ⟨first, fun number call found => absurd found (by simp)⟩

end Holds

def SomeCall (calls : List κ) (P : κ → Prop) : Prop := ∃ call ∈ calls, P call

def OtherCall (calls : List κ) (number : Nat) (P : κ → Prop) : Prop :=
  ∃ entry ∈ calls.zipIdx, entry.2 ≠ number ∧ P entry.1

instance (calls : List κ) (number : Nat) (P : κ → Prop) [DecidablePred P] :
    Decidable (OtherCall calls number P) :=
  inferInstanceAs (Decidable (∃ entry ∈ calls.zipIdx, entry.2 ≠ number ∧ P entry.1))

variable {calls : List κ} {number : Nat} {call call' : κ} {P : κ → Prop}

theorem otherCall_iff :
    OtherCall calls number P ↔ ∃ other otherCall, calls[other]? = some otherCall ∧ other ≠ number ∧ P otherCall :=
  ⟨fun ⟨entry, member, apart, holds⟩ =>
      ⟨entry.2, entry.1, List.mem_zipIdx_iff_getElem?.1 member, apart, holds⟩,
    fun ⟨other, otherCall, found, apart, holds⟩ =>
      ⟨(otherCall, other), List.mem_zipIdx_iff_getElem?.2 found, apart, holds⟩⟩

theorem someCall_set (found : calls[number]? = some call) :
    SomeCall (calls.set number call') P ↔ P call' ∨ OtherCall calls number P := by
  have bound := (List.getElem?_eq_some_iff.1 found).1
  rw [otherCall_iff]
  refine ⟨fun ⟨stepped, member, holds⟩ => ?_, fun h => ?_⟩
  · obtain ⟨other, known⟩ := List.mem_iff_getElem?.1 member
    by_cases same : number = other
    · rw [← same, List.getElem?_set_self bound] at known
      rw [Option.some.inj known]
      exact .inl holds
    · rw [List.getElem?_set_ne same] at known
      exact .inr ⟨other, stepped, known, Ne.symm same, holds⟩
  · cases h with
    | inl own => exact ⟨call', List.mem_of_getElem? (List.getElem?_set_self bound), own⟩
    | inr others =>
      obtain ⟨other, otherCall, known, apart, holds⟩ := others
      refine ⟨otherCall, List.mem_of_getElem? (i := other) ?_, holds⟩
      rw [List.getElem?_set_ne apart.symm]
      exact known

theorem someCall_iff (found : calls[number]? = some call) :
    SomeCall calls P ↔ P call ∨ OtherCall calls number P := by
  have same : calls.set number call = calls := by
    obtain ⟨bound, here⟩ := List.getElem?_eq_some_iff.1 found
    rw [← here, List.set_getElem_self]
  rw [← someCall_set found, same]

theorem someCall_concat : SomeCall (calls ++ [call]) P ↔ SomeCall calls P ∨ P call := by
  refine ⟨fun ⟨other, member, holds⟩ => ?_, fun h => ?_⟩
  · cases List.mem_append.1 member with
    | inl old => exact .inl ⟨other, old, holds⟩
    | inr new => exact .inr (by rwa [← List.mem_singleton.1 new])
  · cases h with
    | inl old =>
      obtain ⟨other, member, holds⟩ := old
      exact ⟨other, List.mem_append_left [call] member, holds⟩
    | inr new => exact ⟨call, List.mem_append_right calls List.mem_cons_self, new⟩

end NodeAutomation.Interleaving
