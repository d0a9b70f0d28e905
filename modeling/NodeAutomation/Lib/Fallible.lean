import Mathlib.Data.List.Basic

/-! Loops whose body may throw: what holds of the elements already visited, and
of the state they left, carries over to the whole loop. -/

namespace NodeAutomation.Fallible

variable {ε α β σ : Type}

theorem bind_eq_ok_iff (x : Except ε α) (f : α → Except ε β) (b : β) :
    x >>= f = .ok b ↔ ∃ a, x = .ok a ∧ f a = .ok b := by
  cases x with
  | error e => simp [bind, Except.bind]
  | ok a => simp [bind, Except.bind]

@[simp] theorem ok_bind (a : α) (f : α → Except ε β) : (Except.ok a >>= f) = f a := rfl

@[simp] theorem error_bind (e : ε) (f : α → Except ε β) : (Except.error e >>= f) = .error e := rfl

/-- What holds of the value, and what of the error where there is none. -/
def Ensures (P : α → Prop) (E : ε → Prop) : Except ε α → Prop
  | .ok a => P a
  | .error e => E e

theorem ensures_any (x : Except ε α) : Ensures (fun _ => True) (fun _ => True) x := by
  cases x <;> trivial

section

variable {P : α → Prop} {Q : β → Prop} {E : ε → Prop} {x : Except ε α} (first : Ensures P E x)
include first

theorem Ensures.of_ok {a : α} (went : x = .ok a) : P a := by rwa [went] at first

theorem Ensures.of_error {e : ε} (thrown : x = .error e) : E e := by rwa [thrown] at first

theorem Ensures.bind {f : α → Except ε β} (rest : ∀ a, P a → Ensures Q E (f a)) : Ensures Q E (x >>= f) := by
  cases x with
  | error e => exact first
  | ok a => exact rest a first

end

variable {body : σ → α → Except ε σ} {P : List α → σ → Prop} {xs : List α} {start last : σ}

theorem ensures_foldlM {P : σ → Prop} {E : ε → Prop} (step : ∀ s x, P s → Ensures P E (body s x))
    (initial : P start) : Ensures P E (xs.foldlM body start) := by
  induction xs generalizing start with
  | nil => exact initial
  | cons x xs ih =>
    rw [List.foldlM_cons]
    exact (step start x initial).bind fun _ held => ih held

theorem foldlM_ok_from (done : List α) (initial : P done start)
    (step : ∀ visited x s, x ∈ xs → P visited s → ∃ t, body s x = .ok t ∧ P (visited ++ [x]) t) :
    ∃ t, xs.foldlM body start = .ok t ∧ P (done ++ xs) t := by
  induction xs generalizing done start with
  | nil => exact ⟨start, rfl, by simpa using initial⟩
  | cons x xs ih =>
    obtain ⟨middle, went, kept⟩ := step done x start List.mem_cons_self initial
    obtain ⟨t, rest, final⟩ := ih (done ++ [x]) kept
      fun visited y s member => step visited y s (List.mem_cons_of_mem x member)
    refine ⟨t, ?_, by simpa using final⟩
    rw [List.foldlM_cons, went]
    exact rest

theorem foldlM_ok (initial : P [] start)
    (step : ∀ visited x s, x ∈ xs → P visited s → ∃ t, body s x = .ok t ∧ P (visited ++ [x]) t) :
    ∃ t, xs.foldlM body start = .ok t ∧ P xs t :=
  foldlM_ok_from [] initial step

theorem foldlM_kept_from (done : List α) (went : xs.foldlM body start = .ok last)
    (initial : P done start)
    (step : ∀ visited x s t, x ∈ xs → P visited s → body s x = .ok t → P (visited ++ [x]) t) :
    P (done ++ xs) last := by
  induction xs generalizing done start with
  | nil =>
    cases went
    simpa using initial
  | cons x xs ih =>
    rw [List.foldlM_cons, bind_eq_ok_iff] at went
    obtain ⟨middle, first, rest⟩ := went
    have kept := step done x start middle List.mem_cons_self initial first
    have final := ih (done ++ [x]) rest kept
      fun visited y s t member => step visited y s t (List.mem_cons_of_mem x member)
    simpa using final

theorem foldlM_kept (went : xs.foldlM body start = .ok last) (initial : P [] start)
    (step : ∀ visited x s t, x ∈ xs → P visited s → body s x = .ok t → P (visited ++ [x]) t) :
    P xs last :=
  foldlM_kept_from [] went initial step

theorem foldlM_error {e : ε} (thrown : xs.foldlM body start = .error e) (initial : P [] start)
    (step : ∀ visited x s t, x ∈ xs → P visited s → body s x = .ok t → P (visited ++ [x]) t) :
    ∃ visited x s, x ∈ xs ∧ P visited s ∧ body s x = .error e := by
  have general : ∀ (rest done : List α) (s : σ), rest.foldlM body s = .error e → P done s →
      (∀ x ∈ rest, x ∈ xs) → ∃ visited x s, x ∈ xs ∧ P visited s ∧ body s x = .error e := by
    intro rest
    induction rest with
    | nil =>
      intro done s thrown _ _
      cases thrown
    | cons x rest ih =>
      intro done s thrown held among
      rw [List.foldlM_cons] at thrown
      cases went : body s x with
      | error e' =>
        rw [went, error_bind] at thrown
        rw [Except.error.inj thrown] at went
        exact ⟨done, x, s, among x List.mem_cons_self, held, went⟩
      | ok t =>
        rw [went, ok_bind] at thrown
        exact ih _ t thrown (step done x s t (among x List.mem_cons_self) held went)
          fun y member => among y (List.mem_cons_of_mem x member)
  exact general xs [] start thrown initial fun _ member => member

variable (body xs start) in
theorem foldlM_ok_iff_pairwise {R : α → α → Prop} {Q : α → Prop} (done : List α) (initial : P done start)
    (step : ∀ visited x s, P visited s → ((∃ t, body s x = .ok t) ↔ (∀ y ∈ visited, R y x) ∧ Q x))
    (keep : ∀ visited x s t, P visited s → body s x = .ok t → P (visited ++ [x]) t) :
    (∃ t, xs.foldlM body start = .ok t) ↔
      (∀ y ∈ done, ∀ x ∈ xs, R y x) ∧ xs.Pairwise R ∧ ∀ x ∈ xs, Q x := by
  induction xs generalizing done start with
  | nil => simp [pure, Except.pure]
  | cons x xs ih =>
    rw [List.foldlM_cons]
    have here := step done x start initial
    cases went : body start x with
    | error e =>
      have refused : ¬ ((∀ y ∈ done, R y x) ∧ Q x) := by
        simpa [went] using here
      refine iff_of_false (by simp) fun h => refused ⟨fun y member => ?_, h.2.2 x List.mem_cons_self⟩
      exact h.1 y member x List.mem_cons_self
    | ok t =>
      have accepted := here.1 ⟨t, went⟩
      rw [ok_bind, ih t (done ++ [x]) (keep done x start t initial went)]
      simp only [List.forall_mem_append, List.forall_mem_singleton, List.forall_mem_cons, List.pairwise_cons,
        accepted.2, true_and]
      refine ⟨fun h => ⟨fun y member => ⟨accepted.1 y member, h.1.1 y member⟩, ⟨h.1.2, h.2.1⟩, h.2.2⟩,
        fun h => ⟨⟨fun y member => (h.1 y member).2, h.2.1.1⟩, h.2.1.2, h.2.2⟩⟩

end NodeAutomation.Fallible
