/-! Computations that may fail and that log what they do, and what they keep where every entry of the log
is allowed: the rules by which such a fact is put together from the parts of a computation. -/

namespace NodeAutomation.GuardedRuns

def Failable (σ ε α : Type) : Type := σ → Except ε α × σ

variable {σ ρ ε α β : Type}

namespace Failable

instance : Monad (Failable σ ε) where
  pure a := fun s => (.ok a, s)
  bind run next := fun s => match run s with
    | (.ok a, s') => next a s'
    | (.error e, s') => (.error e, s')

def fail (e : ε) : Failable σ ε α := fun s => (.error e, s)

def change (f : σ → α × σ) : Failable σ ε α := fun s => (.ok (f s).1, (f s).2)

def read (f : σ → α) : Failable σ ε α := change fun s => (f s, s)

def update (f : σ → σ) : Failable σ ε Unit := change fun s => ((), f s)

theorem bind_ok {run : Failable σ ε α} {next : α → Failable σ ε β} {s s' : σ} {a : α}
    (went : run s = (.ok a, s')) : (run >>= next) s = next a s' := by
  change (match run s with | (.ok a, s') => next a s' | (.error e, s') => (.error e, s')) = _
  rw [went]

theorem bind_error {run : Failable σ ε α} {next : α → Failable σ ε β} {s s' : σ} {e : ε}
    (failed : run s = (.error e, s')) : (run >>= next) s = (.error e, s') := by
  change (match run s with | (.ok a, s') => next a s' | (.error e, s') => (.error e, s')) = _
  rw [failed]

end Failable

/-- What computations keep, provided that every entry of their log is allowed. -/
structure Contract (σ ρ : Type) where
  log : σ → List ρ
  allowed : ρ → Prop
  keeps : σ → Prop
  later : σ → σ → Prop
  refl : ∀ s, later s s
  trans : ∀ {a b c}, later a b → later b c → later a c

namespace Contract

variable {contract : Contract σ ρ} {before before' : σ → Prop} {after after' : α → σ → Prop} {last : β → σ → Prop}
  {run : Failable σ ε α} {next : α → Failable σ ε β}

/-- What holds goes on to hold. -/
def Stable (contract : Contract σ ρ) (P : σ → Prop) : Prop := ∀ s s', contract.later s s' → P s → P s'

structure Holds (contract : Contract σ ρ) (before : σ → Prop) (run : Failable σ ε α) (after : α → σ → Prop) :
    Prop where
  logs : ∀ s, contract.log s ⊆ contract.log (run s).2
  keeps : ∀ s, contract.keeps s → before s → (∀ entry ∈ contract.log (run s).2, contract.allowed entry) →
    contract.keeps (run s).2 ∧ contract.later s (run s).2 ∧ ∀ a, (run s).1 = .ok a → after a (run s).2

theorem stable_true : contract.Stable fun _ => True := fun _ _ _ _ => trivial

theorem Stable.and {P Q : σ → Prop} (first : contract.Stable P) (second : contract.Stable Q) :
    contract.Stable fun s => P s ∧ Q s :=
  fun s s' later both => ⟨first s s' later both.1, second s s' later both.2⟩

theorem Stable.forall_mem {γ : Type} {P : γ → σ → Prop} (each : ∀ c, contract.Stable (P c)) (members : List γ) :
    contract.Stable fun s => ∀ c ∈ members, P c s :=
  fun s s' later all c member => each c s s' later (all c member)

theorem holds_fail (e : ε) : contract.Holds before (Failable.fail e) after where
  logs _ := List.Subset.refl _
  keeps s kept _ _ := ⟨kept, contract.refl s, fun _ never => by cases never⟩

theorem holds_change {f : σ → α × σ} (logs : ∀ s, contract.log s ⊆ contract.log (f s).2)
    (here : ∀ s, contract.keeps s → before s → (∀ entry ∈ contract.log (f s).2, contract.allowed entry) →
      contract.keeps (f s).2 ∧ contract.later s (f s).2 ∧ after (f s).1 (f s).2) :
    contract.Holds before (Failable.change f : Failable σ ε α) after where
  logs := logs
  keeps s kept pre allowed := by
    obtain ⟨keeps, later, post⟩ := here s kept pre allowed
    exact ⟨keeps, later, fun b same => by cases same; exact post⟩

theorem holds_pure {a : α} (here : ∀ s, contract.keeps s → before s → after a s) :
    contract.Holds before (pure a : Failable σ ε α) after where
  logs _ := List.Subset.refl _
  keeps s kept pre _ := ⟨kept, contract.refl s, fun b same => by cases same; exact here s kept pre⟩

theorem Holds.bind_of {lasting : σ → Prop} (first : contract.Holds before run after) (stable : contract.Stable lasting)
    (lasts : ∀ s, contract.keeps s → before s → lasting s)
    (second : ∀ a, contract.Holds (fun s => lasting s ∧ after a s) (next a) last) :
    contract.Holds before (run >>= next) last where
  logs s := by
    match went : run s with
    | (.error e, s') =>
      rw [Failable.bind_error went]
      have grown := first.logs s
      rwa [went] at grown
    | (.ok a, s') =>
      rw [Failable.bind_ok went]
      have grown := first.logs s
      rw [went] at grown
      exact List.Subset.trans grown ((second a).logs s')
  keeps s kept pre allowed := by
    have known := first.keeps s kept pre
    match went : run s with
    | (.error e, s') =>
      rw [went] at known
      rw [Failable.bind_error went] at allowed ⊢
      obtain ⟨keeps, later, _⟩ := known allowed
      exact ⟨keeps, later, fun _ never => by cases never⟩
    | (.ok a, s') =>
      rw [went] at known
      rw [Failable.bind_ok went] at allowed ⊢
      obtain ⟨keeps, later, post⟩ := known fun entry member => allowed entry ((second a).logs s' member)
      obtain ⟨keeps', later', post'⟩ :=
        (second a).keeps s' keeps ⟨stable s s' later (lasts s kept pre), post a rfl⟩ allowed
      exact ⟨keeps', contract.trans later later', post'⟩

theorem Holds.bind (first : contract.Holds before run after) (stable : contract.Stable before)
    (second : ∀ a, contract.Holds (fun s => before s ∧ after a s) (next a) last) :
    contract.Holds before (run >>= next) last :=
  first.bind_of stable (fun _ _ => id) second

theorem Holds.map {f : α → β} (h : contract.Holds before run fun a => last (f a)) :
    contract.Holds before (run >>= fun a => pure (f a)) last :=
  h.bind_of stable_true (fun _ _ _ => trivial) fun _ => holds_pure fun _ _ here => here.2

theorem holds_read_bind {f : σ → α} (each : ∀ a, contract.Holds (fun s => before s ∧ f s = a) (next a) last) :
    contract.Holds before (Failable.read f >>= next) last where
  logs s := (each (f s)).logs s
  keeps s kept pre allowed := (each (f s)).keeps s kept ⟨pre, rfl⟩ allowed

section

variable (h : contract.Holds before run after)
include h

theorem Holds.weaken (weaker : ∀ s, contract.keeps s → before' s → before s)
    (stronger : ∀ a s, contract.keeps s → after a s → after' a s) : contract.Holds before' run after' where
  logs := h.logs
  keeps s kept pre allowed := by
    obtain ⟨keeps, later, post⟩ := h.keeps s kept (weaker s kept pre) allowed
    exact ⟨keeps, later, fun a same => stronger a _ keeps (post a same)⟩

theorem Holds.of_never {last : α → σ → Prop}
    (never : ∀ s, contract.keeps s → ¬ before' s) : contract.Holds before' run last where
  logs := h.logs
  keeps s kept pre _ := absurd pre (never s kept)

theorem Holds.of_imp (weaker : ∀ s, before' s → before s) :
    contract.Holds before' run after :=
  h.weaken (fun s _ => weaker s) fun _ _ _ => id

end

end Contract

end NodeAutomation.GuardedRuns
