import NodeAutomation.ExpressionRuntime.PoolTransitions
import NodeAutomation.Lib.Runs

/-! Along every careful run no isolate is shared and none leaks. -/

namespace NodeAutomation.ExpressionEvaluator

open Runs

variable {κ : Type*} {setting : Setting} {s s' : State κ}

structure Sound [DecidableEq κ] (setting : Setting) (s : State κ) : Prop where
  kept : Kept setting s []
  ends : Ends setting s

theorem ends_initial (setting : Setting) : Ends setting (State.initial setting : State κ) := by
  have pool {p : Nat} {pool : IsolatePool} (found : (State.initial setting : State κ).pools[p]? = some pool) :
      setting.scales = false ∧ p = 0 ∧ pool = {} := by
    unfold State.initial at found
    cases scales : setting.scales with
    | true => simp [scales] at found
    | false =>
      have here := (List.getElem?_eq_some_iff.1 found).1
      simp only [scales, Bool.false_eq_true, if_false, List.length_singleton] at here found
      exact ⟨rfl, by omega, List.mem_singleton.1 (List.mem_of_getElem? found)⟩
  have single (plain : setting.scales = false) : (State.initial setting : State κ).pools.length = 1 := by
    simp [State.initial, plain]
  refine ⟨⟨?_, ?_, fun _ member => absurd member List.not_mem_nil, ?_⟩, ?_⟩
  · intro p current
    cases scales : setting.scales with
    | true => rw [current_of_scales scales] at current; cases current
    | false =>
      rw [current_of_plain scales] at current
      rw [single scales, ← Option.some.inj current]
      exact Nat.zero_lt_one
  · intro p _ found _
    obtain ⟨plain, zero, _⟩ := pool found
    exact .inl (zero ▸ current_of_plain plain)
  · intro p pool' found disposed
    simp [(pool found).2.2] at disposed
  · exact {
      up := rfl
      down := rfl
      first := fun _ member => absurd member List.not_mem_nil
      absent := fun never => by cases never
      ending := fun _ => rfl
      ended := fun _ never => by cases never
      plain := fun plain => ⟨single plain, rfl, rfl, rfl, rfl, fun _ member => absurd member List.not_mem_nil⟩
      completed := fun never => by cases never }

variable [DecidableEq κ]

theorem Sound.not_initializing {i : Nat} (h : Sound setting s) (disposal : Disposal)
    (found : s.disposals[i]? = some disposal) : s.initializing disposal.pool = false := by
  obtain ⟨pool, there, disposed⟩ := h.ends.accounted.disposing disposal (List.mem_of_getElem? found)
  refine h.kept.stocked.idle there ?_
  rintro rfl
  cases disposed

theorem Sound.next {event : Event κ} (h : Sound setting s) (careful : Careful setting s event) :
    Sound setting (next setting s event) := by
  have kept := h.kept
  have ends := h.ends
  cases event with
  | initializePool => exact ⟨kept.initializePool careful, ends.initializePool careful⟩
  | acquire caller => exact ⟨kept.acquire careful, ends.acquire caller⟩
  | release caller => exact ⟨kept.release caller, (SameEnds.release setting s caller).ends ends⟩
  | dispose => exact ⟨kept.dispose careful, ends.dispose⟩
  | createSettles i initialized =>
    exact ⟨kept.createSettles careful, (SameEnds.createSettles setting s i initialized).ends ends⟩
  | initSettles i j initialized =>
    exact ⟨kept.initSettles careful, (SameEnds.initSettles setting s i j initialized).ends ends⟩
  | initialized i => exact ⟨kept.initialized, ends.initialized kept.stocked⟩
  | releaseGoesOn i => exact ⟨kept.releaseGoesOn careful, (SameEnds.releaseGoesOn setting s i).ends ends⟩
  | retryFires i => exact ⟨kept.retryFires careful, (SameEnds.retryFires setting s i).ends ends⟩
  | idleTimeout => exact ⟨kept.idleTimeout careful, ends.idleTimeout careful⟩
  | drained => exact ⟨kept.drained careful, ends.drained careful⟩
  | disposeGoesOn i => exact ⟨kept.disposeGoesOn h.not_initializing, ends.disposeGoesOn kept.stocked⟩

omit [DecidableEq κ] in
theorem Stocked.beingCreated_le {p : Nat} {pool : IsolatePool} (h : Stocked setting s)
    (found : s.pools[p]? = some pool) : pool.bridges.length + s.beingCreated p ≤ setting.size := by
  have warming := h.warming p pool found
  have within := h.within p pool found
  unfold State.beingCreated
  cases busy : s.initializing p with
  | false =>
    have none : s.initializations.filter (·.pool = p) = [] := by
      rw [List.filter_eq_nil_iff]
      intro init member
      rw [decide_eq_true_eq]
      exact ExpressionEvaluator.not_initializing busy member
    rw [none, List.flatMap_nil, List.length_nil]
    omega
  | true =>
    obtain ⟨init, member, here⟩ := List.any_eq_true.1 busy
    have fresh := h.starting init member
    rw [of_decide_eq_true here, found] at fresh
    cases fresh
    obtain ⟨i, at_⟩ := List.mem_iff_getElem?.1 member
    have apart := h.alone_erased at_
    rw [of_decide_eq_true here] at apart
    have none : (s.initializations.eraseIdx i).filter (·.pool = p) = [] := by
      rw [List.filter_eq_nil_iff]
      intro other left
      rw [decide_eq_true_eq]
      exact ExpressionEvaluator.not_initializing apart left
    have only := ((Places.perm_eraseIdx at_).filter (·.pool = p)).flatMap_right (·.results)
    have keeps : (init :: s.initializations.eraseIdx i).filter (·.pool = p) = [init] := by
      rw [List.filter_cons, if_pos here, none]
    rw [keeps] at only
    have length := only.length_eq
    simp only [List.flatMap_cons, List.flatMap_nil, List.append_nil] at length
    rw [length, h.full init member, ← warming]
    exact Nat.le_of_eq (by simp)

theorem Sound.isolated (h : Sound setting s) : Isolated setting s where
  owned bridge known built := by
    have whole := (h.kept.owned bridge).2 built known
    rwa [List.append_nil] at whole
  within _ _ found := h.kept.stocked.beingCreated_le found
  freed ended unheld unawaited bridge known built := by
    have left := h.ends.transitions.completed ended
    have whole := (h.kept.owned bridge).2 built known
    have settled : s.initializations = [] := by
      rw [List.eq_nil_iff_forall_not_mem]
      intro init member
      have disposed := (left init.pool {} (h.kept.stocked.starting init member)).1
      cases disposed
    have uncreated : s.creations = [] := by
      rw [List.eq_nil_iff_forall_not_mem]
      intro creation member
      cases its : creation.creator with
      | coldStart caller =>
        have waits : caller ∈ s.waiting :=
          List.mem_filterMap.2 ⟨creation, member, by rw [its]; rfl⟩
        simp [unawaited] at waits
      | replenish p attempt =>
        have inside := h.kept.stocked.known creation member p attempt its
        have there : s.pools[p]? = some s.pools[p] := List.getElem?_eq_getElem inside
        have warming := h.kept.stocked.warming p _ there
        rw [(left p _ there).2.2, State.replenishPromises] at warming
        have never := List.countP_eq_zero.1 warming.symm creation member
        rw [its] at never
        exact never (decide_eq_true rfl)
    have empty : s.warm = [] := by
      rw [State.warm, List.flatMap_eq_nil_iff]
      intro pool member
      obtain ⟨p, there⟩ := List.mem_iff_getElem?.1 member
      exact (left p pool there).2.1
    have creating : s.creating = [] := by rw [State.creating, settled, uncreated]; rfl
    rw [State.places, creating, empty, unheld] at whole
    simp only [List.nil_append, List.append_nil] at whole
    exact List.count_pos_iff.1 (by omega)

/-- No isolate is shared and none leaks, whatever happens meanwhile, as long as every step is
careful. -/
theorem isolated_run (setting : Setting) (run : List (Event κ))
    (careful : Along (next setting) (Careful setting) (State.initial setting) run) :
    Isolated setting (after (next setting) (State.initial setting) run) := by
  have initial : Sound setting (State.initial setting : State κ) := ⟨kept_initial setting, ends_initial setting⟩
  have step (s : State κ) (event : Event κ) (sound : Sound setting s) (careful : Careful setting s event) :
      Sound setting (next setting s event) := sound.next careful
  exact (holds_after step initial careful).isolated

/-- A pool that scales: a caller is served from the pool, another one by a bridge of its own; the
pool is disposed while one of its replenishments is not over. -/
theorem isolated_scaledRun :
    let setting : Setting := ⟨1, some 1000, fun _ => true⟩
    let s := after (next setting) (State.initial setting)
      [.initializePool, .initSettles 0 0 true, .initialized 0, .acquire "a", .acquire "b", .createSettles 1 true,
        .release "a", .dispose, .drained, .createSettles 0 true, .disposeGoesOn 0, .releaseGoesOn 0, .release "b"]
    Isolated setting s ∧ s.disposeCompleted ∧ s.disposedBridges = [0, 1, 2] :=
  ⟨isolated_run _ _ (by decide), by decide, by decide⟩

/-- The bridge that replenishes the pool is built, but does not get ready: nobody disposes it. -/
theorem not_isolated_rejected : ¬ ∀ (setting : Setting) (run : List (Event String)),
    Isolated setting (after (next setting) (State.initial setting) run) := by
  intro all
  have run := all ⟨1, none, fun _ => true⟩
    [.initializePool, .initSettles 0 0 true, .initialized 0, .acquire "a", .createSettles 0 false]
  have lost := run.owned 1 (by decide) rfl
  exact absurd lost (by decide)

end NodeAutomation.ExpressionEvaluator
