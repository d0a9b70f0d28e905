import NodeAutomation.ExpressionRuntime.PoolStock

/-! Every pool is in use, on its way to be, or disposed of, so nothing is left of the pools when a
disposal has completed. -/

namespace NodeAutomation.ExpressionEvaluator

variable {κ : Type*} {setting : Setting} {s s' : State κ}

def IsolatePool.IsEmpty (pool : IsolatePool) : Prop := pool.bridges = [] ∧ pool.warming = 0

/-- A pool that is not disposed is in use or initializes; one that is disposed is empty or its
`dispose` goes on. -/
structure Accounted (setting : Setting) (s : State κ) : Prop where
  inside : ∀ p, s.current setting = some p → p < s.pools.length
  live : ∀ (p : Nat) (pool : IsolatePool), s.pools[p]? = some pool → pool.disposed = false →
    s.current setting = some p ∨ s.initializing p
  disposing : ∀ disposal ∈ s.disposals, ∃ pool, s.pools[disposal.pool]? = some pool ∧ pool.disposed
  retired : ∀ (p : Nat) (pool : IsolatePool), s.pools[p]? = some pool → pool.disposed →
    pool.IsEmpty ∨ ∃ disposal ∈ s.disposals, disposal.pool = p

def State.disposalsBy (s : State κ) (disposer : Disposer) : Nat := s.disposals.countP (·.disposer = disposer)

/-- A pool that does not scale is alone, and has no transitions. -/
structure Plain (s : State κ) : Prop where
  alone : s.pools.length = 1
  up : s.pendingScaleUp = false
  down : s.pendingScaleDown = false
  inner : s.innerPool = none
  draining : s.draining = false
  disposals : ∀ disposal ∈ s.disposals, disposal.pool = 0

/-- The transitions that are pending are those that an `initialize` or a `dispose` belongs to. -/
structure Transitions (setting : Setting) (s : State κ) : Prop where
  up : s.initializations.countP (·.scalesUp) + s.disposalsBy .scaleUp = s.pendingScaleUp.toNat
  down : s.disposalsBy .scaleDown = s.pendingScaleDown.toNat
  first : ∀ init ∈ s.initializations, init.scalesUp = false → s.current setting = some init.pool
  absent : s.pendingScaleUp → s.innerPool = none
  ending : setting.scales →
    s.disposalsBy .evaluator + s.draining.toNat + s.disposeCompleted.toNat = s.disposed.toNat
  ended : setting.scales → s.disposed → s.draining = false →
    s.pendingScaleUp = false ∧ s.pendingScaleDown = false ∧ s.innerPool = none
  plain : setting.scales = false → Plain s
  completed : s.disposeCompleted → ∀ (p : Nat) (pool : IsolatePool), s.pools[p]? = some pool →
    pool.disposed ∧ pool.IsEmpty

structure SameEnds (s s' : State κ) : Prop where
  inits : s'.initializations.map (fun init => (init.pool, init.scalesUp)) =
    s.initializations.map fun init => (init.pool, init.scalesUp) := by rfl
  disposals : s'.disposals = s.disposals := by rfl
  innerPool : s'.innerPool = s.innerPool := by rfl
  pendingScaleUp : s'.pendingScaleUp = s.pendingScaleUp := by rfl
  pendingScaleDown : s'.pendingScaleDown = s.pendingScaleDown := by rfl
  disposed : s'.disposed = s.disposed := by rfl
  draining : s'.draining = s.draining := by rfl
  disposeCompleted : s'.disposeCompleted = s.disposeCompleted := by rfl
  length : s'.pools.length = s.pools.length := by rfl
  pools : ∀ (p : Nat) (pool' : IsolatePool), s'.pools[p]? = some pool' → ∃ pool, s.pools[p]? = some pool ∧
    pool'.disposed = pool.disposed ∧
    (pool.disposed → pool'.bridges = pool.bridges ∧ pool'.warming ≤ pool.warming) :=
    by exact fun _ pool' found => ⟨pool', found, rfl, fun _ => ⟨rfl, Nat.le_refl _⟩⟩

namespace SameEnds

theorem refl (s : State κ) : SameEnds s s := {}

theorem trans {s'' : State κ} (h : SameEnds s s') (h' : SameEnds s' s'') : SameEnds s s'' where
  inits := h'.inits.trans h.inits
  disposals := h'.disposals.trans h.disposals
  innerPool := h'.innerPool.trans h.innerPool
  pendingScaleUp := h'.pendingScaleUp.trans h.pendingScaleUp
  pendingScaleDown := h'.pendingScaleDown.trans h.pendingScaleDown
  disposed := h'.disposed.trans h.disposed
  draining := h'.draining.trans h.draining
  disposeCompleted := h'.disposeCompleted.trans h.disposeCompleted
  length := h'.length.trans h.length
  pools p pool'' found := by
    obtain ⟨pool', there', enabled', kept'⟩ := h'.pools p pool'' found
    obtain ⟨pool, there, enabled, kept⟩ := h.pools p pool' there'
    refine ⟨pool, there, enabled'.trans enabled, fun disposed => ?_⟩
    have first := kept disposed
    have second := kept' (enabled.trans disposed)
    exact ⟨second.1.trans first.1, Nat.le_trans second.2 first.2⟩

theorem modifyPool {p : Nat} {change : IsolatePool → IsolatePool}
    (keeps : ∀ pool, s.pools[p]? = some pool → (change pool).disposed = pool.disposed ∧
      (pool.disposed → (change pool).bridges = pool.bridges ∧ (change pool).warming ≤ pool.warming)) :
    SameEnds s (s.modifyPool p change) where
  length := List.length_modify _ _ _
  pools q pool' found := by
    obtain ⟨pool, there, same⟩ := Places.getElem?_modify_eq_some found
    refine ⟨pool, there, ?_⟩
    rw [same]
    split
    case isTrue here => exact keeps pool (here ▸ there)
    case isFalse => exact ⟨rfl, fun _ => ⟨rfl, Nat.le_refl _⟩⟩

theorem current (h : SameEnds s s') : s'.current setting = s.current setting := by
  rw [State.current, h.innerPool, State.current]

theorem initializing (h : SameEnds s s') (p : Nat) : s'.initializing p = s.initializing p := by
  have any (inits : List Initialization) : inits.any (·.pool = p) =
      (inits.map fun init => (init.pool, init.scalesUp)).any (·.1 = p) := by
    rw [List.any_map]
    rfl
  rw [State.initializing, any, h.inits, ← any, State.initializing]

theorem disposalsBy (h : SameEnds s s') (disposer : Disposer) :
    s'.disposalsBy disposer = s.disposalsBy disposer := by
  rw [State.disposalsBy, h.disposals, State.disposalsBy]

theorem isEmpty {pool pool' : IsolatePool}
    (kept : pool'.bridges = pool.bridges ∧ pool'.warming ≤ pool.warming) (empty : pool.IsEmpty) : pool'.IsEmpty :=
  ⟨kept.1.trans empty.1, Nat.le_zero.1 (Nat.le_trans kept.2 (Nat.le_of_eq empty.2))⟩

theorem accounted (h : SameEnds s s') (before : Accounted setting s) : Accounted setting s' where
  inside p used := by
    rw [h.current] at used
    rw [h.length]
    exact before.inside p used
  live p pool' found enabled := by
    obtain ⟨pool, there, same, _⟩ := h.pools p pool' found
    rw [h.current, h.initializing]
    exact before.live p pool there (same ▸ enabled)
  disposing disposal member := by
    rw [h.disposals] at member
    obtain ⟨pool, there, disposed⟩ := before.disposing disposal member
    have inside := (List.getElem?_eq_some_iff.1 there).1
    rw [← h.length] at inside
    have found : s'.pools[disposal.pool]? = some s'.pools[disposal.pool] := List.getElem?_eq_getElem inside
    obtain ⟨earlier, there', same, _⟩ := h.pools _ _ found
    cases there.symm.trans there'
    exact ⟨_, found, same.trans disposed⟩
  retired p pool' found disposed := by
    obtain ⟨pool, there, same, kept⟩ := h.pools p pool' found
    rw [h.disposals]
    have disposed' := same.symm.trans disposed
    exact (before.retired p pool there disposed').imp_left (isEmpty (kept disposed'))

theorem transitions (h : SameEnds s s') (before : Transitions setting s) : Transitions setting s' where
  up := by
    have count (inits : List Initialization) : inits.countP (·.scalesUp) =
        (inits.map fun init => (init.pool, init.scalesUp)).countP (·.2) := by
      rw [List.countP_map]
      rfl
    rw [count, h.inits, ← count, h.disposalsBy, h.pendingScaleUp]
    exact before.up
  down := by
    rw [h.disposalsBy, h.pendingScaleDown]
    exact before.down
  first init' member initial := by
    have pair := List.mem_map_of_mem (f := fun init : Initialization => (init.pool, init.scalesUp)) member
    rw [h.inits] at pair
    obtain ⟨init, there, same⟩ := List.mem_map.1 pair
    have pool : init.pool = init'.pool := congrArg Prod.fst same
    have purpose : init.scalesUp = init'.scalesUp := congrArg Prod.snd same
    rw [h.current, ← pool]
    exact before.first init there (purpose.trans initial)
  absent := by
    rw [h.pendingScaleUp, h.innerPool]
    exact before.absent
  ending := by
    rw [h.disposalsBy, h.draining, h.disposeCompleted, h.disposed]
    exact before.ending
  ended := by
    rw [h.disposed, h.draining, h.pendingScaleUp, h.pendingScaleDown, h.innerPool]
    exact before.ended
  plain plain := by
    have alone := before.plain plain
    exact {
      alone := h.length.trans alone.alone
      up := h.pendingScaleUp.trans alone.up
      down := h.pendingScaleDown.trans alone.down
      inner := h.innerPool.trans alone.inner
      draining := h.draining.trans alone.draining
      disposals := by rw [h.disposals]; exact alone.disposals }
  completed := by
    rw [h.disposeCompleted]
    intro ended p pool' found
    obtain ⟨pool, there, same, kept⟩ := h.pools p pool' found
    have done := before.completed ended p pool there
    exact ⟨same.trans done.1, isEmpty (kept done.1) done.2⟩

theorem disposeBridge (s : State κ) (bridge : Nat) : SameEnds s (s.disposeBridge bridge) := by
  unfold State.disposeBridge
  split
  case isTrue => exact refl s
  case isFalse => exact {}

theorem disposeBridges (s : State κ) (bridges : List Nat) : SameEnds s (bridges.foldl State.disposeBridge s) := by
  induction bridges generalizing s with
  | nil => exact refl s
  | cons bridge rest ih => exact (disposeBridge s bridge).trans (ih _)

theorem replenish (setting : Setting) (s : State κ) (p attempt : Nat) :
    SameEnds s (s.replenish setting p attempt) := by
  unfold State.replenish
  split
  case h_1 => exact refl s
  case h_2 pool found =>
    split
    case isTrue => exact refl s
    case isFalse enabled =>
      split
      case isTrue => exact refl s
      case isFalse =>
        refine { modifyPool (s := s) (p := p) ?_ with }
        intro pool' there
        cases found.symm.trans there
        exact ⟨rfl, fun disposed => absurd disposed enabled⟩

theorem acquireIsolate (setting : Setting) (s : State κ) (p : Nat) :
    SameEnds s (s.acquireIsolate setting p).2 := by
  obtain ⟨error, refused⟩ | ⟨pool, bridge, rest, found, enabled, _, taken⟩ := acquireIsolate_cases setting s p
  · rw [refused]
    exact refl s
  · rw [taken]
    refine (modifyPool ?_).trans (replenish setting _ p 0)
    intro pool' there
    cases found.symm.trans there
    refine ⟨rfl, fun disposed => ?_⟩
    simp [enabled] at disposed

theorem releaseIsolate (setting : Setting) (s : State κ) (p bridge : Nat) :
    SameEnds s (s.releaseIsolate setting p bridge) := by
  unfold State.releaseIsolate
  split
  case isTrue => exact replenish setting s p 0
  case isFalse => exact { disposeBridge s bridge with }

theorem releaseGoesOn (setting : Setting) (s : State κ) (i : Nat) : SameEnds s (s.releaseGoesOn setting i) := by
  unfold State.releaseGoesOn
  split
  case h_1 => exact refl s
  case h_2 p _ =>
    have taken : SameEnds s { s with releases := s.releases.eraseIdx i } := {}
    exact taken.trans (replenish setting _ p 0)

theorem retryFires (setting : Setting) (s : State κ) (i : Nat) : SameEnds s (s.retryFires setting i) := by
  unfold State.retryFires
  split
  case h_1 => exact refl s
  case h_2 p attempt _ =>
    have taken : SameEnds s { s with retries := s.retries.eraseIdx i } := {}
    exact taken.trans (replenish setting _ p attempt)

theorem initSettles (setting : Setting) (s : State κ) (i j : Nat) (initialized : Bool) :
    SameEnds s (s.initSettles setting i j initialized) where
  inits := by
    have shape := congrArg (fun shapes => shapes.map fun shape => (shape.1, shape.2.1))
      (shape_initSettles setting s i j initialized)
    simp only [List.map_map] at shape
    exact shape

variable [DecidableEq κ]

theorem release (setting : Setting) (s : State κ) (caller : κ) : SameEnds s (s.release setting caller) := by
  unfold State.release
  split
  case h_1 => exact refl s
  case h_2 bridge _ =>
    have taken : SameEnds s { s with bridgesByCaller := s.bridgesByCaller.delete caller } := {}
    dsimp only
    split
    case isTrue =>
      unfold State.releaseIdleScaling
      split
      case h_1 p _ _ => exact taken.trans (releaseIsolate setting _ p bridge)
      case h_2 => exact taken.trans (disposeBridge _ bridge)
    case isFalse => exact taken.trans (releaseIsolate setting _ 0 bridge)

theorem createSettles (setting : Setting) (s : State κ) (i : Nat) (initialized : Bool) :
    SameEnds s (s.createSettles setting i initialized) := by
  unfold State.createSettles
  split
  case h_1 => exact refl s
  case h_2 creation _ =>
    dsimp only
    split
    case h_1 =>
      split
      case isTrue => exact {}
      case isFalse => exact {}
    case h_2 p attempt _ =>
      have taken : SameEnds s { s with creations := s.creations.eraseIdx i } := {}
      have settled : SameEnds s ({ s with creations := s.creations.eraseIdx i }.modifyPool p
          fun pool => { pool with warming := pool.warming - 1 }) :=
        taken.trans (modifyPool fun pool _ => ⟨rfl, fun _ => ⟨rfl, Nat.sub_le _ _⟩⟩)
      split
      case isTrue =>
        split
        case h_1 => exact settled
        case h_2 pool found =>
          split
          case isTrue => exact settled.trans (disposeBridge _ _)
          case isFalse enabled =>
            refine settled.trans (modifyPool ?_)
            intro pool' there
            cases found.symm.trans there
            exact ⟨rfl, fun disposed => absurd disposed enabled⟩
      case isFalse =>
        split
        case isTrue => exact { settled with }
        case isFalse => exact settled

end SameEnds

theorem of_getElem?_concat {pools : List IsolatePool} {p : Nat} {pool : IsolatePool}
    (found : (pools ++ [({} : IsolatePool)])[p]? = some pool) (disposed : pool.disposed) : pools[p]? = some pool := by
  cases Places.getElem?_concat found with
  | inl before => exact before
  | inr new =>
    simp [new.2] at disposed

theorem Accounted.added {init : Initialization} (h : Accounted setting s)
    (pools : s'.pools = s.pools ++ [({} : IsolatePool)]) (inits : s'.initializations = s.initializations ++ [init])
    (its : init.pool = s.pools.length) (disposals : s'.disposals = s.disposals)
    (used : ∀ p, s'.current setting = some p → s.current setting = some p ∨ p = s.pools.length)
    (uses : ∀ p, s.current setting = some p → s'.current setting = some p) : Accounted setting s' where
  inside p current := by
    rw [pools, List.length_append, List.length_singleton]
    cases used p current with
    | inl before => exact Nat.lt_succ_of_lt (h.inside p before)
    | inr new => exact new ▸ Nat.lt_succ_self _
  live p pool found enabled := by
    rw [pools] at found
    have grown : s'.initializing p = (s.initializing p || decide (init.pool = p)) := by
      rw [State.initializing, inits]
      simp [State.initializing]
    cases Places.getElem?_concat found with
    | inl before => exact (h.live p pool before enabled).imp (uses p) fun busy => by rw [grown, busy]; rfl
    | inr new => exact .inr (by rw [grown, its, new.1]; simp)
  disposing disposal member := by
    rw [disposals] at member
    obtain ⟨pool, there, disposed⟩ := h.disposing disposal member
    rw [pools]
    exact ⟨pool, Places.getElem?_append_of_some there _, disposed⟩
  retired p pool found disposed := by
    rw [pools] at found
    rw [disposals]
    exact h.retired p pool (of_getElem?_concat found disposed) disposed

/-- A pool whose `dispose` begins. -/
theorem Accounted.disposed {p : Nat} {disposer : Disposer} {change : IsolatePool → IsolatePool}
    (h : Accounted setting s) (pools : s'.pools = s.pools.modify p change)
    (disposes : ∀ pool, (change pool).disposed = true)
    (disposals : s'.disposals = s.disposals ++ [⟨p, disposer⟩]) (inside : p < s.pools.length)
    (used : ∀ q, s'.current setting = some q → s.current setting = some q)
    (others : ∀ q, q ≠ p → s.current setting = some q ∨ s.initializing q →
      s'.current setting = some q ∨ s'.initializing q) : Accounted setting s' where
  inside q current := by
    rw [pools, List.length_modify]
    exact h.inside q (used q current)
  live q pool found enabled := by
    rw [pools] at found
    obtain ⟨before, there, same⟩ := Places.getElem?_modify_eq_some found
    by_cases its : p = q
    · simp [same, if_pos its, disposes] at enabled
    · rw [same, if_neg its] at enabled
      exact others q (Ne.symm its) (h.live q before there enabled)
  disposing disposal member := by
    rw [disposals] at member
    rw [pools]
    by_cases its : p = disposal.pool
    · refine ⟨change s.pools[p], ?_, disposes _⟩
      rw [← its, List.getElem?_modify, List.getElem?_eq_getElem inside]
      simp
    · cases List.mem_append.1 member with
      | inl before =>
        obtain ⟨pool, there, disposed⟩ := h.disposing disposal before
        exact ⟨pool, by rw [List.getElem?_modify_ne _ _ its, there], disposed⟩
      | inr new =>
        rw [List.mem_singleton.1 new] at its
        exact absurd rfl its
  retired q pool found disposed := by
    rw [pools] at found
    rw [disposals]
    obtain ⟨before, there, same⟩ := Places.getElem?_modify_eq_some found
    by_cases its : p = q
    · exact .inr ⟨⟨p, disposer⟩, List.mem_append_right _ (List.mem_singleton_self _), its⟩
    · rw [same, if_neg its] at disposed ⊢
      cases h.retired q before there disposed with
      | inl empty => exact .inl empty
      | inr going =>
        obtain ⟨disposal, member, here⟩ := going
        exact .inr ⟨disposal, List.mem_append_left _ member, here⟩

theorem Accounted.nothing_left (h : Accounted setting s) (unused : s.current setting = none)
    (settled : s.initializations = []) (done : s.disposals = []) (p : Nat) (pool : IsolatePool)
    (found : s.pools[p]? = some pool) : pool.disposed ∧ pool.IsEmpty := by
  have disposed : pool.disposed = true := by
    cases enabled : pool.disposed with
    | true => rfl
    | false =>
      cases h.live p pool found enabled with
      | inl used => rw [unused] at used; cases used
      | inr busy => rw [State.initializing, settled] at busy; cases busy
  refine ⟨disposed, ?_⟩
  cases h.retired p pool found disposed with
  | inl empty => exact empty
  | inr going =>
    obtain ⟨disposal, member, _⟩ := going
    simp [done] at member

theorem disposals_eq_nil (up : s.disposalsBy .scaleUp = 0) (down : s.disposalsBy .scaleDown = 0)
    (evaluator : s.disposalsBy .evaluator = 0) : s.disposals = [] := by
  rw [List.eq_nil_iff_forall_not_mem]
  intro disposal member
  rw [State.disposalsBy, List.countP_eq_zero] at up down evaluator
  have notUp := up disposal member
  have notDown := down disposal member
  have notEvaluator := evaluator disposal member
  cases disposer : disposal.disposer <;> simp_all

theorem Transitions.settled (h : Transitions setting s) (unused : s.current setting = none)
    (up : s.pendingScaleUp = false) : s.initializations = [] := by
  rw [List.eq_nil_iff_forall_not_mem]
  intro init member
  have none := h.up
  rw [up, Bool.toNat_false] at none
  have notUp := List.countP_eq_zero.1 (Nat.eq_zero_of_add_eq_zero_right none) init member
  have used := h.first init member (by simpa using notUp)
  simp [unused] at used

theorem Transitions.not_completed (h : Transitions setting s) (scales : setting.scales)
    (enabled : s.disposed = false) : s.disposeCompleted = false := by
  have ending := h.ending scales
  rw [enabled, Bool.toNat_false] at ending
  cases ended : s.disposeCompleted with
  | false => rfl
  | true => rw [ended, Bool.toNat_true] at ending; omega

theorem Transitions.scales (h : Transitions setting s) {p : Nat} (inner : s.innerPool = some p) : setting.scales := by
  cases scales : setting.scales with
  | true => rfl
  | false =>
    have none := (h.plain scales).inner
    simp [inner] at none

theorem current_of_scales (scales : setting.scales = true) : s.current setting = s.innerPool := if_pos scales

theorem current_of_plain (plain : setting.scales = false) : s.current setting = some 0 := by
  rw [State.current, plain]
  rfl

theorem disposalsBy_concat {p : Nat} {disposer : Disposer} (disposals : s'.disposals = s.disposals ++ [⟨p, disposer⟩])
    (other : Disposer) : s'.disposalsBy other = s.disposalsBy other + (decide (disposer = other)).toNat := by
  rw [State.disposalsBy, disposals, List.countP_append, List.countP_singleton, State.disposalsBy]
  cases decide (disposer = other) <;> rfl

theorem Accounted.dropped {p : Nat} {disposer : Disposer} {change : IsolatePool → IsolatePool}
    (h : Accounted setting s) (scales : setting.scales = true) (inner : s.innerPool = some p)
    (unused : s'.innerPool = none) (inits : s'.initializations = s.initializations)
    (pools : s'.pools = s.pools.modify p change) (disposes : ∀ pool, (change pool).disposed = true)
    (disposals : s'.disposals = s.disposals ++ [⟨p, disposer⟩]) : Accounted setting s' := by
  have current := (current_of_scales scales).trans inner
  refine h.disposed pools disposes disposals (h.inside p current) ?_ ?_
  · intro q used
    simp [current_of_scales scales, unused] at used
  · intro q other before
    rcases before with used | busy
    · rw [current] at used
      exact absurd (Option.some.inj used).symm other
    · rw [State.initializing, inits]
      exact .inr busy

theorem Transitions.scalesUp_of_idle (h : Transitions setting s) {p : Nat} (inner : s.innerPool = some p)
    (idle : s.initializing p = false) {init : Initialization} (member : init ∈ s.initializations) :
    init.scalesUp ≠ false := by
  intro initial
  have used := h.first init member initial
  rw [current_of_scales (h.scales inner), inner] at used
  exact not_initializing idle member (Option.some.inj used).symm

structure Ends (setting : Setting) (s : State κ) : Prop where
  accounted : Accounted setting s
  transitions : Transitions setting s

theorem SameEnds.ends (h : SameEnds s s') (before : Ends setting s) : Ends setting s' :=
  ⟨h.accounted before.accounted, h.transitions before.transitions⟩

theorem Ends.triggerScaleUp (h : Ends setting s) (scales : setting.scales) :
    Ends setting (s.triggerScaleUp setting) := by
  unfold State.triggerScaleUp
  split
  case isTrue => exact h
  case isFalse enabled =>
    simp only [Bool.or_eq_true, not_or, Bool.not_eq_true, Option.isSome_eq_false_iff, Option.isNone_iff_eq_none]
      at enabled
    obtain ⟨⟨up, unused⟩, running⟩ := enabled
    have transitions := h.transitions
    refine ⟨h.accounted.added rfl rfl rfl rfl (fun _ => .inl) (fun _ current => current), ?_⟩
    exact {
      up := by
        have before := transitions.up
        rw [up, Bool.toNat_false] at before
        simp only [State.beginInitialize, State.createInnerPool, List.countP_append, List.countP_singleton,
          if_true, Bool.toNat_true]
        change s.initializations.countP (·.scalesUp) + 1 + s.disposalsBy .scaleUp = 1
        omega
      down := transitions.down
      first := fun init member initial => by
        cases List.mem_append.1 member with
        | inl before => exact transitions.first init before initial
        | inr new => rw [List.mem_singleton.1 new] at initial; cases initial
      absent := fun _ => unused
      ending := transitions.ending
      ended := fun _ disposed => by
        have still : s.disposed = true := disposed
        simp [running] at still
      plain := fun plain => by rw [scales] at plain; cases plain
      completed := fun ended => by
        have still : s.disposeCompleted = true := ended
        rw [transitions.not_completed scales running] at still
        cases still }

theorem Ends.initializePool (h : Ends setting s) (careful : Careful setting s .initializePool) :
    Ends setting (s.initializePool setting) := by
  have transitions := h.transitions
  unfold State.initializePool
  rw [Careful] at careful
  split
  case isTrue scales =>
    rw [if_pos scales] at careful
    obtain ⟨unused, up, closing⟩ := careful
    have idle : s.initializations = [] :=
      transitions.settled ((current_of_scales scales).trans unused) up
    refine ⟨h.accounted.added rfl rfl rfl rfl ?_ ?_, ?_⟩
    · intro p current
      rw [current_of_scales scales] at current
      exact .inr (Option.some.inj current).symm
    · intro p current
      simp [current_of_scales scales, unused] at current
    · exact {
        up := by
          have before := transitions.up
          simp only [State.beginInitialize, State.createInnerPool, List.countP_append, List.countP_singleton]
          exact before
        down := transitions.down
        first := fun init member _ => by
          rw [current_of_scales scales]
          cases List.mem_append.1 member with
          | inl before =>
            change init ∈ s.initializations at before
            simp [idle] at before
          | inr new => rw [List.mem_singleton.1 new]; rfl
        absent := fun pending => by
          have still : s.pendingScaleUp = true := pending
          simp [up] at still
        ending := transitions.ending
        ended := fun _ disposed drained => by
          have still : s.draining = false := drained
          simp [closing disposed] at still
        plain := fun plain => by rw [scales] at plain; cases plain
        completed := fun ended => by
          have ending := transitions.ending scales
          have still : s.disposeCompleted = true := ended
          cases disposed : s.disposed with
          | false =>
            simp [transitions.not_completed scales disposed] at still
          | true =>
            rw [closing disposed, still, disposed, Bool.toNat_true] at ending
            omega }
  case isFalse plain =>
    rw [if_neg plain] at careful
    rw [Bool.not_eq_true] at plain
    have accounted := h.accounted
    refine ⟨⟨accounted.inside, ?_, accounted.disposing, accounted.retired⟩, ?_⟩
    · intro p pool found enabled
      refine (accounted.live p pool found enabled).imp_right fun busy => ?_
      rw [State.initializing, State.beginInitialize, List.any_append]
      rw [State.initializing] at busy
      rw [busy]
      rfl
    · exact {
        up := by
          have before := transitions.up
          simp only [State.beginInitialize, List.countP_append, List.countP_singleton]
          exact before
        down := transitions.down
        first := fun init member initial => by
          cases List.mem_append.1 member with
          | inl before => exact transitions.first init before initial
          | inr new => rw [List.mem_singleton.1 new]; exact current_of_plain plain
        absent := transitions.absent
        ending := transitions.ending
        ended := transitions.ended
        plain := fun plain => { transitions.plain plain with }
        completed := fun ended => by
          have disposed := (transitions.completed ended 0 {} careful.1).1
          cases disposed }

theorem Ends.acquirePool (h : Ends setting s) : Ends setting (s.acquirePool setting).2 := by
  unfold State.acquirePool
  split
  case isTrue scales =>
    unfold State.acquireIdleScaling
    split
    case isTrue => exact h
    case isFalse =>
      split
      case h_1 => exact h.triggerScaleUp scales
      case h_2 p _ =>
        have timed : SameEnds s s.resetIdleTimer := {}
        exact (timed.trans (SameEnds.acquireIsolate setting _ p)).ends h
  case isFalse => exact (SameEnds.acquireIsolate setting s 0).ends h

theorem Ends.acquire [DecidableEq κ] (h : Ends setting s) (caller : κ) : Ends setting (s.acquire setting caller) := by
  unfold State.acquire
  split
  case h_1 => exact h
  case h_2 =>
    have out := h.acquirePool
    split
    case h_1 bridge s' taken =>
      rw [taken] at out
      have lent : SameEnds s' { s' with bridgesByCaller := s'.bridgesByCaller.set caller bridge } := {}
      exact lent.ends out
    case h_2 s' refused =>
      rw [refused] at out
      have waits : SameEnds s' (s'.createBridge (.coldStart caller)) := {}
      exact waits.ends out
    case h_3 s' refused =>
      rw [refused] at out
      exact out

theorem Ends.idleTimeout (h : Ends setting s) (careful : Careful setting s .idleTimeout) :
    Ends setting s.idleTimeout := by
  have transitions := h.transitions
  have quiet : SameEnds s { s with idleTimer := false } := {}
  unfold State.idleTimeout
  split
  case isFalse => exact h
  case isTrue timer =>
    unfold State.triggerScaleDown
    split
    case isTrue => exact quiet.ends h
    case isFalse enabled =>
      simp only [Bool.or_eq_true, not_or, Bool.not_eq_true] at enabled
      obtain ⟨⟨down, up⟩, running⟩ := enabled
      split
      case h_1 => exact quiet.ends h
      case h_2 p inner =>
        change s.innerPool = some p at inner
        have idle := careful timer running down p inner
        have scales := transitions.scales inner
        refine ⟨h.accounted.dropped scales inner rfl rfl rfl (fun _ => rfl) rfl, ?_⟩
        exact {
          up := by
            rw [disposalsBy_concat rfl]
            exact transitions.up
          down := by
            rw [disposalsBy_concat rfl]
            have before := transitions.down
            rw [down, Bool.toNat_false] at before
            change s.disposalsBy .scaleDown + 1 = 1
            omega
          first := fun _ member initial => absurd initial (transitions.scalesUp_of_idle inner idle member)
          absent := fun _ => rfl
          ending := fun _ => by
            rw [disposalsBy_concat rfl]
            exact transitions.ending scales
          ended := fun _ disposed => by
            have still : s.disposed = true := disposed
            simp [running] at still
          plain := fun plain => by rw [scales] at plain; cases plain
          completed := fun ended => by
            have still : s.disposeCompleted = true := ended
            rw [transitions.not_completed scales running] at still
            cases still }

theorem Ends.dispose (h : Ends setting s) : Ends setting (s.dispose setting) := by
  have transitions := h.transitions
  unfold State.dispose
  split
  case isTrue scales =>
    split
    case isTrue => exact h
    case isFalse running =>
      rw [Bool.not_eq_true] at running
      have ending := transitions.ending scales
      have notOver := transitions.not_completed scales running
      rw [running, notOver, Bool.toNat_false] at ending
      refine ⟨{ h.accounted with }, { transitions with
        ending := fun _ => ?_, ended := fun _ _ never => ?_, plain := fun plain => ?_ }⟩
      · change s.disposalsBy .evaluator + 1 + s.disposeCompleted.toNat = 1
        rw [notOver, Bool.toNat_false]
        omega
      · cases never
      · simp [scales] at plain
  case isFalse plain =>
    rw [Bool.not_eq_true] at plain
    have alone := transitions.plain plain
    have current := current_of_plain (s := s) plain
    refine ⟨h.accounted.disposed rfl (fun _ => rfl) rfl (h.accounted.inside 0 current) ?_ ?_, ?_⟩
    · intro q used
      rw [current_of_plain plain] at used
      exact current.trans used
    · intro q other before
      exact before.imp_left fun used => (current_of_plain plain).trans (current.symm.trans used)
    · exact {
        up := by
          rw [disposalsBy_concat rfl]
          exact transitions.up
        down := by
          rw [disposalsBy_concat rfl]
          exact transitions.down
        first := fun init member initial => (current_of_plain plain).trans
          (current.symm.trans (transitions.first init member initial))
        absent := transitions.absent
        ending := fun scales => by rw [plain] at scales; cases scales
        ended := fun scales => by rw [plain] at scales; cases scales
        plain := fun _ => by
          refine { alone with alone := (List.length_modify _ _ _).trans alone.alone, disposals := ?_ }
          intro disposal member
          cases List.mem_append.1 member with
          | inl before => exact alone.disposals disposal before
          | inr new => rw [List.mem_singleton.1 new]
        completed := fun ended p pool found => by
          obtain ⟨before, there, same⟩ := Places.getElem?_modify_eq_some found
          have done := transitions.completed ended p before there
          rw [same]
          split
          case isTrue => exact ⟨rfl, done.2⟩
          case isFalse => exact done }

theorem Ends.drained (h : Ends setting s) (careful : Careful setting s .drained) : Ends setting s.drained := by
  have transitions := h.transitions
  unfold State.drained
  split
  case isFalse => exact h
  case isTrue ended =>
    simp only [Bool.and_eq_true, Bool.not_eq_true'] at ended
    obtain ⟨⟨draining, up⟩, down⟩ := ended
    have scales : setting.scales = true := by
      cases scales : setting.scales with
      | true => rfl
      | false =>
        have never := (transitions.plain scales).draining
        simp [draining] at never
    have ending := transitions.ending scales
    rw [draining, Bool.toNat_true] at ending
    have few := s.disposed.toNat_le
    have evaluator : s.disposalsBy .evaluator = 0 := by omega
    have disposed : s.disposed.toNat = 1 := by omega
    have upBefore := transitions.up
    have downBefore := transitions.down
    rw [up, Bool.toNat_false] at upBefore
    rw [down, Bool.toNat_false] at downBefore
    split
    case h_1 unused =>
      have current := (current_of_scales scales).trans unused
      have left := h.accounted.nothing_left current (transitions.settled current up)
        (disposals_eq_nil (by omega) downBefore evaluator)
      refine ⟨{ h.accounted with }, { transitions with
        ending := fun _ => ?_, ended := fun _ _ _ => ⟨up, down, unused⟩, plain := fun plain => ?_,
        completed := fun _ => left }⟩
      · change s.disposalsBy .evaluator + 0 + 1 = s.disposed.toNat
        omega
      · simp [scales] at plain
    case h_2 p inner =>
      have idle := careful draining down p inner
      have completed : s.disposeCompleted = false := by
        cases ended : s.disposeCompleted with
        | false => rfl
        | true => rw [ended, Bool.toNat_true] at ending; omega
      refine ⟨h.accounted.dropped scales inner rfl rfl rfl (fun _ => rfl) rfl, ?_⟩
      exact {
        up := by
          rw [disposalsBy_concat rfl]
          exact transitions.up
        down := by
          rw [disposalsBy_concat rfl]
          exact transitions.down
        first := fun _ member initial => absurd initial (transitions.scalesUp_of_idle inner idle member)
        absent := fun _ => rfl
        ending := fun _ => by
          rw [disposalsBy_concat rfl]
          change s.disposalsBy .evaluator + 1 + 0 + s.disposeCompleted.toNat = s.disposed.toNat
          omega
        ended := fun _ _ _ => ⟨up, down, rfl⟩
        plain := fun plain => by rw [scales] at plain; cases plain
        completed := fun ended => by
          have still : s.disposeCompleted = true := ended
          rw [completed] at still
          cases still }

theorem initializing_erased {i : Nat} {init : Initialization} (found : s.initializations[i]? = some init) {q : Nat}
    (other : q ≠ init.pool) :
    { s with initializations := s.initializations.eraseIdx i }.initializing q = s.initializing q := by
  rw [State.initializing, State.initializing, (Places.perm_eraseIdx found).any_eq, List.any_cons,
    decide_eq_false (Ne.symm other), Bool.false_or]

theorem countP_erased {i : Nat} {init : Initialization} (found : s.initializations[i]? = some init) :
    s.initializations.countP (·.scalesUp) =
      (s.initializations.eraseIdx i).countP (·.scalesUp) + init.scalesUp.toNat := by
  rw [(Places.perm_eraseIdx found).countP_eq, List.countP_cons]
  cases init.scalesUp <;> rfl

theorem Accounted.fulfilled {i : Nat} {init : Initialization} (h : Accounted setting s)
    (found : s.initializations[i]? = some init) (fresh : s.pools[init.pool]? = some {})
    (pools : s'.pools = s.pools.modify init.pool fun pool => { pool with bridges := pool.bridges ++ init.fulfilled })
    (inits : s'.initializations = s.initializations.eraseIdx i) (disposals : s'.disposals = s.disposals)
    (uses : s'.current setting = some init.pool)
    (used : ∀ q, s.current setting = some q → q = init.pool) : Accounted setting s' where
  inside q current := by
    rw [uses] at current
    rw [pools, List.length_modify, ← Option.some.inj current]
    exact (List.getElem?_eq_some_iff.1 fresh).1
  live q pool there enabled := by
    rw [pools] at there
    obtain ⟨before, here, same⟩ := Places.getElem?_modify_eq_some there
    by_cases its : init.pool = q
    · exact .inl (its ▸ uses)
    · rw [same, if_neg its] at enabled
      refine (h.live q before here enabled).imp (fun current => absurd (used q current).symm its) fun busy => ?_
      rw [State.initializing, inits]
      exact (initializing_erased found (Ne.symm its)).trans busy
  disposing disposal member := by
    rw [disposals] at member
    obtain ⟨pool, there, disposed⟩ := h.disposing disposal member
    have apart : init.pool ≠ disposal.pool := by
      intro same
      rw [← same, fresh] at there
      cases there
      cases disposed
    exact ⟨pool, by rw [pools, List.getElem?_modify_ne _ _ apart, there], disposed⟩
  retired q pool there disposed := by
    rw [pools] at there
    rw [disposals]
    obtain ⟨before, here, same⟩ := Places.getElem?_modify_eq_some there
    by_cases its : init.pool = q
    · subst its
      cases fresh.symm.trans here
      rw [same, if_pos rfl] at disposed
      cases disposed
    · rw [same, if_neg its] at disposed ⊢
      exact h.retired q before here disposed

def State.fulfilled (s : State κ) (i : Nat) (init : Initialization) : State κ :=
  { s with initializations := s.initializations.eraseIdx i }.modifyPool init.pool
    fun pool => { pool with bridges := pool.bridges ++ init.fulfilled }

section

variable {i : Nat} {init : Initialization}

theorem Transitions.scales_of_pending (h : Transitions setting s) (pending : s.pendingScaleUp = true) :
    setting.scales = true := by
  cases scales : setting.scales with
  | true => rfl
  | false =>
    have never := (h.plain scales).up
    simp [pending] at never

theorem Transitions.up_of_found (h : Transitions setting s) (found : s.initializations[i]? = some init)
    (scalesUp : init.scalesUp = true) : s.pendingScaleUp = true ∧
      (s.initializations.eraseIdx i).countP (·.scalesUp) + s.disposalsBy .scaleUp = 0 := by
  have up := h.up
  have few := s.pendingScaleUp.toNat_le
  rw [countP_erased found, scalesUp, Bool.toNat_true] at up
  refine ⟨?_, by omega⟩
  cases pending : s.pendingScaleUp with
  | true => rfl
  | false =>
    rw [pending, Bool.toNat_false] at up
    omega

theorem Transitions.unfinished (h : Transitions setting s) (fresh : s.pools[init.pool]? = some {}) :
    s.disposeCompleted = false := by
  cases ended : s.disposeCompleted with
  | false => rfl
  | true =>
    have disposed := (h.completed ended init.pool {} fresh).1
    cases disposed

theorem Ends.scaleUpFails (h : Ends setting s) (found : s.initializations[i]? = some init)
    (fresh : s.pools[init.pool]? = some {}) (scalesUp : init.scalesUp = true) :
    Ends setting ((s.fulfilled i init).beginDispose init.pool .scaleUp) := by
  have transitions := h.transitions
  obtain ⟨pending, up⟩ := transitions.up_of_found found scalesUp
  have scales := transitions.scales_of_pending pending
  refine ⟨h.accounted.disposed (List.modify_modify_eq _ _ _ _) (fun _ => rfl) rfl
    (List.getElem?_eq_some_iff.1 fresh).1 (fun _ used => used) ?_, ?_⟩
  · intro q other before
    exact before.imp_right fun busy => (initializing_erased found other).trans busy
  · exact {
      up := by
        rw [disposalsBy_concat rfl]
        change (s.initializations.eraseIdx i).countP (·.scalesUp) + (s.disposalsBy .scaleUp + 1) =
          s.pendingScaleUp.toNat
        rw [pending, Bool.toNat_true]
        omega
      down := by
        rw [disposalsBy_concat rfl]
        exact transitions.down
      first := fun init' left => transitions.first init' (List.mem_of_mem_eraseIdx left)
      absent := transitions.absent
      ending := fun _ => by
        rw [disposalsBy_concat rfl]
        exact transitions.ending scales
      ended := transitions.ended
      plain := fun plain => by rw [scales] at plain; cases plain
      completed := fun ended => by
        have still : s.disposeCompleted = true := ended
        rw [transitions.unfinished fresh] at still
        cases still }

theorem Ends.scaleUpReady (h : Ends setting s) (found : s.initializations[i]? = some init)
    (fresh : s.pools[init.pool]? = some {}) (scalesUp : init.scalesUp = true) (running : s.disposed = false) :
    Ends setting (State.resetIdleTimer
      { s.fulfilled i init with innerPool := some init.pool, pendingScaleUp := false }) := by
  have transitions := h.transitions
  obtain ⟨pending, up⟩ := transitions.up_of_found found scalesUp
  have scales := transitions.scales_of_pending pending
  have current := (current_of_scales scales).trans (transitions.absent pending)
  refine ⟨h.accounted.fulfilled found fresh rfl rfl rfl ((current_of_scales scales).trans rfl) ?_, ?_⟩
  · intro q used
    simp [current] at used
  · exact {
      up := up
      down := transitions.down
      first := fun init' left initial => by
        have used := transitions.first init' (List.mem_of_mem_eraseIdx left) initial
        simp [current] at used
      absent := fun never => by cases never
      ending := transitions.ending
      ended := fun _ disposed => by
        have still : s.disposed = true := disposed
        simp [running] at still
      plain := fun plain => by rw [scales] at plain; cases plain
      completed := fun ended => by
        have still : s.disposeCompleted = true := ended
        rw [transitions.unfinished fresh] at still
        cases still }

theorem Ends.firstFulfilled (h : Ends setting s) (found : s.initializations[i]? = some init)
    (fresh : s.pools[init.pool]? = some {}) (first : init.scalesUp = false) :
    Ends setting (s.fulfilled i init) := by
  have transitions := h.transitions
  have current := transitions.first init (List.mem_of_getElem? found) first
  refine ⟨h.accounted.fulfilled found fresh rfl rfl rfl current ?_, ?_⟩
  · intro q used
    rw [current] at used
    exact (Option.some.inj used).symm
  · exact {
      up := by
        have up := transitions.up
        rw [countP_erased found, first, Bool.toNat_false, Nat.add_zero] at up
        exact up
      down := transitions.down
      first := fun init' left => transitions.first init' (List.mem_of_mem_eraseIdx left)
      absent := transitions.absent
      ending := transitions.ending
      ended := transitions.ended
      plain := fun plain =>
        { transitions.plain plain with
          alone := (List.length_modify _ _ _).trans (transitions.plain plain).alone }
      completed := fun ended => by
        have still : s.disposeCompleted = true := ended
        rw [transitions.unfinished fresh] at still
        cases still }

theorem Ends.initialized (h : Ends setting s) (stocked : Stocked setting s) :
    Ends setting (s.initialized setting i) := by
  unfold State.initialized
  split
  case h_1 => exact h
  case h_2 init found =>
    have fresh := stocked.starting init (List.mem_of_getElem? found)
    split
    case isFalse => exact h
    case isTrue =>
      dsimp only
      split
      case isTrue scalesUp =>
        split
        case isTrue => exact h.scaleUpFails found fresh scalesUp
        case isFalse ready =>
          simp only [Bool.or_eq_true, not_or, Bool.not_eq_true] at ready
          exact h.scaleUpReady found fresh scalesUp ready.2
      case isFalse first =>
        have filled := h.firstFulfilled found fresh (Bool.not_eq_true _ ▸ first)
        split
        case isTrue =>
          refine SameEnds.ends ?_ filled
          exact {}
        case isFalse => exact filled

end

/-- A pool that has been emptied. -/
def State.cleared (s : State κ) (i : Nat) (disposal : Disposal) : State κ :=
  { s with disposals := s.disposals.eraseIdx i }.modifyPool disposal.pool fun pool => { pool with bridges := [] }

theorem disposals_erased {i : Nat} {disposal other : Disposal} (found : s.disposals[i]? = some disposal)
    (member : other ∈ s.disposals) : other = disposal ∨ other ∈ s.disposals.eraseIdx i :=
  List.mem_cons.1 ((Places.perm_eraseIdx found).mem_iff.1 member)

theorem disposalsBy_erased {i : Nat} {disposal : Disposal} (found : s.disposals[i]? = some disposal)
    (disposer : Disposer) : s.disposalsBy disposer =
      (s.cleared i disposal).disposalsBy disposer + (decide (disposal.disposer = disposer)).toNat := by
  rw [State.disposalsBy, (Places.perm_eraseIdx found).countP_eq, List.countP_cons, State.disposalsBy]
  cases decide (disposal.disposer = disposer) <;> rfl

theorem Accounted.cleared {i : Nat} {disposal : Disposal} (h : Accounted setting s) (stocked : Stocked setting s)
    (found : s.disposals[i]? = some disposal) (ended : s.replenishPromises disposal.pool = 0) :
    Accounted setting (s.cleared i disposal) where
  inside p used := by
    rw [State.cleared, State.modifyPool, List.length_modify]
    exact h.inside p used
  live p pool there enabled := by
    obtain ⟨before, here, same⟩ := Places.getElem?_modify_eq_some there
    refine h.live p before here ?_
    rw [same] at enabled
    split at enabled <;> exact enabled
  disposing other member := by
    obtain ⟨pool, there, disposed⟩ := h.disposing other (List.mem_of_mem_eraseIdx member)
    rw [State.cleared, State.modifyPool, List.getElem?_modify, there]
    refine ⟨_, rfl, ?_⟩
    split <;> exact disposed
  retired p pool there disposed := by
    obtain ⟨before, here, same⟩ := Places.getElem?_modify_eq_some there
    by_cases its : disposal.pool = p
    · subst its
      rw [same, if_pos rfl]
      exact .inl ⟨rfl, (stocked.warming disposal.pool before here).trans ended⟩
    · rw [same, if_neg its] at disposed ⊢
      refine (h.retired p before here disposed).imp_right fun going => ?_
      obtain ⟨other, member, at_⟩ := going
      refine ⟨other, (disposals_erased found member).resolve_left ?_, at_⟩
      rintro rfl
      exact its at_

theorem Accounted.disposeEnds (h : Accounted setting s) (disposal : Disposal) :
    Accounted setting (s.disposeEnds disposal) := by
  unfold State.disposeEnds
  split <;> exact { h with }

theorem SameEnds.disposeEnds (h : SameEnds s s') (disposal : Disposal) :
    SameEnds (s.disposeEnds disposal) (s'.disposeEnds disposal) := by
  unfold State.disposeEnds
  split
  case h_1 => exact { h with pendingScaleUp := rfl }
  case h_2 => exact { h with pendingScaleDown := rfl }
  case h_3 => exact { h with disposeCompleted := rfl }

theorem Plain.cleared {i : Nat} {disposal : Disposal} (h : Plain s) : Plain (s.cleared i disposal) :=
  { h with
    alone := (List.length_modify _ _ _).trans h.alone
    disposals := fun other member => h.disposals other (List.mem_of_mem_eraseIdx member) }

/-- When the `dispose` of the evaluator ends, every pool is disposed and empty. -/
theorem Ends.cleared_last {i : Nat} {disposal : Disposal} (h : Ends setting s) (stocked : Stocked setting s)
    (found : s.disposals[i]? = some disposal) (ended : s.replenishPromises disposal.pool = 0)
    (evaluator : disposal.disposer = .evaluator) (p : Nat) (pool : IsolatePool)
    (there : (s.cleared i disposal).pools[p]? = some pool) : pool.disposed ∧ pool.IsEmpty := by
  have transitions := h.transitions
  cases scales : setting.scales with
  | true =>
    have up := transitions.up
    have down := transitions.down
    have ending := transitions.ending scales
    rw [disposalsBy_erased found, evaluator] at up down ending
    simp only [decide_true, Bool.toNat_true, reduceCtorEq, decide_false, Bool.toNat_false, Nat.add_zero] at up down ending
    have few := s.disposed.toNat_le
    have disposed : s.disposed = true := by
      cases disposed : s.disposed with
      | true => rfl
      | false => rw [disposed, Bool.toNat_false] at ending; omega
    have drained : s.draining = false := by
      cases draining : s.draining with
      | false => rfl
      | true => rw [draining, Bool.toNat_true] at ending; omega
    obtain ⟨noUp, noDown, unused⟩ := transitions.ended scales disposed drained
    rw [noUp, Bool.toNat_false] at up
    rw [noDown, Bool.toNat_false] at down
    have current := (current_of_scales scales).trans unused
    exact (h.accounted.cleared stocked found ended).nothing_left current (transitions.settled current noUp)
      (disposals_eq_nil (by omega) down (by omega)) p pool there
  | false =>
    have plain := transitions.plain scales
    obtain ⟨before, here, same⟩ := Places.getElem?_modify_eq_some there
    have inside := (List.getElem?_eq_some_iff.1 here).1
    rw [show (s.pools.length = 1) from plain.alone] at inside
    have its : disposal.pool = p := by
      rw [plain.disposals disposal (List.mem_of_getElem? found)]
      omega
    subst its
    obtain ⟨pool', there', disposed⟩ := h.accounted.disposing disposal (List.mem_of_getElem? found)
    cases here.symm.trans there'
    rw [same, if_pos rfl]
    exact ⟨disposed, rfl, (stocked.warming disposal.pool before here).trans ended⟩

theorem Transitions.cleared {i : Nat} {disposal : Disposal} (h : Ends setting s) (stocked : Stocked setting s)
    (found : s.disposals[i]? = some disposal) (ended : s.replenishPromises disposal.pool = 0) :
    Transitions setting ((s.cleared i disposal).disposeEnds disposal) := by
  have transitions := h.transitions
  have up := transitions.up
  have down := transitions.down
  have ending := transitions.ending
  rw [disposalsBy_erased found] at up down ending
  have completed : s.disposeCompleted → ∀ (p : Nat) (pool : IsolatePool), (s.cleared i disposal).pools[p]? = some pool →
      pool.disposed ∧ pool.IsEmpty := by
    intro done p pool there
    obtain ⟨before, here, same⟩ := Places.getElem?_modify_eq_some there
    have empty := transitions.completed done p before here
    rw [same]
    split
    case isTrue => exact ⟨empty.1, rfl, empty.2.2⟩
    case isFalse => exact empty
  have fewUp := s.pendingScaleUp.toNat_le
  have fewDown := s.pendingScaleDown.toNat_le
  have few := s.disposed.toNat_le
  cases purpose : disposal.disposer with
  | scaleUp =>
    rw [purpose] at up down ending
    simp only [decide_true, Bool.toNat_true, reduceCtorEq, decide_false, Bool.toNat_false, Nat.add_zero] at up down ending
    unfold State.disposeEnds
    rw [purpose]
    exact {
      up := by
        change s.initializations.countP (·.scalesUp) + (s.cleared i disposal).disposalsBy .scaleUp = 0
        omega
      down := down
      first := transitions.first
      absent := fun never => by cases never
      ending := ending
      ended := fun scales disposed drained =>
        ⟨rfl, (transitions.ended scales disposed drained).2.1, (transitions.ended scales disposed drained).2.2⟩
      plain := fun plain => { (transitions.plain plain).cleared with up := rfl }
      completed := completed }
  | scaleDown =>
    rw [purpose] at up down ending
    simp only [decide_true, Bool.toNat_true, reduceCtorEq, decide_false, Bool.toNat_false, Nat.add_zero] at up down ending
    unfold State.disposeEnds
    rw [purpose]
    exact {
      up := up
      down := by
        change (s.cleared i disposal).disposalsBy .scaleDown = 0
        omega
      first := transitions.first
      absent := transitions.absent
      ending := ending
      ended := fun scales disposed drained =>
        ⟨(transitions.ended scales disposed drained).1, rfl, (transitions.ended scales disposed drained).2.2⟩
      plain := fun plain => { (transitions.plain plain).cleared with down := rfl }
      completed := completed }
  | evaluator =>
    rw [purpose] at up down ending
    simp only [decide_true, Bool.toNat_true, reduceCtorEq, decide_false, Bool.toNat_false, Nat.add_zero] at up down ending
    unfold State.disposeEnds
    rw [purpose]
    exact {
      up := up
      down := down
      first := transitions.first
      absent := transitions.absent
      ending := fun scales => by
        have ending := ending scales
        change (s.cleared i disposal).disposalsBy .evaluator + s.draining.toNat + 1 = s.disposed.toNat
        omega
      ended := transitions.ended
      plain := fun plain => { (transitions.plain plain).cleared with }
      completed := fun _ => h.cleared_last stocked found ended purpose }

theorem Ends.disposeGoesOn {i : Nat} (h : Ends setting s) (stocked : Stocked setting s) :
    Ends setting (s.disposeGoesOn i) := by
  unfold State.disposeGoesOn
  split
  case h_1 => exact h
  case h_2 disposal found =>
    split
    case isTrue ended =>
      dsimp only
      rw [foldl_disposeBridge_modifyPool]
      have same := SameEnds.disposeBridges (s.cleared i disposal) ((s.pools[disposal.pool]?.map (·.bridges)).getD [])
      exact (same.disposeEnds disposal).ends
        ⟨(h.accounted.cleared stocked found ended).disposeEnds disposal, Transitions.cleared h stocked found ended⟩
    case isFalse => exact h

end NodeAutomation.ExpressionEvaluator
