import NodeAutomation.ExpressionRuntime.BridgeOwnership

/-! What the pools know of their bridges, and that every event keeps each bridge with one owner and
each pool within its size. -/

namespace NodeAutomation.ExpressionEvaluator

open scoped List

variable {κ : Type*} {setting : Setting} {s s' : State κ} {hand hand' : List Nat}

structure Stocked (setting : Setting) (s : State κ) : Prop where
  known : ∀ creation ∈ s.creations, ∀ p attempt, creation.creator = .replenish p attempt → p < s.pools.length
  warming : ∀ (p : Nat) (pool : IsolatePool), s.pools[p]? = some pool → pool.warming = s.replenishPromises p
  within : ∀ (p : Nat) (pool : IsolatePool), s.pools[p]? = some pool → pool.bridges.length + pool.warming ≤ setting.size
  starting : ∀ init ∈ s.initializations, s.pools[init.pool]? = some {}
  full : ∀ init ∈ s.initializations, init.results.length = setting.size
  alone : (s.initializations.map (·.pool)).Nodup
  failed : ∀ init ∈ s.initializations, ∀ result ∈ init.results, result.2 = some false →
    setting.builds result.1 = false

theorem not_initializing {p : Nat} (idle : s.initializing p = false) {init : Initialization}
    (member : init ∈ s.initializations) : init.pool ≠ p := by
  intro same
  have busy : s.initializing p = true := List.any_eq_true.2 ⟨init, member, decide_eq_true same⟩
  simp [busy] at idle

theorem Stocked.of_change {p : Nat} {change : IsolatePool → IsolatePool} (h : Stocked setting s)
    (pools : s'.pools = s.pools.modify p change) (inits : s'.initializations = s.initializations)
    (keeps : s.initializing p = false ∨ change = id)
    (known : ∀ creation ∈ s'.creations, creation ∈ s.creations ∨
      ∀ q attempt, creation.creator = .replenish q attempt → q < s.pools.length)
    (others : ∀ q, q ≠ p → s'.replenishPromises q = s.replenishPromises q)
    (here : ∀ pool, s.pools[p]? = some pool → (change pool).warming = s'.replenishPromises p ∧
      (change pool).bridges.length + (change pool).warming ≤ setting.size) : Stocked setting s' where
  known creation member q attempt its := by
    rw [pools, List.length_modify]
    cases known creation member with
    | inl before => exact h.known creation before q attempt its
    | inr new => exact new q attempt its
  warming q pool found := by
    rw [pools] at found
    obtain ⟨before, there, same⟩ := Places.getElem?_modify_eq_some found
    by_cases its : p = q
    · subst its
      rw [same, if_pos rfl]
      exact (here before there).1
    · rw [same, if_neg its, others q (Ne.symm its)]
      exact h.warming q before there
  within q pool found := by
    rw [pools] at found
    obtain ⟨before, there, same⟩ := Places.getElem?_modify_eq_some found
    by_cases its : p = q
    · subst its
      rw [same, if_pos rfl]
      exact (here before there).2
    · rw [same, if_neg its]
      exact h.within q before there
  starting init member := by
    rw [inits] at member
    rw [pools]
    cases keeps with
    | inl idle => rw [List.getElem?_modify_ne _ _ (Ne.symm (not_initializing idle member)), h.starting init member]
    | inr same => rw [same, List.modify_id, h.starting init member]
  full := by rw [inits]; exact h.full
  alone := by rw [inits]; exact h.alone
  failed := by rw [inits]; exact h.failed

/-- A caller that waits for a bridge has none, and waits for one only. -/
structure Lent (s : State κ) [DecidableEq κ] : Prop where
  once : s.waiting.Nodup
  absent : ∀ caller ∈ s.waiting, s.bridgesByCaller.get caller = none

structure Kept [DecidableEq κ] (setting : Setting) (s : State κ) (hand : List Nat) : Prop where
  owned : Owned setting s hand
  stocked : Stocked setting s
  lent : Lent s

variable [DecidableEq κ]

theorem kept_initial (setting : Setting) : Kept setting (State.initial setting : State κ) [] where
  owned bridge := by
    have none : (State.initial setting : State κ).places = [] := by
      unfold State.initial State.places State.creating State.warm State.held
      cases setting.scales <;> rfl
    rw [none]
    exact ⟨Nat.zero_le _, fun _ known => absurd known (Nat.not_lt_zero _)⟩
  stocked :=
    { known := fun creation member => absurd member List.not_mem_nil
      warming := fun p pool found => by
        have fresh : pool = {} := by
          simp only [State.initial] at found
          split at found
          case isTrue => cases found
          case isFalse => exact List.mem_singleton.1 (List.mem_of_getElem? found)
        rw [fresh]
        rfl
      within := fun p pool found => by
        have fresh : pool = {} := by
          simp only [State.initial] at found
          split at found
          case isTrue => cases found
          case isFalse => exact List.mem_singleton.1 (List.mem_of_getElem? found)
        rw [fresh]
        exact Nat.zero_le _
      starting := fun init member => absurd member List.not_mem_nil
      full := fun init member => absurd member List.not_mem_nil
      alone := List.nodup_nil
      failed := fun init member => absurd member List.not_mem_nil }
  lent := ⟨List.nodup_nil, fun caller member => absurd member List.not_mem_nil⟩

theorem Kept.of_same (h : Kept setting s hand) (calls : s'.calls = s.calls := by rfl)
    (creations : s'.creations = s.creations := by rfl)
    (initializations : s'.initializations = s.initializations := by rfl)
    (disposedBridges : s'.disposedBridges = s.disposedBridges := by rfl)
    (pools : s'.pools = s.pools := by rfl)
    (bridgesByCaller : s'.bridgesByCaller = s.bridgesByCaller := by rfl) : Kept setting s' hand := by
  have promises : s'.replenishPromises = s.replenishPromises := by
    funext p
    rw [State.replenishPromises, creations, State.replenishPromises]
  have waiting : s'.waiting = s.waiting := by rw [State.waiting, creations, State.waiting]
  have places : s'.places = s.places := by
    simp only [State.places, State.creating, State.warm, State.held, creations, initializations, disposedBridges,
      pools, bridgesByCaller]
  refine ⟨?_, ?_, ?_⟩
  · intro bridge
    rw [places, calls]
    exact h.owned bridge
  · exact {
      known := by rw [creations, pools]; exact h.stocked.known
      warming := by rw [promises, pools]; exact h.stocked.warming
      within := by rw [pools]; exact h.stocked.within
      starting := by rw [initializations, pools]; exact h.stocked.starting
      full := by rw [initializations]; exact h.stocked.full
      alone := by rw [initializations]; exact h.stocked.alone
      failed := by rw [initializations]; exact h.stocked.failed }
  · exact ⟨by rw [waiting]; exact h.lent.once, by rw [waiting, bridgesByCaller]; exact h.lent.absent⟩

omit [DecidableEq κ] in
theorem replenishPromises_createBridge (s : State κ) (creator : Creator κ) (q : Nat) :
    (s.createBridge creator).replenishPromises q = s.replenishPromises q + (creator.replenishes q).toNat := by
  simp only [State.replenishPromises, State.createBridge, List.countP_append, List.countP_singleton]
  cases creator.replenishes q <;> rfl

omit [DecidableEq κ] in
theorem replenishPromises_settle {i : Nat} {creation : Creation κ} (found : s.creations[i]? = some creation)
    (q : Nat) : s.replenishPromises q =
      { s with creations := s.creations.eraseIdx i }.replenishPromises q + (creation.creator.replenishes q).toNat := by
  simp only [State.replenishPromises, (Places.perm_eraseIdx found).countP_eq, List.countP_cons]
  cases creation.creator.replenishes q <;> rfl

omit [DecidableEq κ] in
theorem waiting_settle {i : Nat} {creation : Creation κ} (found : s.creations[i]? = some creation) :
    s.waiting ~ creation.creator.caller.toList ++ { s with creations := s.creations.eraseIdx i }.waiting := by
  refine ((Places.perm_eraseIdx found).filterMap _).trans ?_
  rw [List.filterMap_cons]
  cases creation.creator.caller <;> exact List.Perm.refl _

theorem Kept.replenish {p : Nat} (h : Kept setting s hand) (attempt : Nat)
    (careful : s.Replenishes setting p → s.initializing p = false) :
    Kept setting (s.replenish setting p attempt) hand := by
  unfold State.replenish
  split
  case h_1 => exact h
  case h_2 pool found =>
    split
    case isTrue => exact h
    case isFalse enabled =>
      split
      case isTrue => exact h
      case isFalse room =>
        have idle := careful ⟨pool, found, by simpa using enabled, by omega⟩
        have owned : Owned setting (s.modifyPool p fun pool => { pool with warming := pool.warming + 1 }) hand :=
          h.owned.modifyPool_same fun _ => rfl
        refine ⟨owned.createBridge _, ?_, ?_⟩
        · refine h.stocked.of_change rfl rfl (.inl idle) ?_ ?_ ?_
          · intro creation member
            cases List.mem_append.1 member with
            | inl before => exact .inl before
            | inr new =>
              refine .inr fun q attempt its => ?_
              rw [List.mem_singleton.1 new] at its
              cases its
              exact (List.getElem?_eq_some_iff.1 found).1
          · intro q other
            rw [replenishPromises_createBridge]
            simp [Creator.replenishes, Ne.symm other, State.replenishPromises, State.modifyPool]
          · intro before there
            cases found.symm.trans there
            rw [replenishPromises_createBridge]
            have same := h.stocked.warming p pool found
            have grown : (State.modifyPool s p fun pool => { pool with warming := pool.warming + 1 }).replenishPromises
                p = s.replenishPromises p := rfl
            simp only [Creator.replenishes, decide_true, Bool.toNat_true, grown]
            omega
        · have waiting : ((s.modifyPool p fun pool => { pool with warming := pool.warming + 1 }).createBridge
              (.replenish p attempt)).waiting = s.waiting := by
            simp [State.waiting, State.createBridge, State.modifyPool, Creator.caller]
          exact ⟨by rw [waiting]; exact h.lent.once, by rw [waiting]; exact h.lent.absent⟩

theorem Kept.coldStart {caller : κ} (h : Kept setting s hand) (free : caller ∉ s.waiting)
    (absent : s.bridgesByCaller.get caller = none) :
    Kept setting (s.createBridge (.coldStart caller)) hand where
  owned := h.owned.createBridge _
  stocked := by
    refine h.stocked.of_change (p := 0) (List.modify_id _ _).symm rfl (.inr rfl) ?_ ?_ ?_
    · intro creation member
      cases List.mem_append.1 member with
      | inl before => exact .inl before
      | inr new =>
        refine .inr fun q attempt its => ?_
        simp [List.mem_singleton.1 new] at its
    · intro q other
      rw [replenishPromises_createBridge]
      rfl
    · intro pool there
      rw [replenishPromises_createBridge]
      exact ⟨h.stocked.warming 0 pool there, h.stocked.within 0 pool there⟩
  lent := by
    have waiting : (s.createBridge (.coldStart caller)).waiting = s.waiting ++ [caller] := by
      simp [State.waiting, State.createBridge, Creator.caller]
    refine ⟨?_, ?_⟩
    · rw [waiting, List.nodup_append]
      refine ⟨h.lent.once, List.nodup_singleton _, ?_⟩
      intro other before new there
      rw [List.mem_singleton.1 there]
      rintro rfl
      exact free before
    · intro other member
      rw [waiting, List.mem_append] at member
      cases member with
      | inl before => exact h.lent.absent other before
      | inr new => rw [List.mem_singleton.1 new]; exact absent

theorem Kept.disposeBridge {bridge : Nat} (h : Kept setting s (bridge :: hand)) :
    Kept setting (s.disposeBridge bridge) hand := by
  refine ⟨h.owned.disposeBridge, ?_, ?_⟩
  · unfold State.disposeBridge
    split
    case isTrue => exact h.stocked
    case isFalse => exact { h.stocked with }
  · unfold State.disposeBridge
    split
    case isTrue => exact h.lent
    case isFalse => exact { h.lent with }

theorem Kept.unbuilt {bridge : Nat} (h : Kept setting s (bridge :: hand)) (unbuilt : setting.builds bridge = false) :
    Kept setting s hand :=
  ⟨h.owned.unbuilt unbuilt, h.stocked, h.lent⟩

theorem Kept.lend {caller : κ} {bridge : Nat} (h : Kept setting s (bridge :: hand)) (free : caller ∉ s.waiting)
    (absent : s.bridgesByCaller.get caller = none) :
    Kept setting { s with bridgesByCaller := s.bridgesByCaller.set caller bridge } hand where
  owned := h.owned.lend absent
  stocked := { h.stocked with }
  lent :=
    { once := h.lent.once
      absent := fun other member => by
        have apart : other ≠ caller := fun same => free (same ▸ member)
        rw [OrderedMap.get_set_of_ne _ _ apart]
        exact h.lent.absent other member }

theorem Kept.takeBack {caller : κ} {bridge : Nat} (h : Kept setting s hand)
    (found : s.bridgesByCaller.get caller = some bridge) :
    Kept setting { s with bridgesByCaller := s.bridgesByCaller.delete caller } (bridge :: hand) where
  owned := h.owned.takeBack found
  stocked := { h.stocked with }
  lent :=
    { once := h.lent.once
      absent := fun other member => by
        rw [OrderedMap.get_delete]
        split
        case isTrue => rfl
        case isFalse => exact h.lent.absent other member }

omit [DecidableEq κ] in
theorem acquireIsolate_cases (setting : Setting) (s : State κ) (p : Nat) :
    (∃ error, s.acquireIsolate setting p = (.error error, s)) ∨
      ∃ pool bridge rest, s.pools[p]? = some pool ∧ pool.disposed = false ∧ pool.bridges = bridge :: rest ∧
        s.acquireIsolate setting p =
          (.ok bridge, (s.modifyPool p fun pool => { pool with bridges := rest }).replenish setting p 0) := by
  unfold State.acquireIsolate
  split
  case h_1 => exact .inl ⟨.exhausted, rfl⟩
  case h_2 pool found =>
    split
    case isTrue => exact .inl ⟨.disposed, rfl⟩
    case isFalse enabled =>
      split
      case h_1 => exact .inl ⟨.exhausted, rfl⟩
      case h_2 bridge rest stored => exact .inr ⟨pool, bridge, rest, found, by simpa using enabled, stored, rfl⟩

omit [DecidableEq κ] in
theorem waiting_replenish (setting : Setting) (s : State κ) (p attempt : Nat) :
    (s.replenish setting p attempt).waiting = s.waiting ∧
      (s.replenish setting p attempt).bridgesByCaller = s.bridgesByCaller := by
  unfold State.replenish
  split
  case h_1 => exact ⟨rfl, rfl⟩
  case h_2 =>
    split
    case isTrue => exact ⟨rfl, rfl⟩
    case isFalse =>
      split
      case isTrue => exact ⟨rfl, rfl⟩
      case isFalse => exact ⟨by simp [State.waiting, State.createBridge, State.modifyPool, Creator.caller], rfl⟩

omit [DecidableEq κ] in
theorem Stocked.idle {p : Nat} {pool : IsolatePool} (h : Stocked setting s) (found : s.pools[p]? = some pool)
    (used : pool ≠ {}) : s.initializing p = false := by
  cases busy : s.initializing p with
  | false => rfl
  | true =>
    obtain ⟨init, member, here⟩ := List.any_eq_true.1 busy
    have fresh := h.starting init member
    rw [of_decide_eq_true here, found] at fresh
    exact absurd (Option.some.inj fresh) used

theorem Kept.shift {p bridge : Nat} {pool : IsolatePool} {rest : List Nat} (h : Kept setting s hand)
    (found : s.pools[p]? = some pool) (stored : pool.bridges = bridge :: rest) :
    Kept setting (s.modifyPool p fun pool => { pool with bridges := rest }) (bridge :: hand) where
  owned := h.owned.modifyPool found (by
    rw [stored]
    exact List.perm_middle)
  stocked := by
    have used : pool ≠ {} := fun fresh => by rw [fresh] at stored; cases stored
    refine h.stocked.of_change rfl rfl (.inl (h.stocked.idle found used)) (fun _ => .inl) (fun _ _ => rfl) ?_
    intro before there
    cases found.symm.trans there
    have room := h.stocked.within p pool found
    rw [stored, List.length_cons] at room
    exact ⟨h.stocked.warming p pool found, by dsimp only; omega⟩
  lent := { h.lent with }

theorem Kept.acquireIsolate {p bridge : Nat} {pool : IsolatePool} {rest : List Nat} (h : Kept setting s hand)
    (found : s.pools[p]? = some pool) (stored : pool.bridges = bridge :: rest) :
    Kept setting ((s.modifyPool p fun pool => { pool with bridges := rest }).replenish setting p 0)
      (bridge :: hand) := by
  have used : pool ≠ {} := fun fresh => by rw [fresh] at stored; cases stored
  exact (h.shift found stored).replenish 0 fun _ => h.stocked.idle found used

theorem Kept.releaseIsolate {bridge : Nat} (h : Kept setting s (bridge :: hand)) (p : Nat) :
    Kept setting (s.releaseIsolate setting p bridge) hand := by
  rw [State.releaseIsolate, if_neg (by rw [h.owned.not_disposed]; exact Bool.false_ne_true)]
  exact h.disposeBridge.of_same

theorem Kept.release (h : Kept setting s []) (caller : κ) : Kept setting (s.release setting caller) [] := by
  unfold State.release
  split
  case h_1 => exact h
  case h_2 bridge found =>
    have back := h.takeBack found
    dsimp only
    split
    case isTrue =>
      unfold State.releaseIdleScaling
      split
      case h_1 p _ _ => exact back.releaseIsolate p
      case h_2 => exact back.disposeBridge
    case isFalse => exact back.releaseIsolate 0

theorem Kept.createInnerPool (h : Kept setting s hand) : Kept setting s.createInnerPool.2 hand where
  owned := by
    refine h.owned.of_perm ?_ rfl
    simp only [State.createInnerPool, State.places, State.warm, List.flatMap_append, List.flatMap_cons,
      List.flatMap_nil, List.append_nil]
    exact List.Perm.refl _
  stocked :=
    { known := fun creation member p attempt its => by
        have before := h.stocked.known creation member p attempt its
        simp only [State.createInnerPool, List.length_append, List.length_singleton]
        omega
      warming := fun p pool found => by
        cases Places.getElem?_concat found with
        | inl before => exact h.stocked.warming p pool before
        | inr new =>
          rw [new.2, new.1]
          symm
          refine List.countP_eq_zero.2 fun creation member => ?_
          cases its : creation.creator with
          | coldStart caller => exact Bool.false_ne_true
          | replenish q attempt =>
            have known := h.stocked.known creation member q attempt its
            simp only [Creator.replenishes, decide_eq_true_eq]
            omega
      within := fun p pool found => by
        cases Places.getElem?_concat found with
        | inl before => exact h.stocked.within p pool before
        | inr new => rw [new.2]; exact Nat.zero_le _
      starting := fun init member => Places.getElem?_append_of_some (h.stocked.starting init member) _
      full := h.stocked.full
      alone := h.stocked.alone
      failed := h.stocked.failed }
  lent := { h.lent with }

omit [DecidableEq κ] in
theorem Stocked.not_initializing_new (h : Stocked setting s) : s.initializing s.pools.length = false := by
  refine List.any_eq_false.2 fun init member => ?_
  have inside := (List.getElem?_eq_some_iff.1 (h.starting init member)).1
  simp only [decide_eq_true_eq]
  omega

theorem Kept.beginInitialize {p : Nat} (h : Kept setting s hand) (fresh : s.pools[p]? = some {})
    (idle : s.initializing p = false) (scalesUp : Bool) :
    Kept setting (s.beginInitialize setting p scalesUp) hand where
  owned := h.owned.beginInitialize p scalesUp
  stocked :=
    { known := h.stocked.known
      warming := h.stocked.warming
      within := h.stocked.within
      starting := fun init member => by
        cases List.mem_append.1 member with
        | inl before => exact h.stocked.starting init before
        | inr new => rw [List.mem_singleton.1 new]; exact fresh
      full := fun init member => by
        cases List.mem_append.1 member with
        | inl before => exact h.stocked.full init before
        | inr new => rw [List.mem_singleton.1 new, List.length_map, List.length_range']
      alone := by
        simp only [State.beginInitialize, List.map_append, List.map_cons, List.map_nil]
        rw [List.nodup_append]
        refine ⟨h.stocked.alone, List.nodup_singleton _, ?_⟩
        intro other before new there
        rw [List.mem_singleton.1 there]
        obtain ⟨init, member, rfl⟩ := List.mem_map.1 before
        exact not_initializing idle member
      failed := fun init member result among => by
        cases List.mem_append.1 member with
        | inl before => exact h.stocked.failed init before result among
        | inr new =>
          rw [List.mem_singleton.1 new] at among
          obtain ⟨bridge, _, rfl⟩ := List.mem_map.1 among
          exact fun never => by cases never }
  lent := { h.lent with }

theorem Kept.beginInnerInitialize (h : Kept setting s hand) (scalesUp : Bool) :
    Kept setting (s.createInnerPool.2.beginInitialize setting s.pools.length scalesUp) hand :=
  h.createInnerPool.beginInitialize List.getElem?_concat_length h.stocked.not_initializing_new scalesUp

theorem Kept.beginDispose {p : Nat} (h : Kept setting s hand) (idle : s.initializing p = false)
    (disposer : Disposer) : Kept setting (s.beginDispose p disposer) hand where
  owned := by
    have owned : Owned setting (s.modifyPool p fun pool => { pool with disposed := true }) hand :=
      h.owned.modifyPool_same fun _ => rfl
    exact owned
  stocked := by
    refine h.stocked.of_change rfl rfl (.inl idle) (fun _ => .inl) (fun _ _ => rfl) ?_
    intro pool found
    exact ⟨h.stocked.warming p pool found, h.stocked.within p pool found⟩
  lent := { h.lent with }

theorem Kept.initializePool (h : Kept setting s []) (careful : Careful setting s .initializePool) :
    Kept setting (s.initializePool setting) [] := by
  unfold State.initializePool
  split
  case isTrue => exact (h.beginInnerInitialize false).of_same
  case isFalse plain =>
    rw [Careful, if_neg plain] at careful
    exact h.beginInitialize careful.1 careful.2 false

theorem Kept.triggerScaleUp (h : Kept setting s []) : Kept setting (s.triggerScaleUp setting) [] := by
  unfold State.triggerScaleUp
  split
  case isTrue => exact h
  case isFalse => exact (h.beginInnerInitialize true).of_same

structure HandsOut (setting : Setting) (s : State κ) (result : Except PoolError Nat × State κ) : Prop where
  kept : Kept setting result.2 result.1.toOption.toList
  waiting : result.2.waiting = s.waiting
  bridgesByCaller : result.2.bridgesByCaller = s.bridgesByCaller

theorem Kept.handsOut_acquireIsolate (h : Kept setting s []) (p : Nat) :
    HandsOut setting s (s.acquireIsolate setting p) := by
  obtain ⟨error, refused⟩ | ⟨pool, bridge, rest, found, _, stored, taken⟩ := acquireIsolate_cases setting s p
  · rw [refused]
    exact ⟨h, rfl, rfl⟩
  · rw [taken]
    exact ⟨h.acquireIsolate found stored, (waiting_replenish _ _ _ _).1, (waiting_replenish _ _ _ _).2⟩

omit [DecidableEq κ] in
theorem waiting_triggerScaleUp (setting : Setting) (s : State κ) : (s.triggerScaleUp setting).waiting = s.waiting ∧
    (s.triggerScaleUp setting).bridgesByCaller = s.bridgesByCaller := by
  unfold State.triggerScaleUp
  split <;> exact ⟨rfl, rfl⟩

section

variable (h : Kept setting s [])
include h

theorem Kept.handsOut_acquirePool : HandsOut setting s (s.acquirePool setting) := by
  unfold State.acquirePool
  split
  case isTrue =>
    unfold State.acquireIdleScaling
    split
    case isTrue => exact ⟨h, rfl, rfl⟩
    case isFalse =>
      split
      case h_1 =>
        exact ⟨h.triggerScaleUp, (waiting_triggerScaleUp setting s).1, (waiting_triggerScaleUp setting s).2⟩
      case h_2 p _ =>
        have timed : Kept setting s.resetIdleTimer [] := h.of_same
        have out := timed.handsOut_acquireIsolate p
        exact ⟨out.kept, out.waiting, out.bridgesByCaller⟩
  case isFalse => exact h.handsOut_acquireIsolate 0

theorem Kept.acquire {caller : κ} (free : caller ∉ s.waiting) :
    Kept setting (s.acquire setting caller) [] := by
  unfold State.acquire
  split
  case h_1 => exact h
  case h_2 absent =>
    have out := h.handsOut_acquirePool
    split
    case h_1 bridge s' taken =>
      rw [taken] at out
      exact out.kept.lend (by rw [out.waiting]; exact free) (by rw [out.bridgesByCaller]; exact absent)
    case h_2 s' refused =>
      rw [refused] at out
      exact out.kept.coldStart (by rw [out.waiting]; exact free) (by rw [out.bridgesByCaller]; exact absent)
    case h_3 s' refused =>
      rw [refused] at out
      exact out.kept

theorem Kept.dispose (careful : Careful setting s .dispose) :
    Kept setting (s.dispose setting) [] := by
  unfold State.dispose
  split
  case isTrue =>
    split
    case isTrue => exact h
    case isFalse => exact h.of_same
  case isFalse plain => exact h.beginDispose (careful (by simpa using plain)) .evaluator

theorem Kept.drained (careful : Careful setting s .drained) :
    Kept setting s.drained [] := by
  unfold State.drained
  split
  case isTrue ended =>
    simp only [Bool.and_eq_true, Bool.not_eq_true'] at ended
    split
    case h_1 => exact h.of_same
    case h_2 p inner =>
      have taken : Kept setting { s with draining := false, innerPool := none } [] := h.of_same
      exact taken.beginDispose (careful ended.1.1 ended.2 p inner) .evaluator
  case isFalse => exact h

theorem Kept.idleTimeout (careful : Careful setting s .idleTimeout) :
    Kept setting s.idleTimeout [] := by
  unfold State.idleTimeout
  split
  case isTrue timer =>
    unfold State.triggerScaleDown
    split
    case isTrue => exact h.of_same
    case isFalse enabled =>
      simp only [Bool.or_eq_true, not_or, Bool.not_eq_true] at enabled
      split
      case h_1 => exact h.of_same
      case h_2 p inner =>
        have taken : Kept setting { s with idleTimer := false, innerPool := none, pendingScaleDown := true } [] :=
          h.of_same
        exact taken.beginDispose (careful timer enabled.2 enabled.1.1 p inner) .scaleDown
  case isFalse => exact h

theorem Kept.releaseGoesOn {i : Nat} (careful : Careful setting s (.releaseGoesOn i)) :
    Kept setting (s.releaseGoesOn setting i) [] := by
  unfold State.releaseGoesOn
  split
  case h_1 => exact h
  case h_2 p found =>
    have taken : Kept setting { s with releases := s.releases.eraseIdx i } [] := h.of_same
    exact taken.replenish 0 (careful p found)

theorem Kept.retryFires {i : Nat} (careful : Careful setting s (.retryFires i)) :
    Kept setting (s.retryFires setting i) [] := by
  unfold State.retryFires
  split
  case h_1 => exact h
  case h_2 p attempt found =>
    have taken : Kept setting { s with retries := s.retries.eraseIdx i } [] := h.of_same
    exact taken.replenish attempt (careful (p, attempt) found)

end

omit [DecidableEq κ] in
theorem Stocked.replenishing {i p attempt : Nat} {creation : Creation κ} (h : Stocked setting s)
    (found : s.creations[i]? = some creation) (its : creation.creator = .replenish p attempt) :
    ∃ pool, s.pools[p]? = some pool ∧ s.initializing p = false ∧
      pool.warming = { s with creations := s.creations.eraseIdx i }.replenishPromises p + 1 := by
  have inside := h.known creation (List.mem_of_getElem? found) p attempt its
  have there : s.pools[p]? = some s.pools[p] := List.getElem?_eq_getElem inside
  have promises := replenishPromises_settle found p
  rw [its, Creator.replenishes, decide_eq_true rfl, Bool.toNat_true] at promises
  have warming := (h.warming p _ there).trans promises
  refine ⟨s.pools[p], there, h.idle there ?_, warming⟩
  intro fresh
  simp [fresh] at warming

theorem Kept.settleColdStart {i : Nat} {creation : Creation κ} {caller : κ} (h : Kept setting s hand)
    (found : s.creations[i]? = some creation) (its : creation.creator = .coldStart caller) :
    Kept setting { s with creations := s.creations.eraseIdx i } (creation.bridge :: hand) ∧
      caller ∉ { s with creations := s.creations.eraseIdx i }.waiting ∧ s.bridgesByCaller.get caller = none := by
  have waiting := waiting_settle found
  rw [its, Creator.caller, Option.toList_some, List.singleton_append] at waiting
  have once := waiting.nodup_iff.1 h.lent.once
  rw [List.nodup_cons] at once
  refine ⟨⟨h.owned.settle found, ?_, ?_⟩, once.1, h.lent.absent caller (waiting.mem_iff.2 List.mem_cons_self)⟩
  · refine h.stocked.of_change (p := 0) (List.modify_id _ _).symm rfl (.inr rfl)
      (fun _ member => .inl (List.mem_of_mem_eraseIdx member)) ?_ ?_
    · intro q _
      rw [replenishPromises_settle found q, its]
      rfl
    · intro pool there
      refine ⟨?_, h.stocked.within 0 pool there⟩
      rw [id, h.stocked.warming 0 pool there, replenishPromises_settle found 0, its]
      rfl
  · exact ⟨once.2, fun other member => h.lent.absent other (waiting.mem_iff.2 (List.mem_cons_of_mem _ member))⟩

theorem Kept.settleReplenish {i p attempt : Nat} {creation : Creation κ} (h : Kept setting s hand)
    (found : s.creations[i]? = some creation) (its : creation.creator = .replenish p attempt) :
    Kept setting
      ({ s with creations := s.creations.eraseIdx i }.modifyPool p
        fun pool => { pool with warming := pool.warming - 1 }) (creation.bridge :: hand) where
  owned := (h.owned.settle found).modifyPool_same fun _ => rfl
  stocked := by
    obtain ⟨pool, there, idle, warming⟩ := h.stocked.replenishing found its
    refine h.stocked.of_change rfl rfl (.inl idle) (fun _ member => .inl (List.mem_of_mem_eraseIdx member)) ?_ ?_
    · intro q other
      rw [replenishPromises_settle found q, its]
      simp [Creator.replenishes, Ne.symm other, State.replenishPromises, State.modifyPool]
    · intro before here
      cases there.symm.trans here
      have room := h.stocked.within p pool there
      refine ⟨?_, ?_⟩
      · dsimp only
        rw [warming]
        rfl
      · dsimp only
        omega
  lent := by
    have waiting := waiting_settle found
    rw [its, Creator.caller, Option.toList_none, List.nil_append] at waiting
    exact ⟨waiting.nodup_iff.1 h.lent.once, fun caller member => h.lent.absent caller (waiting.mem_iff.2 member)⟩

theorem Kept.push {p bridge : Nat} {pool : IsolatePool} (h : Kept setting s (bridge :: hand))
    (found : s.pools[p]? = some pool) (idle : s.initializing p = false)
    (room : pool.bridges.length + pool.warming < setting.size) :
    Kept setting (s.modifyPool p fun pool => { pool with bridges := pool.bridges ++ [bridge] }) hand where
  owned := h.owned.modifyPool found (by rw [List.append_assoc]; exact List.Perm.refl _)
  stocked := by
    refine h.stocked.of_change rfl rfl (.inl idle) (fun _ => .inl) (fun _ _ => rfl) ?_
    intro before there
    cases found.symm.trans there
    exact ⟨h.stocked.warming p pool found, by simp only [List.length_append, List.length_singleton]; omega⟩
  lent := { h.lent with }

theorem Kept.createSettles {i : Nat} {initialized : Bool} (h : Kept setting s [])
    (careful : Careful setting s (.createSettles i initialized)) :
    Kept setting (s.createSettles setting i initialized) [] := by
  unfold State.createSettles
  split
  case h_1 => exact h
  case h_2 creation found =>
    have unbuilt : (initialized && setting.builds creation.bridge) ≠ true → setting.builds creation.bridge = false := by
      intro failed
      cases built : setting.builds creation.bridge with
      | false => rfl
      | true => exact absurd (by rw [careful creation found built, built]; rfl) failed
    dsimp only
    split
    case h_1 caller its =>
      obtain ⟨kept, free, absent⟩ := h.settleColdStart found its
      split
      case isTrue => exact kept.lend free absent
      case isFalse failed => exact kept.unbuilt (unbuilt failed)
    case h_2 p attempt its =>
      have kept := h.settleReplenish found its
      split
      case isTrue =>
        obtain ⟨pool, there, idle, warming⟩ := h.stocked.replenishing found its
        have room := h.stocked.within p pool there
        split
        case h_1 gone => simp [State.modifyPool, there] at gone
        case h_2 pool' there' =>
          have same : pool' = { pool with warming := pool.warming - 1 } := by
            obtain ⟨before, here, changed⟩ := Places.getElem?_modify_eq_some there'
            cases there.symm.trans here
            rw [changed, if_pos rfl]
          split
          case isTrue => exact kept.disposeBridge
          case isFalse =>
            refine kept.push there' idle ?_
            rw [same]
            dsimp only
            omega
      case isFalse failed =>
        have without := kept.unbuilt (unbuilt failed)
        split
        case isTrue => exact without.of_same
        case isFalse => exact without

/-- What an `initialize` is for, and the bridges it waits for. -/
def Initialization.shape (init : Initialization) : Nat × Bool × List Nat :=
  (init.pool, init.scalesUp, init.results.map Prod.fst)

omit [DecidableEq κ] in
theorem shape_initSettles (setting : Setting) (s : State κ) (i j : Nat) (initialized : Bool) :
    (s.initSettles setting i j initialized).initializations.map (·.shape) = s.initializations.map (·.shape) := by
  apply List.ext_getElem?
  intro n
  simp only [State.initSettles, List.getElem?_map, List.getElem?_modify]
  cases s.initializations[n]? with
  | none => rfl
  | some init =>
    by_cases here : i = n
    · simp only [here, if_true, Initialization.shape, Option.map_eq_map, Option.map_some]
      congr 3
      apply List.ext_getElem?
      intro k
      simp only [List.getElem?_map, List.getElem?_modify]
      cases init.results[k]? with
      | none => rfl
      | some result => by_cases this : j = k <;> simp [this]
    · simp [here]

omit [DecidableEq κ] in
theorem failed_initSettles {i j : Nat} {initialized : Bool} (h : Stocked setting s)
    (careful : Careful setting s (.initSettles i j initialized)) :
    ∀ init ∈ (s.initSettles setting i j initialized).initializations, ∀ result ∈ init.results,
      result.2 = some false → setting.builds result.1 = false := by
  intro init member result among failed
  cases Places.mem_modify member with
  | inl old => exact h.failed init old result among failed
  | inr new =>
    obtain ⟨before, there, rfl⟩ := new
    have known := h.failed before (List.mem_of_getElem? there)
    cases Places.mem_modify among with
    | inl old => exact known result old failed
    | inr new =>
      obtain ⟨waited, here, rfl⟩ := new
      dsimp only at failed ⊢
      cases earlier : waited.2 with
      | some outcome =>
        rw [earlier] at failed
        cases outcome with
        | false => exact known waited (List.mem_of_getElem? here) earlier
        | true => cases failed
      | none =>
        rw [earlier] at failed
        cases built : setting.builds waited.1 with
        | false => rfl
        | true =>
          simp [built, careful before there waited here built] at failed

theorem Kept.initSettles {i j : Nat} {initialized : Bool} (h : Kept setting s [])
    (careful : Careful setting s (.initSettles i j initialized)) :
    Kept setting (s.initSettles setting i j initialized) [] := by
  have shape := shape_initSettles setting s i j initialized
  have failed := failed_initSettles h.stocked careful
  have before {init' : Initialization} (member : init' ∈ (s.initSettles setting i j initialized).initializations) :
      ∃ init ∈ s.initializations, init.shape = init'.shape := by
    rw [← List.mem_map, ← shape]
    exact List.mem_map_of_mem member
  refine ⟨h.owned.of_perm (List.Perm.of_eq ?_) rfl, ⟨h.stocked.known, h.stocked.warming, h.stocked.within,
    ?_, ?_, ?_, failed⟩, { h.lent with }⟩
  · have numbers := congrArg (fun shapes => (shapes.map (·.2.2)).flatten) shape
    simp only [List.map_map] at numbers
    simp only [State.places, State.creating, List.flatMap_def]
    exact congrArg (fun creating => creating ++ _ ++ _ ++ _) numbers
  · intro init' member
    obtain ⟨init, there, same⟩ := before member
    have pool : init.pool = init'.pool := congrArg Prod.fst same
    rw [← pool]
    exact h.stocked.starting init there
  · intro init' member
    obtain ⟨init, there, same⟩ := before member
    have long := congrArg (fun shape => shape.2.2.length) same
    simp only [Initialization.shape, List.length_map] at long
    rw [← long]
    exact h.stocked.full init there
  · have pools := congrArg (fun shapes => shapes.map Prod.fst) shape
    simp only [List.map_map] at pools
    exact (congrArg List.Nodup pools).mpr h.stocked.alone

theorem count_fulfilled {init : Initialization} (all : init.results.all (·.2.isSome))
    (failed : ∀ result ∈ init.results, result.2 = some false → setting.builds result.1 = false) {bridge : Nat}
    (built : setting.builds bridge) : init.fulfilled.count bridge = (init.results.map Prod.fst).count bridge := by
  unfold Initialization.fulfilled
  generalize init.results = results at *
  induction results with
  | nil => rfl
  | cons result rest ih =>
    rw [List.all_cons, Bool.and_eq_true] at all
    have later := ih all.2 fun other member => failed other (List.mem_cons_of_mem _ member)
    rw [List.filter_cons]
    split
    case isTrue => rw [List.map_cons, List.map_cons, List.count_cons, List.count_cons, later]
    case isFalse unready =>
      obtain ⟨other, outcome⟩ := result
      have missing : outcome = some false := by
        cases outcome with
        | none => cases all.1
        | some ready =>
          cases ready with
          | false => rfl
          | true => exact absurd rfl unready
      have unbuilt := failed (other, outcome) List.mem_cons_self missing
      rw [List.map_cons, List.count_cons_of_ne, later]
      rintro rfl
      simp [unbuilt] at built

omit [DecidableEq κ] in
theorem Stocked.alone_erased {i : Nat} {init : Initialization} (h : Stocked setting s)
    (found : s.initializations[i]? = some init) :
    { s with initializations := s.initializations.eraseIdx i }.initializing init.pool = false := by
  have once := ((Places.perm_eraseIdx found).map (·.pool)).nodup_iff.1 h.alone
  rw [List.map_cons, List.nodup_cons] at once
  refine List.any_eq_false.2 fun other member => ?_
  simp only [decide_eq_true_eq]
  intro same
  exact once.1 (same ▸ List.mem_map_of_mem member)

theorem Kept.fulfill {i : Nat} {init : Initialization} (h : Kept setting s hand)
    (found : s.initializations[i]? = some init) (all : init.results.all (·.2.isSome)) :
    Kept setting
      ({ s with initializations := s.initializations.eraseIdx i }.modifyPool init.pool
        fun pool => { pool with bridges := pool.bridges ++ init.fulfilled }) hand := by
  have member := List.mem_of_getElem? found
  have fresh := h.stocked.starting init member
  have idle := h.stocked.alone_erased found
  have unbuilt := h.stocked.failed init member
  have sublist : init.fulfilled.Sublist (init.results.map Prod.fst) := List.filter_sublist.map _
  refine ⟨?_, ?_, { h.lent with }⟩
  · have taken : Owned setting { s with initializations := s.initializations.eraseIdx i } (init.fulfilled ++ hand) := by
      refine (h.owned.initialized found).of_hand ?_ ?_
      · intro bridge
        rw [List.count_append, List.count_append]
        exact Nat.add_le_add_right (sublist.count_le bridge) _
      · intro bridge built
        rw [List.count_append, List.count_append, count_fulfilled all unbuilt built]
    exact taken.modifyPool fresh (by rw [List.append_assoc])
  · have erased : Stocked setting { s with initializations := s.initializations.eraseIdx i } :=
      { known := h.stocked.known
        warming := h.stocked.warming
        within := h.stocked.within
        starting := fun other left => h.stocked.starting other (List.mem_of_mem_eraseIdx left)
        full := fun other left => h.stocked.full other (List.mem_of_mem_eraseIdx left)
        alone := h.stocked.alone.sublist ((List.eraseIdx_sublist _ _).map _)
        failed := fun other left => h.stocked.failed other (List.mem_of_mem_eraseIdx left) }
    refine erased.of_change rfl rfl (.inl idle) (fun _ => .inl) (fun _ _ => rfl) ?_
    intro pool there
    cases fresh.symm.trans there
    refine ⟨h.stocked.warming init.pool {} fresh, ?_⟩
    have long := sublist.length_le
    rw [List.length_map, h.stocked.full init member] at long
    exact long

theorem Kept.initialized {i : Nat} (h : Kept setting s []) : Kept setting (s.initialized setting i) [] := by
  unfold State.initialized
  split
  case h_1 => exact h
  case h_2 init found =>
    split
    case isTrue all =>
      have filled := h.fulfill found all
      dsimp only
      split
      case isTrue =>
        split
        case isTrue => exact filled.beginDispose (h.stocked.alone_erased found) .scaleUp
        case isFalse => exact filled.of_same
      case isFalse =>
        split
        case isTrue => exact filled.of_same
        case isFalse => exact filled
    case isFalse => exact h

omit [DecidableEq κ] in
theorem disposeBridge_modifyPool (s : State κ) (bridge p : Nat) (change : IsolatePool → IsolatePool) :
    (s.disposeBridge bridge).modifyPool p change = (s.modifyPool p change).disposeBridge bridge := by
  have same : (s.modifyPool p change).isDisposed bridge = s.isDisposed bridge := rfl
  unfold State.disposeBridge
  rw [same]
  split <;> rfl

omit [DecidableEq κ] in
theorem foldl_disposeBridge_modifyPool (s : State κ) (bridges : List Nat) (p : Nat)
    (change : IsolatePool → IsolatePool) :
    (bridges.foldl State.disposeBridge s).modifyPool p change =
      bridges.foldl State.disposeBridge (s.modifyPool p change) := by
  induction bridges generalizing s with
  | nil => rfl
  | cons bridge rest ih => rw [List.foldl_cons, List.foldl_cons, ih, disposeBridge_modifyPool]

theorem Kept.disposeBridges {bridges : List Nat} (h : Kept setting s (bridges ++ hand)) :
    Kept setting (bridges.foldl State.disposeBridge s) hand := by
  induction bridges generalizing s with
  | nil => exact h
  | cons bridge rest ih => exact ih h.disposeBridge

theorem Kept.clear {p : Nat} (h : Kept setting s hand) (idle : s.initializing p = false) :
    Kept setting (s.modifyPool p fun pool => { pool with bridges := [] })
      ((s.pools[p]?.map (·.bridges)).getD [] ++ hand) := by
  refine ⟨?_, ?_, { h.lent with }⟩
  · cases found : s.pools[p]? with
    | none =>
      have same : s.modifyPool p (fun pool => { pool with bridges := [] }) = s := by
        rw [State.modifyPool, List.modify_eq_self (List.getElem?_eq_none_iff.1 found)]
      rw [same]
      exact h.owned
    | some pool => exact h.owned.modifyPool found (List.Perm.refl _)
  · refine h.stocked.of_change rfl rfl (.inl idle) (fun _ => .inl) (fun _ _ => rfl) ?_
    intro pool found
    have room := h.stocked.within p pool found
    exact ⟨h.stocked.warming p pool found, by simp only [List.length_nil]; omega⟩

theorem Kept.disposeGoesOn {i : Nat} (h : Kept setting s [])
    (idle : ∀ disposal, s.disposals[i]? = some disposal → s.initializing disposal.pool = false) :
    Kept setting (s.disposeGoesOn i) [] := by
  unfold State.disposeGoesOn
  split
  case h_1 => exact h
  case h_2 disposal found =>
    split
    case isTrue =>
      dsimp only
      rw [foldl_disposeBridge_modifyPool]
      have taken : Kept setting { s with disposals := s.disposals.eraseIdx i } [] := h.of_same
      have disposed := (taken.clear (idle disposal found)).disposeBridges
      unfold State.disposeEnds
      split <;> exact disposed.of_same
    case isFalse => exact h

end NodeAutomation.ExpressionEvaluator
