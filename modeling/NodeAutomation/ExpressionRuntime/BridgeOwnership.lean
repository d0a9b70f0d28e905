import NodeAutomation.ExpressionRuntime.IsolatePool
import NodeAutomation.Lib.Places

/-! Who owns the bridges of an evaluator: each bridge has one owner at every moment, or is in the
hands of the step that runs. -/

namespace NodeAutomation.ExpressionEvaluator

open scoped List

variable {κ : Type*} {setting : Setting} {s s' : State κ}

def Creator.caller : Creator κ → Option κ
  | .replenish _ _ => none
  | .coldStart caller => some caller

namespace State

def creating (s : State κ) : List Nat :=
  s.initializations.flatMap (fun init => init.results.map Prod.fst) ++ s.creations.map (·.bridge)

def warm (s : State κ) : List Nat := s.pools.flatMap (·.bridges)

def held (s : State κ) : List Nat := s.bridgesByCaller.values

def places (s : State κ) : List Nat := s.creating ++ (s.warm ++ (s.held ++ s.disposedBridges))

def waiting (s : State κ) : List κ := s.creations.filterMap (·.creator.caller)

def initializing (s : State κ) (p : Nat) : Bool := s.initializations.any (·.pool = p)

def beingCreated (s : State κ) (p : Nat) : Nat :=
  ((s.initializations.filter (·.pool = p)).flatMap (·.results)).length + s.replenishPromises p

def current (setting : Setting) (s : State κ) : Option Nat := if setting.scales then s.innerPool else some 0

end State

structure Isolated (setting : Setting) (s : State κ) : Prop where
  owned : ∀ bridge < s.calls, setting.builds bridge → s.places.count bridge = 1
  within : ∀ (p : Nat) (pool : IsolatePool), s.pools[p]? = some pool → pool.bridges.length + s.beingCreated p ≤ setting.size
  freed : s.disposeCompleted → s.held = [] → s.waiting = [] →
    ∀ bridge < s.calls, setting.builds bridge → bridge ∈ s.disposedBridges

/-- A replenishment of the pool would create a bridge. -/
def State.Replenishes (setting : Setting) (s : State κ) (p : Nat) : Prop :=
  ∃ pool ∈ s.pools[p]?, pool.disposed = false ∧ pool.bridges.length + pool.warming < setting.size

instance (s : State κ) (p : Nat) : Decidable (s.Replenishes setting p) :=
  inferInstanceAs (Decidable (∃ pool ∈ s.pools[p]?, _))

/-- What keeps the pools sound: a bridge that has been built gets ready, a caller does not acquire
while it waits, a pool is initialized when nothing has become of it, and while it initializes it
is neither replenished nor disposed. -/
def Careful (setting : Setting) (s : State κ) : Event κ → Prop
  | .initializePool =>
    if setting.scales then
      s.innerPool = none ∧ s.pendingScaleUp = false ∧ (s.disposed → s.draining)
    else s.pools[0]? = some {} ∧ s.initializing 0 = false
  | .acquire caller => caller ∉ s.waiting
  | .createSettles i initialized =>
    ∀ creation ∈ s.creations[i]?, setting.builds creation.bridge → initialized
  | .initSettles i j initialized =>
    ∀ init ∈ s.initializations[i]?, ∀ result ∈ init.results[j]?, setting.builds result.1 → initialized
  | .releaseGoesOn i => ∀ p ∈ s.releases[i]?, s.Replenishes setting p → s.initializing p = false
  | .retryFires i => ∀ retry ∈ s.retries[i]?, s.Replenishes setting retry.1 → s.initializing retry.1 = false
  | .idleTimeout =>
    s.idleTimer → s.disposed = false → s.pendingScaleDown = false →
      ∀ p ∈ s.innerPool, s.initializing p = false
  | .dispose => setting.scales = false → s.initializing 0 = false
  | .drained => s.draining → s.pendingScaleDown = false → ∀ p ∈ s.innerPool, s.initializing p = false
  | .release _ | .initialized _ | .disposeGoesOn _ => True

instance [DecidableEq κ] (s : State κ) : (event : Event κ) → Decidable (Careful setting s event)
  | .initializePool =>
    inferInstanceAs (Decidable (if setting.scales then
      s.innerPool = none ∧ s.pendingScaleUp = false ∧ (s.disposed → s.draining)
    else s.pools[0]? = some ({} : IsolatePool) ∧ s.initializing 0 = false))
  | .acquire caller => inferInstanceAs (Decidable (caller ∉ s.waiting))
  | .createSettles i initialized =>
    inferInstanceAs (Decidable (∀ creation ∈ s.creations[i]?, setting.builds creation.bridge → initialized))
  | .initSettles i j initialized =>
    inferInstanceAs (Decidable (∀ init ∈ s.initializations[i]?, ∀ result ∈ init.results[j]?,
      setting.builds result.1 → initialized))
  | .releaseGoesOn i =>
    inferInstanceAs (Decidable (∀ p ∈ s.releases[i]?, s.Replenishes setting p → s.initializing p = false))
  | .retryFires i =>
    inferInstanceAs (Decidable (∀ retry ∈ s.retries[i]?, s.Replenishes setting retry.1 →
      s.initializing retry.1 = false))
  | .idleTimeout =>
    inferInstanceAs (Decidable (s.idleTimer → s.disposed = false → s.pendingScaleDown = false →
      ∀ p ∈ s.innerPool, s.initializing p = false))
  | .dispose => inferInstanceAs (Decidable (setting.scales = false → s.initializing 0 = false))
  | .drained =>
    inferInstanceAs (Decidable (s.draining → s.pendingScaleDown = false →
      ∀ p ∈ s.innerPool, s.initializing p = false))
  | .release _ | .initialized _ | .disposeGoesOn _ => isTrue trivial

/-- A bridge has one owner at most, or is in the hands of the step that runs; one that has been
built has an owner. -/
def Owned (setting : Setting) (s : State κ) (hand : List Nat) : Prop :=
  ∀ bridge, (s.places ++ hand).count bridge ≤ (if bridge < s.calls then 1 else 0) ∧
    (setting.builds bridge → bridge < s.calls → (s.places ++ hand).count bridge = 1)

variable {hand hand' : List Nat}

theorem Owned.of_perm (h : Owned setting s hand) (moved : (s'.places ++ hand').Perm (s.places ++ hand))
    (calls : s'.calls = s.calls) : Owned setting s' hand' := by
  intro bridge
  rw [moved.count_eq, calls]
  exact h bridge

theorem Owned.of_hand (h : Owned setting s hand) (few : ∀ bridge, hand'.count bridge ≤ hand.count bridge)
    (all : ∀ bridge, setting.builds bridge → hand'.count bridge = hand.count bridge) : Owned setting s hand' := by
  intro bridge
  have before := h bridge
  rw [List.count_append] at before ⊢
  refine ⟨Nat.le_trans (Nat.add_le_add_left (few bridge) _) before.1, fun built known => ?_⟩
  rw [all bridge built]
  exact before.2 built known

theorem Owned.unbuilt {bridge : Nat} (h : Owned setting s (bridge :: hand))
    (unbuilt : setting.builds bridge = false) : Owned setting s hand := by
  refine h.of_hand (fun other => List.count_le_count_cons) fun other built => ?_
  rw [List.count_cons_of_ne]
  rintro rfl
  simp [unbuilt] at built

theorem Owned.not_disposed {bridge : Nat} (h : Owned setting s (bridge :: hand)) :
    s.isDisposed bridge = false := by
  cases already : s.isDisposed bridge with
  | false => rfl
  | true =>
    have inside : 0 < s.disposedBridges.count bridge := List.count_pos_iff.2 (of_decide_eq_true already)
    have few := (h bridge).1
    simp only [State.places, List.count_append, List.count_cons_self] at few
    split at few <;> omega

theorem Owned.disposeBridge {bridge : Nat} (h : Owned setting s (bridge :: hand)) :
    Owned setting (s.disposeBridge bridge) hand := by
  rw [State.disposeBridge, if_neg (by rw [h.not_disposed]; exact Bool.false_ne_true)]
  refine h.of_perm ?_ rfl
  simp only [State.places, State.creating, State.warm, State.held, List.append_assoc]
  refine List.Perm.append_left _ (List.Perm.append_left _ (List.Perm.append_left _ ?_))
  exact List.Perm.append_left _ (List.Perm.append_left _ (List.Perm.refl _))

theorem Owned.of_created {created : Nat} (h : Owned setting s hand)
    (grown : s'.places ~ s.places ++ List.range' s.calls created) (calls : s'.calls = s.calls + created) :
    Owned setting s' hand := by
  intro bridge
  have before := h bridge
  have fresh : (List.range' s.calls created).count bridge =
      if s.calls ≤ bridge ∧ bridge < s.calls + created then 1 else 0 := by
    have once : (List.range' s.calls created).Nodup := List.nodup_range'
    rw [once.count]
    simp only [List.mem_range'_1]
  have total : (s'.places ++ hand).count bridge = (s.places ++ hand).count bridge +
      if s.calls ≤ bridge ∧ bridge < s.calls + created then 1 else 0 := by
    rw [List.count_append, grown.count_eq, List.count_append, fresh, List.count_append]
    omega
  rw [total, calls]
  by_cases old : bridge < s.calls
  · rw [if_pos old] at before
    rw [if_neg (by omega), if_pos (by omega)]
    exact ⟨before.1, fun built _ => before.2 built old⟩
  · rw [if_neg old] at before
    by_cases new : bridge < s.calls + created
    · rw [if_pos ⟨by omega, new⟩, if_pos new]
      exact ⟨by omega, fun _ _ => by omega⟩
    · rw [if_neg (by omega), if_neg new]
      exact ⟨before.1, fun _ known => absurd known new⟩

theorem Owned.createBridge (h : Owned setting s hand) (creator : Creator κ) :
    Owned setting (s.createBridge creator) hand := by
  have grown : (s.createBridge creator).places ~ s.places ++ List.range' s.calls 1 := by
    simp only [State.createBridge, State.places, State.creating, List.map_append, List.append_assoc]
    refine List.Perm.append_left _ (List.Perm.append_left _ ?_)
    exact List.perm_append_comm.trans (by simp only [List.append_assoc]; exact List.Perm.refl _)
  exact h.of_created grown rfl

theorem Owned.beginInitialize (h : Owned setting s hand) (p : Nat) (scalesUp : Bool) :
    Owned setting (s.beginInitialize setting p scalesUp) hand := by
  have fresh : (List.range' s.calls setting.size).map (Prod.fst ∘ fun bridge => (bridge, (none : Option Bool))) =
      List.range' s.calls setting.size := List.map_id _
  have grown : (s.beginInitialize setting p scalesUp).places ~ s.places ++ List.range' s.calls setting.size := by
    simp only [State.beginInitialize, State.places, State.creating, List.flatMap_append, List.flatMap_cons,
      List.flatMap_nil, List.append_nil, List.map_map, fresh, List.append_assoc]
    refine List.Perm.append_left _ (List.perm_append_comm.trans ?_)
    simp only [List.append_assoc]
    exact List.Perm.refl _
  exact h.of_created grown rfl

theorem places_modifyPool_same (s : State κ) (p : Nat) {change : IsolatePool → IsolatePool}
    (same : ∀ pool, (change pool).bridges = pool.bridges) : (s.modifyPool p change).places = s.places := by
  have warm : (s.modifyPool p change).warm = s.warm := by
    simp only [State.warm, State.modifyPool, List.flatMap_def]
    congr 1
    apply List.ext_getElem?
    intro i
    simp only [List.getElem?_map, List.getElem?_modify]
    cases s.pools[i]? with
    | none => rfl
    | some pool => by_cases here : p = i <;> simp [here, same]
  simp only [State.places, warm]
  rfl

section

variable (h : Owned setting s hand)
include h

theorem Owned.modifyPool {p : Nat} {pool : IsolatePool} {change : IsolatePool → IsolatePool} (found : s.pools[p]? = some pool)
    (moved : (change pool).bridges ++ hand' ~ pool.bridges ++ hand) :
    Owned setting (s.modifyPool p change) hand' := by
  refine h.of_perm ?_ rfl
  rw [List.perm_iff_count]
  intro bridge
  have warm := (Places.perm_flatMap_modify (f := change) (·.bridges) found).count_eq bridge
  have hands := moved.count_eq bridge
  simp only [State.places, State.creating, State.warm, State.held, State.modifyPool, List.count_append] at *
  omega

theorem Owned.modifyPool_same {p : Nat} {change : IsolatePool → IsolatePool}
    (same : ∀ pool, (change pool).bridges = pool.bridges) : Owned setting (s.modifyPool p change) hand := by
  refine h.of_perm ?_ rfl
  rw [places_modifyPool_same s p same]

theorem Owned.settle {i : Nat} {creation : Creation κ}
    (found : s.creations[i]? = some creation) :
    Owned setting { s with creations := s.creations.eraseIdx i } (creation.bridge :: hand) := by
  refine h.of_perm ?_ rfl
  rw [List.perm_iff_count]
  intro bridge
  have taken := ((Places.perm_eraseIdx found).map (·.bridge)).count_eq bridge
  rw [List.map_cons, List.count_cons] at taken
  simp only [State.places, State.creating, State.warm, State.held, List.count_append, List.count_cons] at *
  omega

theorem Owned.initialized {i : Nat} {init : Initialization}
    (found : s.initializations[i]? = some init) :
    Owned setting { s with initializations := s.initializations.eraseIdx i }
      (init.results.map Prod.fst ++ hand) := by
  refine h.of_perm ?_ rfl
  rw [List.perm_iff_count]
  intro bridge
  have taken := ((Places.perm_eraseIdx found).flatMap_right fun init => init.results.map Prod.fst).count_eq bridge
  rw [List.flatMap_cons, List.count_append] at taken
  simp only [State.places, State.creating, State.warm, State.held, List.count_append] at *
  omega

end

section

variable [DecidableEq κ]

theorem perm_values_of_get {m : OrderedMap κ Nat} {caller : κ} {bridge : Nat} (found : m.get caller = some bridge) :
    m.values ~ bridge :: (m.delete caller).values :=
  (m.perm_of_get found).map Prod.snd

theorem Owned.lend {caller : κ} {bridge : Nat} (h : Owned setting s (bridge :: hand))
    (absent : s.bridgesByCaller.get caller = none) :
    Owned setting { s with bridgesByCaller := s.bridgesByCaller.set caller bridge } hand := by
  refine h.of_perm ?_ rfl
  rw [List.perm_iff_count]
  intro other
  have lent := (perm_values_of_get (s.bridgesByCaller.get_set_self caller bridge)).count_eq other
  rw [OrderedMap.delete_set, OrderedMap.delete_of_get_none _ absent, List.count_cons] at lent
  simp only [State.places, State.creating, State.warm, State.held, List.count_append, List.count_cons] at *
  omega

theorem Owned.takeBack {caller : κ} {bridge : Nat} (h : Owned setting s hand)
    (found : s.bridgesByCaller.get caller = some bridge) :
    Owned setting { s with bridgesByCaller := s.bridgesByCaller.delete caller } (bridge :: hand) := by
  refine h.of_perm ?_ rfl
  rw [List.perm_iff_count]
  intro other
  have lent := (perm_values_of_get found).count_eq other
  rw [List.count_cons] at lent
  simp only [State.places, State.creating, State.warm, State.held, List.count_append, List.count_cons] at *
  omega

end

end NodeAutomation.ExpressionEvaluator
