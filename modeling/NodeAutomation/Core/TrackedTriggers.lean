import NodeAutomation.Core.ActiveWorkflowTriggers

/-! Which interleavings of `addTriggers`, `removeTriggers` and `remove` leave no trigger running
untracked. -/

namespace NodeAutomation.ActiveWorkflowTriggers

open Interleaving

variable {ν : Type} [DecidableEq ν] {s s' : Shared ν} {state state' place : Nat} {node : ν}
  {response : Nat} {known : TriggerResponse ν}

/-- The live responses are recorded in the state object that is stored, which exists. -/
structure Sound (s : Shared ν) : Prop where
  created : ∀ state, s.activeTriggers = some state → state < s.created
  started : ∀ state node place response,
    (s.states state).registrations.get node = some (place, some response) → response < s.responses.length
  recorded : ∀ response known, s.responses[response]? = some known → known.Live →
    ∃ state, s.activeTriggers = some state ∧ s.get state known.node = some response

theorem Sound.tracked (sound : Sound s) : Tracked s where
  recorded := sound.recorded
  single response response' known known' found found' live live' same := by
    obtain ⟨state, active, here⟩ := sound.recorded response known found live
    obtain ⟨state', active', here'⟩ := sound.recorded response' known' found' live'
    rw [active, Option.some.injEq] at active'
    rw [same, active', here', Option.some.injEq] at here
    exact here.symm

/-- A `remove` in progress has closed what it has passed. -/
def Behind (s : Shared ν) (state place : Nat) : Prop :=
  state < s.created ∧ place ≤ (s.states state).registrations.next ∧
    ∀ node place' response, (s.states state).registrations.get node = some (place', some response) →
      s.IsLive response → place ≤ place'

def StageSound (s : Shared ν) (_ : Nat) : Stage ν → Prop
  | .removing state place => Behind s state place
  | .starting _ _ _ _ _ _ | .polling _ _ _ _ _ | .rollingBack _ _ _ | .removingTriggers _ _ _ | .finished => True

/-- The step keeps the invariant, and what every suspended `remove` relies on. -/
structure Fine (s s' : Shared ν) : Prop where
  sound : Sound s'
  behind : ∀ state place, Behind s state place → Behind s' state place

theorem Fine.refl (sound : Sound s) : Fine s s := ⟨sound, fun _ _ h => h⟩

theorem Fine.trans {s'' : Shared ν} (first : Fine s s') (second : Fine s' s'') : Fine s s'' :=
  ⟨second.sound, fun state place h => second.behind state place (first.behind state place h)⟩

theorem fine_crons (sound : Sound s) (crons : List ν) : Fine s { s with crons } :=
  ⟨⟨sound.created, sound.started, sound.recorded⟩, fun _ _ h => h⟩

omit [DecidableEq ν] in
theorem registerCrons_eq (s : Shared ν) (node : ν) (crons : Bool) :
    ∃ crons', s.registerCrons node crons = { s with crons := crons' } := by
  rw [Shared.registerCrons]
  split
  · exact ⟨_, rfl⟩
  · exact ⟨s.crons, rfl⟩

theorem fine_registerCrons (sound : Sound s) (node : ν) (crons : Bool) : Fine s (s.registerCrons node crons) := by
  obtain ⟨crons', same⟩ := registerCrons_eq s node crons
  rw [same]
  exact fine_crons sound crons'

omit [DecidableEq ν] in
theorem get_modify (s : Shared ν) (state : Nat) (f : TriggersState ν → TriggersState ν) (other : Nat) :
    (s.modify state f).states other = if other = state then f (s.states state) else s.states other := by
  exact Function.update_apply s.states state _ other

theorem not_isLive_of_get (absent : ¬ s.HasLive state node) (found : s.get state node = some response) :
    ¬ s.IsLive response := fun live => absent ⟨response, found, live⟩

omit [DecidableEq ν] in
theorem isLive_of_getElem (found : s.responses[response]? = some known) (live : known.Live) : s.IsLive response :=
  ⟨known, found, live⟩

theorem fine_modify (sound : Sound s) (state : Nat) (f : TriggersState ν → TriggersState ν)
    (later : (s.states state).registrations.next ≤ (f (s.states state)).registrations.next)
    (fewer : ∀ node place response, (f (s.states state)).registrations.get node = some (place, some response) →
      (s.states state).registrations.get node = some (place, some response))
    (kept : ∀ node response, s.get state node = some response → s.IsLive response →
      ((f (s.states state)).registrations.get node).bind Prod.snd = some response) :
    Fine s (s.modify state f) := by
  have known : ∀ other node' place response,
      ((s.modify state f).states other).registrations.get node' = some (place, some response) →
        (s.states other).registrations.get node' = some (place, some response) := by
    intro other node' place response found
    rw [get_modify] at found
    by_cases same : other = state
    · rw [if_pos same] at found
      exact same ▸ fewer _ _ _ found
    · rwa [if_neg same] at found
  refine ⟨⟨sound.created, fun other node' place response found => ?_, fun response known found live => ?_⟩,
    fun other place h =>
      ⟨h.1, ?_, fun node' place' response found => h.2.2 node' place' response (known _ _ _ _ found)⟩⟩
  · exact sound.started other node' place response (known _ _ _ _ found)
  · obtain ⟨stored, active, here⟩ := sound.recorded response known found live
    refine ⟨stored, active, ?_⟩
    rw [Shared.get, get_modify]
    by_cases same : stored = state
    · rw [if_pos same]
      exact kept _ _ (same ▸ here) (isLive_of_getElem found live)
    · rwa [if_neg same]
  · rw [get_modify]
    by_cases same : other = state
    · rw [if_pos same]
      exact Nat.le_trans (same ▸ h.2.1) later
    · rw [if_neg same]
      exact h.2.1

theorem fine_modify_same (sound : Sound s) (state : Nat) (f : TriggersState ν → TriggersState ν)
    (same : ∀ triggers, (f triggers).registrations = triggers.registrations) : Fine s (s.modify state f) := by
  refine fine_modify sound state f (Nat.le_of_eq (by rw [same])) (fun _ _ _ found => ?_) fun _ _ here _ => ?_
  · rwa [same] at found
  · rwa [same]

theorem registrations_record (s : Shared ν) (state : Nat) (node : ν) (response : Option Nat) (other : Nat) :
    ((s.record state node response).states other).registrations =
      if other = state then (s.states state).registrations.put node response
      else (s.states other).registrations := by
  rw [Shared.record, get_modify]
  split
  · rfl
  · rfl

theorem fine_delete (sound : Sound s) (absent : ¬ s.HasLive state node) : Fine s (s.delete state node) := by
  refine fine_modify sound state _ (Nat.le_refl _) (fun node' place response found => ?_) fun node' response here live => ?_
  · rw [LiveMap.get_delete] at found
    split at found
    · exact absurd found (by simp)
    · exact found
  · rw [LiveMap.get_delete, if_neg]
    · exact here
    · rintro rfl
      exact not_isLive_of_get absent here live

theorem fine_getOrCreateRegistration (sound : Sound s) (state : Nat) (node : ν) :
    Fine s (s.getOrCreateRegistration state node) := by
  rw [Shared.getOrCreateRegistration]
  split
  case h_1 => exact Fine.refl sound
  case h_2 absent =>
    refine fine_modify sound state _ (LiveMap.next_le_put _ _ _) (fun node' place response found => ?_)
      fun node' response here live => ?_
    · rw [LiveMap.get_put] at found
      split at found
      · exact absurd found (by simp)
      · exact found
    · rw [LiveMap.get_put, if_neg]
      · exact here
      · rintro rfl
        rw [Shared.get, absent] at here
        exact absurd here (by simp)

omit [DecidableEq ν] in
theorem responses_closeTrigger_of_ne {other : Nat} (apart : other ≠ response) :
    (s.closeTrigger response).responses[other]? = s.responses[other]? :=
  List.getElem?_modify_ne _ _ (Ne.symm apart)

omit [DecidableEq ν] in
theorem not_isLive_closeTrigger : ¬ (s.closeTrigger response).IsLive response := by
  intro live
  obtain ⟨known, found, opened, notCalled⟩ := live
  rw [Option.mem_def, Shared.closeTrigger, List.getElem?_modify_eq] at found
  obtain ⟨before, -, closed⟩ := Option.map_eq_some_iff.1 found
  rw [← closed] at opened notCalled
  simp only at opened notCalled
  rw [opened, Bool.or_true] at notCalled
  exact absurd notCalled (by decide)

omit [DecidableEq ν] in
theorem isLive_closeTrigger {other : Nat} (live : (s.closeTrigger response).IsLive other) :
    other ≠ response ∧ s.IsLive other := by
  have apart : other ≠ response := fun same => not_isLive_closeTrigger (same ▸ live)
  refine ⟨apart, ?_⟩
  obtain ⟨known, found, live⟩ := live
  rw [responses_closeTrigger_of_ne apart] at found
  exact ⟨known, found, live⟩

theorem fine_closeTrigger (sound : Sound s) (response : Nat) : Fine s (s.closeTrigger response) := by
  refine ⟨⟨sound.created, fun state node place other found => ?_, fun other known found live => ?_⟩,
    fun state place h => ?_⟩
  · rw [Shared.closeTrigger, List.length_modify]
    exact sound.started state node place other found
  · rw [responses_closeTrigger_of_ne (isLive_closeTrigger (isLive_of_getElem found live)).1] at found
    exact sound.recorded other known found live
  · exact ⟨h.1, h.2.1, fun node place' other found live => h.2.2 node place' other found (isLive_closeTrigger live).2⟩

theorem fine_drop (sound : Sound s) (quiet : ∀ response, ¬ s.IsLive response) :
    Fine s { s with activeTriggers := none } :=
  ⟨⟨fun _ dropped => absurd dropped (by simp), sound.started,
    fun response known found live => absurd (isLive_of_getElem found live) (quiet response)⟩, fun _ _ h => h⟩

theorem fine_deleteWorkflowIfEmpty (sound : Sound s) (state : Nat) : Fine s (s.deleteWorkflowIfEmpty state) := by
  rw [Shared.deleteWorkflowIfEmpty]
  split
  · exact Fine.refl sound
  case isFalse stored =>
    split
    · exact Fine.refl sound
    case isFalse nothing =>
      split
      · exact Fine.refl sound
      · refine fine_drop sound fun response live => ?_
        obtain ⟨known, found, live⟩ := live
        obtain ⟨state', active, here⟩ := sound.recorded response known found live
        rw [not_not.1 stored, Option.some.injEq] at active
        have empty : (s.states state).registrations.isEmpty = true := by
          by_contra filled
          simp [filled] at nothing
        rw [← active, Shared.get, LiveMap.get_of_isEmpty empty] at here
        exact absurd here (by simp)

theorem fine_getOrCreateWorkflowTriggersState (sound : Sound s) : Fine s s.getOrCreateWorkflowTriggersState.1 := by
  rw [Shared.getOrCreateWorkflowTriggersState]
  split
  · exact Fine.refl sound
  case h_2 nothing =>
    refine ⟨⟨fun state active => ?_, fun state node place response found => ?_, fun response known found live => ?_⟩,
      fun state place h => ?_⟩
    · rw [← Option.some.inj active]
      exact Nat.lt_succ_self _
    · dsimp only at found
      rw [Function.update_apply] at found
      split at found
      · exact absurd found (by simp)
      · exact sound.started state node place response found
    · obtain ⟨state, active, -⟩ := sound.recorded response known found live
      exact absurd (nothing.symm.trans active) (by simp)
    · have apart : state ≠ s.created := Nat.ne_of_lt h.1
      refine ⟨Nat.lt_succ_of_lt h.1, ?_⟩
      dsimp only
      rw [Function.update_of_ne apart]
      exact h.2

theorem finishAdding_fine (sound : Sound s) (state : Nat) : Fine s (finishAdding s state).1 := by
  have finished := fine_modify_same sound state
    (fun triggers => { triggers with pendingRegistrations := triggers.pendingRegistrations - 1 }) fun _ => rfl
  exact finished.trans (fine_deleteWorkflowIfEmpty finished.sound state)

theorem startTriggers_fine (sound : Sound s) (state : Nat) (attempted registered triggerNodes pollNodes : List ν) :
    Fine s (startTriggers s state attempted registered triggerNodes pollNodes).1 := by
  cases triggerNodes with
  | cons node triggerNodes => exact Fine.refl sound
  | nil =>
    cases pollNodes with
    | cons node pollNodes => exact fine_getOrCreateRegistration sound state node
    | nil => exact finishAdding_fine sound state

theorem startTriggers_stage (s s' : Shared ν) (number state : Nat)
    (attempted registered triggerNodes pollNodes : List ν) :
    StageSound s' number (startTriggers s state attempted registered triggerNodes pollNodes).2 := by
  cases triggerNodes with
  | cons node triggerNodes => trivial
  | nil =>
    cases pollNodes with
    | cons node pollNodes => trivial
    | nil => trivial

theorem not_hasLive_of_none (absent : s.get state node = none) : ¬ s.HasLive state node := by
  intro live
  obtain ⟨response, here, -⟩ := live
  exact absurd (absent.symm.trans here) (by simp)

theorem rollBack_fine (sound : Sound s) (state : Nat) (registered : List ν) :
    Fine s (rollBack s state registered).1 := by
  induction registered generalizing s with
  | nil => exact finishAdding_fine sound state
  | cons node registered ih =>
    rw [rollBack]
    split
    case h_1 absent =>
      have deleted := fine_delete sound (not_hasLive_of_none absent)
      exact deleted.trans (ih deleted.sound)
    case h_2 response _ => exact fine_closeTrigger sound response

theorem rollBack_stage (s s' : Shared ν) (number state : Nat) (registered : List ν) :
    StageSound s' number (rollBack s state registered).2 := by
  induction registered generalizing s with
  | nil => trivial
  | cons node registered ih =>
    rw [rollBack]
    split
    · exact ih _
    · trivial

theorem removeNodes_fine (sound : Sound s) (state : Nat) (nodeIds : List ν) :
    Fine s (removeNodes s state nodeIds).1 := by
  induction nodeIds generalizing s with
  | nil => exact fine_deleteWorkflowIfEmpty sound state
  | cons node nodeIds ih =>
    have deregistered : Fine s (s.deregisterTargets [node]) := fine_crons sound _
    rw [removeNodes]
    split
    case h_1 absent =>
      have deleted : Fine (s.deregisterTargets [node]) ((s.deregisterTargets [node]).delete state node) :=
        fine_delete deregistered.sound (not_hasLive_of_none absent)
      exact (deregistered.trans deleted).trans (ih deleted.sound)
    case h_2 response _ => exact deregistered.trans (fine_closeTrigger deregistered.sound response)

theorem removeNodes_stage (s s' : Shared ν) (number state : Nat) (nodeIds : List ν) :
    StageSound s' number (removeNodes s state nodeIds).2 := by
  induction nodeIds generalizing s with
  | nil => trivial
  | cons node nodeIds ih =>
    rw [removeNodes]
    split
    · exact ih _
    · trivial

theorem closeNext_fine (sound : Sound s) (behind : Behind s state place) (number : Nat)
    (last : (s.states state).registrations.firstFrom place Option.isSome = none →
      ∀ other ∈ s.activeTriggers, other = state ∨
        ∀ entry ∈ (s.states other).registrations.stored.entries, ∀ response ∈ entry.2.2, ¬ s.IsLive response) :
    Fine s (closeNext s state place).1 ∧
      StageSound (closeNext s state place).1 number (closeNext s state place).2 := by
  rw [closeNext]
  split
  case h_1 node place' response met =>
    refine ⟨fine_closeTrigger sound response, behind.1, ?_, fun other place'' response' found live => ?_⟩
    · exact LiveMap.get_lt_next (LiveMap.firstFrom_some met).1
    · obtain ⟨here, -, ahead⟩ := LiveMap.firstFrom_some met
      have unclosed := isLive_closeTrigger live
      cases ahead other place'' (some response') found rfl (behind.2.2 other place'' response' found unclosed.2) with
      | inl same =>
        rw [same] at found
        have both := here.symm.trans found
        simp only [Option.some.injEq, Prod.mk.injEq] at both
        exact absurd both.2.symm unclosed.1
      | inr later => exact later
  case h_2 node place' met => exact absurd (LiveMap.firstFrom_some met).2.1 (by simp)
  case h_3 finished =>
    refine ⟨fine_drop sound fun response live => ?_, trivial⟩
    obtain ⟨known, found, live⟩ := live
    obtain ⟨other, active, here⟩ := sound.recorded response known found live
    obtain ⟨entry, registered, isResponse⟩ := Option.bind_eq_some_iff.1 here
    cases last finished other active with
    | inl own =>
      rw [own] at registered
      have passed := LiveMap.lt_of_firstFrom_none finished registered (by rw [isResponse]; rfl)
      have ahead := behind.2.2 known.node entry.1 response (by rw [registered, ← isResponse])
        (isLive_of_getElem found live)
      omega
    | inr quiet =>
      have member := (OrderedMap.get_eq_some_iff _ _ _).1 registered
      exact quiet _ member response isResponse (isLive_of_getElem found live)

theorem registrations_addTriggerResponse (s : Shared ν) (state : Nat) (node : ν) (closeFunction : Bool) (other : Nat) :
    ((s.addTriggerResponse state node closeFunction).states other).registrations =
      if other = state then (s.states state).registrations.put node (some s.responses.length)
      else (s.states other).registrations := registrations_record s state node _ other

omit [DecidableEq ν] in
theorem getElem?_concat_cases {responses : List (TriggerResponse ν)} {added : TriggerResponse ν}
    (found : (responses ++ [added])[response]? = some known) :
    responses[response]? = some known ∨ (response = responses.length ∧ added = known) := by
  by_cases old : response < responses.length
  · rw [List.getElem?_append_left old] at found
    exact .inl found
  · have bound := (List.getElem?_eq_some_iff.1 found).1
    rw [List.length_append, List.length_singleton] at bound
    have last : response = responses.length := by omega
    rw [last, List.getElem?_append_right (Nat.le_refl _), Nat.sub_self, List.getElem?_cons_zero,
      Option.some.injEq] at found
    exact .inr ⟨last, found⟩

theorem sound_addTriggerResponse (sound : Sound s) {closeFunction : Bool} (absent : ¬ s.HasLive state node)
    (stored : closeFunction = true → s.activeTriggers = some state) :
    Sound (s.addTriggerResponse state node closeFunction) := by
  have length : (s.addTriggerResponse state node closeFunction).responses.length = s.responses.length + 1 := by
    rw [Shared.addTriggerResponse, List.length_append, List.length_singleton]
  refine ⟨sound.created, fun other node' place response found => ?_, fun response known found live => ?_⟩
  · rw [length]
    rw [registrations_addTriggerResponse] at found
    by_cases same : other = state
    · rw [if_pos same, LiveMap.get_put] at found
      split at found
      · simp only [Option.some.injEq, Prod.mk.injEq] at found
        omega
      · exact Nat.lt_succ_of_lt (sound.started state node' place response found)
    · rw [if_neg same] at found
      exact Nat.lt_succ_of_lt (sound.started other node' place response found)
  · cases getElem?_concat_cases found with
    | inl old =>
      obtain ⟨other, active, here⟩ := sound.recorded response known old live
      refine ⟨other, active, ?_⟩
      rw [Shared.get, registrations_addTriggerResponse]
      by_cases same : other = state
      · rw [if_pos same, LiveMap.get_put, if_neg]
        · rwa [Shared.get, same] at here
        · intro own
          rw [same, own] at here
          exact not_isLive_of_get absent here (isLive_of_getElem old live)
      · rwa [if_neg same]
    | inr new =>
      rw [← new.2] at live
      refine ⟨state, stored live.1, ?_⟩
      rw [Shared.get, registrations_addTriggerResponse, if_pos rfl, ← new.2, new.1, LiveMap.get_put, if_pos rfl]
      rfl

theorem behind_addTriggerResponse (sound : Sound s) (behind : Behind s state' place) {closeFunction : Bool}
    (meets : closeFunction = true → state' = state →
      ∀ entry ∈ (s.states state).registrations.get node, place ≤ entry.1) :
    Behind (s.addTriggerResponse state node closeFunction) state' place := by
  have live_old : ∀ {response}, response < s.responses.length →
      (s.addTriggerResponse state node closeFunction).IsLive response → s.IsLive response := by
    intro response old live
    obtain ⟨known, found, live⟩ := live
    cases getElem?_concat_cases found with
    | inl old => exact ⟨known, old, live⟩
    | inr new => exact absurd new.1 (Nat.ne_of_lt old)
  rw [Behind, registrations_addTriggerResponse]
  by_cases same : state' = state
  · rw [if_pos same]
    refine ⟨behind.1, Nat.le_trans (same ▸ behind.2.1) (LiveMap.next_le_put _ _ _), fun other place' response found live => ?_⟩
    rw [LiveMap.get_put] at found
    split at found
    case isTrue own =>
      simp only [Option.some.injEq, Prod.mk.injEq] at found
      obtain ⟨known, found', live⟩ := live
      cases getElem?_concat_cases found' with
      | inl old =>
        have bound := (List.getElem?_eq_some_iff.1 old).1
        exact absurd found.2 (Nat.ne_of_gt bound)
      | inr new =>
        rw [← new.2] at live
        rw [← found.1]
        cases registered : (s.states state).registrations.get node with
        | none => exact same ▸ behind.2.1
        | some entry => exact meets live.1 same entry registered
    case isFalse =>
      exact behind.2.2 other place' response (same ▸ found)
        (live_old (sound.started state other place' response found) live)
  · rw [if_neg same]
    exact ⟨behind.1, behind.2.1, fun other place' response found live =>
      behind.2.2 other place' response found (live_old (sound.started state' other place' response found) live)⟩

theorem Fine.stage (fine : Fine s s') {number : Nat} {stage : Stage ν} (here : StageSound s number stage) :
    StageSound s' number stage := by
  cases stage with
  | removing state place => exact fine.behind state place here
  | _ => trivial

theorem invoke_fine (sound : Sound s) (number : Nat) (call : Invocation ν) :
    Fine s (invoke s number call).1 ∧ StageSound (invoke s number call).1 number (invoke s number call).2 := by
  cases call with
  | addTriggers triggerNodes pollNodes =>
    rw [invoke]
    split
    · exact ⟨Fine.refl sound, trivial⟩
    · have found := fine_getOrCreateWorkflowTriggersState sound
      have begun : Fine _ (s.getOrCreateWorkflowTriggersState.1.beginRegistration s.getOrCreateWorkflowTriggersState.2) :=
        fine_modify_same found.sound _ (fun triggers =>
          { triggers with pendingRegistrations := triggers.pendingRegistrations + 1 }) fun _ => rfl
      exact ⟨(found.trans begun).trans (startTriggers_fine begun.sound _ _ _ _ _), startTriggers_stage _ _ _ _ _ _ _ _⟩
  | removeTriggers nodeIds =>
    rw [invoke]
    split
    · exact ⟨fine_crons sound _, trivial⟩
    case h_2 state _ => exact ⟨removeNodes_fine sound state nodeIds, removeNodes_stage _ _ _ _ _⟩
  | remove =>
    have deregistered : Fine s { s with crons := [] } := fine_crons sound _
    rw [invoke]
    split
    · exact ⟨deregistered, trivial⟩
    case h_2 state active =>
      have behind : Behind { s with crons := [] } state 0 :=
        ⟨sound.created state active, Nat.zero_le _, fun _ _ _ _ _ => Nat.zero_le _⟩
      have closed := closeNext_fine deregistered.sound behind number fun _ other stored =>
        .inl (Option.some.inj (stored.symm.trans active))
      exact ⟨deregistered.trans closed.1, closed.2⟩

/-- What a step does where it is not the arrival of a response. -/
theorem proceed_fine (sound : Sound s) (number : Nat) {stage : Stage ν} (here : StageSound s number stage)
    {reply : Reply} {calls : List (Stage ν)} (orderly : stage.Orderly s calls reply)
    (noResponse : ∀ state node triggerNodes pollNodes attempted registered,
      stage = .starting state node triggerNodes pollNodes attempted registered →
      ∀ closeFunction crons, reply ≠ .completed (some closeFunction) crons) :
    Fine s (proceed s number stage reply).1 ∧
      StageSound (proceed s number stage reply).1 number (proceed s number stage reply).2 := by
  cases stage with
  | starting state node triggerNodes pollNodes attempted registered =>
    cases reply with
    | completed response crons =>
      cases response with
      | some closeFunction => exact absurd rfl (noResponse _ _ _ _ _ _ rfl closeFunction crons)
      | none =>
        have called := fine_registerCrons sound node crons
        rw [proceed]
        split
        · have scheduled := fine_getOrCreateRegistration called.sound state node
          exact ⟨(called.trans scheduled).trans (startTriggers_fine scheduled.sound _ _ _ _ _),
            startTriggers_stage _ _ _ _ _ _ _ _⟩
        · exact ⟨called.trans (startTriggers_fine called.sound _ _ _ _ _), startTriggers_stage _ _ _ _ _ _ _ _⟩
    | threw crons =>
      have called := fine_registerCrons sound node crons
      have deregistered : Fine _ ((s.registerCrons node crons).deregisterTargets attempted) :=
        fine_crons called.sound _
      exact ⟨(called.trans deregistered).trans (rollBack_fine deregistered.sound state registered),
        rollBack_stage _ _ _ _ _⟩
  | polling state node pollNodes attempted registered =>
    have called : ∀ crons, Fine s (s.registerCrons node crons) := fine_registerCrons sound node
    cases reply with
    | completed response crons =>
      exact ⟨(called crons).trans (startTriggers_fine (called crons).sound _ _ _ _ _),
        startTriggers_stage _ _ _ _ _ _ _ _⟩
    | threw crons =>
      have deregistered : Fine _ ((s.registerCrons node crons).deregisterTargets attempted) :=
        fine_crons (called crons).sound _
      exact ⟨((called crons).trans deregistered).trans (rollBack_fine deregistered.sound state registered),
        rollBack_stage _ _ _ _ _⟩
  | rollingBack state node registered =>
    have absent : ¬ s.HasLive state node := by
      cases reply with
      | completed response crons => exact orderly
      | threw crons => exact orderly
    have deleted := fine_delete sound absent
    exact ⟨deleted.trans (rollBack_fine deleted.sound state registered), rollBack_stage _ _ _ _ _⟩
  | removingTriggers state node nodeIds =>
    cases reply with
    | completed response crons =>
      have deleted := fine_delete sound orderly
      exact ⟨deleted.trans (removeNodes_fine deleted.sound state nodeIds), removeNodes_stage _ _ _ _ _⟩
    | threw crons => exact ⟨Fine.refl sound, trivial⟩
  | removing state place =>
    cases reply with
    | completed response crons => exact closeNext_fine sound here number orderly
    | threw crons => exact ⟨Fine.refl sound, trivial⟩
  | finished => exact ⟨Fine.refl sound, trivial⟩

abbrev AllSound (config : Config (Shared ν) (Stage ν)) : Prop := Holds (fun s _ => Sound s) StageSound config

theorem arrival_sound {config : Config (Shared ν) (Stage ν)} (sound : AllSound config) {number state : Nat}
    {node : ν} {triggerNodes pollNodes attempted registered : List ν} {closeFunction : Bool} (crons : Bool)
    (found : config.calls[number]? = some (.starting state node triggerNodes pollNodes attempted registered))
    (absent : ¬ config.shared.HasLive state node)
    (stored : closeFunction = true → config.shared.activeTriggers = some state ∧
      ∀ call ∈ config.calls, call.Meets config.shared state node) :
    AllSound (system.next config (.proceed number (.completed (some closeFunction) crons))) := by
  obtain ⟨crons', called⟩ := registerCrons_eq config.shared node crons
  have before : Fine config.shared { config.shared with crons := crons' } := fine_crons sound.shared crons'
  have recorded : Sound (Shared.addTriggerResponse { config.shared with crons := crons' } state node closeFunction) :=
    sound_addTriggerResponse before.sound absent fun closes => (stored closes).1
  have begun := startTriggers_fine recorded state attempted (add registered node) triggerNodes pollNodes
  refine sound.proceed number _ (fun call known => ?_) fun call other otherCall known _ known' => ?_
  · rw [found, Option.some.injEq] at known
    change Sound (proceed config.shared number call _).1 ∧ StageSound (proceed config.shared number call _).1 number _
    rw [← known, proceed, called]
    exact ⟨begun.sound, startTriggers_stage _ _ _ _ _ _ _ _⟩
  · rw [found, Option.some.injEq] at known
    change StageSound (proceed config.shared number call _).1 other otherCall
    rw [← known, proceed, called]
    refine begun.stage ?_
    cases otherCall with
    | removing state' place =>
      refine behind_addTriggerResponse before.sound (before.stage (sound.call other _ known')) fun closes same => ?_
      exact (stored closes).2 _ (List.mem_of_getElem? known') same
    | _ => trivial

theorem next_sound {config : Config (Shared ν) (Stage ν)} (action : Action (Invocation ν) Reply (Event ν))
    (sound : AllSound config) (orderly : Orderly config action) : AllSound (system.next config action) := by
  cases action with
  | invoke call =>
    have fine := invoke_fine sound.shared config.calls.length call
    exact Holds.invoke call ⟨fine.1.sound, fine.2⟩ fun other otherCall known =>
      fine.1.stage (sound.call other otherCall known)
  | environment event =>
    cases event with
    | registerCron node =>
      have fine := fine_registerCrons sound.shared node true
      exact Holds.environment _ fine.sound fun other otherCall known => fine.stage (sound.call other otherCall known)
  | proceed number reply =>
    by_cases arrival : ∃ state node triggerNodes pollNodes attempted registered closeFunction crons,
        config.calls[number]? = some (.starting state node triggerNodes pollNodes attempted registered) ∧
          reply = .completed (some closeFunction) crons
    · obtain ⟨state, node, triggerNodes, pollNodes, attempted, registered, closeFunction, crons, found, isResponse⟩ := arrival
      rw [isResponse] at orderly ⊢
      have allowed := orderly _ found
      exact arrival_sound sound crons found allowed.1 allowed.2
    · have fine : ∀ stage, config.calls[number]? = some stage →
          Fine config.shared (proceed config.shared number stage reply).1 ∧
            StageSound (proceed config.shared number stage reply).1 number
              (proceed config.shared number stage reply).2 := by
        intro stage found
        refine proceed_fine sound.shared number (sound.call number stage found) (orderly stage found) ?_
        intro state node triggerNodes pollNodes attempted registered isStarting closeFunction crons isResponse
        exact arrival ⟨_, _, _, _, _, _, _, _, isStarting ▸ found, isResponse⟩
      refine sound.proceed number reply (fun stage found => ⟨(fine stage found).1.sound, (fine stage found).2⟩) ?_
      exact fun stage other otherCall found _ known => (fine stage found).1.stage (sound.call other otherCall known)

theorem tracked_run (actions : List (Action (Invocation ν) Reply (Event ν)))
    (orderly : Runs.Along system.next Orderly { shared := {} } actions) :
    TrackedAtRest (system.run { shared := {} } actions) := by
  have initial : AllSound ({ shared := {} } : Config (Shared ν) (Stage ν)) :=
    Holds.initial
      { created := fun state active => absurd active (by simp)
        started := fun state node place response found => absurd found (by simp)
        recorded := fun response known found => absurd found (by simp) }
  exact fun _ => (Runs.holds_after (fun config action sound here => next_sound action sound here) initial orderly).shared.tracked

/-- A node is added, taken out while a second one starts, and everything is removed. -/
def orderlyRun : List (Action (Invocation Nat) Reply (Event Nat)) :=
  [.invoke (.addTriggers [0] []), .proceed 0 (.completed (some true) false),
    .invoke (.addTriggers [1] [2]), .invoke (.removeTriggers [0]), .proceed 1 (.completed (some true) false),
    .proceed 2 (.completed none false), .proceed 1 (.completed none true),
    .invoke .remove, .proceed 3 (.completed none false)]

theorem tracked_orderlyRun : TrackedAtRest (system.run { shared := {} } orderlyRun) :=
  tracked_run orderlyRun (by decide)

def removedWhileStarting : List (Action (Invocation Nat) Reply (Event Nat)) :=
  [.invoke (.addTriggers [0] []), .invoke .remove, .proceed 0 (.completed (some true) false)]

theorem trigger_runs_untracked : ¬ TrackedAtRest (system.run { shared := {} } removedWhileStarting) := by
  intro tracked
  obtain ⟨state, active, -⟩ := (tracked (by decide)).recorded 0 { node := 0, closeFunction := true } rfl (by decide)
  have removed : (system.run { shared := {} } removedWhileStarting).shared.activeTriggers = none := by decide
  exact absurd (removed.symm.trans active) (by simp)

end NodeAutomation.ActiveWorkflowTriggers
