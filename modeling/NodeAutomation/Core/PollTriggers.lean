import Mathlib.Logic.Function.Basic
import NodeAutomation.Lib.Interleaving
import NodeAutomation.Lib.OrderedMap

/-! The poll nodes of one workflow on the leader: their registrations in memory
(`active-workflow-triggers.ts` and `workflow-active-triggers-state.ts`), and the crons that are
scheduled for a node after its first poll (`scheduled-task-manager.ts`, all under
`packages/core/src/execution-engine/`). What a cron calls polls only while its token is that of
the node's registration (`poll-trigger-executor.ts`). -/

namespace NodeAutomation.PollTriggers

open Interleaving

/-- What makes up the key of a cron, in the group of the workflow. -/
structure ScheduledTaskContext where
  targetId : String
  timezone : String
  expression : String
  deriving DecidableEq

structure PollNode where
  id : String
  timezone : String
  cronExpressions : List String
  deriving DecidableEq

def PollNode.contexts (node : PollNode) : List ScheduledTaskContext :=
  node.cronExpressions.map fun expression => { targetId := node.id, timezone := node.timezone, expression }

structure TriggerRegistration where
  token : Nat
  contexts : List ScheduledTaskContext
  deriving DecidableEq

structure WorkflowActiveTriggersState where
  registrationsByNodeId : OrderedMap String TriggerRegistration := ∅
  pendingRegistrations : Nat := 0

/-- `activeTriggers` is the state object that is stored for the workflow; a state object is known
by the order in which it was created. Every cron carries a token. -/
structure Shared where
  activeTriggers : Option Nat := none
  states : Nat → WorkflowActiveTriggersState := fun _ => {}
  created : Nat := 0
  tokens : Nat := 0
  crons : OrderedMap ScheduledTaskContext Nat := ∅

namespace Shared

def registration (s : Shared) (nodeId : String) : Option TriggerRegistration :=
  s.activeTriggers.bind fun state => (s.states state).registrationsByNodeId.get nodeId

def isCurrent (s : Shared) (nodeId : String) (token : Nat) : Bool :=
  (s.registration nodeId).any fun registration => registration.token = token

def modify (s : Shared) (state : Nat) (f : WorkflowActiveTriggersState → WorkflowActiveTriggersState) : Shared :=
  { s with states := Function.update s.states state (f (s.states state)) }

def record (s : Shared) (state : Nat) (node : PollNode) (token : Nat) : Shared :=
  s.modify state fun triggers => { triggers with
    registrationsByNodeId := triggers.registrationsByNodeId.set node.id { token, contexts := node.contexts } }

def addPoller (s : Shared) (state : Nat) (node : PollNode) : Shared × Nat :=
  match (s.states state).registrationsByNodeId.get node.id with
  | some existing => (s.record state node existing.token, existing.token)
  | none => ({ s.record state node s.tokens with tokens := s.tokens + 1 }, s.tokens)

def deletePollers (s : Shared) (state : Nat) (nodeIds : List String) : Shared :=
  s.modify state fun triggers => { triggers with
    registrationsByNodeId := triggers.registrationsByNodeId.deleteMany nodeIds }

def register (s : Shared) (context : ScheduledTaskContext) (token : Nat) : Shared :=
  if (s.crons.get context).isSome then s else { s with crons := s.crons.set context token }

def deregisterTargets (s : Shared) (nodeIds : List String) : Shared :=
  { s with crons := s.crons.filterKeys fun context => context.targetId ∉ nodeIds }

def getOrCreateWorkflowTriggersState (s : Shared) : Shared × Nat :=
  match s.activeTriggers with
  | some state => (s, state)
  | none =>
    ({ s with
      activeTriggers := some s.created
      states := Function.update s.states s.created {}
      created := s.created + 1 }, s.created)

def deleteWorkflowIfEmpty (s : Shared) (state : Nat) : Shared :=
  if s.activeTriggers ≠ some state then s
  else if (s.states state).registrationsByNodeId.size ≠ 0 ∨ 0 < (s.states state).pendingRegistrations then s
  else if s.crons.size ≠ 0 then s
  else { s with activeTriggers := none }

def beginRegistration (s : Shared) (state : Nat) : Shared :=
  s.modify state fun triggers => { triggers with pendingRegistrations := triggers.pendingRegistrations + 1 }

def finishRegistration (s : Shared) (state : Nat) : Shared :=
  s.modify state fun triggers => { triggers with pendingRegistrations := triggers.pendingRegistrations - 1 }

end Shared

inductive Invocation where
  | addTriggers (pollNodes : List PollNode)
  | removeTriggers (nodeIds : List String)
  | remove
  deriving DecidableEq

/-- A registration is suspended at the first poll of a node; `earlier` are the nodes before it. -/
inductive Stage where
  | polling (state : Nat) (node : PollNode) (token : Nat) (pollNodes : List PollNode) (earlier : List String)
  | finished
  deriving DecidableEq

inductive Reply where
  | polled
  | threw
  deriving DecidableEq

def isTooShort (expression : String) : Bool :=
  let fields := expression.toList.splitOn ' '
  fields.length = 6 && fields.head?.any (·.contains '*')

def registerCrons (s : Shared) (token : Nat) : List ScheduledTaskContext → Shared
  | [] => s
  | context :: contexts =>
    if isTooShort context.expression then s else registerCrons (s.register context token) token contexts

def PollNode.tooShort (node : PollNode) : Bool := node.cronExpressions.any isTooShort

/-- The `finally` of `addTriggers`. -/
def finishAdding (s : Shared) (state : Nat) : Shared × Stage :=
  ((s.finishRegistration state).deleteWorkflowIfEmpty state, .finished)

/-- The loop of `startTriggers` over the poll nodes, up to the next first poll. -/
def startTriggers (s : Shared) (state : Nat) (earlier : List String) : List PollNode → Shared × Stage
  | [] => finishAdding s state
  | node :: pollNodes =>
    let added := s.addPoller state node
    (added.1, .polling state node added.2 pollNodes earlier)

def rollbackPartialActivation (s : Shared) (state : Nat) (nodeIds : List String) : Shared × Stage :=
  finishAdding ((s.deregisterTargets nodeIds).deletePollers state nodeIds) state

def invoke (s : Shared) (_ : Nat) : Invocation → Shared × Stage
  | .addTriggers pollNodes =>
    if pollNodes.isEmpty then (s, .finished)
    else
      let found := s.getOrCreateWorkflowTriggersState
      startTriggers (found.1.beginRegistration found.2) found.2 [] pollNodes
  | .removeTriggers nodeIds =>
    match s.activeTriggers with
    | none => (s.deregisterTargets nodeIds, .finished)
    | some state => (((s.deregisterTargets nodeIds).deletePollers state nodeIds).deleteWorkflowIfEmpty state, .finished)
  | .remove => ({ s with crons := ∅, activeTriggers := none }, .finished)

def proceed (s : Shared) (_ : Nat) (stage : Stage) (reply : Reply) : Shared × Stage :=
  match stage with
  | .finished => (s, .finished)
  | .polling state node token pollNodes earlier =>
    match reply with
    | .threw => rollbackPartialActivation s state (earlier ++ [node.id])
    | .polled =>
      let scheduled := registerCrons s token node.contexts
      if node.tooShort then rollbackPartialActivation scheduled state (earlier ++ [node.id])
      else startTriggers scheduled state (earlier ++ [node.id]) pollNodes

def system : System Shared Stage Invocation Reply Empty where
  invoke := invoke
  proceed := proceed
  environment := fun s _ => s

/-- Every registered node has its crons, which carry its token, and no other node has any. -/
structure Scheduled (s : Shared) : Prop where
  registered : ∀ nodeId registration, s.registration nodeId = some registration →
    ∀ context ∈ registration.contexts, s.crons.get context = some registration.token
  others : ∀ context ∈ s.crons.keys, (s.registration context.targetId).isSome

/-- When no operation is in progress. -/
def ScheduledAtRest (config : Config Shared Stage) : Prop :=
  (∀ stage ∈ config.calls, stage = .finished) → Scheduled config.shared

/-- A first poll succeeds while the token is current, or with nothing left to schedule; where the
registration is rolled back its state object is the one that is stored, or none of its nodes has
a cron. -/
def Stage.Orderly (s : Shared) : Stage → Reply → Prop
  | .finished, _ => True
  | .polling state node token _ earlier, reply =>
    if reply = .polled ∧ node.tooShort = false then
      s.isCurrent node.id token = true ∨ ∀ context ∈ node.contexts, (s.crons.get context).isSome
    else s.activeTriggers = some state ∨ ∀ context ∈ s.crons.keys, context.targetId ∉ earlier ++ [node.id]

instance (s : Shared) : (stage : Stage) → (reply : Reply) → Decidable (stage.Orderly s reply)
  | .finished, _ => inferInstanceAs (Decidable True)
  | .polling state node token _ earlier, reply =>
    inferInstanceAs (Decidable (if reply = .polled ∧ node.tooShort = false then
      s.isCurrent node.id token = true ∨ ∀ context ∈ node.contexts, (s.crons.get context).isSome
    else s.activeTriggers = some state ∨ ∀ context ∈ s.crons.keys, context.targetId ∉ earlier ++ [node.id]))

def Orderly (config : Config Shared Stage) : Action Invocation Reply Empty → Prop
  | .proceed number reply => ∀ stage ∈ config.calls[number]?, stage.Orderly config.shared reply
  | .invoke _ | .environment _ => True

instance (config : Config Shared Stage) : DecidablePred (Orderly config)
  | .proceed number reply => inferInstanceAs (Decidable (∀ stage ∈ config.calls[number]?, stage.Orderly config.shared reply))
  | .invoke _ | .environment _ => inferInstanceAs (Decidable True)

variable {s s' : Shared} {state token : Nat} {nodeId : String} {node : PollNode} {context : ScheduledTaskContext}
variable {registration : TriggerRegistration} {contexts : List ScheduledTaskContext} {suspended others : Stage → Prop}

def Stage.Schedules (activeTriggers : Option Nat) (token : Nat) (context : ScheduledTaskContext) : Stage → Prop
  | .finished => False
  | .polling state node token' _ _ => activeTriggers = some state ∧ token' = token ∧ context ∈ node.contexts

/-- Crons carry the tokens of registrations, and what a registered node has not got yet a suspended
registration will schedule. -/
structure Sound (s : Shared) (suspended : Stage → Prop) : Prop where
  current : ∀ context token, s.crons.get context = some token →
    ∃ registration, s.registration context.targetId = some registration ∧ registration.token = token
  own : ∀ nodeId registration, s.registration nodeId = some registration →
    ∀ context ∈ registration.contexts, context.targetId = nodeId
  scheduled : ∀ nodeId registration, s.registration nodeId = some registration →
    ∀ context ∈ registration.contexts, (s.crons.get context).isSome ∨
      ∃ stage, suspended stage ∧ stage.Schedules s.activeTriggers registration.token context

theorem targetId_of_mem (member : context ∈ node.contexts) : context.targetId = node.id := by
  obtain ⟨expression, -, rfl⟩ := List.mem_map.1 member
  rfl

theorem Sound.at_rest (h : Sound s suspended) (rest : ∀ stage, suspended stage → stage = .finished) : Scheduled s := by
  refine ⟨fun nodeId registration here context member => ?_, fun context member => ?_⟩
  · rcases h.scheduled nodeId registration here context member with there | ⟨stage, suspends, schedules⟩
    · obtain ⟨token, found⟩ := Option.isSome_iff_exists.1 there
      obtain ⟨known, registered, same⟩ := h.current context token found
      rw [h.own nodeId registration here context member, here] at registered
      rw [found, ← same, Option.some.inj registered]
    · rw [rest stage suspends] at schedules
      exact schedules.elim
  · obtain ⟨token, found⟩ := (OrderedMap.mem_keys_iff _ _).1 member
    obtain ⟨registration, registered, -⟩ := h.current context token found
    exact Option.isSome_iff_exists.2 ⟨registration, registered⟩

theorem Sound.mono (h : Sound s others) (more : ∀ stage, others stage → suspended stage) : Sound s suspended := by
  refine ⟨h.current, h.own, fun nodeId registration here context member => ?_⟩
  rcases h.scheduled nodeId registration here context member with there | ⟨stage, suspends, schedules⟩
  · exact .inl there
  · exact .inr ⟨stage, more stage suspends, schedules⟩

theorem sound_of_none (unregistered : ∀ nodeId, s.registration nodeId = none) (none : ∀ context, s.crons.get context = none) :
    Sound s suspended := by
  refine ⟨fun context token found => ?_, fun nodeId registration here => ?_, fun nodeId registration here => ?_⟩
  · simp [none] at found
  · simp [unregistered] at here
  · simp [unregistered] at here

theorem Sound.no_crons (h : Sound s suspended) (unregistered : ∀ nodeId, s.registration nodeId = none)
    (context : ScheduledTaskContext) : s.crons.get context = none := by
  cases found : s.crons.get context with
  | none => rfl
  | some token =>
    obtain ⟨registration, registered, -⟩ := h.current context token found
    simp [unregistered] at registered

theorem registration_eq (s : Shared) (nodeId : String) :
    s.registration nodeId = s.activeTriggers.bind fun state => (s.states state).registrationsByNodeId.get nodeId := rfl

theorem isCurrent_iff : s.isCurrent nodeId token = true ↔
    ∃ registration, s.registration nodeId = some registration ∧ registration.token = token := by
  rw [Shared.isCurrent]
  cases s.registration nodeId with
  | none => simp
  | some registration => simp

theorem registration_of_inactive (inactive : s.activeTriggers = none) (nodeId : String) : s.registration nodeId = none := by
  rw [registration_eq, inactive]
  rfl

theorem registration_modify (s : Shared) (state : Nat) (f : WorkflowActiveTriggersState → WorkflowActiveTriggersState)
    (nodeId : String) :
    (s.modify state f).registration nodeId =
      if s.activeTriggers = some state then (f (s.states state)).registrationsByNodeId.get nodeId
      else s.registration nodeId := by
  rw [registration_eq, registration_eq, Shared.modify]
  cases s.activeTriggers with
  | none => rfl
  | some stored =>
    by_cases same : stored = state
    · simp [same]
    · simp [same]

theorem Sound.pending (h : Sound s suspended) (state : Nat) (f : WorkflowActiveTriggersState → WorkflowActiveTriggersState)
    (same : ∀ triggers, (f triggers).registrationsByNodeId = triggers.registrationsByNodeId) :
    Sound (s.modify state f) suspended := by
  have unchanged (nodeId : String) : (s.modify state f).registration nodeId = s.registration nodeId := by
    rw [registration_modify, same]
    split
    case isTrue stored => rw [registration_eq, stored]; rfl
    case isFalse => rfl
  refine ⟨fun context token found => ?_, fun nodeId registration here => ?_, fun nodeId registration here => ?_⟩
  · rw [unchanged]
    exact h.current context token found
  · rw [unchanged] at here
    exact h.own nodeId registration here
  · rw [unchanged] at here
    exact h.scheduled nodeId registration here

theorem Sound.deleteWorkflowIfEmpty (h : Sound s suspended) (state : Nat) :
    Sound (s.deleteWorkflowIfEmpty state) suspended := by
  rw [Shared.deleteWorkflowIfEmpty]
  by_cases stored : s.activeTriggers ≠ some state
  · rw [if_pos stored]
    exact h
  · rw [if_neg stored]
    split
    case isTrue => exact h
    case isFalse =>
      split
      case isTrue => exact h
      case isFalse none =>
        refine sound_of_none (fun nodeId => rfl) fun context => ?_
        exact (OrderedMap.size_eq_zero_iff_get _).1 (not_not.1 none) context

theorem Sound.finishAdding (h : Sound s suspended) (state : Nat) : Sound (finishAdding s state).1 suspended :=
  Sound.deleteWorkflowIfEmpty (s := s.finishRegistration state) (h.pending state _ fun _ => rfl) state

theorem registration_record (s : Shared) (state token : Nat) (node : PollNode) (nodeId : String) :
    (s.record state node token).registration nodeId =
      if s.activeTriggers = some state ∧ nodeId = node.id then some { token, contexts := node.contexts }
      else s.registration nodeId := by
  rw [Shared.record, registration_modify]
  by_cases stored : s.activeTriggers = some state
  · rw [if_pos stored, OrderedMap.get_set]
    by_cases same : nodeId = node.id
    · rw [if_pos same, if_pos ⟨stored, same⟩]
    · rw [if_neg same, if_neg fun both => same both.2, registration_eq, stored]
      rfl
  · rw [if_neg stored, if_neg fun both => stored both.1]

theorem Sound.record (h : Sound s suspended)
    (keeps : s.activeTriggers = some state → ∀ registration, s.registration node.id = some registration →
      registration.token = token)
    (schedules : ∀ context ∈ node.contexts, ∃ stage, suspended stage ∧ (s.activeTriggers = some state →
      stage.Schedules s.activeTriggers token context)) :
    Sound (s.record state node token) suspended := by
  refine ⟨fun context token' found => ?_, fun nodeId registration here context member => ?_,
    fun nodeId registration here context member => ?_⟩
  · obtain ⟨registration, registered, same⟩ := h.current context token' found
    rw [registration_record]
    by_cases written : s.activeTriggers = some state ∧ context.targetId = node.id
    · rw [if_pos written]
      rw [written.2] at registered
      exact ⟨_, rfl, (keeps written.1 registration registered).symm.trans same⟩
    · rw [if_neg written]
      exact ⟨registration, registered, same⟩
  · rw [registration_record] at here
    by_cases written : s.activeTriggers = some state ∧ nodeId = node.id
    · rw [if_pos written] at here
      cases here
      exact (targetId_of_mem member).trans written.2.symm
    · rw [if_neg written] at here
      exact h.own nodeId registration here context member
  · rw [registration_record] at here
    by_cases written : s.activeTriggers = some state ∧ nodeId = node.id
    · rw [if_pos written] at here
      cases here
      obtain ⟨stage, suspends, will⟩ := schedules context member
      exact .inr ⟨stage, suspends, will written.1⟩
    · rw [if_neg written] at here
      exact h.scheduled nodeId registration here context member

theorem addPoller_eq (s : Shared) (state : Nat) (node : PollNode) :
    ∃ token tokens, s.addPoller state node = ({ s.record state node token with tokens }, token) ∧
      ∀ existing, (s.states state).registrationsByNodeId.get node.id = some existing → existing.token = token := by
  rw [Shared.addPoller]
  split
  case h_1 existing here =>
    refine ⟨existing.token, s.tokens, rfl, fun known there => ?_⟩
    rw [Option.some.inj (here.symm.trans there)]
  case h_2 none =>
    refine ⟨s.tokens, s.tokens + 1, rfl, fun known there => ?_⟩
    simp [none] at there

theorem Sound.startTriggers (h : Sound s others) (more : ∀ stage, others stage → suspended stage) (state : Nat)
    (earlier : List String) (pollNodes : List PollNode)
    (here : suspended (startTriggers s state earlier pollNodes).2) :
    Sound (startTriggers s state earlier pollNodes).1 suspended := by
  cases pollNodes with
  | nil => exact (h.mono more).finishAdding state
  | cons node pollNodes =>
    obtain ⟨token, tokens, added, keeps⟩ := addPoller_eq s state node
    simp only [PollTriggers.startTriggers, added] at here ⊢
    have recorded : Sound (s.record state node token) suspended := by
      refine (h.mono more).record (fun stored registration registered => ?_) fun context member =>
        ⟨_, here, fun stored => ⟨stored, rfl, member⟩⟩
      rw [registration_eq, stored] at registered
      exact keeps registration registered
    exact ⟨recorded.current, recorded.own, recorded.scheduled⟩

theorem registerCrons_eq (s : Shared) (token : Nat) (contexts : List ScheduledTaskContext) :
    ∃ crons, registerCrons s token contexts = { s with crons } := by
  induction contexts generalizing s with
  | nil => exact ⟨s.crons, rfl⟩
  | cons context contexts ih =>
    rw [registerCrons]
    split
    case isTrue => exact ⟨s.crons, rfl⟩
    case isFalse =>
      obtain ⟨crons, went⟩ := ih (s.register context token)
      refine ⟨crons, went.trans ?_⟩
      rw [Shared.register]
      split
      case isTrue => rfl
      case isFalse => rfl

theorem get_register (s : Shared) (token : Nat) (context other : ScheduledTaskContext) :
    (s.register context token).crons.get other =
      (s.crons.get other <|> if other = context then some token else none) := by
  rw [Shared.register]
  by_cases same : other = context
  · rw [← same, if_pos rfl]
    cases there : s.crons.get other with
    | some token' => exact there
    | none => exact OrderedMap.get_set_self _ _ _
  · rw [if_neg same]
    have still : (s.crons.get other <|> none) = s.crons.get other := by
      cases s.crons.get other with
      | none => rfl
      | some token' => rfl
    rw [still]
    split
    case isTrue => rfl
    case isFalse => exact OrderedMap.get_set_of_ne _ _ same

theorem get_registerCrons_of_not_mem (s : Shared) (token : Nat) {contexts : List ScheduledTaskContext}
    (other : context ∉ contexts) : (registerCrons s token contexts).crons.get context = s.crons.get context := by
  induction contexts generalizing s with
  | nil => rfl
  | cons first contexts ih =>
    have apart : context ≠ first := fun same => other (same ▸ List.mem_cons_self)
    have rest : context ∉ contexts := fun later => other (List.mem_cons_of_mem _ later)
    rw [registerCrons]
    split
    case isTrue => rfl
    case isFalse =>
      rw [ih _ rest, get_register, if_neg apart]
      cases s.crons.get context with
      | none => rfl
      | some token' => rfl

theorem get_registerCrons (s : Shared) (token : Nat) {contexts : List ScheduledTaskContext}
    (fine : ∀ context ∈ contexts, isTooShort context.expression = false) (member : context ∈ contexts) :
    (registerCrons s token contexts).crons.get context = (s.crons.get context <|> some token) := by
  induction contexts generalizing s with
  | nil => exact absurd member List.not_mem_nil
  | cons first contexts ih =>
    rw [registerCrons, fine first List.mem_cons_self, if_neg Bool.false_ne_true]
    by_cases later : context ∈ contexts
    · rw [ih _ (fun other among => fine other (List.mem_cons_of_mem _ among)) later, get_register]
      cases s.crons.get context with
      | some token' => rfl
      | none =>
        by_cases same : context = first
        · rw [if_pos same]
          rfl
        · rw [if_neg same]
          rfl
    · rw [get_registerCrons_of_not_mem _ _ later, get_register,
        if_pos ((List.mem_cons.1 member).resolve_right later)]

/-- The first poll of a node has succeeded. -/
theorem Sound.registerCrons (h : Sound s suspended) (state : Nat) (pollNodes : List PollNode) (earlier : List String)
    (elsewhere : ∀ stage, suspended stage → others stage ∨ stage = .polling state node token pollNodes earlier)
    (fine : node.tooShort = false)
    (harmless : s.isCurrent node.id token = true ∨ ∀ context ∈ node.contexts, (s.crons.get context).isSome) :
    Sound (registerCrons s token node.contexts) others := by
  have long : ∀ context ∈ node.contexts, isTooShort context.expression = false := by
    intro context member
    obtain ⟨expression, among, rfl⟩ := List.mem_map.1 member
    simpa using List.any_eq_false.1 fine expression among
  obtain ⟨crons, went⟩ := registerCrons_eq s token node.contexts
  have same (nodeId : String) : (PollTriggers.registerCrons s token node.contexts).registration nodeId =
      s.registration nodeId := by
    rw [went]
    rfl
  have active : (PollTriggers.registerCrons s token node.contexts).activeTriggers = s.activeTriggers := by rw [went]
  have grows (context : ScheduledTaskContext) (there : (s.crons.get context).isSome) :
      ((PollTriggers.registerCrons s token node.contexts).crons.get context).isSome := by
    by_cases member : context ∈ node.contexts
    · rw [get_registerCrons s token long member]
      cases s.crons.get context with
      | none => rfl
      | some token' => rfl
    · rwa [get_registerCrons_of_not_mem s token member]
  refine ⟨fun context token' found => ?_, fun nodeId registration here => ?_,
    fun nodeId registration here context member => ?_⟩
  · rw [same]
    by_cases member : context ∈ node.contexts
    · rw [get_registerCrons s token long member] at found
      cases before : s.crons.get context with
      | some known =>
        rw [before] at found
        exact h.current context token' (before.trans found)
      | none =>
        rw [before] at found
        rcases harmless with current | complete
        · obtain ⟨registration, registered, isToken⟩ := isCurrent_iff.1 current
          rw [targetId_of_mem member]
          exact ⟨registration, registered, isToken.trans (Option.some.inj found)⟩
        · have there := complete context member
          simp [before] at there
    · rw [get_registerCrons_of_not_mem s token member] at found
      exact h.current context token' found
  · rw [same] at here
    exact h.own nodeId registration here
  · rw [same] at here
    rcases h.scheduled nodeId registration here context member with there | ⟨stage, suspends, schedules⟩
    · exact .inl (grows context there)
    · rcases elsewhere stage suspends with other | rfl
      · rw [active]
        exact .inr ⟨stage, other, schedules⟩
      · left
        rw [get_registerCrons s token long schedules.2.2]
        cases s.crons.get context with
        | none => rfl
        | some token' => rfl

theorem get_deregisterTargets (s : Shared) (nodeIds : List String) (context : ScheduledTaskContext) :
    (s.deregisterTargets nodeIds).crons.get context =
      if context.targetId ∈ nodeIds then none else s.crons.get context := by
  rw [Shared.deregisterTargets, OrderedMap.get_filterKeys]
  by_cases member : context.targetId ∈ nodeIds
  · simp [member]
  · simp [member]

theorem registration_deletePollers (s : Shared) (state : Nat) (nodeIds : List String) (nodeId : String) :
    ((s.deregisterTargets nodeIds).deletePollers state nodeIds).registration nodeId =
      if s.activeTriggers = some state ∧ nodeId ∈ nodeIds then none else s.registration nodeId := by
  rw [Shared.deletePollers, registration_modify]
  by_cases stored : s.activeTriggers = some state
  · rw [if_pos (show (s.deregisterTargets nodeIds).activeTriggers = some state from stored), OrderedMap.get_deleteMany]
    by_cases member : nodeId ∈ nodeIds
    · rw [if_pos member, if_pos ⟨stored, member⟩]
    · rw [if_neg member, if_neg fun both => member both.2, registration_eq, stored]
      rfl
  · rw [if_neg (show ¬ (s.deregisterTargets nodeIds).activeTriggers = some state from stored),
      if_neg fun both => stored both.1]
    rfl

/-- Crons and registrations of some nodes are taken out, some of the crons may be new; where the state
object is not the one that is stored, the nodes have no crons. -/
theorem Sound.removed (h : Sound s suspended) {crons : OrderedMap ScheduledTaskContext Nat} (state : Nat)
    (nodeIds : List String)
    (same : ∀ context : ScheduledTaskContext, context.targetId ∉ nodeIds → crons.get context = s.crons.get context)
    (stored_or : s.activeTriggers = some state ∨ ∀ context ∈ s.crons.keys, context.targetId ∉ nodeIds)
    (more : ∀ stage, suspended stage → others stage ∨ ∀ token context,
      stage.Schedules s.activeTriggers token context → s.activeTriggers = some state ∧ context.targetId ∈ nodeIds) :
    Sound (({ s with crons } : Shared).deregisterTargets nodeIds |>.deletePollers state nodeIds) others := by
  have kept {context : ScheduledTaskContext} (apart : context.targetId ∉ nodeIds) :
      (({ s with crons } : Shared).deregisterTargets nodeIds).crons.get context = s.crons.get context := by
    rw [get_deregisterTargets, if_neg apart]
    exact same context apart
  have registration_eq (nodeId : String) :
      (({ s with crons } : Shared).deregisterTargets nodeIds |>.deletePollers state nodeIds).registration nodeId =
        if s.activeTriggers = some state ∧ nodeId ∈ nodeIds then none else s.registration nodeId :=
    registration_deletePollers _ _ _ _
  refine ⟨fun context token found => ?_, fun nodeId registration here => ?_,
    fun nodeId registration here context member => ?_⟩
  · have apart : context.targetId ∉ nodeIds := by
      intro listed
      have gone := get_deregisterTargets { s with crons } nodeIds context
      rw [if_pos listed] at gone
      exact absurd (gone.symm.trans found) (by simp)
    rw [registration_eq, if_neg fun both => apart both.2]
    exact h.current context token ((kept apart).symm.trans found)
  · rw [registration_eq] at here
    split at here
    case isTrue => cases here
    case isFalse => exact h.own nodeId registration here
  · rw [registration_eq] at here
    split at here
    case isTrue => cases here
    case isFalse kept_ =>
      have own := h.own nodeId registration here context member
      rcases h.scheduled nodeId registration here context member with there | ⟨stage, suspends, schedules⟩
      · have apart : context.targetId ∉ nodeIds := by
          intro listed
          rcases stored_or with stored | none
          · exact kept_ ⟨stored, own ▸ listed⟩
          · obtain ⟨token, found⟩ := Option.isSome_iff_exists.1 there
            exact none context ((OrderedMap.mem_keys_iff _ _).2 ⟨token, found⟩) listed
        left
        exact (congrArg Option.isSome (kept apart)).trans there
      · rcases more stage suspends with other | gone
        · exact .inr ⟨stage, other, schedules⟩
        · obtain ⟨stored, listed⟩ := gone _ _ schedules
          exact absurd ⟨stored, own ▸ listed⟩ kept_

theorem sound_invoke (h : Sound s others) (more : ∀ stage, others stage → suspended stage) (made : Nat)
    (call : Invocation) (here : suspended (invoke s made call).2) : Sound (invoke s made call).1 suspended := by
  cases call with
  | addTriggers pollNodes =>
    rw [invoke] at here ⊢
    split
    case isTrue => exact h.mono more
    case isFalse some =>
      rw [if_neg some] at here
      have found : Sound s.getOrCreateWorkflowTriggersState.1 others := by
        rw [Shared.getOrCreateWorkflowTriggersState]
        cases active : s.activeTriggers with
        | some state => exact h
        | none =>
          refine sound_of_none (fun nodeId => ?_) (h.no_crons (registration_of_inactive active))
          rw [registration_eq]
          simp
      have begun : Sound (s.getOrCreateWorkflowTriggersState.1.beginRegistration
          s.getOrCreateWorkflowTriggersState.2) others := found.pending _ _ fun _ => rfl
      exact begun.startTriggers more _ _ _ here
  | removeTriggers nodeIds =>
    rw [invoke]
    cases active : s.activeTriggers with
    | none =>
      refine sound_of_none (registration_of_inactive active) fun context => ?_
      rw [get_deregisterTargets, h.no_crons (registration_of_inactive active)]
      split
      case isTrue => rfl
      case isFalse => rfl
    | some state =>
      exact ((h.mono more).removed state nodeIds (fun _ _ => rfl) (.inl active)
        fun _ suspends => .inl suspends).deleteWorkflowIfEmpty state
  | remove => exact sound_of_none (fun _ => rfl) fun _ => rfl

theorem sound_rollback {crons : OrderedMap ScheduledTaskContext Nat} {pollNodes : List PollNode} {earlier : List String}
    (h : Sound s suspended)
    (elsewhere : ∀ stage, suspended stage → others stage ∨ stage = .polling state node token pollNodes earlier)
    (same : ∀ context : ScheduledTaskContext, context.targetId ∉ earlier ++ [node.id] →
      crons.get context = s.crons.get context)
    (harmless : s.activeTriggers = some state ∨ ∀ context ∈ s.crons.keys, context.targetId ∉ earlier ++ [node.id]) :
    Sound (rollbackPartialActivation { s with crons } state (earlier ++ [node.id])).1 others := by
  refine (h.removed state _ same harmless fun stage suspends => ?_).finishAdding state
  rcases elsewhere stage suspends with other | rfl
  · exact .inl other
  · refine .inr fun token' context schedules => ⟨schedules.1, ?_⟩
    rw [targetId_of_mem schedules.2.2]
    exact List.mem_append_right _ (List.mem_singleton_self _)

theorem sound_proceed (others : Stage → Prop) (h : Sound s suspended) (number : Nat) (stage : Stage) (reply : Reply)
    (elsewhere : ∀ other, suspended other → others other ∨ other = stage) {suspended' : Stage → Prop}
    (more : ∀ other, others other → suspended' other) (here : suspended' (proceed s number stage reply).2)
    (orderly : stage.Orderly s reply) : Sound (proceed s number stage reply).1 suspended' := by
  cases stage with
  | finished =>
    refine ⟨h.current, h.own, fun nodeId registration known context member => ?_⟩
    rcases h.scheduled nodeId registration known context member with there | ⟨stage, suspends, schedules⟩
    · exact .inl there
    · rcases elsewhere stage suspends with other | rfl
      · exact .inr ⟨stage, more stage other, schedules⟩
      · exact schedules.elim
  | polling state node token pollNodes earlier =>
    cases reply with
    | threw =>
      have harmless := orderly
      rw [Stage.Orderly, if_neg (by simp)] at harmless
      exact (sound_rollback h elsewhere (fun _ _ => rfl) harmless).mono more
    | polled =>
      rw [proceed] at here ⊢
      by_cases short : node.tooShort = true
      · have harmless := orderly
        rw [Stage.Orderly, if_neg (by simp [short])] at harmless
        simp only [if_pos short]
        obtain ⟨crons, went⟩ := registerCrons_eq s token node.contexts
        have outside (context : ScheduledTaskContext) (apart : context.targetId ∉ earlier ++ [node.id]) :
            crons.get context = s.crons.get context := by
          have other : context ∉ node.contexts := fun member =>
            apart (List.mem_append_right _ (List.mem_singleton.2 (targetId_of_mem member)))
          have still := get_registerCrons_of_not_mem s token other
          rwa [went] at still
        rw [went]
        exact (sound_rollback h elsewhere outside harmless).mono more
      · have long : node.tooShort = false := by simpa using short
        have harmless := orderly
        rw [Stage.Orderly, if_pos ⟨rfl, long⟩] at harmless
        simp only [if_neg short] at here ⊢
        exact (h.registerCrons state pollNodes earlier elsewhere long harmless).startTriggers more _ _ _ here

theorem sound_next (config : Config Shared Stage) (action : Action Invocation Reply Empty)
    (h : Sound config.shared (· ∈ config.calls)) (orderly : Orderly config action) :
    Sound (system.next config action).shared (· ∈ (system.next config action).calls) := by
  cases action with
  | environment event => exact h
  | invoke call =>
    exact sound_invoke h (fun _ among => List.mem_append_left _ among) _ call
      (List.mem_append_right _ (List.mem_singleton_self _))
  | proceed number reply =>
    rw [System.next]
    cases found : config.calls[number]? with
    | none => exact h
    | some stage =>
      have bound := (List.getElem?_eq_some_iff.1 found).1
      refine sound_proceed (fun other => ∃ i, i ≠ number ∧ config.calls[i]? = some other) h number stage reply
        (fun other among => ?_) (fun other elsewhere => ?_) ?_ (orderly stage found)
      · obtain ⟨i, there⟩ := List.mem_iff_getElem?.1 among
        by_cases same : i = number
        · rw [same, found] at there
          exact .inr (Option.some.inj there).symm
        · exact .inl ⟨i, same, there⟩
      · obtain ⟨i, apart, there⟩ := elsewhere
        refine List.mem_iff_getElem?.2 ⟨i, ?_⟩
        rw [List.getElem?_set_ne (Ne.symm apart)]
        exact there
      · exact List.mem_iff_getElem?.2 ⟨number, List.getElem?_set_self bound⟩

/-- In a run of which every step is orderly registered poll nodes stay scheduled. -/
theorem along_scheduled (actions : List (Action Invocation Reply Empty))
    (orderly : Runs.Along system.next Orderly { shared := {} } actions) :
    ScheduledAtRest (system.run { shared := {} } actions) := by
  have initial : Sound ({} : Shared) (· ∈ ([] : List Stage)) := sound_of_none (fun _ => rfl) fun _ => rfl
  have sound := Runs.holds_after (fun config action sound here => sound_next config action sound here) initial orderly
  exact sound.at_rest

def pollNode (id : String) : PollNode := { id, timezone := "UTC", cronExpressions := ["7 30 * * * *"] }

/-- Of two nodes one is taken out and added again, and added once more by a call whose poll fails. -/
def orderlyRun : List (Action Invocation Reply Empty) :=
  [.invoke (.addTriggers [pollNode "first", pollNode "second"]), .proceed 0 .polled, .proceed 0 .polled,
    .invoke (.removeTriggers ["first"]), .invoke (.addTriggers [pollNode "first"]), .proceed 2 .polled,
    .invoke (.addTriggers [pollNode "first"]), .proceed 3 .threw]

theorem along_scheduled_orderlyRun : ScheduledAtRest (system.run { shared := {} } orderlyRun) :=
  along_scheduled orderlyRun (by decide)

/-- A node is taken out during its first poll and added again. -/
def overlapping : List (Action Invocation Reply Empty) :=
  [.invoke (.addTriggers [pollNode "first"]), .invoke (.removeTriggers ["first"]),
    .invoke (.addTriggers [pollNode "first"]), .proceed 0 .polled, .proceed 2 .polled]

/-- The cron carries the token of the first registration. -/
theorem not_scheduled_overlapping : ¬ ScheduledAtRest (system.run { shared := {} } overlapping) := by
  intro scheduled
  have registered := (scheduled (by decide)).registered "first" ⟨1, (pollNode "first").contexts⟩ (by decide)
  exact absurd (registered ⟨"first", "UTC", "7 30 * * * *"⟩ (by decide)) (by decide)

end NodeAutomation.PollTriggers
