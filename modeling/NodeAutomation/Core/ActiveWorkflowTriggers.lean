import NodeAutomation.Lib.Interleaving
import NodeAutomation.Lib.LiveMap
import Mathlib.Logic.Function.Basic

/-! The triggers of one workflow in memory
(`packages/core/src/execution-engine/active-workflow-triggers.ts` and
`workflow-active-triggers-state.ts`). A state object is known by the order in which it was
created, a trigger response by the order in which it was started. -/

namespace NodeAutomation.ActiveWorkflowTriggers

open Interleaving

variable {ν : Type} [DecidableEq ν]

/-- `WorkflowActiveTriggersState`. A registration has a response, or none (pollers and schedule
triggers); its place stands for its token. -/
structure TriggersState (ν : Type) where
  registrations : LiveMap ν (Option Nat) := ∅
  pendingRegistrations : Nat := 0

structure TriggerResponse (ν : Type) where
  node : ν
  closeFunction : Bool
  closeCalled : Bool := false
  deriving DecidableEq

/-- The response was started, and has a close function that has not been called. -/
def TriggerResponse.Live (response : TriggerResponse ν) : Prop :=
  response.closeFunction = true ∧ response.closeCalled = false

instance (response : TriggerResponse ν) : Decidable response.Live :=
  inferInstanceAs (Decidable (response.closeFunction = true ∧ response.closeCalled = false))

/-- `activeTriggers` is the state object that is stored for the workflow. -/
structure Shared (ν : Type) where
  activeTriggers : Option Nat := none
  states : Nat → TriggersState ν := fun _ => {}
  created : Nat := 0
  responses : List (TriggerResponse ν) := []
  crons : List ν := []

namespace Shared

/-- `triggers.get`: the response recorded for a node. -/
def get (s : Shared ν) (state : Nat) (node : ν) : Option Nat :=
  ((s.states state).registrations.get node).bind Prod.snd

def modify (s : Shared ν) (state : Nat) (f : TriggersState ν → TriggersState ν) : Shared ν :=
  { s with states := Function.update s.states state (f (s.states state)) }

def record (s : Shared ν) (state : Nat) (node : ν) (response : Option Nat) : Shared ν :=
  s.modify state fun triggers => { triggers with registrations := triggers.registrations.put node response }

/-- `addTriggerResponse`, of a response that has just been started. -/
def addTriggerResponse (s : Shared ν) (state : Nat) (node : ν) (closeFunction : Bool) : Shared ν :=
  { s.record state node (some s.responses.length) with responses := s.responses ++ [{ node, closeFunction }] }

/-- `addScheduledTrigger` and `addPoller`. -/
def getOrCreateRegistration (s : Shared ν) (state : Nat) (node : ν) : Shared ν :=
  match (s.states state).registrations.get node with
  | some _ => s
  | none => s.record state node none

def delete (s : Shared ν) (state : Nat) (node : ν) : Shared ν :=
  s.modify state fun triggers => { triggers with registrations := triggers.registrations.delete node }

def closeTrigger (s : Shared ν) (response : Nat) : Shared ν :=
  { s with
    responses := s.responses.modify response fun response =>
      { response with closeCalled := response.closeCalled || response.closeFunction } }

def registerCrons (s : Shared ν) (node : ν) (crons : Bool) : Shared ν :=
  if crons then { s with crons := s.crons ++ [node] } else s

def deregisterTargets (s : Shared ν) (nodes : List ν) : Shared ν :=
  { s with crons := s.crons.filter (· ∉ nodes) }

def getOrCreateWorkflowTriggersState (s : Shared ν) : Shared ν × Nat :=
  match s.activeTriggers with
  | some state => (s, state)
  | none =>
    ({ s with
      activeTriggers := some s.created
      states := Function.update s.states s.created {}
      created := s.created + 1 }, s.created)

def deleteWorkflowIfEmpty (s : Shared ν) (state : Nat) : Shared ν :=
  if s.activeTriggers ≠ some state then s
  else if !(s.states state).registrations.isEmpty || 0 < (s.states state).pendingRegistrations then s
  else if !s.crons.isEmpty then s
  else { s with activeTriggers := none }

def beginRegistration (s : Shared ν) (state : Nat) : Shared ν :=
  s.modify state fun triggers => { triggers with pendingRegistrations := triggers.pendingRegistrations + 1 }

def finishRegistration (s : Shared ν) (state : Nat) : Shared ν :=
  s.modify state fun triggers => { triggers with pendingRegistrations := triggers.pendingRegistrations - 1 }

end Shared

inductive Invocation (ν : Type) where
  | addTriggers (triggerNodes pollNodes : List ν)
  | removeTriggers (nodeIds : List ν)
  | remove
  deriving DecidableEq

/-- What an operation is suspended at: the trigger function of a node, the first poll of a node,
or a close function that a rollback, `removeTriggers` or `remove` has called. The last goes on
at a place of the registrations. -/
inductive Stage (ν : Type) where
  | starting (state : Nat) (node : ν) (triggerNodes pollNodes attempted registered : List ν)
  | polling (state : Nat) (node : ν) (pollNodes attempted registered : List ν)
  | rollingBack (state : Nat) (node : ν) (registered : List ν)
  | removingTriggers (state : Nat) (node : ν) (nodeIds : List ν)
  | removing (state place : Nat)
  | finished
  deriving DecidableEq

/-- What the code of a node has done: a trigger function returns a response, with or without a
close function, or none; it and a poller may have registered crons. -/
inductive Reply where
  | completed (response : Option Bool) (crons : Bool)
  | threw (crons : Bool)
  deriving DecidableEq

/-- A trigger function registers crons while it is running. -/
inductive Event (ν : Type) where
  | registerCron (node : ν)
  deriving DecidableEq

/-- `Set.add`. -/
def add (nodes : List ν) (node : ν) : List ν := if node ∈ nodes then nodes else nodes ++ [node]

/-- The `finally` of `addTriggers`. -/
def finishAdding (s : Shared ν) (state : Nat) : Shared ν × Stage ν :=
  ((s.finishRegistration state).deleteWorkflowIfEmpty state, .finished)

/-- The loops of `startTriggers`, up to the next node. -/
def startTriggers (s : Shared ν) (state : Nat) (attempted registered : List ν) :
    List ν → List ν → Shared ν × Stage ν
  | node :: triggerNodes, pollNodes =>
    (s, .starting state node triggerNodes pollNodes (add attempted node) registered)
  | [], node :: pollNodes =>
    (s.getOrCreateRegistration state node,
      .polling state node pollNodes (add attempted node) (add registered node))
  | [], [] => finishAdding s state

/-- The loop of `rollbackPartialActivation`. -/
def rollBack (s : Shared ν) (state : Nat) : List ν → Shared ν × Stage ν
  | [] => finishAdding s state
  | node :: registered =>
    match s.get state node with
    | none => rollBack (s.delete state node) state registered
    | some response => (s.closeTrigger response, .rollingBack state node registered)

/-- The loop of `removeTriggers`. -/
def removeNodes (s : Shared ν) (state : Nat) : List ν → Shared ν × Stage ν
  | [] => (s.deleteWorkflowIfEmpty state, .finished)
  | node :: nodeIds =>
    match s.get state node with
    | none => removeNodes ((s.deregisterTargets [node]).delete state node) state nodeIds
    | some response =>
      ((s.deregisterTargets [node]).closeTrigger response, .removingTriggers state node nodeIds)

/-- The loop of `remove`, over `triggerResponses()`. -/
def closeNext (s : Shared ν) (state place : Nat) : Shared ν × Stage ν :=
  match (s.states state).registrations.firstFrom place Option.isSome with
  | some (_, place', some response) => (s.closeTrigger response, .removing state (place' + 1))
  | some (_, _, none) | none => ({ s with activeTriggers := none }, .finished)

def invoke (s : Shared ν) (_ : Nat) : Invocation ν → Shared ν × Stage ν
  | .addTriggers triggerNodes pollNodes =>
    if triggerNodes.isEmpty && pollNodes.isEmpty then (s, .finished)
    else
      let found := s.getOrCreateWorkflowTriggersState
      startTriggers (found.1.beginRegistration found.2) found.2 [] [] triggerNodes pollNodes
  | .removeTriggers nodeIds =>
    match s.activeTriggers with
    | none => (s.deregisterTargets nodeIds, .finished)
    | some state => removeNodes s state nodeIds
  | .remove =>
    let deregistered := { s with crons := [] }
    match s.activeTriggers with
    | none => (deregistered, .finished)
    | some state => closeNext deregistered state 0

def proceed (s : Shared ν) (_ : Nat) (stage : Stage ν) (reply : Reply) : Shared ν × Stage ν :=
  match stage, reply with
  | .starting state node triggerNodes pollNodes attempted registered, .completed (some closeFunction) crons =>
    startTriggers ((s.registerCrons node crons).addTriggerResponse state node closeFunction) state attempted
      (add registered node) triggerNodes pollNodes
  | .starting state node triggerNodes pollNodes attempted registered, .completed none crons =>
    let called := s.registerCrons node crons
    if node ∈ called.crons then
      startTriggers (called.getOrCreateRegistration state node) state attempted (add registered node)
        triggerNodes pollNodes
    else startTriggers called state attempted registered triggerNodes pollNodes
  | .starting state node _ _ attempted registered, .threw crons =>
    rollBack ((s.registerCrons node crons).deregisterTargets attempted) state registered
  | .polling state node pollNodes attempted registered, .completed _ crons =>
    startTriggers (s.registerCrons node crons) state attempted registered [] pollNodes
  | .polling state node _ attempted registered, .threw crons =>
    rollBack ((s.registerCrons node crons).deregisterTargets attempted) state registered
  -- an error of a close function is reported, and the rollback goes on
  | .rollingBack state node registered, _ => rollBack (s.delete state node) state registered
  | .removingTriggers state node nodeIds, .completed _ _ => removeNodes (s.delete state node) state nodeIds
  | .removing state place, .completed _ _ => closeNext s state place
  | .removingTriggers _ _ _, .threw _ | .removing _ _, .threw _ | .finished, _ => (s, .finished)

def environment (s : Shared ν) : Event ν → Shared ν
  | .registerCron node => s.registerCrons node true

def system : System (Shared ν) (Stage ν) (Invocation ν) Reply (Event ν) where
  invoke := invoke
  proceed := proceed
  environment := environment

def Shared.IsLive (s : Shared ν) (response : Nat) : Prop := ∃ known ∈ s.responses[response]?, known.Live

instance (s : Shared ν) (response : Nat) : Decidable (s.IsLive response) :=
  inferInstanceAs (Decidable (∃ known ∈ s.responses[response]?, known.Live))

def Shared.HasLive (s : Shared ν) (state : Nat) (node : ν) : Prop := ∃ response ∈ s.get state node, s.IsLive response

instance (s : Shared ν) (state : Nat) (node : ν) : Decidable (s.HasLive state node) :=
  inferInstanceAs (Decidable (∃ response ∈ s.get state node, s.IsLive response))

/-- Every live response is recorded in the state stored for the workflow, under its node, and
no node has two. -/
structure Tracked (s : Shared ν) : Prop where
  recorded : ∀ (response : Nat) known, s.responses[response]? = some known → known.Live →
    ∃ state, s.activeTriggers = some state ∧ s.get state known.node = some response
  single : ∀ (response response' : Nat) (known known' : TriggerResponse ν), s.responses[response]? = some known →
    s.responses[response']? = some known' → known.Live → known'.Live → known.node = known'.node → response = response'

/-- When no operation is in progress, no response runs untracked. -/
def TrackedAtRest (config : Config (Shared ν) (Stage ν)) : Prop :=
  (∀ stage ∈ config.calls, stage = .finished) → Tracked config.shared

/-- A `remove` in progress will come to the node's registration. -/
def Stage.Meets (s : Shared ν) (state : Nat) (node : ν) : Stage ν → Prop
  | .removing state' place => state' = state → ∀ entry ∈ (s.states state).registrations.get node, place ≤ entry.1
  | .starting _ _ _ _ _ _ | .polling _ _ _ _ _ | .rollingBack _ _ _ | .removingTriggers _ _ _ | .finished => True

instance (s : Shared ν) (state : Nat) (node : ν) : DecidablePred (Stage.Meets s state node)
  | .removing state' place =>
    inferInstanceAs (Decidable (state' = state → ∀ entry ∈ (s.states state).registrations.get node, place ≤ entry.1))
  | .starting _ _ _ _ _ _ | .polling _ _ _ _ _ | .rollingBack _ _ _ | .removingTriggers _ _ _ | .finished =>
    inferInstanceAs (Decidable True)

/-- When a response arrives its node has no live one, and where it can be closed its state
object is still stored and no `remove` has passed the node; what `removeTriggers` or a rollback
deletes after a close function has no live response; and where `remove` is done but another
state object is stored, that one has none. -/
def Stage.Orderly (s : Shared ν) (calls : List (Stage ν)) : Stage ν → Reply → Prop
  | .starting state node _ _ _ _, .completed (some closeFunction) _ =>
    ¬ s.HasLive state node ∧
      (closeFunction = true → s.activeTriggers = some state ∧ ∀ call ∈ calls, call.Meets s state node)
  | .rollingBack state node _, _ | .removingTriggers state node _, .completed _ _ => ¬ s.HasLive state node
  | .removing state place, .completed _ _ =>
    (s.states state).registrations.firstFrom place Option.isSome = none →
      ∀ other ∈ s.activeTriggers, other = state ∨
        ∀ entry ∈ (s.states other).registrations.stored.entries, ∀ response ∈ entry.2.2, ¬ s.IsLive response
  | .starting _ _ _ _ _ _, .completed none _ | .starting _ _ _ _ _ _, .threw _ | .polling _ _ _ _ _, _
  | .removingTriggers _ _ _, .threw _ | .removing _ _, .threw _ | .finished, _ => True

instance (s : Shared ν) (calls : List (Stage ν)) : (stage : Stage ν) → (reply : Reply) →
    Decidable (stage.Orderly s calls reply)
  | .starting state node _ _ _ _, .completed (some closeFunction) _ =>
    inferInstanceAs (Decidable (¬ s.HasLive state node ∧
      (closeFunction = true → s.activeTriggers = some state ∧ ∀ call ∈ calls, call.Meets s state node)))
  | .rollingBack state node _, .completed _ _ | .rollingBack state node _, .threw _
  | .removingTriggers state node _, .completed _ _ => inferInstanceAs (Decidable (¬ s.HasLive state node))
  | .removing state place, .completed _ _ =>
    inferInstanceAs (Decidable ((s.states state).registrations.firstFrom place Option.isSome = none →
      ∀ other ∈ s.activeTriggers, other = state ∨
        ∀ entry ∈ (s.states other).registrations.stored.entries, ∀ response ∈ entry.2.2, ¬ s.IsLive response))
  | .starting _ _ _ _ _ _, .completed none _ | .starting _ _ _ _ _ _, .threw _
  | .polling _ _ _ _ _, .completed _ _ | .polling _ _ _ _ _, .threw _
  | .removingTriggers _ _ _, .threw _ | .removing _ _, .threw _ | .finished, .completed _ _ | .finished, .threw _ =>
    inferInstanceAs (Decidable True)

def Orderly (config : Config (Shared ν) (Stage ν)) : Action (Invocation ν) Reply (Event ν) → Prop
  | .proceed number reply =>
    ∀ stage ∈ config.calls[number]?, stage.Orderly config.shared config.calls reply
  | .invoke _ | .environment _ => True

instance (config : Config (Shared ν) (Stage ν)) : DecidablePred (Orderly config)
  | .proceed number reply =>
    inferInstanceAs (Decidable (∀ stage ∈ config.calls[number]?, stage.Orderly config.shared config.calls reply))
  | .invoke _ | .environment _ => inferInstanceAs (Decidable True)

end NodeAutomation.ActiveWorkflowTriggers
