import NodeAutomation.Lib.OrderedMap
import NodeAutomation.Lib.Runs

/-! The executions of this process (`packages/cli/src/active-executions.ts`), and the
capacity each of them has reserved
(`packages/cli/src/concurrency/concurrency-capacity-reservation.ts`). A call of `add` can
be suspended at each of its awaits, and the callback of `postExecutePromise` runs some
time after the promise has been settled. -/

namespace NodeAutomation.ActiveExecutions

inductive ExecutionStatus where
  | canceled | crashed | error | new | running | success | unknown | waiting
  deriving DecidableEq

inductive WorkflowExecuteMode where
  | cli | error | integrated | internal | manual | retry | trigger | webhook | evaluation | chat
  | agent
  deriving DecidableEq

/-- `executions.mode` of the configuration. -/
inductive ExecutionsMode where
  | regular | queue
  deriving DecidableEq

/-- Whether capacity is held; then how often `reserve` has obtained some, and how often
`release` has given some back. -/
structure ConcurrencyCapacityReservation where
  acquiredReservation : Bool := false
  reserved : Nat := 0
  released : Nat := 0
  deriving DecidableEq

namespace ConcurrencyCapacityReservation

/-- `reserve`, once `throttle` has let the execution through. -/
def reserve (r : ConcurrencyCapacityReservation) : ConcurrencyCapacityReservation :=
  { r with acquiredReservation := true, reserved := r.reserved + 1 }

def release (r : ConcurrencyCapacityReservation) : ConcurrencyCapacityReservation :=
  if r.acquiredReservation then { r with acquiredReservation := false, released := r.released + 1 }
  else r

end ConcurrencyCapacityReservation

inductive PostExecutePromise where
  | pending | resolved | rejected
  deriving DecidableEq

def PostExecutePromise.settle (p result : PostExecutePromise) : PostExecutePromise :=
  match p with
  | .pending => result
  | settled => settled

/-- An entry of `activeExecutions`, and what the callback of its promise refers to. Its
response promise and its HTTP response are known by their numbers. -/
structure Execution where
  executionId : String
  capacityReservation : ConcurrencyCapacityReservation
  postExecutePromise : PostExecutePromise := .pending
  status : ExecutionStatus
  responsePromise : Option Nat := none
  httpResponse : Option Nat := none
  workflowExecution : Bool := false
  /-- the callback has run -/
  removed : Bool := false
  /-- the run has ended; `stopExecution` was called for it -/
  ended : Bool := false
  stopped : Bool := false
  deriving DecidableEq

/-- Where a call of `add` is suspended. -/
inductive AddStage where
  | creating
  | reserving
  | settingRunning
  | updating
  | returned
  | thrown
  deriving DecidableEq

structure AddCall where
  mode : WorkflowExecuteMode
  resuming : Bool
  executionId : Option String
  httpResponse : Option Nat
  stage : AddStage
  capacityReservation : ConcurrencyCapacityReservation := {}
  deriving DecidableEq

namespace AddCall

def shouldReserveCapacity (call : AddCall) : Bool := call.mode ≠ .evaluation

def stageReserved (executions : ExecutionsMode) (call : AddCall) : Option AddStage :=
  if call.resuming then some .updating
  else if executions = .regular then some .settingRunning
  else none

def stageCreated (executions : ExecutionsMode) (call : AddCall) : Option AddStage :=
  if call.shouldReserveCapacity then some .reserving else call.stageReserved executions

end AddCall

/-- What is done besides: an event, and what happens to other objects. -/
inductive Effect where
  | executionCancelled (executionId : String)
  | rejectResponsePromise (responsePromise : Nat)
  | endHttpResponse (httpResponse : Nat)
  | cancelWorkflowExecution (execution : Nat)
  deriving DecidableEq

/-- `activeExecutions` by the numbers of its entries, all entries that ever were, and all
calls of `add`. -/
structure State where
  activeExecutions : OrderedMap String Nat := ∅
  executions : List Execution := []
  calls : List AddCall := []
  effects : List Effect := []

namespace State

def modifyExecution (execution : Nat) (f : Execution → Execution) (s : State) : State :=
  { s with executions := s.executions.modify execution f }

def setCall (call : Nat) (new : AddCall) (s : State) : State := { s with calls := s.calls.set call new }

def active (s : State) (executionId : String) : Option (Nat × Execution) := do
  let execution ← s.activeExecutions.get executionId
  let e ← s.executions[execution]?
  pure (execution, e)

def addNew (mode : WorkflowExecuteMode) (httpResponse : Option Nat) (s : State) : State :=
  { s with calls := s.calls ++
      [{ mode, httpResponse, resuming := false, executionId := none, stage := .creating }] }

def addResuming (executionId : String) (mode : WorkflowExecuteMode) (httpResponse : Option Nat)
    (s : State) : State :=
  let stage := if mode ≠ .evaluation then AddStage.reserving else .updating
  { s with calls := s.calls ++
      [{ mode, httpResponse, stage, resuming := true, executionId := some executionId }] }

/-- `add` behind its last await. -/
def register (call : Nat) (c : AddCall) (executionId : String) (s : State) : State :=
  let execution := s.executions.length
  let resumingExecution := s.active executionId
  ({ s with
    activeExecutions := s.activeExecutions.set executionId execution
    executions := s.executions ++ [{
      executionId
      capacityReservation := c.capacityReservation
      status := .running
      responsePromise := resumingExecution.bind fun e => e.2.responsePromise
      httpResponse := c.httpResponse }] } : State).setCall call
    { c with stage := .returned, capacityReservation := {} }

/-- `add` goes on to its next await, or to its end. -/
def goOn (call : Nat) (c : AddCall) (executionId : String) (stage : Option AddStage) (s : State) :
    State :=
  match stage with
  | none => s.register call c executionId
  | some stage => s.setCall call { c with stage }

/-- The `catch` of `add`. -/
def throwAdd (call : Nat) (c : AddCall) (s : State) : State :=
  s.setCall call { c with stage := .thrown, capacityReservation := c.capacityReservation.release }

def created (executions : ExecutionsMode) (call : Nat) (executionId : String) (s : State) : State :=
  match s.calls[call]? with
  | none => s
  | some c =>
    if c.stage = .creating then
      let c := { c with executionId := some executionId }
      s.goOn call c executionId (c.stageCreated executions)
    else s

/-- What `add` waits for comes back (for `updateExistingExecution`, with true) or fails. -/
def resumeAdd (executions : ExecutionsMode) (call : Nat) (ok : Bool) (s : State) : State :=
  match s.calls[call]? with
  | none => s
  | some c =>
    match c.stage, c.executionId with
    | .creating, _ => if ok then s else s.throwAdd call c
    | .reserving, some executionId =>
      if ok then
        let c := { c with capacityReservation := c.capacityReservation.reserve }
        s.goOn call c executionId (c.stageReserved executions)
      else s.throwAdd call c
    | .settingRunning, some executionId | .updating, some executionId =>
      if ok then s.register call c executionId else s.throwAdd call c
    | _, _ => s

/-- The `finally` of the `postExecutePromise` of an execution. -/
def postExecuted (execution : Nat) (s : State) : State :=
  match s.executions[execution]? with
  | none => s
  | some e =>
    if e.postExecutePromise ≠ .pending ∧ e.removed = false then
      let e' := { e with removed := true, capacityReservation := e.capacityReservation.release }
      if e.status = .waiting then
        s.modifyExecution execution fun _ => { e' with workflowExecution := false }
      else
        ({ s with activeExecutions := s.activeExecutions.delete e.executionId } : State).modifyExecution
          execution fun _ => e'
    else s

def attachWorkflowExecution (executionId : String) (s : State) : State :=
  match s.active executionId with
  | none => s
  | some (execution, _) => s.modifyExecution execution fun e => { e with workflowExecution := true }

def attachResponsePromise (executionId : String) (responsePromise : Nat) (s : State) : State :=
  match s.active executionId with
  | none => s
  | some (execution, _) =>
    s.modifyExecution execution fun e => { e with responsePromise := some responsePromise }

def setStatus (executionId : String) (status : ExecutionStatus) (s : State) : State :=
  match s.active executionId with
  | none => s
  | some (execution, _) => s.modifyExecution execution fun e => { e with status := status }

def stopExecution (executionId : String) (s : State) : State :=
  match s.active executionId with
  | none => s
  | some (execution, e) =>
    let s : State := { s with effects := s.effects ++ [Effect.executionCancelled executionId] ++
      (e.responsePromise.map Effect.rejectResponsePromise).toList }
    if e.status = .waiting then
      ({ s with activeExecutions := s.activeExecutions.delete executionId } : State).modifyExecution
        execution fun e => { e with stopped := true }
    else
      ({ s with effects := s.effects ++
          if e.workflowExecution then [Effect.cancelWorkflowExecution execution] else [] } :
        State).modifyExecution execution fun e => { e with
          stopped := true
          postExecutePromise := e.postExecutePromise.settle .rejected }

def finalizeExecution (executionId : String) (s : State) : State :=
  match s.active executionId with
  | none => s
  | some (execution, e) =>
    ({ s with effects := s.effects ++ (e.httpResponse.map Effect.endHttpResponse).toList } :
      State).modifyExecution execution fun e =>
        { e with postExecutePromise := e.postExecutePromise.settle .resolved }

def runEnds (execution : Nat) (s : State) : State :=
  match s.executions[execution]? with
  | none => s
  | some e =>
    if e.ended then s
    else (s.modifyExecution execution fun e => { e with ended := true }).finalizeExecution e.executionId

end State

inductive Action where
  | addNew (mode : WorkflowExecuteMode) (httpResponse : Option Nat)
  | addResuming (executionId : String) (mode : WorkflowExecuteMode) (httpResponse : Option Nat)
  | created (call : Nat) (executionId : String)
  | resumeAdd (call : Nat) (ok : Bool)
  | postExecuted (execution : Nat)
  | attachWorkflowExecution (executionId : String)
  | attachResponsePromise (executionId : String) (responsePromise : Nat)
  | setStatus (executionId : String) (status : ExecutionStatus)
  | stopExecution (executionId : String)
  | runEnds (execution : Nat)

def step (executions : ExecutionsMode) (s : State) : Action → State
  | .addNew mode httpResponse => s.addNew mode httpResponse
  | .addResuming executionId mode httpResponse => s.addResuming executionId mode httpResponse
  | .created call executionId => s.created executions call executionId
  | .resumeAdd call ok => s.resumeAdd executions call ok
  | .postExecuted execution => s.postExecuted execution
  | .attachWorkflowExecution executionId => s.attachWorkflowExecution executionId
  | .attachResponsePromise executionId responsePromise =>
    s.attachResponsePromise executionId responsePromise
  | .setStatus executionId status => s.setStatus executionId status
  | .stopExecution executionId => s.stopExecution executionId
  | .runEnds execution => s.runEnds execution

/-- What was reserved for an execution is released once, when it has ended or was stopped
and not before, and those who wait for it hear of its end. -/
structure Execution.Settled (e : Execution) : Prop where
  once : e.capacityReservation.released ≤ e.capacityReservation.reserved ∧
    e.capacityReservation.reserved ≤ 1
  notBefore : 0 < e.capacityReservation.released → e.ended = true ∨ e.stopped = true
  released : e.ended = true ∨ e.stopped = true → e.postExecutePromise ≠ .pending ∧
    (e.removed = true → e.capacityReservation.released = e.capacityReservation.reserved)
  waiters : e.ended = true → e.postExecutePromise ≠ .pending

/-- All reservations: those of executions, and those of calls of `add` that threw. -/
structure State.Settled (s : State) : Prop where
  executions : ∀ e ∈ s.executions, e.Settled
  thrown : ∀ call ∈ s.calls, call.stage = .thrown →
    call.capacityReservation.released = call.capacityReservation.reserved ∧
      call.capacityReservation.reserved ≤ 1

/-- An id may be added again when its executions have been finalised, and those that are
not waiting have been removed. -/
def State.Free (s : State) (executionId : String) : Prop :=
  ∀ e ∈ s.executions, e.executionId = executionId →
    e.ended = true ∧ (e.removed = true ∨ e.status = .waiting)

instance (s : State) (executionId : String) : Decidable (s.Free executionId) :=
  inferInstanceAs (Decidable (∀ e ∈ s.executions, e.executionId = executionId →
    e.ended = true ∧ (e.removed = true ∨ e.status = .waiting)))

def registers (executions : ExecutionsMode) (s : State) : Action → Option String
  | .created call executionId => do
    let c ← s.calls[call]?
    if c.stage = .creating && (c.stageCreated executions).isNone then some executionId else none
  | .resumeAdd call true => do
    let c ← s.calls[call]?
    if c.stage = .settingRunning || c.stage = .updating ||
      c.stage = .reserving && (c.stageReserved executions).isNone then c.executionId else none
  | _ => none

/-- `stopExecution` is called for an execution that is waiting and whose run is not over. -/
def stopsWaitingRun (s : State) : Action → Bool
  | .stopExecution executionId => (s.active executionId).any fun e =>
      e.2.status = .waiting && e.2.postExecutePromise = .pending
  | _ => false

/-- A waiting execution is stopped only when its run is over, and an id is added again
only when it is free. -/
def Orderly (executions : ExecutionsMode) (s : State) (action : Action) : Prop :=
  stopsWaitingRun s action = false ∧ (registers executions s action).all fun id => s.Free id

instance (executions : ExecutionsMode) (s : State) (action : Action) :
    Decidable (Orderly executions s action) := inferInstanceAs (Decidable (_ ∧ _))

end NodeAutomation.ActiveExecutions
