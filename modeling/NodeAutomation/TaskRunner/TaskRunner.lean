import NodeAutomation.Lib.OrderedMap
import NodeAutomation.Lib.Runs

/-! The task runner (`packages/@n8n/task-runner/src/task-runner.ts`): its offers, its tasks
and how it stops. A run is what happens while the connection to the broker is open. -/

namespace NodeAutomation.TaskRunner

/-- What the runner is given. Of results and errors it matters whether `JSON.stringify` takes
them. A rejection that nobody handles ends the process, unless something else has been set up. -/
structure Setting (π : Type*) where
  name : String
  taskType : String
  maxConcurrency : Nat
  taskTimeout : Nat
  gracefulShutdownTimeout : Int
  serializable : π → Bool
  /-- `randomInt(500)` for each of the offers -/
  randomInt : Nat → Nat
  exitOnUnhandledRejection : Bool

inductive TaskStatus where
  | waitingForSettings | running | abortingCancelled | abortingTimeout
  deriving DecidableEq

/-- What a failed execution is reported with: what was thrown, the error of the timeout, or the
error of `JSON.stringify`. -/
inductive Failure (π : Type*) where
  | thrown (error : π)
  | timeoutError (timeoutInS : Nat)
  | notSerializable
  deriving DecidableEq

/-- How far the execution of a task has come: not started, under way, answered (or passed
over, where it was cancelled), its result or then its error found not to be serializable. -/
inductive Execution where
  | notStarted | executing | answered | unsendable | failing | unsendableError | ended
  deriving DecidableEq

structure TaskState where
  taskId : String
  status : TaskStatus := .waitingForSettings
  /-- the timeout can still fire -/
  timeoutTimer : Bool := true
  execution : Execution := .notStarted
  deriving DecidableEq

/-- The constructor of `TaskState`. -/
def TaskState.new (taskId : String) : TaskState := { taskId }

inductive ToBroker (π : Type*) where
  | info (name : String) (types : List String)
  | taskoffer (taskType : String) (offerId validFor : Nat)
  | taskaccepted (taskId : String)
  | taskrejected (taskId reason : String)
  | taskdone (taskId : String) (data : π)
  | taskerror (taskId : String) (error : Failure π)
  deriving DecidableEq

/-- Where a call of `stop` is: waiting for the broker, let go on (after it has waited, or at
once), or committed to draining. -/
inductive Stop where
  | waiting | released (waited : Bool) | draining
  deriving DecidableEq

/-- Offers and tasks are known by their numbers; a number beyond them stands for an offer that
is not of this runner. -/
structure State (π : Type*) where
  canSendOffers : Bool := false
  offerInterval : Bool := false
  openOffers : OrderedMap Nat Nat := ∅
  offers : Nat := 0
  runningTasks : OrderedMap String Nat := ∅
  tasks : List TaskState := []
  isShuttingDown : Bool := false
  isDraining : Bool := false
  brokerDrainResolve : Option Nat := none
  stops : List Stop := []
  hrtime : Nat := 0
  sent : List (ToBroker π) := []
  exited : Bool := false

variable {π : Type*}

def offerValidTimeMs : Nat := 5000

def offerValidExtraMs : Nat := 100

def msToNs (ms : Nat) : Nat := ms * 1000000

def Failure.serializable (setting : Setting π) : Failure π → Bool
  | .thrown error => setting.serializable error
  | .timeoutError _ | .notSerializable => true

namespace State

def send (s : State π) (message : ToBroker π) : State π := { s with sent := s.sent ++ [message] }

def modifyTask (s : State π) (task : Nat) (f : TaskState → TaskState) : State π :=
  { s with tasks := s.tasks.modify task f }

def unhandledRejection (setting : Setting π) (s : State π) : State π :=
  { s with exited := s.exited || setting.exitOnUnhandledRejection }

def startTaskOffers (s : State π) : State π := { s with canSendOffers := true, offerInterval := true }

def stopTaskOffers (s : State π) : State π := { s with canSendOffers := false, offerInterval := false }

def deleteStaleOffers (s : State π) : State π :=
  { s with openOffers := s.openOffers.filterValues fun validUntil => ¬validUntil < s.hrtime }

def sendOffer (setting : Setting π) (s : State π) : State π :=
  let validForInMs := offerValidTimeMs + setting.randomInt s.offers
  let validUntil := s.hrtime + msToNs (validForInMs + offerValidExtraMs)
  { s with
    openOffers := s.openOffers.set s.offers validUntil
    offers := s.offers + 1 }.send (.taskoffer setting.taskType s.offers validForInMs)

def sendEach (setting : Setting π) : Nat → State π → State π
  | 0, s => s
  | count + 1, s => sendEach setting count (s.sendOffer setting)

def sendOffers (setting : Setting π) (s : State π) : State π :=
  let s := s.deleteStaleOffers
  if s.canSendOffers then
    sendEach setting (setting.maxConcurrency - (s.openOffers.size + s.runningTasks.size)) s
  else s

/-- The interval of `startTaskOffers` fires. -/
def offerIntervalFires (setting : Setting π) (s : State π) : State π :=
  if s.offerInterval then s.sendOffers setting else s

def hasOpenTaskSlots (setting : Setting π) (s : State π) : Bool := s.runningTasks.size < setting.maxConcurrency

def finishTask (setting : Setting π) (s : State π) (task : Nat) (taskId : String) : State π :=
  let s := s.modifyTask task fun t => { t with timeoutTimer := false }
  { s with runningTasks := s.runningTasks.delete taskId }.sendOffers setting

def offerAccepted (setting : Setting π) (s : State π) (offerId : Nat) (taskId : String) : State π :=
  if s.isDraining then s.send (.taskrejected taskId "Runner is shutting down")
  else if ¬s.hasOpenTaskSlots setting then
    { s with openOffers := s.openOffers.delete offerId }.send
      (.taskrejected taskId "No open task slots - runner already at capacity")
  else
    match s.openOffers.get offerId with
    | none => s.send (.taskrejected taskId "Offer expired - not accepted within validity window")
    | some _ =>
      { s with
        openOffers := s.openOffers.delete offerId
        tasks := s.tasks ++ [TaskState.new taskId]
        runningTasks := s.runningTasks.set taskId s.tasks.length }.send (.taskaccepted taskId)

def runningTask (s : State π) (taskId : String) : Option (Nat × TaskState) := do
  let task ← s.runningTasks.get taskId
  let t ← s.tasks[task]?
  pure (task, t)

def taskCancelled (setting : Setting π) (s : State π) (taskId : String) : State π :=
  match s.runningTask taskId with
  | none => s
  | some (task, t) =>
    match t.status with
    | .waitingForSettings => s.finishTask setting task t.taskId
    | .abortingTimeout | .abortingCancelled => s
    | .running => s.modifyTask task fun t => { t with status := .abortingCancelled }

def taskTimedOut (setting : Setting π) (s : State π) (taskId : String) : State π :=
  match s.runningTask taskId with
  | none => s
  | some (task, t) =>
    match t.status with
    | .waitingForSettings =>
      (s.send (.taskerror taskId (.timeoutError setting.taskTimeout))).finishTask setting task t.taskId
    | .abortingTimeout => s.unhandledRejection setting
    | .running => s.modifyTask task fun t => { t with status := .abortingTimeout }
    | .abortingCancelled => s

def timerFires (setting : Setting π) (s : State π) (task : Nat) : State π :=
  match s.tasks[task]? with
  | none => s
  | some t =>
    if t.timeoutTimer then
      (s.modifyTask task fun t => { t with timeoutTimer := false }).taskTimedOut setting t.taskId
    else s

def receivedSettings (setting : Setting π) (s : State π) (taskId : String) : State π :=
  match s.runningTask taskId with
  | none => s
  | some (task, t) =>
    match t.status with
    | .abortingCancelled | .abortingTimeout | .running => s.unhandledRejection setting
    | .waitingForSettings =>
      s.modifyTask task fun t => { t with status := .running, execution := .executing }

def setExecution (s : State π) (task : Nat) (execution : Execution) : State π :=
  s.modifyTask task fun t => { t with execution }

/-- `taskExecutionSucceeded`, up to its await. -/
def taskExecutionSucceeded (setting : Setting π) (s : State π) (task : Nat) (t : TaskState) (data : π) : State π :=
  match t.status with
  | .waitingForSettings => s.setExecution task .unsendable
  | .abortingCancelled => s.setExecution task .answered
  | .abortingTimeout | .running =>
    if setting.serializable data then (s.send (.taskdone t.taskId data)).setExecution task .answered
    else s.setExecution task .unsendable

/-- `taskExecutionFailed`, up to its await. -/
def taskExecutionFailed (setting : Setting π) (s : State π) (task : Nat) (t : TaskState) (error : Failure π) :
    State π :=
  match t.status with
  | .waitingForSettings => s.setExecution task .unsendableError
  | .abortingCancelled => s.setExecution task .answered
  | .abortingTimeout | .running =>
    if error.serializable setting then (s.send (.taskerror t.taskId error)).setExecution task .answered
    else s.setExecution task .unsendableError

/-- `executeTask` has ended. -/
def executed (setting : Setting π) (s : State π) (task : Nat) (outcome : Except π π) : State π :=
  match s.tasks[task]? with
  | none => s
  | some t =>
    if t.execution = .executing then
      match outcome with
      | .ok data => s.taskExecutionSucceeded setting task t data
      | .error error => s.taskExecutionFailed setting task t (.thrown error)
    else s

/-- What stands behind the awaits: `finishTask`, and the failure where nothing could be sent. -/
def continued (setting : Setting π) (s : State π) (task : Nat) : State π :=
  match s.tasks[task]? with
  | none => s
  | some t =>
    match t.execution with
    | .answered => (s.finishTask setting task t.taskId).setExecution task .ended
    | .unsendable => (s.finishTask setting task t.taskId).setExecution task .failing
    | .failing => s.taskExecutionFailed setting task t .notSerializable
    | .unsendableError =>
      ((s.finishTask setting task t.taskId).setExecution task .ended).unhandledRejection setting
    | .notStarted | .executing | .ended => s

def releaseBrokerDrainWait (s : State π) : State π :=
  match s.brokerDrainResolve with
  | some stop => { s with stops := s.stops.set stop (.released true), brokerDrainResolve := none }
  | none => s

def onBrokerDrain (s : State π) : State π :=
  { s with isDraining := true }.stopTaskOffers.releaseBrokerDrainWait

def graceMs (setting : Setting π) : Int := max 0 setting.gracefulShutdownTimeout * 1000

/-- `stop` behind its first await. -/
def commitToDraining (s : State π) : State π :=
  let s := { s with isDraining := true }.stopTaskOffers
  { s with openOffers := ∅ }

def stop (setting : Setting π) (s : State π) (deferToBrokerDrain : Bool) : State π :=
  let s := { s with isShuttingDown := true }
  if deferToBrokerDrain then
    if s.isDraining ∨ graceMs setting ≤ 0 then { s with stops := s.stops ++ [.released false] }
    else { s with stops := s.stops ++ [.waiting], brokerDrainResolve := some s.stops.length }
  else { s with stops := s.stops ++ [Stop.draining] }.commitToDraining

/-- The grace period of a call of `stop` elapses. -/
def graceElapsed (s : State π) (stop : Nat) : State π :=
  match s.stops[stop]? with
  | some .waiting => { s with stops := s.stops.set stop (.released true) }
  | some (.released _) | some .draining | none => s

def stopGoesOn (s : State π) (stop : Nat) : State π :=
  match s.stops[stop]? with
  | some (.released waited) =>
    { s with
      stops := s.stops.set stop Stop.draining
      brokerDrainResolve := if waited then none else s.brokerDrainResolve }.commitToDraining
  | some .waiting | some .draining | none => s

end State

inductive Action (π : Type*) where
  | inforequest
  | runnerregistered
  | taskofferaccept (offerId : Nat) (taskId : String)
  | taskcancel (taskId reason : String)
  | tasksettings (taskId : String)
  | drain
  | offerInterval
  | timePasses (ns : Nat)
  | timeout (task : Nat)
  | executed (task : Nat) (outcome : Except π π)
  | continued (task : Nat)
  | stop (deferToBrokerDrain : Bool)
  | graceElapsed (stop : Nat)
  | stopGoesOn (stop : Nat)

def State.step (setting : Setting π) (s : State π) : Action π → State π
  | .inforequest => s.send (.info setting.name [setting.taskType])
  | .runnerregistered => s.startTaskOffers
  | .taskofferaccept offerId taskId => s.offerAccepted setting offerId taskId
  | .taskcancel taskId _ => s.taskCancelled setting taskId
  | .tasksettings taskId => s.receivedSettings setting taskId
  | .drain => s.onBrokerDrain
  | .offerInterval => s.offerIntervalFires setting
  | .timePasses ns => { s with hrtime := s.hrtime + ns }
  | .timeout task => s.timerFires setting task
  | .executed task outcome => s.executed setting task outcome
  | .continued task => s.continued setting task
  | .stop deferToBrokerDrain => s.stop setting deferToBrokerDrain
  | .graceElapsed stop => s.graceElapsed stop
  | .stopGoesOn stop => s.stopGoesOn stop

def State.next (setting : Setting π) (s : State π) (action : Action π) : State π :=
  if s.exited then s else s.step setting action

end NodeAutomation.TaskRunner
