import NodeAutomation.Lib.OrderedMap
import NodeAutomation.Lib.Runs

/-! The tracker of waiting executions (`packages/cli/src/wait-tracker.ts`). Its query can be
in flight while other methods run, `startExecution` is suspended at each of its awaits, and
the callback of a timer runs only if the timer has not been cleared before. -/

namespace NodeAutomation.WaitTracker

inductive TimerStatus where
  | pending | fired | cleared
  deriving DecidableEq

/-- A timer of `setTimeout`; its callback starts the execution. -/
structure Timer where
  executionId : String
  triggerTime : Int
  status : TimerStatus := .pending
  deriving DecidableEq

structure WaitingExecution where
  executionId : String
  timer : Nat
  deriving DecidableEq

/-- A row of `ExecutionRepository.getWaitingExecutions`. -/
structure DueExecution where
  id : String
  waitTill : Int
  deriving DecidableEq

structure RelatedExecution where
  executionId : String
  workflowId : String
  shouldResume : Option Bool := none
  deriving DecidableEq

/-- What `findSingleExecution` returns; an empty id of the workflow is none. -/
structure FullExecutionData where
  finished : Bool
  workflowId : Option String
  parentExecution : Option RelatedExecution
  deriving DecidableEq

def shouldRestartParentExecution : Option RelatedExecution → Option RelatedExecution
  | none => none
  | some parentExecution =>
    match parentExecution.shouldResume with
    | none => some parentExecution
    | some shouldResume => if shouldResume then some parentExecution else none

/-- Where a call of `startExecution` is suspended, or how it ended. -/
inductive StartStage where
  | finding
  | owning (fullExecutionData : FullExecutionData) (workflowId : String)
  | running (fullExecutionData : FullExecutionData) (workflowId : String)
  | returned
  | thrown (message : String)
  deriving DecidableEq

structure StartCall where
  executionId : String
  stage : StartStage := .finding
  deriving DecidableEq

/-- How `workflowRunner.run` ends. -/
inductive RunResult where
  | started
  | executionAlreadyResuming
  | failed (message : String)
  deriving DecidableEq

/-- A call of the runner, and of `resumeParentExecution` with the child it waits for. -/
inductive Effect where
  | run (fullExecutionData : FullExecutionData) (projectId executionId : String)
  | resumeParentExecution (parentExecution childExecution : RelatedExecution)
  deriving DecidableEq

/-- Timers and intervals are known by their numbers; an interval is true until it is
cleared. Of the queries, as many as are in flight. -/
structure State where
  waitingExecutions : OrderedMap String WaitingExecution := ∅
  mainTimer : Option Nat := none
  timers : List Timer := []
  intervals : List Bool := []
  queries : Nat := 0
  starts : List StartCall := []
  effects : List Effect := []

def clearTimeout (timers : List Timer) (timer : Nat) : List Timer :=
  timers.modify timer fun t => if t.status = .pending then { t with status := .cleared } else t

namespace State

/-- `getWaitingExecutions`, up to its query. -/
def getWaitingExecutions (s : State) : State := { s with queries := s.queries + 1 }

def startTracking (s : State) : State :=
  ({ s with
    mainTimer := some s.intervals.length
    intervals := s.intervals ++ [true] } : State).getWaitingExecutions

def init (isLeader : Bool) (s : State) : State := if isLeader then s.startTracking else s

def intervalFires (interval : Nat) (s : State) : State :=
  if s.intervals[interval]? = some true then s.getWaitingExecutions else s

/-- The body of the loop of `getWaitingExecutions`. -/
def schedule (now : Int) (s : State) (execution : DueExecution) : State :=
  let executionId := execution.id
  match s.waitingExecutions.get executionId with
  | none =>
    let triggerTime := execution.waitTill - now
    { s with
      waitingExecutions := s.waitingExecutions.set executionId { executionId, timer := s.timers.length }
      timers := s.timers ++ [{ executionId, triggerTime }] }
  | some _ => s

/-- A query comes back, with its rows or with an error. -/
def answered (result : Except String (List DueExecution)) (now : Int) (s : State) : State :=
  if s.queries = 0 then s
  else
    let s : State := { s with queries := s.queries - 1 }
    match result with
    | .error _ => s
    | .ok executions => executions.foldl (schedule now) s

def stopExecution (executionId : String) (s : State) : State :=
  match s.waitingExecutions.get executionId with
  | none => s
  | some waiting =>
    { s with
      timers := clearTimeout s.timers waiting.timer
      waitingExecutions := s.waitingExecutions.delete executionId }

def stopTracking (s : State) : State :=
  match s.mainTimer with
  | none => s
  | some mainTimer =>
    { s with
      intervals := s.intervals.set mainTimer false
      timers := (s.waitingExecutions.values.map fun waiting => waiting.timer).foldl clearTimeout s.timers }

def startExecution (executionId : String) (s : State) : State :=
  { s with
    waitingExecutions := s.waitingExecutions.delete executionId
    starts := s.starts ++ [{ executionId }] }

def timerFires (timer : Nat) (s : State) : State :=
  match s.timers[timer]? with
  | none => s
  | some t =>
    if t.status = .pending then
      ({ s with timers := s.timers.modify timer fun t => { t with status := .fired } } :
        State).startExecution t.executionId
    else s

def setStage (call : Nat) (stage : StartStage) (s : State) : State :=
  { s with starts := s.starts.modify call fun c => { c with stage } }

/-- `findSingleExecution` comes back. -/
def found (call : Nat) (result : Except String (Option FullExecutionData)) (s : State) : State :=
  match s.starts[call]? with
  | some { stage := .finding, .. } =>
    match result with
    | .error message => s.setStage call (.thrown message)
    | .ok none => s.setStage call (.thrown "Execution does not exist.")
    | .ok (some fullExecutionData) =>
      if fullExecutionData.finished then
        s.setStage call (.thrown "The execution did succeed and can so not be started again.")
      else
        match fullExecutionData.workflowId with
        | none => s.setStage call (.thrown "Only saved workflows can be resumed.")
        | some workflowId => s.setStage call (.owning fullExecutionData workflowId)
  | _ => s

/-- `getWorkflowProjectCached` comes back, and the runner is called. -/
def owned (call : Nat) (result : Except String String) (s : State) : State :=
  match s.starts[call]? with
  | some { stage := .owning fullExecutionData workflowId, executionId } =>
    match result with
    | .error message => s.setStage call (.thrown message)
    | .ok projectId =>
      ({ s with effects := s.effects ++ [.run fullExecutionData projectId executionId] } :
        State).setStage call (.running fullExecutionData workflowId)
  | _ => s

/-- `workflowRunner.run` comes back. -/
def ran (call : Nat) (result : RunResult) (s : State) : State :=
  match s.starts[call]? with
  | some { stage := .running fullExecutionData workflowId, executionId } =>
    match result with
    | .executionAlreadyResuming => s.setStage call .returned
    | .failed message => s.setStage call (.thrown message)
    | .started =>
      match shouldRestartParentExecution fullExecutionData.parentExecution with
      | none => s.setStage call .returned
      | some parentExecution =>
        ({ s with effects := s.effects ++
            [.resumeParentExecution parentExecution { executionId, workflowId }] } :
          State).setStage call .returned
  | _ => s

end State

/-- `startExecution` is called by a timer (`timerFires`), by `resumeParentExecution` and from
outside. -/
inductive Action where
  | init (isLeader : Bool)
  | startTracking
  | stopTracking
  | intervalFires (interval : Nat)
  | getWaitingExecutions
  | answered (result : Except String (List DueExecution)) (now : Int)
  | stopExecution (executionId : String)
  | timerFires (timer : Nat)
  | startExecution (executionId : String)
  | found (call : Nat) (result : Except String (Option FullExecutionData))
  | owned (call : Nat) (result : Except String String)
  | ran (call : Nat) (result : RunResult)

def step (s : State) : Action → State
  | .init isLeader => s.init isLeader
  | .startTracking => s.startTracking
  | .stopTracking => s.stopTracking
  | .intervalFires interval => s.intervalFires interval
  | .getWaitingExecutions => s.getWaitingExecutions
  | .answered result now => s.answered result now
  | .stopExecution executionId => s.stopExecution executionId
  | .timerFires timer => s.timerFires timer
  | .startExecution executionId => s.startExecution executionId
  | .found call result => s.found call result
  | .owned call result => s.owned call result
  | .ran call result => s.ran call result

namespace State

def tracking (s : State) : Bool := s.mainTimer.any fun mainTimer => s.intervals[mainTimer]? = some true

def stored (s : State) (executionId : String) : Option Nat :=
  (s.waitingExecutions.get executionId).map fun waiting => waiting.timer

end State

def pendingFor (timers : List Timer) (timer : Nat) : Option String :=
  timers[timer]?.bind fun t => if t.status = .pending then some t.executionId else none

/-- A timer is stored for an execution if and only if it is pending for it. -/
structure State.Live (s : State) : Prop where
  paired : ∀ executionId timer,
    s.stored executionId = some timer ↔ pendingFor s.timers timer = some executionId
  stopped : s.tracking = false → ∀ timer, pendingFor s.timers timer = none

/-- The timers are live behind a step, and while tracking is on, the executions that a
query has found are given one. -/
structure Tracked (s : State) (action : Action) : Prop where
  live : (step s action).Live
  given : ∀ executions now, action = .answered (.ok executions) now → 0 < s.queries →
    s.tracking = true → ∀ execution ∈ executions, ∃ timer,
      (step s action).stored execution.id = some timer ∧
        pendingFor (step s action).timers timer = some execution.id

/-- Tracking is stopped when no execution is waiting, no query answers with executions
when it is stopped, and no execution that has a timer is started by other means. -/
def Orderly (s : State) : Action → Prop
  | .stopTracking => s.mainTimer = none ∨ s.waitingExecutions.size = 0
  | .answered (.ok executions) _ => s.queries = 0 ∨ s.tracking = true ∨ executions = []
  | .startExecution executionId => s.waitingExecutions.get executionId = none
  | _ => True

end NodeAutomation.WaitTracker
