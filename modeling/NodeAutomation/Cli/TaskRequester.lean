import NodeAutomation.Lib.OrderedMap
import NodeAutomation.Lib.OrderedSet
import NodeAutomation.Lib.Runs

/-! The task requester (`packages/cli/src/task-runners/task-managers/task-requester.ts`): the
calls of `startTask`, suspended at their awaits, and the maps that tell a message which of
them it is for. -/

namespace NodeAutomation.TaskRequester

/-- With what the promise of a task has been settled. -/
inductive Answer (ρ ε : Type*) where
  | result (result : ρ)
  | error (error : ε)
  | cancelled (reason : String)
  deriving DecidableEq

/-- Where a call of `startTask` is: its first promise pending, rejected or resolved, then
the second one pending or settled. Of a settled promise the call may not have been told. -/
inductive Stage (ρ ε : Type*) where
  | requested
  | expired
  | thrown
  | accepted (taskId : String)
  | running (taskId : String)
  | answered (taskId : String) (answer : Answer ρ ε)
  | returned (taskId : String) (answer : Answer ρ ε)
  deriving DecidableEq

structure Call (ρ ε : Type*) where
  executionId : Option String
  taskType : String
  stage : Stage ρ ε
  deriving DecidableEq

inductive ToBroker where
  | taskrequest (requestId : Nat) (taskType : String)
  | tasksettings (taskId : String) (settings : Nat)
  | taskcancel (taskId reason : String)
  deriving DecidableEq

structure State (ρ ε : Type*) where
  calls : List (Call ρ ε) := []
  requestAcceptRejects : OrderedSet Nat := ∅
  taskAcceptRejects : OrderedMap String Nat := ∅
  tasks : OrderedMap String Nat := ∅
  executionIdsToTaskIds : OrderedMap String (OrderedSet String) := ∅
  sent : List ToBroker := []

variable {ρ ε : Type*}

namespace Stage

def taskId : Stage ρ ε → Option String
  | requested | expired | thrown => none
  | accepted taskId | running taskId | answered taskId _ | returned taskId _ => some taskId

/-- The task whose handlers the call has still to register. -/
def starting : Stage ρ ε → Option String
  | accepted taskId => some taskId
  | _ => none

def awaited : Stage ρ ε → Option String
  | running taskId => some taskId
  | _ => none

/-- It is certain with what the call ends. -/
def settled : Stage ρ ε → Bool
  | expired | thrown | answered _ _ | returned _ _ => true
  | requested | accepted _ | running _ => false

def cancelled : Stage ρ ε → Bool
  | answered _ (.cancelled _) | returned _ (.cancelled _) => true
  | _ => false

def settle (answer : Answer ρ ε) : Stage ρ ε → Stage ρ ε
  | running taskId => answered taskId answer
  | stage => stage

end Stage

namespace State

def modifyStage (s : State ρ ε) (call : Nat) (f : Stage ρ ε → Stage ρ ε) : State ρ ε :=
  { s with calls := s.calls.modify call fun c => { c with stage := f c.stage } }

def sendMessage (s : State ρ ε) (message : ToBroker) : State ρ ε := { s with sent := s.sent ++ [message] }

def startTask (s : State ρ ε) (executionId : Option String) (taskType : String) : State ρ ε :=
  let requestId := s.calls.length
  { s with
    calls := s.calls ++ [{ executionId, taskType, stage := .requested }]
    requestAcceptRejects := s.requestAcceptRejects.add requestId
    sent := s.sent ++ [.taskrequest requestId taskType] }

def getTaskIds (s : State ρ ε) (executionId : String) : OrderedSet String :=
  (s.executionIdsToTaskIds.get executionId).getD ∅

def addTaskId (s : State ρ ε) (executionId : Option String) (taskId : String) : State ρ ε :=
  match executionId with
  | some executionId =>
    if executionId = "" then s
    else
      { s with
        executionIdsToTaskIds := s.executionIdsToTaskIds.set executionId ((s.getTaskIds executionId).add taskId) }
  | none => s

/-- `startTask` behind its first await. -/
def register (s : State ρ ε) (call : Nat) (executionId : Option String) (taskId : String) : State ρ ε :=
  let s := { s with tasks := s.tasks.set taskId call }.addTaskId executionId taskId
  let s := { s with taskAcceptRejects := s.taskAcceptRejects.set taskId call }
  (s.sendMessage (.tasksettings taskId call)).modifyStage call fun _ => .running taskId

def clearExecutionsMap (s : State ρ ε) (taskId : String) : State ρ ε :=
  match s.executionIdsToTaskIds.entries.find? fun entry => entry.2.contains taskId with
  | some (executionId, taskIds) =>
    let taskIds := taskIds.delete taskId
    { s with
      executionIdsToTaskIds :=
        if taskIds.size = 0 then s.executionIdsToTaskIds.delete executionId
        else s.executionIdsToTaskIds.set executionId taskIds }
  | none => s

/-- `startTask` behind its second await. -/
def finish (s : State ρ ε) (call : Nat) (taskId : String) (answer : Answer ρ ε) : State ρ ε :=
  let s := { s with tasks := s.tasks.delete taskId }.clearExecutionsMap taskId
  s.modifyStage call fun _ => .returned taskId answer

def resume (s : State ρ ε) (call : Nat) : State ρ ε :=
  match s.calls[call]? with
  | some { executionId, stage, .. } =>
    match stage with
    | .expired => s.modifyStage call fun _ => .thrown
    | .accepted taskId => s.register call executionId taskId
    | .answered taskId answer => s.finish call taskId answer
    | .requested | .thrown | .running _ | .returned _ _ => s
  | none => s

def rejectTask (s : State ρ ε) (jobId reason : String) : State ρ ε := s.sendMessage (.taskcancel jobId reason)

def taskReady (s : State ρ ε) (requestId : Nat) (taskId : String) : State ρ ε :=
  if requestId ∈ s.requestAcceptRejects then
    let s := s.modifyStage requestId fun _ => .accepted taskId
    { s with requestAcceptRejects := s.requestAcceptRejects.delete requestId }
  else
    s.rejectTask taskId
      "Request ID not found. In multi-main setup, it is possible for one of the mains to have reported ready state already."

def requestExpired (s : State ρ ε) (requestId : Nat) : State ρ ε :=
  if requestId ∈ s.requestAcceptRejects then
    let s := s.modifyStage requestId fun _ => .expired
    { s with requestAcceptRejects := s.requestAcceptRejects.delete requestId }
  else s

def settleTask (s : State ρ ε) (taskId : String) (answer : Answer ρ ε) : State ρ ε :=
  match s.taskAcceptRejects.get taskId with
  | some call =>
    { s.modifyStage call (Stage.settle answer) with taskAcceptRejects := s.taskAcceptRejects.delete taskId }
  | none => s

def taskDone (s : State ρ ε) (taskId : String) (data : ρ) : State ρ ε := s.settleTask taskId (.result data)

def taskError (s : State ρ ε) (taskId : String) (error : ε) : State ρ ε := s.settleTask taskId (.error error)

def cancelTask (s : State ρ ε) (taskId : String) (reason : String := "Task cancelled by user") : State ρ ε :=
  match s.tasks.get taskId with
  | some _ =>
    let s := { s with tasks := s.tasks.delete taskId }.sendMessage (.taskcancel taskId reason)
    s.settleTask taskId (.cancelled reason)
  | none => s

def cancelTasks (s : State ρ ε) (executionId : String) : State ρ ε :=
  (s.getTaskIds executionId).elems.foldl (fun s taskId => s.cancelTask taskId) s

end State

inductive Action (ρ ε : Type*) where
  | startTask (executionId : Option String) (taskType : String)
  | resume (call : Nat)
  | taskReady (requestId : Nat) (taskId : String)
  | taskDone (taskId : String) (data : ρ)
  | taskError (taskId : String) (error : ε)
  | requestExpired (requestId : Nat)
  | cancelTasks (executionId : String)
  deriving DecidableEq

def State.next (s : State ρ ε) : Action ρ ε → State ρ ε
  | .startTask executionId taskType => s.startTask executionId taskType
  | .resume call => s.resume call
  | .taskReady requestId taskId => s.taskReady requestId taskId
  | .taskDone taskId data => s.taskDone taskId data
  | .taskError taskId error => s.taskError taskId error
  | .requestExpired requestId => s.requestExpired requestId
  | .cancelTasks executionId => s.cancelTasks executionId

def Action.taskId : Action ρ ε → Option String
  | .taskReady _ taskId | .taskDone taskId _ | .taskError taskId _ => some taskId
  | .startTask _ _ | .resume _ | .requestExpired _ | .cancelTasks _ => none

end NodeAutomation.TaskRequester
