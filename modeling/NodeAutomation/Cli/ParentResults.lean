import NodeAutomation.Cli.ActiveExecutions
import NodeAutomation.Cli.WaitTracker
import NodeAutomation.Interfaces
import NodeAutomation.Lib.Interleaving

/-! The row of a parent execution, which its finished children write to
(`packages/cli/src/workflow-helpers.ts`), a resume moves out of `waiting`
(`packages/cli/src/active-executions.ts`) and the running parent saves. All of them update
it through `ExecutionPersistence.updateExistingExecution`. -/

namespace NodeAutomation.ParentResults

open ActiveExecutions (ExecutionStatus WorkflowExecuteMode)
open WaitTracker (RelatedExecution)
open Interleaving

abbrev JsonObject := List (String × JsValue)

inductive PinnedItems where
  | array (items : List JsonObject)
  | single (item : JsonObject)
  deriving DecidableEq

structure ExecutionError where
  name : String
  message : String
  deriving DecidableEq

structure ResultData where
  error : Option ExecutionError := none
  runData : IRunData := ∅
  lastNodeExecuted : Option String := none
  pinData : OrderedMap String PinnedItems := ∅
  deriving DecidableEq

structure ITaskMetadata extends NodeAutomation.ITaskMetadata where
  resumeError : Option ExecutionError := none
  subExecution : Option RelatedExecution := none
  deriving DecidableEq

structure IExecuteData where
  node : INode
  data : ITaskDataConnections
  source : Option ITaskDataConnectionsSource
  metadata : Option ITaskMetadata := none
  deriving DecidableEq

structure IRunExecutionData where
  resultData : ResultData
  nodeExecutionStack : Option (List IExecuteData) := none
  deriving DecidableEq

structure IRun where
  data : IRunExecutionData
  mode : WorkflowExecuteMode := .integrated
  deriving DecidableEq

/-- The last run of the node executed last. With pinned items in manual mode these take the
place of its data, for which `lastNodeRunData.source` is read. -/
def getLastExecutedNodeData (inputData : IRun) : Except JsError (Option ITaskData) :=
  let resultData := inputData.data.resultData
  match resultData.lastNodeExecuted with
  | none => .ok none
  | some lastNodeExecuted =>
    match resultData.runData.get lastNodeExecuted with
    | none => .ok none
    | some runs =>
      match resultData.pinData.get lastNodeExecuted with
      | none => .ok runs.getLast?
      | some lastNodePinData =>
        if inputData.mode = .manual then
          let items := match lastNodePinData with
            | .array items => items
            | .single item => [item]
          let itemsPerRun := items.mapIdx fun index item =>
            ({ json := item, pairedItem := some (.one { item := index }) } : INodeExecutionData)
          match runs.getLast? with
          | none => .error .typeError
          | some lastNodeRunData =>
            .ok (some { data := some (mainOnly [.value itemsPerRun]), source := lastNodeRunData.source })
        else .ok runs.getLast?

structure ExecutionRow where
  status : ExecutionStatus
  finished : Bool := false
  data : IRunExecutionData
  deriving DecidableEq

/-- `Partial<IExecutionResponse>`: its `data`, and of the columns those that conditions read. -/
structure ExecutionUpdate where
  data : Option IRunExecutionData := none
  status : Option ExecutionStatus := none
  finished : Option Bool := none
  deriving DecidableEq

structure UpdateExecutionConditions where
  requireStatus : Option ExecutionStatus := none
  requireNotFinished : Bool := false
  requireNotCanceled : Bool := false
  deriving DecidableEq

def buildEntityWhereCondition (conditions : UpdateExecutionConditions) :
    Except JsError (ExecutionRow → Bool) :=
  if conditions.requireStatus.isSome && conditions.requireNotCanceled then
    .error (.unexpectedError "`requireStatus` and `requireNotCanceled` cannot be combined")
  else .ok fun row =>
    (conditions.requireStatus.all fun status => row.status = status) &&
      (!conditions.requireNotFinished || !row.finished) &&
      (!conditions.requireNotCanceled || row.status ≠ .canceled)

def ExecutionRow.apply (row : ExecutionRow) (execution : ExecutionUpdate) : ExecutionRow where
  status := execution.status.getD row.status
  finished := execution.finished.getD row.finished
  data := execution.data.getD row.data

/-- What `updateParentExecutionWithChildResults` makes of the row it has read. -/
def childUpdate (parent : ExecutionRow) (subworkflowError : Option ExecutionError)
    (lastExecutedNodeData : Option ITaskData) (childExecution : Option RelatedExecution) :
    Option ExecutionUpdate :=
  if parent.status ≠ .waiting then none
  else match parent.data.nodeExecutionStack with
    | none | some [] => none
    | some (first :: rest) =>
      let first := match subworkflowError with
        | some resumeError =>
          let metadata := first.metadata.getD {}
          { first with
            metadata := some { metadata with
              resumeError := some resumeError
              subExecution := childExecution.or metadata.subExecution } }
        | none =>
          match lastExecutedNodeData.bind ITaskData.data with
          | some data => { first with data }
          | none => first
      some { data := some { parent.data with nodeExecutionStack := some (first :: rest) } }

/-- A child that has finished, a resume with the data it was started with, or a save. -/
inductive Caller where
  | child (subworkflowResults : IRun) (childExecution : Option RelatedExecution)
  | resume (executionData : IRunExecutionData)
  | save (execution : ExecutionUpdate) (conditions : UpdateExecutionConditions)
  deriving DecidableEq

/-- Where a call is suspended, or how it ended. `updateExistingExecution` first looks up where
the data is stored, under the same conditions as the update. -/
inductive Stage where
  | finding (lastExecutedNodeData : Option ITaskData)
  | locating (execution : ExecutionUpdate) (conditions : UpdateExecutionConditions)
  | updating (execution : ExecutionUpdate) (conditions : UpdateExecutionConditions)
  | returned (updated : Bool)
  | thrown (error : JsError)
  deriving DecidableEq

structure Call where
  caller : Caller
  stage : Stage
  deriving DecidableEq

inductive Event where
  | read (call : Nat) (row : ExecutionRow)
  | updated (call : Nat) (caller : Caller) (execution : ExecutionUpdate)
  deriving DecidableEq

/-- The row, and a log of the reads of the children and of the updates that took effect. -/
structure Shared where
  row : ExecutionRow
  log : List Event := []
  deriving DecidableEq

def updateExistingExecution (execution : ExecutionUpdate) (conditions : UpdateExecutionConditions) :
    Stage :=
  match buildEntityWhereCondition conditions with
  | .error error => .thrown error
  | .ok _ =>
    if execution.data.isSome then .locating execution conditions
    else if execution.status.isNone && execution.finished.isNone then .returned true
    else .updating execution conditions

def invoke (s : Shared) (_ : Nat) (caller : Caller) : Shared × Call :=
  match caller with
  | .child subworkflowResults _ =>
    match getLastExecutedNodeData subworkflowResults with
    | .error error => (s, ⟨caller, .thrown error⟩)
    | .ok lastExecutedNodeData =>
      if subworkflowResults.data.resultData.error.isNone &&
          (lastExecutedNodeData.bind ITaskData.data).isNone then
        (s, ⟨caller, .returned false⟩)
      else (s, ⟨caller, .finding lastExecutedNodeData⟩)
  | .resume executionData =>
    (s, ⟨caller, updateExistingExecution { data := some executionData, status := some .running }
      { requireStatus := some .waiting }⟩)
  | .save execution conditions => (s, ⟨caller, updateExistingExecution execution conditions⟩)

def proceed (s : Shared) (number : Nat) (call : Call) (_ : Unit) : Shared × Call :=
  match call.stage with
  | .finding lastExecutedNodeData =>
    let read := { s with log := s.log ++ [.read number s.row] }
    match call.caller with
    | .child subworkflowResults childExecution =>
      match childUpdate s.row subworkflowResults.data.resultData.error lastExecutedNodeData
          childExecution with
      | none => (read, { call with stage := .returned false })
      | some execution => (read, { call with stage := updateExistingExecution execution {} })
    | .resume _ | .save _ _ => (s, call)
  | .locating execution conditions =>
    match buildEntityWhereCondition conditions with
    | .error error => (s, { call with stage := .thrown error })
    | .ok condition =>
      if condition s.row then (s, { call with stage := .updating execution conditions })
      else (s, { call with stage := .returned false })
  | .updating execution conditions =>
    match buildEntityWhereCondition conditions with
    | .error error => (s, { call with stage := .thrown error })
    | .ok condition =>
      if condition s.row then
        ({ row := s.row.apply execution, log := s.log ++ [.updated number call.caller execution] },
          { call with stage := .returned true })
      else (s, { call with stage := .returned false })
  | .returned _ | .thrown _ => (s, call)

def system : System Shared Call Caller Unit Empty where
  invoke := invoke
  proceed := proceed
  environment := fun _ event => event.elim

end NodeAutomation.ParentResults
