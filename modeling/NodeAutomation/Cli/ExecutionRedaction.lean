import NodeAutomation.Interfaces

/-! Redaction of execution data (`packages/cli/src/modules/redaction/executions/`). Redaction edits
items in place, and one item can stand in several places of an execution: items are held by number,
in the store of their execution. -/

namespace NodeAutomation.ExecutionRedaction

/-- `details` are the message, the description, the cause and all else. An absent HTTP code is as
`null`. -/
structure ExecutionError where
  name : String
  httpCode : Option String
  details : JsValue
  deriving DecidableEq

/-- The HTTP code is absent, `null` or a code. -/
structure RedactedErrorInfo where
  type : String
  httpCode : Option (Option String)
  deriving DecidableEq

structure NodeExecutionRedactionInfo where
  reason : String
  error : Option RedactedErrorInfo
  deriving DecidableEq

/-- An item; `other` are its further keys. -/
structure NodeExecutionData where
  json : JsValue
  binary : Option JsValue
  error : Option ExecutionError
  redaction : Option NodeExecutionRedactionInfo
  other : JsValue
  deriving DecidableEq

abbrev Store := Nat → NodeExecutionData

variable {ι κ : Type}

abbrev TaskDataConnections (ι : Type) := OrderedMap String (List (Option (List ι)))

structure TaskData (ι : Type) where
  data : Option (TaskDataConnections ι)
  inputOverride : Option (TaskDataConnections ι)
  error : Option ExecutionError
  redactedError : Option RedactedErrorInfo
  usedDynamicCredentials : Bool
  other : JsValue

structure ResultData (ι : Type) where
  error : Option ExecutionError
  redactedError : Option RedactedErrorInfo
  runData : Option (OrderedMap String (List (TaskData ι)))
  pinData : Option (OrderedMap String (List ι))
  other : JsValue

structure ExecuteData (ι : Type) where
  data : TaskDataConnections ι
  other : JsValue

inductive RedactionPolicy where
  | none
  | all
  | nonManual
  | manualOnly
  deriving DecidableEq

inductive RedactionSetting where
  | v1 (policy : RedactionPolicy)
  | v2 (production manual : Bool)
  deriving DecidableEq

structure RuntimeData where
  credentials : Option String
  redaction : Option RedactionSetting
  executedByUserId : Option String
  other : JsValue
  deriving DecidableEq

structure ExecutionData (ι : Type) where
  runtimeData : Option RuntimeData
  nodeExecutionStack : List (ExecuteData ι)
  waitingExecution : OrderedMap String (OrderedMap Nat (TaskDataConnections ι))
  other : JsValue

structure RedactionInfo where
  isRedacted : Bool
  reason : String
  canReveal : Bool
  deriving DecidableEq

structure RunExecutionData (ι : Type) where
  resultData : ResultData ι
  executionData : Option (ExecutionData ι)
  redactionInfo : Option RedactionInfo

inductive WorkflowExecuteMode where
  | cli | error | integrated | internal | manual | retry | trigger | webhook | evaluation | chat | agent
  deriving DecidableEq

/-- `data` is absent in a row that has no run data yet. `redactionPolicy` is that of the settings of
the workflow. -/
structure RedactableExecution where
  id : Option String
  mode : WorkflowExecuteMode
  workflowId : String
  data : Option (RunExecutionData Nat)
  redactionPolicy : Option RedactionPolicy
  store : Store

structure RedactionContext where
  redactExecutionData : Option Bool
  userCanReveal : Bool
  enforceDynCredRedaction : Bool
  deriving DecidableEq

def redactError (error : ExecutionError) : RedactedErrorInfo :=
  ⟨error.name, if error.name = "NodeApiError" then some error.httpCode else none⟩

def redactItem (reason : String) (item : NodeExecutionData) : NodeExecutionData :=
  { item with
    json := .object []
    binary := none
    error := none
    redaction := some ⟨reason, item.error.map redactError⟩ }

def TaskDataConnections.items (connections : TaskDataConnections ι) : List ι :=
  connections.values.flatMap fun outputs => outputs.flatMap fun items => items.getD []

def redactConnections (reason : String) (connections : TaskDataConnections Nat) (store : Store) : Store :=
  connections.items.foldl (fun store item => Function.update store item (redactItem reason (store item))) store

def TaskData.redact (task : TaskData ι) : TaskData ι :=
  match task.error with
  | some error => { task with error := none, redactedError := some (redactError error) }
  | none => task

def redactTaskItems (reason : String) (task : TaskData Nat) (store : Store) : Store :=
  let store := match task.data with
    | some connections => redactConnections reason connections store
    | none => store
  match task.inputOverride with
  | some connections => redactConnections reason connections store
  | none => store

def ResultData.redact (resultData : ResultData ι) : ResultData ι :=
  match resultData.error with
  | some error => { resultData with error := none, redactedError := some (redactError error) }
  | none => resultData

def RedactionContext.reason (context : RedactionContext) : String :=
  if context.enforceDynCredRedaction then "dynamic_credentials"
  else if context.redactExecutionData = some true then "user_requested"
  else "workflow_redaction_policy"

/-- `FullItemRedactionStrategy.apply` -/
def apply (context : RedactionContext) (data : RunExecutionData Nat) (store : Store) :
    RunExecutionData Nat × Store :=
  match data.resultData.runData with
  | none => (data, store)
  | some runData =>
    let tasks := runData.values.flatten
    let store := tasks.foldl (fun store task => redactTaskItems context.reason task store) store
    let resultData := { data.resultData with runData := some (runData.mapValues (·.map TaskData.redact)) }
    ({ data with
      resultData := resultData.redact
      redactionInfo := some ⟨true, context.reason, context.userCanReveal⟩ }, store)

/-- `findWorkflowIdsWithScopeForUser` gives the workflows that the user has the scope
`execution:reveal` for, by a query of the database. -/
structure Setting where
  isDataRedactionLicensed : Bool
  findWorkflowIdsWithScopeForUser : List String → String → List String

structure Options where
  userId : String
  redactExecutionData : Option Bool
  keepOriginal : Bool
  deriving DecidableEq

inductive Failure where
  | forbidden (message : String)
  | scopeForbidden (message errorCode requiredScope hint : String)
  deriving DecidableEq

/-- `channelsToPolicy` -/
def channelsToPolicy (production manual : Bool) : RedactionPolicy :=
  if production ∧ manual then .all
  else if production then .nonManual
  else if manual then .all
  else .none

def RunExecutionData.runtimeData (data : RunExecutionData ι) : Option RuntimeData :=
  data.executionData.bind (·.runtimeData)

namespace RedactableExecution

def resolvePolicy (setting : Setting) (execution : RedactableExecution) : RedactionPolicy :=
  if ¬setting.isDataRedactionLicensed then .none
  else
    match (execution.data.bind (·.runtimeData)).bind (·.redaction) with
    | some (.v2 production manual) => channelsToPolicy production manual
    | some (.v1 policy) => policy
    | none => execution.redactionPolicy.getD .none

def isManual (execution : RedactableExecution) : Bool := execution.mode = .manual

def policyAllowsReveal (setting : Setting) (execution : RedactableExecution) : Bool :=
  let policy := execution.resolvePolicy setting
  policy = .none ∨ (policy = .nonManual ∧ execution.isManual) ∨ (policy = .manualOnly ∧ ¬execution.isManual)

end RedactableExecution

def hasDynamicCredentials (data : RunExecutionData ι) : Bool :=
  match data.resultData.runData with
  | none => false
  | some runData => runData.values.any fun tasks => tasks.any (·.usedDynamicCredentials)

def isOwnDynamicCredentialsExecution (data : RunExecutionData ι) (userId : String) : Bool :=
  data.runtimeData.bind (·.executedByUserId) = some userId

/-- Whether `buildPipeline` gives the strategy; there is no other. -/
def shouldClearItems (setting : Setting) (execution : RedactableExecution) (context : RedactionContext)
    (policyAllowsReveal enforceDynCredRedaction : Bool) : Bool :=
  let policy := execution.resolvePolicy setting
  context.redactExecutionData ≠ some false ∧
    (context.redactExecutionData = some true ∨ enforceDynCredRedaction ∨
      (¬policyAllowsReveal ∧
        (policy = .all ∨ (policy = .nonManual ∧ ¬execution.isManual) ∨
          (policy = .manualOnly ∧ execution.isManual))))

def redactionContext (setting : Setting) (options : Options) (revealableIds : List String)
    (execution : RedactableExecution) (data : RunExecutionData Nat) : RedactionContext :=
  let hasDynCreds := hasDynamicCredentials data
  let isOwnDynCreds := hasDynCreds && isOwnDynamicCredentialsExecution data options.userId
  { redactExecutionData := options.redactExecutionData
    userCanReveal :=
      if hasDynCreds then isOwnDynCreds
      else execution.policyAllowsReveal setting || revealableIds.contains execution.workflowId
    enforceDynCredRedaction := hasDynCreds && !isOwnDynCreds }

/-- The pipeline of an execution includes the strategy. -/
def isCleared (setting : Setting) (options : Options) (revealableIds : List String)
    (execution : RedactableExecution) (data : RunExecutionData Nat) : Bool :=
  let context := redactionContext setting options revealableIds execution data
  shouldClearItems setting execution context (execution.policyAllowsReveal setting)
    context.enforceDynCredRedaction

def needsCredentialStrip (data : RunExecutionData ι) : Bool :=
  hasDynamicCredentials data && (data.runtimeData.bind (·.credentials)).isSome

/-- `delete target.data.executionData.runtimeData.credentials` -/
def stripCredentials (data : RunExecutionData ι) : RunExecutionData ι :=
  { data with
    executionData := data.executionData.map fun executionData =>
      { executionData with
        runtimeData := executionData.runtimeData.map fun runtimeData =>
          { runtimeData with credentials := none } } }

/-- One turn of the loop of `processExecutions`. -/
def processOne (setting : Setting) (options : Options) (revealableIds : List String)
    (execution : RedactableExecution) : RedactableExecution :=
  match execution.data with
  | none => execution
  | some data =>
    let context := redactionContext setting options revealableIds execution data
    let cleared := isCleared setting options revealableIds execution data
    let strip := needsCredentialStrip data
    if options.keepOriginal ∧ ¬(strip ∨ cleared) then execution
    else
      let (data, store) := if cleared then apply context data execution.store else (data, execution.store)
      { execution with
        data := some (if strip then stripCredentials data else data)
        store := store }

def needsCheck (setting : Setting) (executions : List RedactableExecution) : List RedactableExecution :=
  executions.filter fun execution => execution.data.isSome && !execution.policyAllowsReveal setting

def revealableIds (setting : Setting) (options : Options) (executions : List RedactableExecution) :
    List String :=
  if (needsCheck setting executions).isEmpty then []
  else
    setting.findWorkflowIdsWithScopeForUser ((needsCheck setting executions).map (·.workflowId)).eraseDups
      options.userId

def checkDynamicCredentials (options : Options) (execution : RedactableExecution) : Except Failure Unit :=
  match execution.data with
  | none => .ok ()
  | some data =>
    if hasDynamicCredentials data ∧ ¬isOwnDynamicCredentialsExecution data options.userId then
      .error (.forbidden "Forbidden")
    else .ok ()

def checkScope (options : Options) (revealableIds : List String) (execution : RedactableExecution) :
    Except Failure Unit :=
  match execution.data with
  | none => .ok ()
  | some data =>
    if hasDynamicCredentials data ∧ isOwnDynamicCredentialsExecution data options.userId then .ok ()
    else if execution.workflowId ∈ revealableIds then .ok ()
    else
      .error (.scopeForbidden
        "You do not have permission to reveal execution data. The 'execution:reveal' scope is required."
        "EXECUTION_REVEAL_FORBIDDEN" "execution:reveal" "Contact a project admin to request the required scope.")

def processExecutions (setting : Setting) (options : Options) (executions : List RedactableExecution) :
    Except Failure (List RedactableExecution) := do
  if executions.all (·.data.isNone) then return executions
  let revealable := revealableIds setting options executions
  if options.redactExecutionData = some false then
    executions.forM (checkDynamicCredentials options)
    (needsCheck setting executions).forM (checkScope options revealable)
  return executions.map (processOne setting options revealable)

def TaskDataConnections.map (f : ι → κ) (connections : TaskDataConnections ι) : TaskDataConnections κ :=
  connections.mapValues fun outputs => outputs.map fun items => items.map fun items => items.map f

def TaskData.map (f : ι → κ) (task : TaskData ι) : TaskData κ :=
  { task with data := task.data.map (·.map f), inputOverride := task.inputOverride.map (·.map f) }

def ResultData.map (f : ι → κ) (resultData : ResultData ι) : ResultData κ :=
  { resultData with
    runData := resultData.runData.map fun runData => runData.mapValues fun tasks => tasks.map (·.map f)
    pinData := resultData.pinData.map fun pinData => pinData.mapValues fun items => items.map f }

def ExecuteData.map (f : ι → κ) (entry : ExecuteData ι) : ExecuteData κ :=
  { entry with data := entry.data.map f }

def ExecutionData.map (f : ι → κ) (executionData : ExecutionData ι) : ExecutionData κ :=
  { executionData with
    nodeExecutionStack := executionData.nodeExecutionStack.map (·.map f)
    waitingExecution := executionData.waitingExecution.mapValues fun runs => runs.mapValues (·.map f) }

def RunExecutionData.map (f : ι → κ) (data : RunExecutionData ι) : RunExecutionData κ :=
  { data with resultData := data.resultData.map f, executionData := data.executionData.map (·.map f) }

/-- What is sent of an execution: the items stand in their places. -/
structure Response where
  id : Option String
  mode : WorkflowExecuteMode
  workflowId : String
  data : Option (RunExecutionData NodeExecutionData)
  redactionPolicy : Option RedactionPolicy

def RedactableExecution.response (execution : RedactableExecution) : Response :=
  ⟨execution.id, execution.mode, execution.workflowId, execution.data.map (·.map execution.store),
    execution.redactionPolicy⟩

end NodeAutomation.ExecutionRedaction
