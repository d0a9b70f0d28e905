import NodeAutomation.Cli.TriggerDiff

/-! The publication of one workflow
(`packages/cli/src/workflows/publication/workflow-publication-applier.ts`, with
`workflow-trigger-activator.ts`, `webhook-trigger-registrar.ts`, `trigger-activation-retry.ts`
and `storeWebhook` of `packages/cli/src/webhooks/webhook.service.ts`). A record is suspended at
the awaits of `apply`; the fan-outs of `deactivate` and `activate` run side by side. -/

namespace NodeAutomation.WorkflowPublication

/-- The workflow, the types of its nodes, and the nodes that a version id stands for. -/
structure Setting where
  workflowId : String
  types : NodeTypes
  version : String → Version

inductive ErrorKind where
  | webhookPathTaken
  | queryFailed
  | other
  deriving DecidableEq

structure ActivationError where
  message : String
  detail : Option String := none
  kind : ErrorKind := .other
  deriving DecidableEq

structure WebhookEntity where
  workflowId : String
  node : String
  deriving DecidableEq

/-- `workflow` is the workflow's row, for its `activeVersionId`; `publishedVersion` is its row in
`workflow_published_version`; `webhooks` are the rows of all workflows. -/
structure Database where
  workflow : Option (Option String) := none
  history : List String := []
  publishedVersion : Option String := none
  webhooks : OrderedMap WebhookKey WebhookEntity := ∅

/-- `triggers` is the workflow's `WorkflowActiveTriggersState`: its non-webhook trigger nodes, with
whether there is a trigger response to close. `crons` are the nodes with scheduled tasks, and
`closing` the deregistrations that a failed record has left in progress. -/
structure Memory where
  triggers : OrderedMap String Bool := ∅
  crons : List String := []
  closing : List String := []

inductive PublicationSkipReason where
  | workflowNotFound
  | workflowInactive
  deriving DecidableEq

structure TriggerPublicationStatus where
  nodeId : String
  nodeName : String
  errorMessage : Option String
  deriving DecidableEq

/-- The results of `apply`; an error it throws is reported as a `failed` one. -/
inductive PublicationResult where
  | completed (triggerStatuses : List TriggerPublicationStatus)
  | unpublished
  | skipped (reason : PublicationSkipReason)
  | versionMissing
  | partialSuccess (triggerStatuses : List TriggerPublicationStatus)
  | failed (error : ActivationError) (triggerStatuses : Option (List TriggerPublicationStatus))
  deriving DecidableEq

structure TriggerActivationFailure where
  nodeId : String
  nodeName : String
  error : ActivationError

structure TriggerActivationOutcome where
  activated : List String := []
  failures : List TriggerActivationFailure := []

/-- What `apply` works out before it changes anything. -/
structure Plan where
  record : String
  unpublishing : Bool := false
  oldVersion : Option String
  toAdd : List String := []
  toRemove : List String

/-- What a node has registered: an entry, with or without a trigger response, and crons. An entry
in a state object that was dropped meanwhile is none. -/
structure Registration where
  entry : Option Bool := none
  crons : Bool := false
  deriving DecidableEq

def Registration.registers (registration : Registration) : Bool := registration.entry.isSome || registration.crons

/-- How a close function has ended: the entry is deleted, in a state object that may have been
dropped meanwhile; or it has thrown. -/
inductive Closed where
  | deleted
  | dropped
  | threw (error : ActivationError)
  deriving DecidableEq

namespace Memory

variable (memory : Memory)

/-- `getRegisteredTriggerNodeIds`. -/
def registered : List String := memory.crons ++ memory.triggers.keys

def addTrigger (id : String) (registration : Registration) : Memory :=
  { memory with
    triggers :=
      match registration.entry with
      | none => memory.triggers
      | some response => memory.triggers.set id (response || (memory.triggers.get id).getD false)
    crons := if registration.crons then memory.crons ++ [id] else memory.crons }

/-- `rollbackPartialActivation`: the entry of a poll node goes with the crons. -/
def rollBack (id : String) (polls : Bool) : Memory :=
  { memory with
    triggers := if polls then memory.triggers.delete id else memory.triggers
    crons := memory.crons.filter (· ≠ id) }

/-- `removeTriggers` of the nodes, up to their close functions. -/
def removeTriggers (ids : List String) : Memory :=
  { memory with
    triggers := memory.triggers.deleteMany (ids.filter fun id => memory.triggers.get id ≠ some true)
    crons := memory.crons.filter (· ∉ ids) }

def delete (id : String) : Memory := { memory with triggers := memory.triggers.delete id }

end Memory

def isTransientActivationError (error : ActivationError) : Bool := error.kind ≠ .webhookPathTaken

def TRIGGER_ACTIVATION_MAX_ATTEMPTS : Nat := 5

def webhookPathTakenError (nodeName : String) : ActivationError where
  message := "The URL path that the \"" ++ nodeName ++
    "\" node uses is already taken. Please change it to something else."
  kind := .webhookPathTaken

/-- What an attempt to register a webhook is suspended at: `storeWebhook`,
`createWebhookIfNotExists`, or after an error of that the `deregister` and the
`clearWorkflowWebhooksForNodes` of `clearRegisteredWebhook`. -/
inductive Attempt where
  | storing
  | creating
  | rollingBack (error : ActivationError)
  | clearing (error : ActivationError)
  | finished (error : Option ActivationError)
  deriving DecidableEq

/-- `registerWebhookTriggersForNode`. Not of the source: `cleared`, that the rows of webhooks
this task has registered were deleted by a rollback. -/
structure WebhookTask where
  nodeId : String
  nodeName : String
  registered : List WebhookData := []
  pending : List WebhookData
  attempts : Nat := 0
  attempt : Attempt := .storing
  cleared : Bool := false

/-- The registration of a non-webhook trigger; `result` is set when it is settled. -/
structure TriggerTask where
  nodeId : String
  attempts : Nat := 0
  result : Option (Option ActivationError) := none

/-- What a trigger or poll node has done: it has started, and registered something or nothing; or it
failed, and was rolled back. -/
inductive TriggerReply where
  | started (registration : Registration)
  | threw (error : ActivationError) (polls : Bool)

/-- The webhook part of `deactivate`: the `deregister` of all webhooks, then
`clearWorkflowWebhooksForNodes`. -/
inductive WebhookPhase where
  | deregistering
  | clearing
  | settled (error : Option ActivationError)

/-- What a record is suspended at. -/
inductive Stage where
  | idle
  | resolvingVersions (record : String)
  | readingWebhooks (plan : Plan)
  | beginningDeactivation (plan : Plan)
  | deactivating (plan : Plan) (webhooks : WebhookPhase) (closing : List String) (rejected : Option ActivationError)
  | invalidatingCache (plan : Plan)
  | writingPublishedVersion (plan : Plan)
  | refreshingCache (plan : Plan)
  | beginningActivation (plan : Plan)
  | activating (plan : Plan) (webhookTasks : List WebhookTask) (triggerTasks : List TriggerTask)
      (rejected : Option ActivationError)
  | savingTriggerCount (plan : Plan) (outcome : TriggerActivationOutcome)
  | updatingTriggerCount (plan : Plan)

/-- `reported` is what the last step has reported. -/
structure State where
  database : Database := {}
  memory : Memory := {}
  stage : Stage := .idle
  reported : Option (String × PublicationResult) := none

/-- The workflow's own row and history change with every edit, and other workflows store and
delete webhooks. A version that is published cannot be deleted. -/
inductive Event where
  | workflow (row : Option (Option String))
  | versionSaved (version : String)
  | versionDeleted (version : String)
  | webhookStored (key : WebhookKey) (row : WebhookEntity)
  | webhookDeleted (key : WebhookKey)

/-- `proceed` ends what the record itself waits for, with or without an error; the others end
one step of a fan-out, or of a deregistration that was left in progress. -/
inductive Action where
  | claim (record : String)
  | proceed (error : Option ActivationError)
  | webhookPhase (error : Option ActivationError)
  | closed (index : Nat) (closed : Closed)
  | closedLate (index : Nat) (closed : Closed)
  | activate (webhookError triggerError : Option ActivationError)
  | webhookTask (index : Nat) (error : Option ActivationError)
  | triggerTask (index : Nat) (reply : TriggerReply)
  | settle (webhooksFirst : Bool)
  | crash
  | environment (event : Event)

variable (setting : Setting)

/-- `storeWebhook`, for the workflow. -/
def storeWebhook (webhooks : OrderedMap WebhookKey WebhookEntity) (webhookData : WebhookData) :
    Except ActivationError (OrderedMap WebhookKey WebhookEntity) :=
  match webhooks.get webhookData.key with
  | none => .ok (webhooks.set webhookData.key { workflowId := setting.workflowId, node := webhookData.node })
  | some existing =>
    if existing.workflowId ≠ setting.workflowId then .error (webhookPathTakenError webhookData.node)
    else .ok (webhooks.set webhookData.key { workflowId := setting.workflowId, node := webhookData.node })

def deleteWorkflowWebhooksForNodes (webhooks : OrderedMap WebhookKey WebhookEntity) (nodeNames : List String) :
    OrderedMap WebhookKey WebhookEntity :=
  webhooks.filterValues fun webhook => !(webhook.workflowId = setting.workflowId && webhook.node ∈ nodeNames)

/-- The error that `register` throws on. -/
def registerError (nodeName : String) (error : ActivationError) : ActivationError :=
  if error.kind = .queryFailed then webhookPathTakenError nodeName
  else { error with message := error.detail.getD error.message }

/-- `retryTriggerActivation`: another attempt, unless there is no use or this was the last. -/
def givesUp (attempts : Nat) (error : ActivationError) : Bool :=
  !isTransientActivationError error || attempts ≥ TRIGGER_ACTIVATION_MAX_ATTEMPTS - 1

def WebhookTask.failed (task : WebhookTask) (nodeName : String) (error : ActivationError) : WebhookTask :=
  let error := registerError nodeName error
  if givesUp task.attempts error then { task with attempt := .finished (some error) }
  else { task with attempts := task.attempts + 1, attempt := .storing }

def WebhookTask.succeeded (task : WebhookTask) (webhookData : WebhookData) (rest : List WebhookData) : WebhookTask :=
  { task with
    registered := task.registered ++ [webhookData]
    pending := rest
    attempts := 0
    attempt := if rest.isEmpty then .finished none else .storing }

def WebhookTask.step (webhooks : OrderedMap WebhookKey WebhookEntity) (task : WebhookTask)
    (error : Option ActivationError) : OrderedMap WebhookKey WebhookEntity × WebhookTask :=
  match task.pending with
  | [] => (webhooks, task)
  | webhookData :: rest =>
    match task.attempt, error with
    | .storing, none =>
      match storeWebhook setting webhooks webhookData with
      | .ok stored => (stored, { task with attempt := .creating })
      | .error taken => (webhooks, task.failed webhookData.node taken)
    | .storing, some error => (webhooks, task.failed webhookData.node error)
    | .creating, none => (webhooks, task.succeeded webhookData rest)
    | .creating, some error => (webhooks, { task with attempt := .rollingBack error })
    | .rollingBack error, none => (webhooks, { task with attempt := .clearing error })
    | .clearing error, none =>
      (deleteWorkflowWebhooksForNodes setting webhooks [webhookData.node],
        { task with cleared := task.cleared || !task.registered.isEmpty }.failed webhookData.node error)
    -- an error of the rollback is reported, and the first one thrown
    | .rollingBack error, some _ | .clearing error, some _ => (webhooks, task.failed webhookData.node error)
    | .finished _, _ => (webhooks, task)

def TriggerTask.failed (task : TriggerTask) (error : ActivationError) : TriggerTask :=
  if givesUp task.attempts error then { task with result := some (some error) }
  else { task with attempts := task.attempts + 1 }

def TriggerTask.step (memory : Memory) (task : TriggerTask) (reply : TriggerReply) : Memory × TriggerTask :=
  match task.result, reply with
  | some _, _ => (memory, task)
  | none, .started registration => (memory.addTrigger task.nodeId registration, { task with result := some none })
  | none, .threw error polls => (memory.rollBack task.nodeId polls, task.failed error)

def buildTriggerStatuses (desiredTriggerNodes : List VersionNode) (outcome : TriggerActivationOutcome) :
    List TriggerPublicationStatus :=
  let failureByNodeId := OrderedMap.ofList (outcome.failures.map fun failure => (failure.nodeId, failure))
  desiredTriggerNodes.map fun node =>
    { nodeId := node.id
      nodeName := node.name
      errorMessage := (failureByNodeId.get node.id).map fun failure => failure.error.message }

def toActivationError (failures : List TriggerActivationFailure) : ActivationError :=
  match failures with
  | [failure] => failure.error
  | failures =>
    { message := "Triggers failed to activate: " ++ String.intercalate "; "
        (failures.map fun failure => "\"" ++ failure.nodeName ++ "\": " ++ failure.error.message) }

def classifyActivationOutcome (outcome : TriggerActivationOutcome) (desiredTriggerNodes : List VersionNode) :
    PublicationResult :=
  let triggerStatuses := buildTriggerStatuses desiredTriggerNodes outcome
  if outcome.failures.isEmpty then .completed triggerStatuses
  else if outcome.activated.isEmpty &&
      outcome.failures.all (fun failure => !isTransientActivationError failure.error) then
    .failed (toActivationError outcome.failures) (some triggerStatuses)
  else .partialSuccess triggerStatuses

def resolveNodeName (version : Version) (nodeId : String) : String :=
  (((workflowNodes version).find? (·.id = nodeId)).map (·.name)).getD nodeId

def outcomeOf {τ : Type} (nodeId nodeName : τ → String) (error : τ → Option ActivationError) (tasks : List τ) :
    TriggerActivationOutcome where
  activated := (tasks.filter fun task => (error task).isNone).map nodeId
  failures := tasks.filterMap fun task => (error task).map fun error =>
    { nodeId := nodeId task, nodeName := nodeName task, error }

def WebhookTask.error (task : WebhookTask) : Option ActivationError :=
  match task.attempt with
  | .finished error => error
  | .storing | .creating | .rollingBack _ | .clearing _ => none

def WebhookTask.settled (task : WebhookTask) : Bool :=
  match task.attempt with
  | .finished _ => true
  | .storing | .creating | .rollingBack _ | .clearing _ => false

def activationOutcome (version : Version) (webhookTasks : List WebhookTask) (triggerTasks : List TriggerTask)
    (webhooksFirst : Bool) : TriggerActivationOutcome :=
  let webhooks := outcomeOf WebhookTask.nodeId WebhookTask.nodeName WebhookTask.error webhookTasks
  let triggers := outcomeOf TriggerTask.nodeId (fun task => resolveNodeName version task.nodeId)
    (fun task => task.result.join) triggerTasks
  let (first, second) := if webhooksFirst then (webhooks, triggers) else (triggers, webhooks)
  { activated := first.activated ++ second.activated, failures := first.failures ++ second.failures }

namespace State

variable (s : State)

def report (record : String) (result : PublicationResult) : State :=
  { s with stage := .idle, reported := some (record, result) }

/-- `apply` throws, and the consumer reports that. -/
def throw (record : String) (error : ActivationError) : State :=
  s.report record (.failed { message := "Unexpected: " ++ error.message } none)

def enabledIds (version : String) : List String :=
  (getEnabledTriggerNodes setting.types (setting.version version)).map VersionNode.id

/-- `getUnregisteredNonWebhookTriggerNodeIds`: of the desired nodes, which are those of the new
version with a trigger. -/
def unregisteredTriggers (newVersion : String) : List String :=
  (getTriggerNodeIds setting.types (setting.version newVersion)).filter (· ∉ s.memory.registered)

def publishPlan (record : String) (oldVersion : Option String) : Plan :=
  let nodesOf := fun version => getEnabledTriggerNodes setting.types (setting.version version)
  let diff := computeTriggerDiff ((oldVersion.map nodesOf).getD []) (nodesOf record)
  { record, oldVersion, toAdd := diff.toAdd ++ s.unregisteredTriggers setting record, toRemove := diff.toRemove }

def unpublishPlan (record oldVersion : String) : Plan where
  record := record
  unpublishing := true
  oldVersion := some oldVersion
  toRemove := enabledIds setting oldVersion

/-- `apply`, once the versions are resolved. -/
def resolved (record : String) : State :=
  match s.database.workflow with
  | none => s.report record (.skipped .workflowNotFound)
  | some none =>
    match s.database.publishedVersion with
    | none => s.report record (.skipped .workflowInactive)
    | some oldVersion =>
      let plan := unpublishPlan setting record oldVersion
      { s with stage := if plan.toRemove.isEmpty then .invalidatingCache plan else .beginningDeactivation plan }
  | some (some _) =>
    if record ∉ s.database.history then s.report record .versionMissing
    else { s with stage := .readingWebhooks (s.publishPlan setting record s.database.publishedVersion) }

/-- `getNodesWithUnregisteredWebhooks`. -/
def nodesWithUnregisteredWebhooks (newVersion : String) : List String :=
  let version := setting.version newVersion
  let desiredWebhooks := getWebhookTriggersForNodeIds setting.types version (enabledIds setting newVersion)
  let registeredKeys := (s.database.webhooks.filterValues fun webhook => webhook.workflowId = setting.workflowId).keys
  (desiredWebhooks.filter fun webhookData => webhookData.key ∉ registeredKeys).map (webhookNodeId version)

def planned (plan : Plan) : State :=
  let plan := { plan with toAdd := plan.toAdd ++ s.nodesWithUnregisteredWebhooks setting plan.record }
  { s with
    stage :=
      if !plan.toRemove.isEmpty && plan.oldVersion.isSome then .beginningDeactivation plan
      else .invalidatingCache plan }

def oldNodes (plan : Plan) : Version := (plan.oldVersion.map setting.version).getD []

/-- Once both parts of `deactivate` are settled, it throws the first error, or the record goes on. -/
def settleDeactivation (plan : Plan) (webhooks : WebhookPhase) (closing : List String)
    (rejected : Option ActivationError) : State :=
  match webhooks with
  | .settled error =>
    if rejected.isNone && !closing.isEmpty then { s with stage := .deactivating plan webhooks closing rejected }
    else
      match error <|> rejected with
      | none => { s with stage := .invalidatingCache plan }
      | some error => { s with memory := { s.memory with closing := s.memory.closing ++ closing } }.throw plan.record error
  | .deregistering | .clearing => { s with stage := .deactivating plan webhooks closing rejected }

/-- The deregistrations start; those with a trigger response wait for its close function. -/
def beginDeactivation (plan : Plan) : State :=
  let nodeIds := (getTriggerNodeIds setting.types (oldNodes setting plan)).filter (· ∈ plan.toRemove)
  { s with
    memory := s.memory.removeTriggers nodeIds
    stage := .deactivating plan .deregistering (nodeIds.filter fun id => s.memory.triggers.get id = some true) none }

/-- A step of the webhook part of `deactivate`. -/
def webhookPhaseStep (error : Option ActivationError) : State :=
  match s.stage with
  | .deactivating plan .deregistering closing rejected =>
    match error with
    | none => { s with stage := .deactivating plan .clearing closing rejected }
    | some error => s.settleDeactivation plan (.settled (some error)) closing rejected
  | .deactivating plan .clearing closing rejected =>
    match error with
    | none =>
      let removedNodeNames := (getWebhookTriggersForNodeIds setting.types (oldNodes setting plan) plan.toRemove).map
        WebhookData.node
      { s with
        database := { s.database with
          webhooks := deleteWorkflowWebhooksForNodes setting s.database.webhooks removedNodeNames } }.settleDeactivation
        plan (.settled none) closing rejected
    | some error => s.settleDeactivation plan (.settled (some error)) closing rejected
  | _ => s

def closedStep (index : Nat) (closed : Closed) : State :=
  match s.stage with
  | .deactivating plan webhooks closing rejected =>
    match closing[index]?, closed with
    | none, _ => s
    | some id, .deleted =>
      { s with memory := s.memory.delete id }.settleDeactivation plan webhooks (closing.eraseIdx index) rejected
    | some _, .dropped => s.settleDeactivation plan webhooks (closing.eraseIdx index) rejected
    | some _, .threw error => s.settleDeactivation plan webhooks (closing.eraseIdx index) (rejected <|> some error)
  | _ => s

/-- The same, of a deregistration that was left in progress. -/
def closedLateStep (index : Nat) (closed : Closed) : State :=
  match s.memory.closing[index]?, closed with
  | none, _ => s
  | some id, .deleted => { s with memory := { s.memory.delete id with closing := s.memory.closing.eraseIdx index } }
  | some _, .dropped | some _, .threw _ =>
    { s with memory := { s.memory with closing := s.memory.closing.eraseIdx index } }

def writePublishedVersion (plan : Plan) : State :=
  if plan.unpublishing then
    { s with database := { s.database with publishedVersion := none } }.report plan.record .unpublished
  else if plan.record ∉ s.database.history then s.throw plan.record { message := "FOREIGN KEY constraint failed" }
  else
    { s with
      database := { s.database with publishedVersion := some plan.record }
      stage := .refreshingCache plan }

def allActivated (plan : Plan) : PublicationResult :=
  .completed (buildTriggerStatuses (getEnabledTriggerNodes setting.types (setting.version plan.record)) {})

/-- After `advancePublishedVersion`. -/
def advanced (plan : Plan) : State :=
  if !plan.toAdd.isEmpty then { s with stage := .beginningActivation plan }
  else if !plan.toRemove.isEmpty then { s with stage := .updatingTriggerCount plan }
  else s.report plan.record (allActivated setting plan)

/-- The tasks of `registerWebhookTriggers`; a webhook without a node id is passed by. -/
def webhookTasks (plan : Plan) : List WebhookTask :=
  let version := setting.version plan.record
  let webhooks := getWebhookTriggersForNodeIds setting.types version plan.toAdd
  (OrderedMap.groupBy (webhookNodeId version) (webhooks.filter fun webhookData =>
      webhookNodeId version webhookData ≠ "")).entries.map fun (nodeId, pending) =>
    { nodeId, nodeName := (pending.head?.map WebhookData.node).getD nodeId, pending }

def triggerTasks (plan : Plan) : List TriggerTask :=
  ((getTriggerNodeIds setting.types (setting.version plan.record)).filter (· ∈ plan.toAdd)).map fun nodeId => { nodeId }

/-- `activate`, once it has its data; a phase that throws at its start makes no task. -/
def activateStep (webhookError triggerError : Option ActivationError) : State :=
  match s.stage with
  | .beginningActivation plan =>
    { s with
      stage := .activating plan (if webhookError.isSome then [] else webhookTasks setting plan)
        (if triggerError.isSome then [] else triggerTasks setting plan) (webhookError <|> triggerError) }
  | _ => s

def webhookTaskStep (index : Nat) (error : Option ActivationError) : State :=
  match s.stage with
  | .activating plan webhookTasks triggerTasks rejected =>
    match webhookTasks[index]? with
    | none => s
    | some task =>
      let stepped := task.step setting s.database.webhooks error
      { s with
        database := { s.database with webhooks := stepped.1 }
        stage := .activating plan (webhookTasks.set index stepped.2) triggerTasks rejected }
  | _ => s

def triggerTaskStep (index : Nat) (reply : TriggerReply) : State :=
  match s.stage with
  | .activating plan webhookTasks triggerTasks rejected =>
    match triggerTasks[index]? with
    | none => s
    | some task =>
      let stepped := task.step s.memory reply
      { s with
        memory := stepped.1
        stage := .activating plan webhookTasks (triggerTasks.set index stepped.2) rejected }
  | _ => s

def settleStep (webhooksFirst : Bool) : State :=
  match s.stage with
  | .activating plan webhookTasks triggerTasks rejected =>
    if !(webhookTasks.all WebhookTask.settled && triggerTasks.all fun task => task.result.isSome) then s
    else
      match rejected with
      | some error => s.report plan.record (.failed error none)
      | none =>
        { s with
          stage := .savingTriggerCount plan
            (activationOutcome (setting.version plan.record) webhookTasks triggerTasks webhooksFirst) }
  | _ => s

/-- What the record itself has waited for has ended. -/
def proceedStep (error : Option ActivationError) : State :=
  match s.stage, error with
  | .resolvingVersions record, none => s.resolved setting record
  | .readingWebhooks plan, none => s.planned setting plan
  | .beginningDeactivation plan, none => s.beginDeactivation setting plan
  | .invalidatingCache plan, none => { s with stage := .writingPublishedVersion plan }
  | .writingPublishedVersion plan, none => s.writePublishedVersion plan
  | .refreshingCache plan, none => s.advanced setting plan
  | .savingTriggerCount plan outcome, none =>
    s.report plan.record
      (classifyActivationOutcome outcome (getEnabledTriggerNodes setting.types (setting.version plan.record)))
  | .updatingTriggerCount plan, none => s.report plan.record (allActivated setting plan)
  | .resolvingVersions record, some error => s.throw record error
  | .readingWebhooks plan, some error | .beginningDeactivation plan, some error | .invalidatingCache plan, some error
  | .writingPublishedVersion plan, some error | .refreshingCache plan, some error => s.throw plan.record error
  -- the `catch` of `publish`
  | .beginningActivation plan, some error | .savingTriggerCount plan _, some error
  | .updatingTriggerCount plan, some error => s.report plan.record (.failed error none)
  | .beginningActivation _, none | .idle, _ | .deactivating _ _ _ _, _ | .activating _ _ _ _, _ => s

def claimStep (record : String) : State :=
  match s.stage with
  | .idle => { s with stage := .resolvingVersions record }
  | _ => s

/-- The database is kept. -/
def crashed : State := { s with memory := {}, stage := .idle }

def environmentStep : Event → State
  | .workflow row => { s with database := { s.database with workflow := row } }
  | .versionSaved version => { s with database := { s.database with history := s.database.history ++ [version] } }
  | .versionDeleted version =>
    if s.database.publishedVersion = some version then s
    else { s with database := { s.database with history := s.database.history.filter (· ≠ version) } }
  | .webhookStored key row =>
    if row.workflowId = setting.workflowId ∨ s.database.webhooks.contains key then s
    else { s with database := { s.database with webhooks := s.database.webhooks.set key row } }
  | .webhookDeleted key =>
    match s.database.webhooks.get key with
    | none => s
    | some row =>
      if row.workflowId = setting.workflowId then s
      else { s with database := { s.database with webhooks := s.database.webhooks.delete key } }

def step : Action → State
  | .claim record => s.claimStep record
  | .proceed error => s.proceedStep setting error
  | .webhookPhase error => s.webhookPhaseStep setting error
  | .closed index closed => s.closedStep index closed
  | .closedLate index closed => s.closedLateStep index closed
  | .activate webhookError triggerError => s.activateStep setting webhookError triggerError
  | .webhookTask index error => s.webhookTaskStep setting index error
  | .triggerTask index reply => s.triggerTaskStep index reply
  | .settle webhooksFirst => s.settleStep setting webhooksFirst
  | .crash => s.crashed
  | .environment event => s.environmentStep setting event

def next (action : Action) : State := { s with reported := none }.step setting action

end State

def Setting.triggerNodes (version : String) : List VersionNode :=
  getEnabledTriggerNodes setting.types (setting.version version)

def Setting.webhooksOf (version : String) (node : VersionNode) : List WebhookKey :=
  setting.types.nodeWebhooks (setting.version version) node

def Setting.Calls (version : String) (webhookData : WebhookData) : Prop :=
  ∃ node ∈ setting.triggerNodes version,
    webhookData.node = node.name ∧ webhookData.key ∈ setting.webhooksOf version node

instance (version : String) : DecidablePred (setting.Calls version) := fun webhookData =>
  inferInstanceAs (Decidable (∃ node ∈ setting.triggerNodes version,
    webhookData.node = node.name ∧ webhookData.key ∈ setting.webhooksOf version node))

def Setting.nonWebhookIds (version : String) : List String :=
  getTriggerNodeIds setting.types (setting.version version)

def Setting.activeNodes (version : String) : List VersionNode :=
  (workflowNodes (setting.version version)).filter fun node => !node.disabled

/-- The `(method, path)` pairs of a version's webhooks are distinct. -/
def Setting.DistinctWebhooks (version : String) : Prop :=
  ((getWorkflowWebhooks setting.types (setting.version version)).map WebhookData.key).Nodup

/-- Its enabled nodes have ids, and no two the same. -/
def Setting.DistinctIds (version : String) : Prop :=
  ((setting.activeNodes version).map VersionNode.id).Nodup ∧ "" ∉ (setting.activeNodes version).map VersionNode.id

instance : DecidablePred setting.DistinctIds := fun version =>
  inferInstanceAs (Decidable (((setting.activeNodes version).map VersionNode.id).Nodup ∧
    "" ∉ (setting.activeNodes version).map VersionNode.id))

/-- A node that the diff leaves alone still calls for its webhooks, and for none that another
node of the old version called for. -/
def Setting.Steady (oldVersion newVersion : String) : Prop :=
  ∀ node ∈ setting.triggerNodes oldVersion, ∀ newNode ∈ setting.triggerNodes newVersion, node.id = newNode.id →
    WorkflowDiff.compareNodes node.diffable newNode.diffable = true →
    (∀ key ∈ setting.webhooksOf oldVersion node, key ∈ setting.webhooksOf newVersion newNode) ∧
      ∀ key ∈ setting.webhooksOf newVersion newNode, ∀ other ∈ setting.triggerNodes oldVersion,
        key ∈ setting.webhooksOf oldVersion other → other.name = node.name

instance (oldVersion newVersion : String) : Decidable (setting.Steady oldVersion newVersion) :=
  inferInstanceAs (Decidable (∀ node ∈ setting.triggerNodes oldVersion, ∀ newNode ∈ setting.triggerNodes newVersion,
    node.id = newNode.id → WorkflowDiff.compareNodes node.diffable newNode.diffable = true →
    (∀ key ∈ setting.webhooksOf oldVersion node, key ∈ setting.webhooksOf newVersion newNode) ∧
      ∀ key ∈ setting.webhooksOf newVersion newNode, ∀ other ∈ setting.triggerNodes oldVersion,
        key ∈ setting.webhooksOf oldVersion other → other.name = node.name))

/-- When a record is reported as completed, its version is published, and what is stored and
registered is what that version calls for. -/
def Reconciled (s : State) : Prop :=
  ∀ record triggerStatuses, s.reported = some (record, .completed triggerStatuses) →
    s.database.publishedVersion = some record ∧
    (∀ key node, s.database.webhooks.get key = some { workflowId := setting.workflowId, node } ↔
      setting.Calls record { node, key }) ∧
    ∀ id, id ∈ s.memory.registered ↔ id ∈ setting.nonWebhookIds record

/-- The record that is in progress leaves the registration of a node alone, or has made it. -/
def Stage.Counts (id : String) : Stage → Prop
  | .readingWebhooks plan | .beginningDeactivation plan | .deactivating plan _ _ _ | .invalidatingCache plan
  | .writingPublishedVersion plan | .refreshingCache plan | .beginningActivation plan | .updatingTriggerCount plan =>
    plan.unpublishing = false ∧ id ∈ setting.nonWebhookIds plan.record ∧ id ∉ plan.toAdd
  | .activating plan _ triggerTasks _ =>
    id ∈ setting.nonWebhookIds plan.record ∧
      (id ∈ plan.toAdd → ∃ task ∈ triggerTasks, task.nodeId = id) ∧
      ∀ task ∈ triggerTasks, task.nodeId = id → task.result = some none
  | .savingTriggerCount plan _ => id ∈ setting.nonWebhookIds plan.record
  | .idle | .resolvingVersions _ => False

instance (id : String) : DecidablePred (Stage.Counts setting id)
  | .readingWebhooks plan | .beginningDeactivation plan | .deactivating plan _ _ _ | .invalidatingCache plan
  | .writingPublishedVersion plan | .refreshingCache plan | .beginningActivation plan | .updatingTriggerCount plan =>
    inferInstanceAs (Decidable (plan.unpublishing = false ∧ id ∈ setting.nonWebhookIds plan.record ∧ id ∉ plan.toAdd))
  | .activating plan _ triggerTasks _ =>
    inferInstanceAs (Decidable (id ∈ setting.nonWebhookIds plan.record ∧
      (id ∈ plan.toAdd → ∃ task ∈ triggerTasks, task.nodeId = id) ∧
      ∀ task ∈ triggerTasks, task.nodeId = id → task.result = some none))
  | .savingTriggerCount plan _ => inferInstanceAs (Decidable (id ∈ setting.nonWebhookIds plan.record))
  | .idle | .resolvingVersions _ => inferInstanceAs (Decidable False)

/-- The record whose versions are about to be diffed. -/
def State.publishes (s : State) : Option String :=
  match s.stage, s.database.workflow with
  | .resolvingVersions record, some (some _) => if record ∈ s.database.history then some record else none
  | _, _ => none

def Stage.webhookTasks : Stage → List WebhookTask
  | .activating _ webhookTasks _ _ => webhookTasks
  | _ => []

def Stage.triggerTasks : Stage → List TriggerTask
  | .activating _ _ triggerTasks _ => triggerTasks
  | _ => []

def Stage.closing : Stage → List String
  | .deactivating _ _ closing _ => closing
  | _ => []

/-- The versions that are diffed are well formed and steady; a deregistration leaves no node
registered because its state object was dropped, and one that was left in progress deletes nothing
that a record counts on; the last webhook of a node is not registered after a rollback has deleted
the rows of its other ones; and a trigger that starts is registered. -/
def Orderly (s : State) : Action → Prop
  | .proceed none =>
    ∀ record ∈ s.publishes, setting.DistinctIds record ∧
      ∀ old ∈ s.database.publishedVersion, setting.Steady old record
  | .closed index .dropped => ∀ id ∈ s.stage.closing[index]?, id ∉ s.memory.registered
  | .closedLate index .deleted =>
    ∀ id ∈ s.memory.closing[index]?, id ∈ s.memory.registered → id ∉ s.memory.crons → ¬ s.stage.Counts setting id
  | .webhookTask index none =>
    ∀ task ∈ s.stage.webhookTasks[index]?, task.attempt = .creating → task.pending.length = 1 → task.cleared = false
  | .triggerTask index (.started registration) =>
    ∀ task ∈ s.stage.triggerTasks[index]?, task.result = none → registration.registers = false →
      task.nodeId ∈ s.memory.registered
  | _ => True

instance (s : State) : DecidablePred (Orderly setting s)
  | .proceed none =>
    inferInstanceAs (Decidable (∀ record ∈ s.publishes, setting.DistinctIds record ∧
      ∀ old ∈ s.database.publishedVersion, setting.Steady old record))
  | .closed index .dropped => inferInstanceAs (Decidable (∀ id ∈ s.stage.closing[index]?, id ∉ s.memory.registered))
  | .closedLate index .deleted =>
    inferInstanceAs (Decidable (∀ id ∈ s.memory.closing[index]?,
      id ∈ s.memory.registered → id ∉ s.memory.crons → ¬ s.stage.Counts setting id))
  | .webhookTask index none =>
    inferInstanceAs (Decidable (∀ task ∈ s.stage.webhookTasks[index]?,
      task.attempt = .creating → task.pending.length = 1 → task.cleared = false))
  | .triggerTask index (.started registration) =>
    inferInstanceAs (Decidable (∀ task ∈ s.stage.triggerTasks[index]?, task.result = none →
      registration.registers = false → task.nodeId ∈ s.memory.registered))
  | .proceed (some _) | .closed _ .deleted | .closed _ (.threw _) | .closedLate _ .dropped | .closedLate _ (.threw _)
  | .webhookTask _ (some _) | .triggerTask _ (.threw _ _) | .claim _ | .webhookPhase _ | .activate _ _ | .settle _ | .crash
  | .environment _ => inferInstanceAs (Decidable True)

end NodeAutomation.WorkflowPublication
