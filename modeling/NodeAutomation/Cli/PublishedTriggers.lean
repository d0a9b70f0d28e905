import NodeAutomation.Cli.PlannedTriggers
import NodeAutomation.Lib.Interleaving

/-! A completed record has stored and registered what its version calls for, whatever earlier
records and crashes have left. -/

namespace NodeAutomation.WorkflowPublication

open WorkflowDiff Runs Interleaving

variable {setting : Setting} {version : String} {node other : VersionNode}

variable {webhookData : WebhookData}

theorem mem_getWorkflowWebhooks :
    webhookData ∈ getWorkflowWebhooks setting.types (setting.version version) ↔
      ∃ node ∈ setting.activeNodes version,
        webhookData.node = node.name ∧ webhookData.key ∈ setting.webhooksOf version node := by
  rw [getWorkflowWebhooks, List.mem_flatMap]
  constructor
  · rintro ⟨node, member, calls⟩
    rw [getNodeWebhooks] at calls
    split at calls
    case isTrue => exact absurd calls List.not_mem_nil
    case isFalse active =>
      obtain ⟨key, called, same⟩ := List.mem_map.1 calls
      rw [← same]
      exact ⟨node, List.mem_filter.2 ⟨member, by simpa using active⟩, rfl, called⟩
  · rintro ⟨node, member, names, called⟩
    obtain ⟨member, active⟩ := List.mem_filter.1 member
    have enabled : node.disabled = false := by simpa using active
    refine ⟨node, member, ?_⟩
    rw [getNodeWebhooks, enabled, if_neg Bool.false_ne_true]
    exact List.mem_map.2 ⟨webhookData.key, called, by rw [← names]⟩

theorem webhookNodeId_eq (member : node ∈ setting.activeNodes version)
    (names : webhookData.node = node.name) : webhookNodeId (setting.version version) webhookData = node.id := by
  rw [webhookNodeId, names, getNode_eq_some_iff.2 ⟨(List.mem_filter.1 member).1, rfl⟩]
  rfl

theorem mem_getWebhookTriggersForNodeIds {nodeIds : List String} :
    webhookData ∈ getWebhookTriggersForNodeIds setting.types (setting.version version) nodeIds ↔
      ∃ node ∈ setting.activeNodes version, node.id ∈ nodeIds ∧
        webhookData.node = node.name ∧ webhookData.key ∈ setting.webhooksOf version node := by
  rw [getWebhookTriggersForNodeIds, List.mem_filter, decide_eq_true_eq, mem_getWorkflowWebhooks]
  constructor
  · rintro ⟨⟨node, member, names, called⟩, listed⟩
    rw [webhookNodeId_eq member names] at listed
    exact ⟨node, member, listed, names, called⟩
  · rintro ⟨node, member, listed, names, called⟩
    exact ⟨⟨node, member, names, called⟩, by rwa [webhookNodeId_eq member names]⟩

theorem Setting.Calls.eq {webhookData webhookData' : WebhookData} (distinct : setting.DistinctWebhooks version)
    (calls : setting.Calls version webhookData) (calls' : setting.Calls version webhookData')
    (same : webhookData.key = webhookData'.key) : webhookData = webhookData' := by
  obtain ⟨node, member, names, called⟩ := calls
  obtain ⟨node', member', names', called'⟩ := calls'
  exact List.inj_on_of_nodup_map distinct
    (mem_getWorkflowWebhooks.2 ⟨node, mem_activeNodes_of_trigger member, names, called⟩)
    (mem_getWorkflowWebhooks.2 ⟨node', mem_activeNodes_of_trigger member', names', called'⟩) same

theorem name_of_id_eq (member : node ∈ setting.activeNodes version) (member' : other ∈ setting.activeNodes version)
    (apart : node.id ≠ other.id) : node.name ≠ other.name := fun same =>
  apart (congrArg VersionNode.id
    (eq_of_name_eq (List.mem_filter.1 member).1 (List.mem_filter.1 member').1 same))

abbrev Webhooks := OrderedMap WebhookKey WebhookEntity

def Owns (setting : Setting) (webhooks : Webhooks) (webhookData : WebhookData) : Prop :=
  webhooks.get webhookData.key = some { workflowId := setting.workflowId, node := webhookData.node }

theorem owns_delete {webhooks : Webhooks} {nodeNames : List String} :
    Owns setting (deleteWorkflowWebhooksForNodes setting webhooks nodeNames) webhookData ↔
      Owns setting webhooks webhookData ∧ webhookData.node ∉ nodeNames := by
  rw [Owns, deleteWorkflowWebhooksForNodes, OrderedMap.get_filterValues_eq_some_iff]
  refine and_congr_right fun _ => ?_
  simp

theorem storeWebhook_ok {webhooks stored : Webhooks}
    (h : storeWebhook setting webhooks webhookData = .ok stored) :
    stored = webhooks.set webhookData.key { workflowId := setting.workflowId, node := webhookData.node } := by
  rw [storeWebhook] at h
  split at h
  case h_1 => exact (Except.ok.inj h).symm
  case h_2 =>
    split at h
    case isTrue => cases h
    case isFalse => exact (Except.ok.inj h).symm

theorem owns_set {webhooks : Webhooks} {webhookData known : WebhookData} :
    Owns setting (webhooks.set webhookData.key { workflowId := setting.workflowId, node := webhookData.node }) known ↔
      known = webhookData ∨ known.key ≠ webhookData.key ∧ Owns setting webhooks known := by
  rw [Owns, OrderedMap.get_set]
  by_cases same : known.key = webhookData.key
  · rw [if_pos same, Option.some.injEq, WebhookEntity.mk.injEq]
    constructor
    · rintro ⟨-, nodes⟩
      left
      cases known
      cases webhookData
      simp_all
    · rintro (same' | ⟨apart, -⟩)
      · rw [same']
        exact ⟨rfl, rfl⟩
      · exact absurd same apart
  · rw [if_neg same]
    constructor
    · exact fun owned => .inr ⟨same, owned⟩
    · rintro (same' | ⟨-, owned⟩)
      · exact absurd (congrArg WebhookData.key same') same
      · exact owned

/-- What a plan to publish does not register is as it was in the old version. -/
structure Plan.Diffs (setting : Setting) (plan : Plan) : Prop where
  distinct : setting.DistinctIds plan.record
  adds : ∀ id ∈ plan.toAdd, ∃ node ∈ setting.triggerNodes plan.record, node.id = id
  keeps : ∀ newNode ∈ setting.triggerNodes plan.record, newNode.id ∉ plan.toAdd →
    ∃ old ∈ plan.oldVersion, ∃ node ∈ setting.triggerNodes old, node.id = newNode.id ∧
      compareNodes node.diffable newNode.diffable = true ∧ node.id ∉ plan.toRemove
  steady : ∀ old ∈ plan.oldVersion, setting.Steady old plan.record

structure Present (setting : Setting) (webhooks : Webhooks) (registered : List String) (version : String)
    (node : VersionNode) : Prop where
  rows : ∀ key ∈ setting.webhooksOf version node, Owns setting webhooks { node := node.name, key }
  running : IsTrigger setting.types node → node.id ∈ registered

def Plan.Kept (setting : Setting) (webhooks : Webhooks) (registered : List String) (plan : Plan) : Prop :=
  ∀ newNode ∈ setting.triggerNodes plan.record, newNode.id ∉ plan.toAdd →
    Present setting webhooks registered plan.record newNode

/-- A webhook of a node of the old version that is not removed. -/
def Plan.LeavesWebhook (setting : Setting) (plan : Plan) (webhookData : WebhookData) : Prop :=
  ∃ old ∈ plan.oldVersion, ∃ node ∈ setting.triggerNodes old, node.id ∉ plan.toRemove ∧
    webhookData.node = node.name ∧ webhookData.key ∈ setting.webhooksOf old node

theorem Plan.LeavesWebhook.published {plan : Plan} {published : Option String}
    (leaves : plan.LeavesWebhook setting webhookData) (same : plan.oldVersion = published) :
    ∃ version ∈ published, setting.Calls version webhookData := by
  obtain ⟨old, isOld, node, member, -, names, called⟩ := leaves
  exact ⟨old, same ▸ isOld, node, member, names, called⟩

theorem Plan.Diffs.leaves_new {plan : Plan} (diffs : plan.Diffs setting)
    (fits : plan.Fits setting) (publishing : plan.unpublishing = false)
    (leaves : plan.LeavesWebhook setting webhookData) : setting.Calls plan.record webhookData := by
  obtain ⟨old, isOld, node, member, kept, names, called⟩ := leaves
  obtain ⟨newNode, member', ids, compared⟩ := fits.left publishing old isOld node member kept
  have still := (diffs.steady old isOld node member newNode member' ids compared).1
  exact ⟨newNode, member', names.trans (compared_types compared).1, still _ called⟩

theorem Plan.Fits.leaves_none {plan : Plan} (fits : plan.Fits setting)
    (unpublishing : plan.unpublishing = true) : ¬ plan.LeavesWebhook setting webhookData := by
  rintro ⟨old, isOld, node, member, kept, -⟩
  exact kept (fits.all unpublishing old isOld node member)

theorem diffs_publishPlan {s : State} {record : String} (distinct : setting.DistinctIds record)
    (oldDistinct : ∀ old ∈ s.database.publishedVersion, setting.DistinctIds old)
    (steady : ∀ old ∈ s.database.publishedVersion, setting.Steady old record) :
    (s.publishPlan setting record s.database.publishedVersion).Diffs setting := by
  have nodup := triggerNodes_nodup distinct
  have oldNodup : (((s.database.publishedVersion.map setting.triggerNodes).getD []).map VersionNode.id).Nodup := by
    cases published : s.database.publishedVersion with
    | none => exact List.nodup_nil
    | some old => exact triggerNodes_nodup (oldDistinct old published)
  refine ⟨distinct, fun id member => ?_, fun newNode member kept => ?_, steady⟩
  · cases List.mem_append.1 member with
    | inl added => exact ((mem_toAdd oldNodup nodup).1 added).1
    | inr unregistered =>
      obtain ⟨node, member, same, -⟩ := mem_getTriggerNodeIds.1 (List.mem_filter.1 unregistered).1
      exact ⟨node, member, same⟩
  · have unchanged := not_not.1 fun changed => kept (List.mem_append_left _
      ((mem_toAdd oldNodup nodup).2 ⟨⟨newNode, member, rfl⟩, changed⟩))
    have spared : newNode.id ∉ (s.publishPlan setting record s.database.publishedVersion).toRemove := fun removed =>
      ((mem_toRemove oldNodup nodup).1 removed).2 unchanged
    obtain ⟨node, inOld, known, inNew, ids, ids', compared⟩ := unchanged
    rw [List.inj_on_of_nodup_map nodup inNew member ids'] at compared
    cases published : s.database.publishedVersion with
    | none =>
      rw [published] at inOld
      exact absurd inOld List.not_mem_nil
    | some old =>
      rw [published] at inOld
      refine ⟨old, rfl, node, inOld, ids, compared, ?_⟩
      rw [ids]
      exact published ▸ spared

def Stage.MayStore (setting : Setting) (published : Option String) (webhookData : WebhookData) : Stage → Prop
  | .invalidatingCache plan | .writingPublishedVersion plan => plan.LeavesWebhook setting webhookData
  | .idle | .resolvingVersions _ | .readingWebhooks _ | .beginningDeactivation _ | .deactivating _ _ _ _
  | .refreshingCache _ | .beginningActivation _ | .activating _ _ _ _ | .savingTriggerCount _ _
  | .updatingTriggerCount _ => ∃ version ∈ published, setting.Calls version webhookData

/-- The webhooks of a task are those of one node to be registered. Until a rollback has deleted
them those that it has registered are stored, and so is the one that is being created. -/
structure WebhookTask.Fits (setting : Setting) (plan : Plan) (webhooks : Webhooks) (task : WebhookTask) : Prop where
  node : ∃ node ∈ setting.triggerNodes plan.record, node.id = task.nodeId ∧ node.id ∈ plan.toAdd ∧
    ∀ webhookData ∈ task.registered ++ task.pending,
      webhookData.node = node.name ∧ webhookData.key ∈ setting.webhooksOf plan.record node
  stored : task.cleared = false → ∀ webhookData ∈ task.registered, Owns setting webhooks webhookData
  creating : task.attempt = .creating → ∀ webhookData ∈ task.pending.head?, Owns setting webhooks webhookData
  finished : task.attempt = .finished none → task.pending = [] ∧ task.cleared = false

structure WebhookTasks (setting : Setting) (plan : Plan) (webhooks : Webhooks) (rejected : Option ActivationError)
    (tasks : List WebhookTask) : Prop where
  distinct : (tasks.map WebhookTask.nodeId).Nodup
  fits : ∀ task ∈ tasks, task.Fits setting plan webhooks
  all : rejected = none → ∀ node ∈ setting.triggerNodes plan.record, node.id ∈ plan.toAdd →
    ∀ key ∈ setting.webhooksOf plan.record node, ∃ task ∈ tasks, { node := node.name, key } ∈ task.registered ++ task.pending

structure TriggerTasks (setting : Setting) (plan : Plan) (registered : List String)
    (rejected : Option ActivationError) (tasks : List TriggerTask) : Prop where
  planned : ∀ task ∈ tasks, task.nodeId ∈ plan.toAdd
  done : ∀ id, (∃ task ∈ tasks, task.nodeId = id) → (∀ task ∈ tasks, task.nodeId = id → task.result = some none) →
    id ∈ registered
  all : rejected = none → ∀ node ∈ setting.triggerNodes plan.record, IsTrigger setting.types node →
    node.id ∈ plan.toAdd → ∃ task ∈ tasks, task.nodeId = node.id

/-- What a record has still there, or has brought about. -/
def Stage.Progress (setting : Setting) (webhooks : Webhooks) (registered : List String) : Stage → Prop
  | .idle | .resolvingVersions _ => True
  | .readingWebhooks plan => plan.Diffs setting ∧ ∀ newNode ∈ setting.triggerNodes plan.record,
      newNode.id ∉ plan.toAdd → IsTrigger setting.types newNode → newNode.id ∈ registered
  | .beginningDeactivation plan | .invalidatingCache plan | .writingPublishedVersion plan =>
    plan.unpublishing = false → plan.Diffs setting ∧ plan.Kept setting webhooks registered
  | .deactivating plan phase closing _ =>
    (plan.unpublishing = false → plan.Diffs setting ∧ plan.Kept setting webhooks registered) ∧
      (∀ id ∈ closing, id ∈ plan.toRemove) ∧
      (phase matches .settled none → ∀ webhookData, Owns setting webhooks webhookData → plan.LeavesWebhook setting webhookData)
  | .refreshingCache plan | .beginningActivation plan =>
    plan.unpublishing = false ∧ plan.Diffs setting ∧ plan.Kept setting webhooks registered
  | .updatingTriggerCount plan => plan.toAdd = [] ∧ plan.unpublishing = false ∧ plan.Kept setting webhooks registered
  | .activating plan webhookTasks triggerTasks rejected =>
    (plan.Diffs setting ∧ plan.Kept setting webhooks registered) ∧
      WebhookTasks setting plan webhooks rejected webhookTasks ∧ TriggerTasks setting plan registered rejected triggerTasks
  | .savingTriggerCount plan outcome => outcome.failures = [] →
      ∀ node ∈ setting.triggerNodes plan.record, Present setting webhooks registered plan.record node

structure Complete (setting : Setting) (s : State) : Prop where
  within : Within setting (fun _ => False) s
  stored : ∀ webhookData, Owns setting s.database.webhooks webhookData →
    s.stage.MayStore setting s.database.publishedVersion webhookData
  progress : s.stage.Progress setting s.database.webhooks s.memory.registered

section

variable {s : State} {plan : Plan} {record : String}

section

variable (h : Complete setting s)
include h

theorem Complete.storedNow (webhookData : WebhookData)
    (owned : Owns setting s.database.webhooks webhookData) :
    ∃ version ∈ s.database.publishedVersion, setting.Calls version webhookData := by
  have stored := h.stored webhookData owned
  have planFits := h.within.stage
  revert stored planFits
  cases s.stage with
  | invalidatingCache plan => exact fun stored planFits => Plan.LeavesWebhook.published stored planFits.1
  | writingPublishedVersion plan => exact fun stored planFits => Plan.LeavesWebhook.published stored planFits.1
  | _ => exact fun stored _ => stored

theorem Complete.report (record : String) (result : PublicationResult) :
    Complete setting (s.report record result) := ⟨h.within.report record result, h.storedNow, trivial⟩

theorem Complete.throw (record : String) (error : ActivationError) :
    Complete setting (s.throw record error) := h.report record _

theorem Complete.resolved (stage : s.stage = .resolvingVersions record)
    (orderly : ∀ record ∈ s.publishes, setting.DistinctIds record ∧
      ∀ old ∈ s.database.publishedVersion, setting.Steady old record) :
    Complete setting (s.resolved setting record) := by
  have within := h.within.resolved stage fun record publishes => (orderly record publishes).1
  revert within
  rw [State.resolved]
  split
  case h_1 => exact fun _ => h.report record _
  case h_2 =>
    split
    case h_1 => exact fun _ => h.report record _
    case h_2 old published =>
      by_cases none : (State.unpublishPlan setting record old).toRemove.isEmpty = true
      · simp only [none, if_true]
        refine fun within => ⟨within, fun webhookData owned => ?_, fun never => by cases never⟩
        obtain ⟨version, isPublished, node, member, names, called⟩ := h.storedNow webhookData owned
        refine ⟨version, published.symm.trans isPublished, node, member, ?_, names, called⟩
        rw [List.isEmpty_iff.1 none]
        exact List.not_mem_nil
      · simp only [none]
        exact fun within => ⟨within, h.storedNow, fun never => by cases never⟩
  case h_3 _ _ active =>
    by_cases missing : record ∉ s.database.history
    · rw [if_pos missing]
      exact fun _ => h.report record _
    · rw [if_neg missing]
      have publishes : s.publishes = some record := by
        rw [State.publishes, stage, active]
        exact if_pos (not_not.1 missing)
      obtain ⟨distinct, steady⟩ := orderly record publishes
      refine fun within => ⟨within, h.storedNow, diffs_publishPlan distinct h.within.published steady, ?_⟩
      intro newNode member kept trigger
      by_contra missing
      refine kept (List.mem_append_right _ (List.mem_filter.2
        ⟨mem_getTriggerNodeIds.2 ⟨newNode, member, rfl, trigger⟩, decide_eq_true missing⟩))

end

theorem mem_nodesWithUnregisteredWebhooks {newNode : VersionNode} {key : WebhookKey}
    (member : newNode ∈ setting.triggerNodes record) (called : key ∈ setting.webhooksOf record newNode)
    (spared : newNode.id ∉ s.nodesWithUnregisteredWebhooks setting record) :
    ∃ name, Owns setting s.database.webhooks { node := name, key } := by
  have active := mem_activeNodes_of_trigger member
  by_contra missing
  refine spared (List.mem_map.2 ⟨{ node := newNode.name, key }, List.mem_filter.2
    ⟨mem_getWebhookTriggersForNodeIds.2 ⟨newNode, active, List.mem_map_of_mem member, rfl, called⟩, ?_⟩,
    webhookNodeId_eq active rfl⟩)
  refine decide_eq_true fun registered => missing ?_
  obtain ⟨⟨workflowId, name⟩, found⟩ := (OrderedMap.mem_keys_iff _ _).1 registered
  obtain ⟨row, own⟩ := (OrderedMap.get_filterValues_eq_some_iff _ _ _ _).1 found
  refine ⟨name, ?_⟩
  rw [Owns, row]
  exact congrArg _ (congrArg (WebhookEntity.mk · name) (of_decide_eq_true own))

theorem Complete.planned (h : Complete setting s) (stage : s.stage = .readingWebhooks plan) :
    Complete setting (s.planned setting plan) := by
  have planFits := h.within.stage
  have progress := h.progress
  rw [stage] at planFits progress
  obtain ⟨same, fits, publishing⟩ := planFits
  obtain ⟨diffs, running⟩ := progress
  have within := h.within.planned stage
  let complete : Plan := { plan with toAdd := plan.toAdd ++ s.nodesWithUnregisteredWebhooks setting plan.record }
  have kept : complete.Kept setting s.database.webhooks s.memory.registered := by
    intro newNode member spared
    have unplanned : newNode.id ∉ plan.toAdd := fun listed => spared (List.mem_append_left _ listed)
    refine ⟨fun key called => ?_, running newNode member unplanned⟩
    obtain ⟨name, owned⟩ := mem_nodesWithUnregisteredWebhooks member called fun listed =>
      spared (List.mem_append_right _ listed)
    obtain ⟨old, isOld, node, inOld, ids, compared, -⟩ := diffs.keeps newNode member unplanned
    obtain ⟨version, isPublished, other, inPublished, names, known⟩ := h.storedNow _ owned
    have sameVersion : version = old := by
      rw [← same, Option.mem_def.1 isOld] at isPublished
      exact (Option.some.inj isPublished).symm
    rw [sameVersion] at inPublished known
    have takesNone := (diffs.steady old isOld node inOld newNode member ids compared).2
    have nameIs : name = newNode.name :=
      names.trans ((takesNone key called other inPublished known).trans (compared_types compared).1)
    exact nameIs ▸ owned
  have diffs' : complete.Diffs setting := by
    refine ⟨diffs.distinct, fun id member => ?_, fun newNode member spared =>
      diffs.keeps newNode member fun listed => spared (List.mem_append_left _ listed), diffs.steady⟩
    cases List.mem_append.1 member with
    | inl listed => exact diffs.adds id listed
    | inr unregistered =>
      obtain ⟨webhookData, missing, same⟩ := List.mem_map.1 unregistered
      obtain ⟨node, active, listed, names, -⟩ :=
        mem_getWebhookTriggersForNodeIds.1 (List.mem_filter.1 missing).1
      rw [webhookNodeId_eq active names] at same
      rw [← same]
      exact List.mem_map.1 listed
  revert within
  rw [State.planned]
  by_cases removes : (!plan.toRemove.isEmpty && plan.oldVersion.isSome) = true
  · simp only [removes, if_true]
    exact fun within => ⟨within, h.storedNow, fun _ => ⟨diffs', kept⟩⟩
  · simp only [removes]
    refine fun within => ⟨within, fun webhookData owned => ?_, fun _ => ⟨diffs', kept⟩⟩
    obtain ⟨version, isPublished, node, member, names, called⟩ := h.storedNow webhookData owned
    have isOld : version ∈ plan.oldVersion := same ▸ isPublished
    rw [Option.mem_def.1 isOld] at removes
    have none : plan.toRemove = [] := by simpa using removes
    refine ⟨version, isOld, node, member, fun (removed : node.id ∈ plan.toRemove) => ?_, names, called⟩
    rw [none] at removed
    exact List.not_mem_nil removed

theorem Plan.Kept.of_removed {webhooks : Webhooks} {registered fewer : List String} (diffs : plan.Diffs setting)
    (kept : plan.Kept setting webhooks registered)
    (still : ∀ id, id ∉ plan.toRemove → id ∈ registered → id ∈ fewer) :
    plan.Kept setting webhooks fewer := by
  intro newNode member spared
  obtain ⟨old, isOld, node, inOld, ids, -, remains⟩ := diffs.keeps newNode member spared
  have present := kept newNode member spared
  exact ⟨present.rows, fun trigger => still _ (ids ▸ remains) (present.running trigger)⟩

theorem Complete.beginDeactivation (h : Complete setting s) (stage : s.stage = .beginningDeactivation plan) :
    Complete setting (s.beginDeactivation setting plan) := by
  have progress := h.progress
  rw [stage] at progress
  refine ⟨h.within.beginDeactivation stage, h.storedNow, fun publishing => ?_, fun id member => ?_, fun never => ?_⟩
  · obtain ⟨diffs, kept⟩ := progress publishing
    refine ⟨diffs, kept.of_removed diffs fun id remains registered => ?_⟩
    refine Memory.mem_removeTriggers.2 ⟨registered, fun listed => absurd ?_ remains⟩
    exact of_decide_eq_true (List.mem_filter.1 listed).2
  · exact of_decide_eq_true (List.mem_filter.1 (List.mem_filter.1 member).1).2
  · cases never

/-- What holds while the two parts of `deactivate` run, with the rows. -/
structure Undoing (setting : Setting) (s : State) (plan : Plan) (phase : WebhookPhase) (closing : List String)
    (rejected : Option ActivationError) : Prop where
  deactivating : Deactivating setting (fun _ => False) s plan closing rejected
  stored : ∀ webhookData, Owns setting s.database.webhooks webhookData →
    ∃ version ∈ s.database.publishedVersion, setting.Calls version webhookData
  kept : plan.unpublishing = false → plan.Diffs setting ∧ plan.Kept setting s.database.webhooks s.memory.registered
  closing : ∀ id ∈ closing, id ∈ plan.toRemove
  cleared : (phase matches .settled none) → ∀ webhookData, Owns setting s.database.webhooks webhookData →
    plan.LeavesWebhook setting webhookData

theorem Complete.undoing {phase : WebhookPhase} {closing : List String} {rejected : Option ActivationError}
    (h : Complete setting s) (stage : s.stage = .deactivating plan phase closing rejected) :
    Undoing setting s plan phase closing rejected := by
  have progress := h.progress
  rw [stage] at progress
  exact ⟨h.within.deactivating stage, h.storedNow, progress.1, progress.2.1, progress.2.2⟩

variable {closing : List String} {rejected : Option ActivationError}

theorem Undoing.settle {phase : WebhookPhase}
    (h : Undoing setting s plan phase closing rejected) :
    Complete setting (s.settleDeactivation plan phase closing rejected) := by
  have within := h.deactivating.settle phase
  revert within
  cases phase with
  | deregistering => exact fun within => ⟨within, h.stored, h.kept, h.closing, h.cleared⟩
  | clearing => exact fun within => ⟨within, h.stored, h.kept, h.closing, h.cleared⟩
  | settled error =>
    rw [State.settleDeactivation]
    by_cases wait : (rejected.isNone && !closing.isEmpty) = true
    · rw [if_pos wait]
      exact fun within => ⟨within, h.stored, h.kept, h.closing, h.cleared⟩
    · rw [if_neg wait]
      cases settled : error <|> rejected with
      | some error => exact fun within => ⟨within, h.stored, trivial⟩
      | none =>
        have resolved : error = none := by
          cases error with
          | none => rfl
          | some error => cases settled
        refine fun within => ⟨within, fun webhookData owned => ?_, h.kept⟩
        rw [resolved] at h
        exact h.cleared rfl webhookData owned

theorem Undoing.of_phase {phase phase' : WebhookPhase}
    (h : Undoing setting s plan phase closing rejected) (unsettled : ¬ (phase' matches .settled none)) :
    Undoing setting s plan phase' closing rejected :=
  ⟨h.deactivating, h.stored, h.kept, h.closing, fun settled => absurd settled unsettled⟩

theorem Undoing.clear {phase : WebhookPhase}
    (h : Undoing setting s plan phase closing rejected) :
    Undoing setting { s with database := { s.database with
      webhooks := deleteWorkflowWebhooksForNodes setting s.database.webhooks ((getWebhookTriggersForNodeIds setting.types
        (State.oldNodes setting plan) plan.toRemove).map WebhookData.node) } } plan (.settled none) closing rejected := by
  have ofOld : ∀ old ∈ plan.oldVersion, State.oldNodes setting plan = setting.version old := fun old isOld => by
    rw [State.oldNodes, Option.mem_def.1 isOld]
    rfl
  refine ⟨⟨h.deactivating.published, h.deactivating.stage, h.deactivating.registered⟩,
    fun webhookData owned => h.stored webhookData (owns_delete.1 owned).1, fun publishing => ?_, h.closing,
    fun _ webhookData owned => ?_⟩
  · obtain ⟨diffs, kept⟩ := h.kept publishing
    refine ⟨diffs, fun newNode member spared => ?_⟩
    have present := kept newNode member spared
    refine ⟨fun key called => owns_delete.2 ⟨present.rows key called, fun listed => ?_⟩, present.running⟩
    obtain ⟨old, isOld, node, inOld, -, compared, remains⟩ := diffs.keeps newNode member spared
    obtain ⟨webhookData, ofRemoved, names⟩ := List.mem_map.1 listed
    rw [ofOld old isOld] at ofRemoved
    obtain ⟨removed, active, isRemoved, names', -⟩ := mem_getWebhookTriggersForNodeIds.1 ofRemoved
    refine name_of_id_eq (mem_activeNodes_of_trigger inOld) active (fun same => remains (same ▸ isRemoved)) ?_
    exact (compared_types compared).1.trans (names.symm.trans names')
  · obtain ⟨before, unlisted⟩ := owns_delete.1 owned
    obtain ⟨version, isPublished, node, member, names, called⟩ := h.stored webhookData before
    have isOld : version ∈ plan.oldVersion := h.deactivating.stage.1 ▸ isPublished
    refine ⟨version, isOld, node, member, fun removed => unlisted ?_, names, called⟩
    rw [ofOld version isOld]
    exact List.mem_map_of_mem (mem_getWebhookTriggersForNodeIds.2
      ⟨node, mem_activeNodes_of_trigger member, removed, names, called⟩)

theorem Complete.webhookPhase (h : Complete setting s) (error : Option ActivationError) :
    Complete setting (s.webhookPhaseStep setting error) := by
  have within := h.within.webhookPhase error
  revert within
  rw [State.webhookPhaseStep]
  split
  case h_1 plan closing rejected stage =>
    have undoing := h.undoing stage
    cases error with
    | none =>
      have going : Undoing setting s plan .clearing closing rejected := undoing.of_phase (by simp)
      exact fun within => ⟨within, going.stored, going.kept, going.closing, going.cleared⟩
    | some error => exact fun _ => (undoing.of_phase (by simp)).settle
  case h_2 plan closing rejected stage =>
    have undoing := h.undoing stage
    cases error with
    | none => exact fun _ => undoing.clear.settle
    | some error => exact fun _ => (undoing.of_phase (by simp)).settle
  case h_3 => exact fun _ => h

theorem Complete.closed (h : Complete setting s) (index : Nat) (closed : Closed)
    (orderly : Orderly setting s (.closed index closed)) : Complete setting (s.closedStep index closed) := by
  rw [State.closedStep]
  split
  case h_1 plan phase closing rejected stage =>
    have undoing := h.undoing stage
    have fewer : ∀ id ∈ closing.eraseIdx index, id ∈ plan.toRemove := fun id member =>
      undoing.closing id (List.mem_of_mem_eraseIdx member)
    split
    case h_1 => exact h
    case h_2 id found =>
      refine Undoing.settle ⟨undoing.deactivating.close found, undoing.stored, fun publishing => ?_, fewer, undoing.cleared⟩
      obtain ⟨diffs, kept⟩ := undoing.kept publishing
      refine ⟨diffs, kept.of_removed diffs fun other remains registered => Memory.mem_delete.2 ⟨registered, fun same => ?_⟩⟩
      rw [same] at remains
      exact absurd (undoing.closing id (List.mem_of_getElem? found)) remains
    case h_3 id found =>
      rw [Orderly, stage] at orderly
      exact Undoing.settle ⟨undoing.deactivating.drop found (orderly id found), undoing.stored, undoing.kept, fewer,
        undoing.cleared⟩
    case h_4 error found =>
      exact Undoing.settle ⟨undoing.deactivating.reject _ error, undoing.stored, undoing.kept, fewer, undoing.cleared⟩
  case h_2 => exact h

variable {memory : Memory}

theorem Present.delete {webhooks : Webhooks} {id : String}
    (present : Present setting webhooks memory.registered version node)
    (apart : IsTrigger setting.types node → node.id ∈ memory.registered → node.id ∉ memory.crons → node.id ≠ id) :
    Present setting webhooks (memory.delete id).registered version node :=
  ⟨present.rows, fun trigger => Memory.mem_delete.2 ⟨present.running trigger, fun same => by_contra fun cron =>
    apart trigger (present.running trigger) cron same⟩⟩

theorem Complete.closedLate (h : Complete setting s) (index : Nat) (closed : Closed)
    (orderly : closed = .deleted → ∀ id ∈ s.memory.closing[index]?, id ∈ s.memory.registered → id ∉ s.memory.crons →
      ¬ s.stage.Counts setting id) : Complete setting (s.closedLateStep index closed) := by
  have within := h.within.closedLate index closed
  revert within
  unfold State.closedLateStep
  split
  case h_1 => exact fun _ => h
  case h_2 id found =>
    refine fun within => ⟨within, h.stored, ?_⟩
    have spare := orderly rfl id found
    have wanted : ∀ {version}, ∀ newNode ∈ setting.triggerNodes version, IsTrigger setting.types newNode →
        newNode.id ∈ setting.nonWebhookIds version := fun newNode member trigger =>
      mem_getTriggerNodeIds.2 ⟨newNode, member, rfl, trigger⟩
    have progress := h.progress
    have planFits := h.within.stage
    have tasks := h.within.registers
    revert spare progress planFits tasks
    -- a node that the record counts on and that runs is another one
    have keep : ∀ {plan : Plan} {stage : Stage},
        (id ∈ s.memory.registered → id ∉ s.memory.crons → ¬ stage.Counts setting id) →
        (∀ id, id ∈ setting.nonWebhookIds plan.record → id ∉ plan.toAdd → stage.Counts setting id) →
        plan.Kept setting s.database.webhooks s.memory.registered →
        plan.Kept setting s.database.webhooks (s.memory.delete id).registered :=
      fun spare counts kept newNode member unplanned => (kept newNode member unplanned).delete
        fun trigger registered cron same => spare (same ▸ registered) (same ▸ cron)
          (same ▸ counts _ (wanted newNode member trigger) unplanned)
    cases s.stage with
    | idle => exact fun _ _ _ _ => trivial
    | resolvingVersions record => exact fun _ _ _ _ => trivial
    | readingWebhooks plan =>
      intro spare progress planFits _
      obtain ⟨diffs, running⟩ := progress
      obtain ⟨-, -, publishing⟩ := planFits
      refine ⟨diffs, fun newNode member unplanned trigger => ?_⟩
      have registered := running newNode member unplanned trigger
      refine Memory.mem_delete.2 ⟨registered, fun (same : newNode.id = id) => by_contra fun cron => ?_⟩
      exact spare (same ▸ registered) (same ▸ cron) (same ▸ ⟨publishing, wanted newNode member trigger, unplanned⟩)
    | beginningDeactivation plan =>
      exact fun spare progress _ _ publishing => ⟨(progress publishing).1,
        keep spare (fun _ called unplanned => ⟨publishing, called, unplanned⟩) (progress publishing).2⟩
    | deactivating plan phase closing rejected =>
      exact fun spare progress _ _ => ⟨fun publishing => ⟨(progress.1 publishing).1,
        keep spare (fun _ called unplanned => ⟨publishing, called, unplanned⟩) (progress.1 publishing).2⟩, progress.2⟩
    | invalidatingCache plan =>
      exact fun spare progress _ _ publishing => ⟨(progress publishing).1,
        keep spare (fun _ called unplanned => ⟨publishing, called, unplanned⟩) (progress publishing).2⟩
    | writingPublishedVersion plan =>
      exact fun spare progress _ _ publishing => ⟨(progress publishing).1,
        keep spare (fun _ called unplanned => ⟨publishing, called, unplanned⟩) (progress publishing).2⟩
    | refreshingCache plan =>
      intro spare progress _ _
      obtain ⟨publishing, diffs, kept⟩ := progress
      exact ⟨publishing, diffs, keep spare (fun _ called unplanned => ⟨publishing, called, unplanned⟩) kept⟩
    | beginningActivation plan =>
      intro spare progress _ _
      obtain ⟨publishing, diffs, kept⟩ := progress
      exact ⟨publishing, diffs, keep spare (fun _ called unplanned => ⟨publishing, called, unplanned⟩) kept⟩
    | updatingTriggerCount plan =>
      intro spare progress _ _
      obtain ⟨none, publishing, kept⟩ := progress
      exact ⟨none, publishing, keep spare (fun _ called unplanned => ⟨publishing, called, unplanned⟩) kept⟩
    | activating plan webhookTasks triggerTasks rejected =>
      intro spare progress _ tasks
      obtain ⟨⟨diffs, kept⟩, webhooks, triggers⟩ := progress
      have counts : ∀ id, id ∈ setting.nonWebhookIds plan.record → id ∉ plan.toAdd →
          (Stage.activating plan webhookTasks triggerTasks rejected).Counts setting id := fun _ called unplanned =>
        ⟨called, fun planned => absurd planned unplanned, fun task member same =>
          absurd (same ▸ triggers.planned task member) unplanned⟩
      refine ⟨⟨diffs, keep spare counts kept⟩, webhooks, triggers.planned, fun other here done => ?_, triggers.all⟩
      have registered := triggers.done other here done
      refine Memory.mem_delete.2 ⟨registered, fun (same : other = id) => by_contra fun cron => ?_⟩
      refine spare (same ▸ registered) (same ▸ cron) ?_
      obtain ⟨task, member, ids⟩ := here
      exact ⟨same ▸ ids ▸ tasks task member, fun _ => ⟨task, member, ids.trans same⟩, same ▸ done⟩
    | savingTriggerCount plan outcome =>
      exact fun spare progress _ _ none newNode member => (progress none newNode member).delete
        fun trigger registered cron same => spare (same ▸ registered) (same ▸ cron) (same ▸ wanted newNode member trigger)
  case h_3 | h_4 =>
    exact fun within => ⟨within, h.stored, h.progress⟩

theorem Complete.writePublishedVersion (h : Complete setting s) (stage : s.stage = .writingPublishedVersion plan) :
    Complete setting (s.writePublishedVersion plan) := by
  have planFits := h.within.stage
  have stored := h.stored
  have progress := h.progress
  rw [stage] at planFits stored progress
  obtain ⟨-, fits⟩ := planFits
  have within := h.within.writePublishedVersion stage
  revert within
  rw [State.writePublishedVersion]
  cases unpublishing : plan.unpublishing with
  | true =>
    rw [if_pos rfl]
    exact fun within => ⟨within, fun webhookData owned =>
      absurd (stored webhookData owned) (fits.leaves_none unpublishing), trivial⟩
  | false =>
    rw [if_neg Bool.false_ne_true]
    by_cases missing : plan.record ∉ s.database.history
    · rw [if_pos missing]
      exact fun _ => h.throw _ _
    · rw [if_neg missing]
      obtain ⟨diffs, kept⟩ := progress unpublishing
      exact fun within => ⟨within, fun webhookData owned =>
        ⟨plan.record, rfl, diffs.leaves_new fits unpublishing (stored webhookData owned)⟩, unpublishing, diffs, kept⟩

theorem Complete.advanced (h : Complete setting s) (stage : s.stage = .refreshingCache plan) :
    Complete setting (s.advanced setting plan) := by
  have progress := h.progress
  rw [stage] at progress
  obtain ⟨publishing, diffs, kept⟩ := progress
  have within := h.within.advanced stage
  revert within
  rw [State.advanced]
  by_cases adds : (!plan.toAdd.isEmpty) = true
  · rw [if_pos adds]
    exact fun within => ⟨within, h.storedNow, publishing, diffs, kept⟩
  · rw [if_neg adds]
    have none : plan.toAdd = [] := by simpa using adds
    split
    case isTrue => exact fun within => ⟨within, h.storedNow, none, publishing, kept⟩
    case isFalse => exact fun _ => h.report _ _

def plannedWebhooks (setting : Setting) (plan : Plan) : List WebhookData :=
  (getWebhookTriggersForNodeIds setting.types (setting.version plan.record) plan.toAdd).filter fun webhookData =>
    webhookNodeId (setting.version plan.record) webhookData ≠ ""

theorem mem_plannedWebhooks {webhookData : WebhookData} (diffs : plan.Diffs setting) :
    webhookData ∈ plannedWebhooks setting plan ↔ ∃ node ∈ setting.triggerNodes plan.record, node.id ∈ plan.toAdd ∧
      webhookData.node = node.name ∧ webhookData.key ∈ setting.webhooksOf plan.record node := by
  rw [plannedWebhooks, List.mem_filter, mem_getWebhookTriggersForNodeIds]
  constructor
  · rintro ⟨⟨node, active, planned, names, called⟩, -⟩
    obtain ⟨known, member, same⟩ := diffs.adds node.id planned
    rw [← eq_of_id_eq diffs.distinct (mem_activeNodes_of_trigger member) active same] at planned names called
    exact ⟨known, member, planned, names, called⟩
  · rintro ⟨node, member, planned, names, called⟩
    have active := mem_activeNodes_of_trigger member
    refine ⟨⟨node, active, planned, names, called⟩, ?_⟩
    rw [webhookNodeId_eq active names, decide_eq_true_eq]
    intro empty
    exact diffs.distinct.2 (empty ▸ List.mem_map_of_mem active)

theorem mem_webhookTasks {task : WebhookTask} (member : task ∈ State.webhookTasks setting plan) :
    task.pending = (plannedWebhooks setting plan).filter
        (fun webhookData => webhookNodeId (setting.version plan.record) webhookData = task.nodeId) ∧
      task.pending ≠ [] ∧ task.registered = [] ∧ task.attempt = .storing := by
  obtain ⟨⟨id, pending⟩, entry, same⟩ := List.mem_map.1 member
  have found := (OrderedMap.get_eq_some_iff _ _ _).2 entry
  rw [OrderedMap.get_groupBy] at found
  split at found
  case isTrue => cases found
  case isFalse some =>
    rw [← same]
    exact ⟨(Option.some.inj found).symm, fun empty => some ((Option.some.inj found).trans empty), rfl, rfl⟩

theorem webhookTasks_begin (diffs : plan.Diffs setting) (webhooks : Webhooks) (rejected : Option ActivationError) :
    WebhookTasks setting plan webhooks rejected (State.webhookTasks setting plan) := by
  refine ⟨?_, fun task member => ?_, fun _ node inVersion planned key called => ?_⟩
  · rw [State.webhookTasks, List.map_map]
    exact OrderedMap.nodup _
  · obtain ⟨pending, some, registered, attempt⟩ := mem_webhookTasks member
    have ofNode : ∀ webhookData ∈ task.pending, ∃ node ∈ setting.triggerNodes plan.record, node.id = task.nodeId ∧
        node.id ∈ plan.toAdd ∧ webhookData.node = node.name ∧ webhookData.key ∈ setting.webhooksOf plan.record node := by
      intro webhookData listed
      rw [pending] at listed
      obtain ⟨isPlanned, ids⟩ := List.mem_filter.1 listed
      obtain ⟨node, inVersion, planned, names, called⟩ := (mem_plannedWebhooks diffs).1 isPlanned
      rw [webhookNodeId_eq (mem_activeNodes_of_trigger inVersion) names] at ids
      exact ⟨node, inVersion, of_decide_eq_true ids, planned, names, called⟩
    obtain ⟨first, rest, isFirst⟩ := List.exists_cons_of_ne_nil some
    obtain ⟨node, inVersion, same, planned, -⟩ := ofNode first (isFirst ▸ List.mem_cons_self)
    refine ⟨⟨node, inVersion, same, planned, fun webhookData listed => ?_⟩, fun _ webhookData never => ?_,
      fun creating => ?_, fun finished => ?_⟩
    · rw [registered, List.nil_append] at listed
      obtain ⟨other, inVersion', same', -, names, called⟩ := ofNode webhookData listed
      rw [eq_of_id_eq diffs.distinct (mem_activeNodes_of_trigger inVersion')
        (mem_activeNodes_of_trigger inVersion) (same'.trans same.symm)] at names called
      exact ⟨names, called⟩
    · rw [registered] at never
      exact absurd never List.not_mem_nil
    · simp [attempt] at creating
    · simp [attempt] at finished
  · have isPlanned : { node := node.name, key } ∈ plannedWebhooks setting plan :=
      (mem_plannedWebhooks diffs).2 ⟨node, inVersion, planned, rfl, called⟩
    have idIs : webhookNodeId (setting.version plan.record) { node := node.name, key } = node.id :=
      webhookNodeId_eq (mem_activeNodes_of_trigger inVersion) rfl
    have listed : { node := node.name, key } ∈ (plannedWebhooks setting plan).filter
        fun webhookData => webhookNodeId (setting.version plan.record) webhookData = node.id :=
      List.mem_filter.2 ⟨isPlanned, decide_eq_true idIs⟩
    have grouped : (OrderedMap.groupBy (webhookNodeId (setting.version plan.record)) (plannedWebhooks setting plan)).get
        node.id = some ((plannedWebhooks setting plan).filter
          fun webhookData => webhookNodeId (setting.version plan.record) webhookData = node.id) := by
      rw [OrderedMap.get_groupBy]
      exact if_neg (List.ne_nil_of_mem listed)
    exact ⟨_, List.mem_map_of_mem ((OrderedMap.get_eq_some_iff _ _ _).1 grouped), List.mem_append_right _ listed⟩

theorem Complete.activate (h : Complete setting s) (webhookError triggerError : Option ActivationError) :
    Complete setting (s.activateStep setting webhookError triggerError) := by
  have within := h.within.activate webhookError triggerError
  revert within
  rw [State.activateStep]
  split
  case h_1 plan stage =>
    have progress := h.progress
    rw [stage] at progress
    obtain ⟨-, diffs, kept⟩ := progress
    refine fun within => ⟨within, h.storedNow, ⟨diffs, kept⟩, ?_, fun task member => ?_, fun id here done => ?_,
      fun accepted node inVersion trigger planned => ?_⟩
    · cases webhookError with
      | none => exact webhookTasks_begin diffs _ _
      | some error => exact ⟨List.nodup_nil, fun _ never => absurd never List.not_mem_nil, fun never => by cases never⟩
    · split at member
      case isTrue => exact absurd member List.not_mem_nil
      case isFalse =>
        obtain ⟨id, wanted, same⟩ := List.mem_map.1 member
        rw [← same]
        exact of_decide_eq_true (List.mem_filter.1 wanted).2
    · obtain ⟨task, member, same⟩ := here
      have isDone := done task member same
      split at member
      case isTrue => exact absurd member List.not_mem_nil
      case isFalse =>
        obtain ⟨id, -, begun⟩ := List.mem_map.1 member
        simp [← begun] at isDone
    · cases triggerError with
      | some error => cases webhookError <;> cases accepted
      | none =>
        exact ⟨_, List.mem_map_of_mem (List.mem_filter.2 ⟨mem_getTriggerNodeIds.2 ⟨node, inVersion, rfl, trigger⟩,
          decide_eq_true planned⟩), rfl⟩
  case h_2 => exact fun _ => h

variable (setting) in
/-- A step of a task: it has nothing to do, stores the row, fails, has registered the webhook, or
rolls it back, at last by deleting the rows of its node. -/
theorem WebhookTask.step_cases (webhooks : Webhooks) (task : WebhookTask) (error : Option ActivationError) :
    task.step setting webhooks error = (webhooks, task) ∨
    ∃ webhookData rest, task.pending = webhookData :: rest ∧
      (task.step setting webhooks error = (webhooks.set webhookData.key
          { workflowId := setting.workflowId, node := webhookData.node }, { task with attempt := .creating }) ∨
        (∃ thrown, task.step setting webhooks error = (webhooks, task.failed webhookData.node thrown)) ∨
        (task.attempt = .creating ∧ error = none ∧
          task.step setting webhooks error = (webhooks, task.succeeded webhookData rest)) ∨
        (∃ thrown, task.step setting webhooks error = (webhooks, { task with attempt := .rollingBack thrown }) ∨
          task.step setting webhooks error = (webhooks, { task with attempt := .clearing thrown })) ∨
        ∃ thrown, task.attempt = .clearing thrown ∧ task.step setting webhooks error = (deleteWorkflowWebhooksForNodes setting webhooks [webhookData.node],
          { task with cleared := task.cleared || !task.registered.isEmpty }.failed webhookData.node thrown)) := by
  unfold WebhookTask.step
  split
  case h_1 => exact .inl rfl
  case h_2 webhookData rest pending =>
    split
    case h_1 =>
      refine .inr ⟨webhookData, rest, pending, ?_⟩
      split
      case h_1 stored ok => exact .inl (by rw [storeWebhook_ok ok])
      case h_2 taken _ => exact .inr (.inl ⟨taken, rfl⟩)
    case h_2 error _ => exact .inr ⟨webhookData, rest, pending, .inr (.inl ⟨error, rfl⟩)⟩
    case h_3 creating => exact .inr ⟨webhookData, rest, pending, .inr (.inr (.inl ⟨creating, rfl, rfl⟩))⟩
    case h_4 error _ => exact .inr ⟨webhookData, rest, pending, .inr (.inr (.inr (.inl ⟨error, .inl rfl⟩)))⟩
    case h_5 error _ => exact .inr ⟨webhookData, rest, pending, .inr (.inr (.inr (.inl ⟨error, .inr rfl⟩)))⟩
    case h_6 error clearing => exact .inr ⟨webhookData, rest, pending, .inr (.inr (.inr (.inr ⟨error, clearing, rfl⟩)))⟩
    case h_7 error _ _ => exact .inr ⟨webhookData, rest, pending, .inr (.inl ⟨error, rfl⟩)⟩
    case h_8 error _ _ => exact .inr ⟨webhookData, rest, pending, .inr (.inl ⟨error, rfl⟩)⟩
    case h_9 => exact .inl rfl

theorem WebhookTask.failed_same (task : WebhookTask) (nodeName : String) (error : ActivationError) :
    (task.failed nodeName error).nodeId = task.nodeId ∧ (task.failed nodeName error).registered = task.registered ∧
      (task.failed nodeName error).pending = task.pending ∧ (task.failed nodeName error).cleared = task.cleared ∧
      (task.failed nodeName error).attempt ≠ .creating ∧ (task.failed nodeName error).attempt ≠ .finished none := by
  simp only [WebhookTask.failed]
  split <;> simp

theorem WebhookTask.Fits.failed {webhooks : Webhooks} {task : WebhookTask} (fits : task.Fits setting plan webhooks)
    (nodeName : String) (error : ActivationError) : (task.failed nodeName error).Fits setting plan webhooks := by
  obtain ⟨nodeId, registered, pending, cleared, creating, finished⟩ := task.failed_same nodeName error
  refine ⟨?_, ?_, fun h => absurd h creating, fun h => absurd h finished⟩
  · rw [nodeId, registered, pending]
    exact fits.node
  · rw [registered, cleared]
    exact fits.stored

theorem WebhookTask.Fits.calls {webhooks : Webhooks} {task : WebhookTask} (fits : task.Fits setting plan webhooks)
    {webhookData : WebhookData} (member : webhookData ∈ task.registered ++ task.pending) :
    setting.Calls plan.record webhookData := by
  obtain ⟨node, inVersion, -, -, all⟩ := fits.node
  exact ⟨node, inVersion, all webhookData member⟩

variable {webhooks webhooks' : Webhooks}

theorem WebhookTask.Fits.of_rows {task : WebhookTask} (fits : task.Fits setting plan webhooks)
    (still : ∀ webhookData ∈ task.registered ++ task.pending, Owns setting webhooks webhookData →
      Owns setting webhooks' webhookData) : task.Fits setting plan webhooks' :=
  ⟨fits.node, fun uncleared webhookData member => still webhookData (List.mem_append_left _ member)
      (fits.stored uncleared webhookData member),
    fun creating webhookData first => still webhookData (List.mem_append_right _ (List.mem_of_mem_head? first))
      (fits.creating creating webhookData first), fits.finished⟩

theorem owns_set_of_calls {webhooks : Webhooks} {webhookData known : WebhookData} (distinct : setting.DistinctWebhooks version)
    (calls : setting.Calls version webhookData) (calls' : setting.Calls version known) (owned : Owns setting webhooks known) :
    Owns setting (webhooks.set webhookData.key { workflowId := setting.workflowId, node := webhookData.node }) known := by
  refine owns_set.2 ?_
  by_cases same : known.key = webhookData.key
  · exact .inl (calls'.eq distinct calls same)
  · exact .inr ⟨same, owned⟩

theorem WebhookTask.step_rows {webhooks : Webhooks} {task : WebhookTask} (distinct : setting.DistinctWebhooks plan.record)
    (fits : task.Fits setting plan webhooks) (error : Option ActivationError) :
    (∀ known, Owns setting (task.step setting webhooks error).1 known →
      Owns setting webhooks known ∨ setting.Calls plan.record known) ∧
    ∀ node ∈ setting.triggerNodes plan.record, node.id ≠ task.nodeId → ∀ known, known.node = node.name →
      setting.Calls plan.record known → Owns setting webhooks known →
        Owns setting (task.step setting webhooks error).1 known := by
  obtain same | ⟨webhookData, rest, pending, stored | ⟨_, same⟩ | ⟨-, -, same⟩ | ⟨_, same | same⟩ | ⟨_, -, cleared⟩⟩ :=
    WebhookTask.step_cases setting webhooks task error
  case inr.inl =>
    have calls := fits.calls (List.mem_append_right _ (pending ▸ List.mem_cons_self))
    rw [stored]
    refine ⟨fun known owned => ?_, fun node _ _ known _ calls' owned => owns_set_of_calls distinct calls calls' owned⟩
    cases owns_set.1 owned with
    | inl same => exact .inr (same ▸ calls)
    | inr old => exact .inl old.2
  case inr.inr.inr.inr.inr =>
    rw [cleared]
    refine ⟨fun known owned => .inl (owns_delete.1 owned).1, fun node member apart known names _ owned =>
      owns_delete.2 ⟨owned, fun listed => ?_⟩⟩
    obtain ⟨own, inVersion, ids, -, all⟩ := fits.node
    have ownName := (all webhookData (List.mem_append_right _ (pending ▸ List.mem_cons_self))).1
    refine name_of_id_eq (mem_activeNodes_of_trigger member) (mem_activeNodes_of_trigger inVersion)
      (fun same => apart (same.trans ids)) ?_
    rw [← names, ← ownName]
    exact List.mem_singleton.1 listed
  all_goals
    rw [same]
    exact ⟨fun _ owned => .inl owned, fun _ _ _ _ _ _ owned => owned⟩

theorem WebhookTask.Fits.succeeded {webhooks : Webhooks} {task : WebhookTask} {webhookData : WebhookData}
    {rest : List WebhookData} (fits : task.Fits setting plan webhooks) (pending : task.pending = webhookData :: rest)
    (creating : task.attempt = .creating) (orderly : rest = [] → task.cleared = false) :
    (task.succeeded webhookData rest).Fits setting plan webhooks := by
  have all : (task.registered ++ [webhookData]) ++ rest = task.registered ++ task.pending := by
    rw [pending, List.append_assoc, List.singleton_append]
  refine ⟨?_, fun uncleared known member => ?_, fun h => ?_, fun h => ?_⟩
  · rw [WebhookTask.succeeded]
    rw [all]
    exact fits.node
  · cases List.mem_append.1 member with
    | inl old => exact fits.stored uncleared known old
    | inr new =>
      rw [List.mem_singleton.1 new]
      exact fits.creating creating webhookData (by rw [pending, List.head?_cons]; rfl)
  · simp only [WebhookTask.succeeded] at h
    split at h <;> cases h
  · simp only [WebhookTask.succeeded] at h
    split at h
    case isTrue none =>
      have none := List.isEmpty_iff.1 none
      exact ⟨none, orderly none⟩
    case isFalse => cases h

theorem WebhookTask.Fits.of_attempt {webhooks : Webhooks} {task : WebhookTask} {attempt : Attempt}
    (fits : task.Fits setting plan webhooks) (unfinished : attempt ≠ .finished none) (notCreating : attempt ≠ .creating) :
    { task with attempt }.Fits setting plan webhooks :=
  ⟨fits.node, fits.stored, fun h => absurd h notCreating, fun h => absurd h unfinished⟩

theorem WebhookTask.step_fits {webhooks : Webhooks} {task : WebhookTask} (distinct : setting.DistinctWebhooks plan.record)
    (fits : task.Fits setting plan webhooks) (error : Option ActivationError)
    (orderly : error = none → task.attempt = .creating → task.pending.length = 1 → task.cleared = false) :
    (task.step setting webhooks error).2.Fits setting plan (task.step setting webhooks error).1 := by
  obtain same | ⟨webhookData, rest, pending, same | ⟨thrown, same⟩ | ⟨creating, completed, same⟩ |
      ⟨thrown, same | same⟩ | ⟨thrown, clearing, same⟩⟩ := WebhookTask.step_cases setting webhooks task error <;>
    rw [same]
  · exact fits
  · have calls := fits.calls (List.mem_append_right _ (pending ▸ List.mem_cons_self))
    refine ⟨fits.node, fun uncleared known member => ?_, fun _ known first => ?_, fun never => by cases never⟩
    · exact owns_set_of_calls distinct calls (fits.calls (List.mem_append_left _ member)) (fits.stored uncleared known member)
    · rw [pending, List.head?_cons, Option.mem_some_iff] at first
      exact owns_set.2 (.inl first.symm)
  · exact fits.failed _ _
  · refine fits.succeeded pending creating fun none => orderly completed creating ?_
    rw [pending, none, List.length_singleton]
  · exact fits.of_attempt (by simp) (by simp)
  · exact fits.of_attempt (by simp) (by simp)
  · have deleted : { task with cleared := task.cleared || !task.registered.isEmpty }.Fits setting plan
        (deleteWorkflowWebhooksForNodes setting webhooks [webhookData.node]) := by
      refine ⟨fits.node, fun uncleared known member => ?_, fun creating => ?_, fun finished => ?_⟩
      · have none : task.registered = [] := by
          rw [Bool.or_eq_false_iff, Bool.not_eq_false', List.isEmpty_iff] at uncleared
          exact uncleared.2
        rw [none] at member
        exact absurd member List.not_mem_nil
      · simp [clearing] at creating
      · simp [clearing] at finished
    exact deleted.failed _ _

variable (setting) in
theorem WebhookTask.step_same (webhooks : Webhooks) (task : WebhookTask) (error : Option ActivationError) :
    (task.step setting webhooks error).2.nodeId = task.nodeId ∧
      (task.step setting webhooks error).2.registered ++ (task.step setting webhooks error).2.pending =
        task.registered ++ task.pending := by
  obtain same | ⟨webhookData, rest, pending, same | ⟨thrown, same⟩ | ⟨-, -, same⟩ | ⟨thrown, same | same⟩ |
      ⟨thrown, -, same⟩⟩ := WebhookTask.step_cases setting webhooks task error <;> rw [same]
  case inr.inr.inl =>
    obtain ⟨nodeId, registered, waiting, -⟩ := task.failed_same webhookData.node thrown
    exact ⟨nodeId, by rw [registered, waiting]⟩
  case inr.inr.inr.inl =>
    refine ⟨rfl, ?_⟩
    rw [pending]
    exact List.append_assoc _ _ _
  case inr.inr.inr.inr.inr =>
    obtain ⟨nodeId, registered, waiting, -⟩ := WebhookTask.failed_same
      { task with cleared := task.cleared || !task.registered.isEmpty } webhookData.node thrown
    exact ⟨nodeId, by rw [registered, waiting]⟩
  all_goals exact ⟨rfl, rfl⟩

theorem Complete.webhookTask (h : Complete setting s) (distinct : ∀ version, setting.DistinctWebhooks version)
    (index : Nat) (error : Option ActivationError) (orderly : Orderly setting s (.webhookTask index error)) :
    Complete setting (s.webhookTaskStep setting index error) := by
  have within := h.within.webhookTask index error
  revert within
  rw [State.webhookTaskStep]
  split
  case h_1 plan webhookTasks triggerTasks rejected stage =>
    split
    case h_1 => exact fun _ => h
    case h_2 task found =>
      have planFits := h.within.stage
      have progress := h.progress
      rw [stage] at planFits progress
      obtain ⟨⟨diffs, kept⟩, tasks, triggers⟩ := progress
      have member := List.mem_of_getElem? found
      have fits := tasks.fits task member
      obtain ⟨added, spared⟩ := WebhookTask.step_rows (distinct plan.record) fits error
      obtain ⟨sameId, sameAll⟩ := task.step_same setting s.database.webhooks error
      have uncleared : error = none → task.attempt = .creating → task.pending.length = 1 → task.cleared = false := by
        intro completed
        rw [completed, Orderly, stage] at orderly
        exact orderly task found
      refine fun within => ⟨within, fun known owned => ?_, ⟨diffs, fun newNode inVersion unplanned => ?_⟩, ⟨?_, ?_, ?_⟩,
        triggers⟩
      · cases added known owned with
        | inl before => exact h.storedNow known before
        | inr called => exact ⟨plan.record, planFits, called⟩
      · have present := kept newNode inVersion unplanned
        obtain ⟨own, -, ids, planned, -⟩ := fits.node
        refine ⟨fun key called => spared newNode inVersion (fun same => ?_) _ rfl ⟨newNode, inVersion, rfl, called⟩
          (present.rows key called), present.running⟩
        rw [same, ← ids] at unplanned
        exact unplanned planned
      · rw [List.map_set, sameId]
        have same : (webhookTasks.map WebhookTask.nodeId)[index]? = some task.nodeId := by
          rw [List.getElem?_map, found, Option.map_some]
        obtain ⟨bound, here⟩ := List.getElem?_eq_some_iff.1 same
        rw [← here, List.set_getElem_self]
        exact tasks.distinct
      · intro other inTasks
        obtain ⟨place, known⟩ := List.mem_iff_getElem?.1 inTasks
        by_cases here : index = place
        · rw [← here, List.getElem?_set_self (List.getElem?_eq_some_iff.1 found).1] at known
          rw [← Option.some.inj known]
          exact WebhookTask.step_fits (distinct plan.record) fits error uncleared
        · rw [List.getElem?_set_ne here] at known
          have otherFits := tasks.fits other (List.mem_of_getElem? known)
          obtain ⟨otherNode, inVersion, ids, -, all⟩ := otherFits.node
          refine otherFits.of_rows fun webhookData listed owned => spared otherNode inVersion (fun same => here ?_)
            webhookData (all webhookData listed).1 (otherFits.calls listed) owned
          refine (List.getElem?_inj ?_ tasks.distinct).1 ?_
          · rw [List.length_map]
            exact (List.getElem?_eq_some_iff.1 found).1
          · rw [List.getElem?_map, List.getElem?_map, found, known, Option.map_some, Option.map_some, ← same, ids]
      · intro accepted node inVersion planned key called
        have before : SomeCall webhookTasks fun task => { node := node.name, key } ∈ task.registered ++ task.pending :=
          tasks.all accepted node inVersion planned key called
        refine (someCall_set found).2 (((someCall_iff found).1 before).imp_left fun listed => ?_)
        exact sameAll ▸ listed
  case h_2 => exact fun _ => h

theorem TriggerTask.step_other {task : TriggerTask} {reply : TriggerReply} {id : String}
    (before : id ∈ memory.registered) (other : id ≠ task.nodeId) : id ∈ (task.step memory reply).1.registered := by
  unfold TriggerTask.step
  split
  case h_1 => exact before
  case h_2 => exact Memory.mem_addTrigger.2 (.inl before)
  case h_3 => exact (Memory.mem_rollBack_of_ne other).2 before

theorem TriggerTask.step_done {task : TriggerTask} {reply : TriggerReply}
    (before : task.result = some none → task.nodeId ∈ memory.registered)
    (orderly : ∀ registration, reply = .started registration → task.result = none → registration.registers = false →
      task.nodeId ∈ memory.registered)
    (done : (task.step memory reply).2.result = some none) : task.nodeId ∈ (task.step memory reply).1.registered := by
  revert done
  unfold TriggerTask.step
  split
  case h_1 => exact before
  case h_2 registration running =>
    refine fun _ => Memory.mem_addTrigger.2 ?_
    cases registers : registration.registers with
    | true => exact .inr ⟨rfl, rfl⟩
    | false => exact .inl (orderly registration rfl running registers)
  case h_3 running =>
    rw [TriggerTask.failed]
    split
    case isTrue => exact fun never => by cases never
    case isFalse =>
      intro never
      dsimp only at never
      simp [running] at never

theorem mem_set_of_nodeId_ne {tasks : List TriggerTask} {index : Nat} {task task' other : TriggerTask}
    (found : tasks[index]? = some task) (member : other ∈ tasks) (apart : other.nodeId ≠ task.nodeId) :
    other ∈ tasks.set index task' := by
  obtain ⟨place, known⟩ := List.mem_iff_getElem?.1 member
  refine List.mem_of_getElem? (i := place) ?_
  rw [List.getElem?_set_ne fun same => apart ?_]
  · exact known
  · rw [same, known, Option.some.injEq] at found
    rw [found]

theorem TriggerTasks.step {tasks : List TriggerTask} {index : Nat}
    {task : TriggerTask} {reply : TriggerReply} (triggers : TriggerTasks setting plan memory.registered rejected tasks)
    (found : tasks[index]? = some task)
    (orderly : ∀ registration, reply = .started registration → task.result = none → registration.registers = false →
      task.nodeId ∈ memory.registered) :
    TriggerTasks setting plan (task.step memory reply).1.registered rejected (tasks.set index (task.step memory reply).2) := by
  have sameId := TriggerTask.step_nodeId memory task reply
  refine ⟨fun other inTasks => ?_, fun id here done => ?_, fun accepted node inVersion trigger planned => ?_⟩
  · cases List.mem_or_eq_of_mem_set inTasks with
    | inl old => exact triggers.planned other old
    | inr new =>
      rw [new, sameId]
      exact triggers.planned task (List.mem_of_getElem? found)
  · by_cases same : id = task.nodeId
    · have isDone := done _ (List.mem_of_getElem? (List.getElem?_set_self (List.getElem?_eq_some_iff.1 found).1))
        (sameId.trans same.symm)
      rw [same]
      refine TriggerTask.step_done (fun before => ?_) orderly isDone
      -- it had succeeded, and so had the other tasks of the node
      have unchanged : (task.step memory reply).2 = task := by
        unfold TriggerTask.step
        rw [before]
      rw [unchanged, same] at done
      have sameTasks : tasks.set index task = tasks := by
        obtain ⟨bound, known⟩ := List.getElem?_eq_some_iff.1 found
        rw [← known, List.set_getElem_self]
      rw [sameTasks] at done
      exact triggers.done _ ⟨task, List.mem_of_getElem? found, rfl⟩ done
    · refine TriggerTask.step_other (triggers.done id ?_ fun other inTasks ids => ?_) same
      · obtain ⟨other, inTasks, ids⟩ := here
        refine ⟨other, (List.mem_or_eq_of_mem_set inTasks).resolve_right fun new => same ?_, ids⟩
        rw [← ids, new, sameId]
      · exact done other (mem_set_of_nodeId_ne found inTasks (ids ▸ same)) ids
  · have before : SomeCall tasks fun task => task.nodeId = node.id := triggers.all accepted node inVersion trigger planned
    refine (someCall_set found).2 (((someCall_iff found).1 before).imp_left fun same => ?_)
    rw [sameId]
    exact same

theorem Complete.triggerTask (h : Complete setting s) (index : Nat) (reply : TriggerReply)
    (orderly : Orderly setting s (.triggerTask index reply)) :
    Complete setting (s.triggerTaskStep index reply) := by
  have within := h.within.triggerTask index reply
  revert within
  rw [State.triggerTaskStep]
  split
  case h_1 plan webhookTasks triggerTasks rejected stage =>
    split
    case h_1 => exact fun _ => h
    case h_2 task found =>
      have progress := h.progress
      rw [stage] at progress
      obtain ⟨⟨diffs, kept⟩, tasks, triggers⟩ := progress
      have starts : ∀ registration, reply = .started registration → task.result = none →
          registration.registers = false → task.nodeId ∈ s.memory.registered := by
        intro registration started
        rw [started, Orderly, stage] at orderly
        exact orderly task found
      refine fun within => ⟨within, h.storedNow, ⟨diffs, fun newNode inVersion unplanned => ?_⟩, tasks,
        triggers.step found starts⟩
      have present := kept newNode inVersion unplanned
      refine ⟨present.rows, fun trigger => TriggerTask.step_other (present.running trigger) fun same => unplanned ?_⟩
      exact same ▸ triggers.planned task (List.mem_of_getElem? found)
  case h_2 => exact fun _ => h

theorem failures_outcomeOf {τ : Type} {nodeId nodeName : τ → String} {error : τ → Option ActivationError} {tasks : List τ}
    (noneFailed : (outcomeOf nodeId nodeName error tasks).failures = []) : ∀ task ∈ tasks, error task = none := by
  intro task member
  have here := List.filterMap_eq_nil_iff.1 noneFailed task member
  exact Option.map_eq_none_iff.1 here

theorem failures_activationOutcome {nodes : Version} {webhookTasks : List WebhookTask} {triggerTasks : List TriggerTask}
    {webhooksFirst : Bool} (noneFailed : (activationOutcome nodes webhookTasks triggerTasks webhooksFirst).failures = []) :
    (∀ task ∈ webhookTasks, task.error = none) ∧ ∀ task ∈ triggerTasks, task.result.join = none := by
  cases webhooksFirst with
  | true =>
    obtain ⟨webhooks, triggers⟩ := List.append_eq_nil_iff.1 noneFailed
    exact ⟨failures_outcomeOf webhooks, failures_outcomeOf triggers⟩
  | false =>
    obtain ⟨triggers, webhooks⟩ := List.append_eq_nil_iff.1 noneFailed
    exact ⟨failures_outcomeOf webhooks, failures_outcomeOf triggers⟩

theorem WebhookTask.finished_of_settled {task : WebhookTask} (settled : task.settled = true) (error : task.error = none) :
    task.attempt = .finished none := by
  rw [WebhookTask.settled] at settled
  rw [WebhookTask.error] at error
  cases attempt : task.attempt with
  | finished result =>
    rw [attempt] at error
    exact congrArg _ error
  | _ =>
    simp [attempt] at settled

theorem Complete.settle (h : Complete setting s) (webhooksFirst : Bool) :
    Complete setting (s.settleStep setting webhooksFirst) := by
  have within := h.within.settle webhooksFirst
  revert within
  rw [State.settleStep]
  split
  case h_1 plan webhookTasks triggerTasks rejected stage =>
    split
    case isTrue => exact fun _ => h
    case isFalse settled =>
      rw [Bool.not_eq_true', Bool.not_eq_false, Bool.and_eq_true, List.all_eq_true, List.all_eq_true] at settled
      split
      case h_1 => exact fun _ => h.report _ _
      case h_2 =>
        have progress := h.progress
        rw [stage] at progress
        obtain ⟨⟨diffs, kept⟩, tasks, triggers⟩ := progress
        refine fun within => ⟨within, h.storedNow, fun noneFailed node inVersion => ?_⟩
        obtain ⟨webhooksDone, triggersDone⟩ := failures_activationOutcome noneFailed
        by_cases planned : node.id ∈ plan.toAdd
        · refine ⟨fun key called => ?_, fun trigger => ?_⟩
          · obtain ⟨task, member, listed⟩ := tasks.all rfl node inVersion planned key called
            have fits := tasks.fits task member
            obtain ⟨done, uncleared⟩ := fits.finished
              (WebhookTask.finished_of_settled (settled.1 task member) (webhooksDone task member))
            rw [done, List.append_nil] at listed
            exact fits.stored uncleared _ listed
          · refine triggers.done node.id (triggers.all rfl node inVersion trigger planned) fun task member _ => ?_
            obtain ⟨result, isDone⟩ := Option.isSome_iff_exists.1 (settled.2 task member)
            have succeeded := triggersDone task member
            rw [isDone, Option.join_some] at succeeded
            exact isDone.trans (congrArg some succeeded)
        · exact kept node inVersion planned
  case h_2 => exact fun _ => h

theorem Complete.proceed (h : Complete setting s) (error : Option ActivationError)
    (orderly : error = none → ∀ record ∈ s.publishes, setting.DistinctIds record ∧
      ∀ old ∈ s.database.publishedVersion, setting.Steady old record) :
    Complete setting (s.proceedStep setting error) := by
  have within := h.within.proceed error fun completed record publishes => (orderly completed record publishes).1
  revert within
  unfold State.proceedStep
  split
  case h_1 stage => exact fun _ => h.resolved stage (orderly rfl)
  case h_2 stage => exact fun _ => h.planned stage
  case h_3 stage => exact fun _ => h.beginDeactivation stage
  case h_4 stage =>
    have stored := h.stored
    have progress := h.progress
    rw [stage] at stored progress
    exact fun within => ⟨within, stored, progress⟩
  case h_5 stage => exact fun _ => h.writePublishedVersion stage
  case h_6 stage => exact fun _ => h.advanced stage
  case h_7 | h_8 => exact fun _ => h.report _ _
  case h_9 | h_10 | h_11 | h_12 | h_13 | h_14 => exact fun _ => h.throw _ _
  case h_15 | h_16 | h_17 => exact fun _ => h.report _ _
  all_goals exact fun _ => h

theorem Complete.claim (h : Complete setting s) (record : String) : Complete setting (s.claimStep record) := by
  have within := h.within.claim record
  revert within
  rw [State.claimStep]
  split
  case h_1 => exact fun within => ⟨within, h.storedNow, trivial⟩
  case h_2 => exact fun _ => h

theorem Complete.crashed (h : Complete setting s) : Complete setting s.crashed :=
  ⟨h.within.crashed, h.storedNow, trivial⟩

theorem owns_environmentStep (event : Event) (webhookData : WebhookData) :
    Owns setting (s.environmentStep setting event).database.webhooks webhookData ↔
      Owns setting s.database.webhooks webhookData := by
  cases event with
  | workflow row => rfl
  | versionSaved version => rfl
  | versionDeleted version => rw [State.environmentStep]; split <;> rfl
  | webhookStored key row =>
    rw [State.environmentStep]
    split
    case isTrue => rfl
    case isFalse untaken =>
      rw [not_or, Bool.not_eq_true, OrderedMap.contains, Option.isSome_eq_false_iff, Option.isNone_iff_eq_none] at untaken
      rw [Owns, Owns, OrderedMap.get_set]
      by_cases same : webhookData.key = key
      · rw [if_pos same, same, untaken.2, Option.some.injEq]
        refine iff_of_false (fun owned => untaken.1 ?_) (by simp)
        rw [owned]
      · rw [if_neg same]
  | webhookDeleted key =>
    rw [State.environmentStep]
    split
    case h_1 => rfl
    case h_2 row found =>
      split
      case isTrue => rfl
      case isFalse foreign =>
        rw [Owns, Owns, OrderedMap.get_delete]
        by_cases same : webhookData.key = key
        · rw [if_pos same, same, found, Option.some.injEq]
          refine iff_of_false (by simp) fun owned => foreign ?_
          rw [owned]
        · rw [if_neg same]

variable {registered : List String}

theorem Present.of_rows
    (present : Present setting webhooks registered version node)
    (same : ∀ webhookData, Owns setting webhooks' webhookData ↔ Owns setting webhooks webhookData) :
    Present setting webhooks' registered version node :=
  ⟨fun key called => (same _).2 (present.rows key called), present.running⟩

theorem Plan.Kept.of_rows
    (kept : plan.Kept setting webhooks registered)
    (same : ∀ webhookData, Owns setting webhooks' webhookData ↔ Owns setting webhooks webhookData) :
    plan.Kept setting webhooks' registered := fun newNode member unplanned =>
  (kept newNode member unplanned).of_rows same

theorem Stage.Progress.of_rows {stage : Stage}
    (progress : stage.Progress setting webhooks registered)
    (same : ∀ webhookData, Owns setting webhooks' webhookData ↔ Owns setting webhooks webhookData) :
    stage.Progress setting webhooks' registered := by
  cases stage with
  | idle => trivial
  | resolvingVersions record => trivial
  | readingWebhooks plan => exact progress
  | beginningDeactivation plan => exact fun publishing => (progress publishing).imp_right (·.of_rows same)
  | invalidatingCache plan => exact fun publishing => (progress publishing).imp_right (·.of_rows same)
  | writingPublishedVersion plan => exact fun publishing => (progress publishing).imp_right (·.of_rows same)
  | deactivating plan phase closing rejected =>
    exact ⟨fun publishing => (progress.1 publishing).imp_right (·.of_rows same), progress.2.1,
      fun settled webhookData owned => progress.2.2 settled webhookData ((same webhookData).1 owned)⟩
  | refreshingCache plan => exact ⟨progress.1, progress.2.1, progress.2.2.of_rows same⟩
  | beginningActivation plan => exact ⟨progress.1, progress.2.1, progress.2.2.of_rows same⟩
  | updatingTriggerCount plan => exact ⟨progress.1, progress.2.1, progress.2.2.of_rows same⟩
  | activating plan webhookTasks triggerTasks rejected =>
    obtain ⟨⟨diffs, kept⟩, tasks, triggers⟩ := progress
    exact ⟨⟨diffs, kept.of_rows same⟩, ⟨tasks.distinct, fun task member =>
      (tasks.fits task member).of_rows fun webhookData _ owned => (same webhookData).2 owned, tasks.all⟩, triggers⟩
  | savingTriggerCount plan outcome =>
    exact fun noneFailed newNode member => (progress noneFailed newNode member).of_rows same

theorem Complete.environment (h : Complete setting s) (event : Event) :
    Complete setting (s.environmentStep setting event) := by
  obtain ⟨database, memory, stage, -⟩ := environmentStep_same setting s event
  refine ⟨h.within.of_same database memory stage, fun webhookData owned => ?_, ?_⟩
  · rw [database, stage]
    exact h.stored webhookData ((owns_environmentStep event webhookData).1 owned)
  · rw [memory, stage]
    exact h.progress.of_rows (owns_environmentStep event)

theorem Complete.next (h : Complete setting s) (distinct : ∀ version, setting.DistinctWebhooks version) (action : Action)
    (orderly : Orderly setting s action) : Complete setting (s.next setting action) := by
  have h' : Complete setting { s with reported := none } :=
    ⟨⟨h.within.published, h.within.stage, h.within.registered, h.within.registers⟩, h.stored, h.progress⟩
  rw [State.next]
  cases action with
  | claim record => exact h'.claim record
  | proceed error =>
    refine h'.proceed error fun completed => ?_
    rw [completed] at orderly
    exact orderly
  | webhookPhase error => exact h'.webhookPhase error
  | closed index closed => exact h'.closed index closed orderly
  | closedLate index closed =>
    refine h'.closedLate index closed fun completed => ?_
    rw [completed] at orderly
    exact orderly
  | activate webhookError triggerError => exact h'.activate webhookError triggerError
  | webhookTask index error => exact h'.webhookTask distinct index error orderly
  | triggerTask index reply => exact h'.triggerTask index reply orderly
  | settle webhooksFirst => exact h'.settle webhooksFirst
  | crash => exact h'.crashed
  | environment event => exact h'.environment event

theorem Complete.reconciled (h : Complete setting s) (published : s.database.publishedVersion = some record)
    (present : ∀ node ∈ setting.triggerNodes record, Present setting s.database.webhooks s.memory.registered record node)
    (result : PublicationResult) : Reconciled setting (s.report record result) := by
  intro record' triggerStatuses reported
  obtain ⟨same, -⟩ := Prod.mk.inj (Option.some.inj reported)
  rw [← same]
  refine ⟨published, fun key name => ⟨fun owned => ?_, fun calls => ?_⟩, fun id => ⟨fun registered => ?_, fun wanted => ?_⟩⟩
  · obtain ⟨version, isPublished, calls⟩ := h.storedNow { node := name, key } owned
    rw [published] at isPublished
    exact Option.some.inj isPublished ▸ calls
  · obtain ⟨node, member, names, called⟩ := calls
    rw [show name = node.name from names]
    exact (present node member).rows key called
  · obtain ⟨version, isPublished, wanted⟩ := (h.within.running id registered).resolve_right not_false
    rw [published] at isPublished
    exact Option.some.inj isPublished ▸ wanted
  · obtain ⟨node, member, same, trigger⟩ := mem_getTriggerNodeIds.1 wanted
    rw [← same]
    exact (present node member).running trigger

theorem reconciled_of_other (other : ∀ record triggerStatuses, s.reported ≠ some (record, .completed triggerStatuses)) :
    Reconciled setting s := fun record triggerStatuses reported => absurd reported (other record triggerStatuses)

theorem present_of_kept {webhooks : Webhooks} (kept : plan.Kept setting webhooks registered)
    (none : plan.toAdd = []) : ∀ node ∈ setting.triggerNodes plan.record,
      Present setting webhooks registered plan.record node := fun node member =>
  kept node member (none ▸ List.not_mem_nil)

theorem reconciled_silent (silent : s.reported = none) : Reconciled setting s :=
  reconciled_of_other fun _ _ => by simp [silent]

theorem reconciled_report {result : PublicationResult} (other : ∀ triggerStatuses, result ≠ .completed triggerStatuses) :
    Reconciled setting (s.report record result) :=
  reconciled_of_other fun _ triggerStatuses reported =>
    other triggerStatuses (Prod.mk.inj (Option.some.inj reported)).2

theorem reconciled_settleDeactivation {phase : WebhookPhase}
    (silent : s.reported = none) : Reconciled setting (s.settleDeactivation plan phase closing rejected) := by
  unfold State.settleDeactivation
  split
  case h_1 =>
    split
    case isTrue => exact reconciled_silent silent
    case isFalse =>
      split
      case h_1 => exact reconciled_silent silent
      case h_2 => exact reconciled_report (by simp)
  case h_2 | h_3 => exact reconciled_silent silent

theorem Complete.reconciled_proceed (h : Complete setting s) (silent : s.reported = none) (error : Option ActivationError) :
    Reconciled setting (s.proceedStep setting error) := by
  have progress := h.progress
  have planFits := h.within.stage
  revert progress planFits
  unfold State.proceedStep
  split
  case h_1 =>
    intro _ _
    rw [State.resolved]
    split
    case h_1 => exact reconciled_report (by simp)
    case h_2 =>
      split
      case h_1 => exact reconciled_report (by simp)
      case h_2 => exact reconciled_silent silent
    case h_3 =>
      split
      case isTrue => exact reconciled_report (by simp)
      case isFalse => exact reconciled_silent silent
  case h_5 =>
    intro _ _
    rw [State.writePublishedVersion]
    split
    case isTrue => exact reconciled_report (by simp)
    case isFalse =>
      split
      case isTrue => exact reconciled_report (by simp)
      case isFalse => exact reconciled_silent silent
  case h_6 plan stage =>
    rw [stage]
    intro progress published
    rw [State.advanced]
    split
    case isTrue => exact reconciled_silent silent
    case isFalse adds =>
      split
      case isTrue => exact reconciled_silent silent
      case isFalse =>
        exact h.reconciled published (present_of_kept progress.2.2 (by simpa using adds)) _
  case h_7 plan outcome stage =>
    rw [stage]
    intro progress published
    rw [classifyActivationOutcome]
    split
    case isTrue noneFailed => exact h.reconciled published (progress (List.isEmpty_iff.1 noneFailed)) _
    case isFalse => split <;> exact reconciled_report (by simp)
  case h_8 plan stage =>
    rw [stage]
    exact fun progress published => h.reconciled published (present_of_kept progress.2.2 progress.1) _
  case h_9 | h_10 | h_11 | h_12 | h_13 | h_14 | h_15 | h_16 | h_17 => exact fun _ _ => reconciled_report (by simp)
  all_goals exact fun _ _ => reconciled_silent silent

theorem Complete.reconciled_next (h : Complete setting s) (action : Action) :
    Reconciled setting (s.next setting action) := by
  have h' : Complete setting { s with reported := none } :=
    ⟨⟨h.within.published, h.within.stage, h.within.registered, h.within.registers⟩, h.stored, h.progress⟩
  rw [State.next]
  generalize silently : { s with reported := none } = s' at h'
  have silent : s'.reported = none := by rw [← silently]
  cases action with
  | claim record =>
    show Reconciled setting (s'.claimStep record)
    rw [State.claimStep]
    split <;> exact reconciled_silent silent
  | proceed error => exact h'.reconciled_proceed silent error
  | webhookPhase error =>
    show Reconciled setting (s'.webhookPhaseStep setting error)
    rw [State.webhookPhaseStep]
    split
    case h_1 =>
      split
      case h_1 => exact reconciled_silent silent
      case h_2 => exact reconciled_settleDeactivation silent
    case h_2 => split <;> exact reconciled_settleDeactivation silent
    case h_3 => exact reconciled_silent silent
  | closed index closed =>
    show Reconciled setting (s'.closedStep index closed)
    rw [State.closedStep]
    split
    case h_1 =>
      split
      case h_1 => exact reconciled_silent silent
      case h_2 | h_3 | h_4 => exact reconciled_settleDeactivation silent
    case h_2 => exact reconciled_silent silent
  | closedLate index closed =>
    show Reconciled setting (s'.closedLateStep index closed)
    unfold State.closedLateStep
    split <;> exact reconciled_silent silent
  | activate webhookError triggerError =>
    show Reconciled setting (s'.activateStep setting webhookError triggerError)
    rw [State.activateStep]
    split <;> exact reconciled_silent silent
  | webhookTask index error =>
    show Reconciled setting (s'.webhookTaskStep setting index error)
    rw [State.webhookTaskStep]
    split
    case h_1 => split <;> exact reconciled_silent silent
    case h_2 => exact reconciled_silent silent
  | triggerTask index reply =>
    show Reconciled setting (s'.triggerTaskStep index reply)
    rw [State.triggerTaskStep]
    split
    case h_1 => split <;> exact reconciled_silent silent
    case h_2 => exact reconciled_silent silent
  | settle webhooksFirst =>
    show Reconciled setting (s'.settleStep setting webhooksFirst)
    rw [State.settleStep]
    split
    case h_1 =>
      split
      case isTrue => exact reconciled_silent silent
      case isFalse =>
        split
        case h_1 => exact reconciled_report (by simp)
        case h_2 => exact reconciled_silent silent
    case h_2 => exact reconciled_silent silent
  | crash => exact reconciled_silent silent
  | environment event => exact reconciled_silent ((environmentStep_same setting s' event).2.2.2.trans silent)

end

theorem complete_initial : Complete setting {} where
  within := ⟨fun _ never => absurd never (Option.not_mem_none _), trivial, fun _ never => absurd never List.not_mem_nil,
    trivial⟩
  stored _ never := by cases never
  progress := trivial

/-- In every run whose steps are orderly, crashes and failed records among them, whatever is
reported as completed is reconciled. -/
theorem reconciled_run (distinct : ∀ version, setting.DistinctWebhooks version) (actions : List Action)
    (orderly : Along (State.next setting) (Orderly setting) {} actions) :
    Along (State.next setting) (fun s action => Reconciled setting (s.next setting action)) {} actions :=
  along_of_invariant (I := Complete setting) (W := Orderly setting)
    (fun _ action h allowed => ⟨h.reconciled_next action, h.next distinct action allowed⟩) complete_initial orderly

/-- A trigger with two webhooks and a schedule, whose interval the second version changes. -/
def facebookSetting : Setting where
  workflowId := "w"
  types :=
    { getByNameAndVersion := fun type _ =>
        if type = "facebookTrigger" then some { webhook := true }
        else if type = "scheduleTrigger" then some { trigger := true }
        else none
      nodeWebhooks := fun _ node =>
        if node.type = "facebookTrigger" then [⟨"GET", node.id⟩, ⟨"POST", node.id⟩] else [] }
  version id :=
    if id = "v1" then
      [{ name := "Facebook", type := "facebookTrigger", id := "f" },
        { name := "Schedule", type := "scheduleTrigger", id := "s" }]
    else if id = "v2" then
      [{ name := "Facebook", type := "facebookTrigger", id := "f" },
        { name := "Schedule", type := "scheduleTrigger", parameters := .object [("minutes", .number 5)], id := "s" }]
    else []

theorem facebookSetting_distinct (version : String) : facebookSetting.DistinctWebhooks version := by
  rw [Setting.DistinctWebhooks]
  simp only [facebookSetting]
  split
  case isTrue => decide
  case isFalse => split <;> decide

/-- The first record is stopped by a crash when one of the two webhooks is registered, and is
claimed again; the second record replaces the schedule. -/
def crashedRun : List Action :=
  [.environment (.versionSaved "v1"), .environment (.versionSaved "v2"), .environment (.workflow (some (some "v1"))),
    .claim "v1", .proceed none, .proceed none, .proceed none, .proceed none, .proceed none, .activate none none,
    .webhookTask 0 none, .webhookTask 0 none, .crash,
    .claim "v1", .proceed none, .proceed none, .proceed none, .proceed none, .proceed none, .activate none none,
    .webhookTask 0 none, .webhookTask 0 none, .webhookTask 0 none, .triggerTask 0 (.started ⟨some true, true⟩),
    .webhookTask 0 none, .settle true, .proceed none,
    .claim "v2", .proceed none, .proceed none, .proceed none, .webhookPhase none, .closed 0 .deleted, .webhookPhase none,
    .proceed none, .proceed none, .proceed none, .activate none none, .triggerTask 0 (.started ⟨some true, true⟩),
    .settle true, .proceed none]

theorem reconciled_crashedRun :
    Along (State.next facebookSetting) (fun s action => Reconciled facebookSetting (s.next facebookSetting action)) {}
      crashedRun := reconciled_run facebookSetting_distinct crashedRun (by decide)

/-- The second webhook of a node is created by the second attempt. The rollback of the first one
has deleted the row of the first webhook, too. -/
def retriedRun : List Action :=
  [.environment (.versionSaved "v1"), .environment (.workflow (some (some "v1"))),
    .claim "v1", .proceed none, .proceed none, .proceed none, .proceed none, .proceed none, .activate none none,
    .webhookTask 0 none, .webhookTask 0 none, .webhookTask 0 none, .webhookTask 0 (some { message := "Bad gateway" }),
    .webhookTask 0 none, .webhookTask 0 none, .webhookTask 0 none, .webhookTask 0 none,
    .triggerTask 0 (.started ⟨some true, true⟩), .settle true]

/-- The record is reported as completed, and a webhook is missing. -/
theorem not_reconciled_retriedRun : ∃ setting actions, (∀ version, setting.DistinctWebhooks version) ∧
    ¬ Along (State.next setting) (fun s action => Reconciled setting (s.next setting action)) {} actions := by
  refine ⟨facebookSetting, retriedRun ++ [.proceed none], facebookSetting_distinct, fun along => ?_⟩
  have reported : ((after (State.next facebookSetting) {} retriedRun).next facebookSetting (.proceed none)).reported =
      some ("v1", .completed [⟨"f", "Facebook", none⟩, ⟨"s", "Schedule", none⟩]) := by decide
  have missing : ((after (State.next facebookSetting) {} retriedRun).next facebookSetting
      (.proceed none)).database.webhooks.get ⟨"GET", "f"⟩ = none := by decide
  obtain ⟨-, rows, -⟩ := along.here "v1" _ reported
  have stored := (rows ⟨"GET", "f"⟩ "Facebook").2 (by decide)
  simp [missing] at stored

end NodeAutomation.WorkflowPublication
