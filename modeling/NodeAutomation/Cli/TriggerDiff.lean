import NodeAutomation.Workflow.AdditiveMerge

/-! The triggers of a version of a workflow, and how they differ between two versions
(`packages/cli/src/workflows/publication/trigger-diff.ts`, with the queries of
`workflow-trigger-activator.ts`, `packages/workflow/src/workflow.ts` and
`packages/cli/src/webhooks/webhook-helpers.ts`). -/

namespace NodeAutomation.WorkflowPublication

open WorkflowDiff

structure VersionNode extends INode where
  id : String
  webhookId : Option String := none
  credentials : Option JsValue := none
  deriving DecidableEq

/-- `nodes` of a `WorkflowTriggerVersion`. -/
abbrev Version := List VersionNode

structure WebhookKey where
  method : String
  webhookPath : String
  deriving DecidableEq

structure WebhookData where
  node : String
  key : WebhookKey
  deriving DecidableEq

structure INodeType where
  trigger : Bool := false
  poll : Bool := false
  webhook : Bool := false

/-- The webhooks of a node come from the expressions of its type's webhook descriptions, which
may read the whole version. -/
structure NodeTypes where
  getByNameAndVersion : String → Nat → Option INodeType
  nodeWebhooks : Version → VersionNode → List WebhookKey

/-- `Object.values(workflow.nodes)`: of the nodes of one name, the last. -/
def workflowNodes (version : Version) : List VersionNode :=
  (OrderedMap.ofList (version.map fun node => (node.name, node))).values

def queryNodes (types : NodeTypes) (version : Version) (checkFunction : INodeType → Bool) : List VersionNode :=
  (workflowNodes version).filter fun node => !node.disabled &&
    (types.getByNameAndVersion node.type node.typeVersion).any checkFunction

def getEnabledTriggerNodes (types : NodeTypes) (version : Version) : List VersionNode :=
  queryNodes types version fun nodeType => nodeType.trigger || nodeType.poll || nodeType.webhook

def getTriggerNodeIds (types : NodeTypes) (version : Version) : List String :=
  (queryNodes types version INodeType.trigger ++ queryNodes types version INodeType.poll).map VersionNode.id

def getNode (version : Version) (name : String) : Option VersionNode :=
  (OrderedMap.ofList (version.map fun node => (node.name, node))).get name

def getNodeWebhooks (types : NodeTypes) (version : Version) (node : VersionNode) : List WebhookData :=
  if node.disabled then [] else (types.nodeWebhooks version node).map fun key => { node := node.name, key }

def getWorkflowWebhooks (types : NodeTypes) (version : Version) : List WebhookData :=
  (workflowNodes version).flatMap (getNodeWebhooks types version)

/-- `workflow.getNode(webhookData.node)?.id ?? ''`. -/
def webhookNodeId (version : Version) (webhookData : WebhookData) : String :=
  ((getNode version webhookData.node).map VersionNode.id).getD ""

def getWebhookTriggersForNodeIds (types : NodeTypes) (version : Version) (nodeIds : List String) :
    List WebhookData :=
  (getWorkflowWebhooks types version).filter fun webhookData => webhookNodeId version webhookData ∈ nodeIds

def VersionNode.diffable (node : VersionNode) : DiffableNode where
  id := node.id
  parameters := node.parameters
  properties := .ofList
    ([("name", .string node.name), ("type", .string node.type), ("typeVersion", .number node.typeVersion)] ++
      (node.webhookId.map fun webhookId => ("webhookId", JsValue.string webhookId)).toList ++
      (node.credentials.map fun credentials => ("credentials", credentials)).toList)

structure TriggerDiff where
  toAdd : List String
  toRemove : List String

def computeTriggerDiff (oldTriggerNodes newTriggerNodes : List VersionNode) : TriggerDiff :=
  let diff := compareWorkflowsNodes (oldTriggerNodes.map VersionNode.diffable) (newTriggerNodes.map VersionNode.diffable)
  { toAdd := (diff.entries.filter fun (_, node) => node.status = .added || node.status = .modified).map Prod.fst
    toRemove := (diff.entries.filter fun (_, node) => node.status = .deleted || node.status = .modified).map Prod.fst }

def Unchanged (oldNodes newNodes : List VersionNode) (id : String) : Prop :=
  ∃ node ∈ oldNodes, ∃ newNode ∈ newNodes, node.id = id ∧ newNode.id = id ∧
    compareNodes node.diffable newNode.diffable = true

section

variable {oldNodes newNodes : List VersionNode} {id : String}

theorem mem_ids_diffable {node : DiffableNode} {nodes : List VersionNode}
    (found : (byId (nodes.map VersionNode.diffable)).get id = some node) :
    ∃ known ∈ nodes, known.id = id ∧ known.diffable = node := by
  obtain ⟨member, ids⟩ := mem_of_byId found
  obtain ⟨known, inNodes, same⟩ := List.mem_map.1 member
  refine ⟨known, inNodes, ?_, same⟩
  rw [← ids, ← same]
  rfl

theorem byId_diffable {node : VersionNode} {nodes : List VersionNode} (distinct : (nodes.map VersionNode.id).Nodup)
    (member : node ∈ nodes) :
    (byId (nodes.map VersionNode.diffable)).get node.id = some node.diffable := by
  refine OrderedMap.get_ofList_of_mem
    (List.mem_map.2 ⟨node.diffable, List.mem_map_of_mem member, rfl⟩) fun other listed => ?_
  obtain ⟨known, inNodes, same⟩ := List.mem_map.1 listed
  obtain ⟨ids, nodesAre⟩ := Prod.mk.inj same
  obtain ⟨known', member', diffables⟩ := List.mem_map.1 inNodes
  have ids' : known'.id = node.id := by
    rw [← ids, ← diffables]
    rfl
  rw [← nodesAre, ← diffables, List.inj_on_of_nodup_map distinct member' member ids']

theorem byId_diffable_eq_none {nodes : List VersionNode} (distinct : (nodes.map VersionNode.id).Nodup) :
    (byId (nodes.map VersionNode.diffable)).get id = none ↔ ∀ node ∈ nodes, node.id ≠ id := by
  refine ⟨fun missing node member ids => ?_, fun absent => ?_⟩
  · simp [← ids, byId_diffable distinct member] at missing
  · cases found : (byId (nodes.map VersionNode.diffable)).get id with
    | none => rfl
    | some node =>
      obtain ⟨known, member, ids, -⟩ := mem_ids_diffable found
      exact absurd ids (absent known member)

def statusOf (oldNodes newNodes : List VersionNode) (id : String) : Option NodeDiffStatus :=
  ((compareWorkflowsNodes (oldNodes.map VersionNode.diffable) (newNodes.map VersionNode.diffable)).get id).map
    NodeDiff.status

theorem mem_filter_status_iff (one : NodeDiffStatus) :
    id ∈ (((compareWorkflowsNodes (oldNodes.map VersionNode.diffable) (newNodes.map VersionNode.diffable)).entries.filter
        fun (_, node) => node.status = one || node.status = .modified).map Prod.fst) ↔
      statusOf oldNodes newNodes id = some one ∨ statusOf oldNodes newNodes id = some .modified := by
  simp only [statusOf, List.mem_map, List.mem_filter, Prod.exists, exists_and_right,
    exists_eq_right, ← OrderedMap.get_eq_some_iff, Bool.or_eq_true, decide_eq_true_eq, Option.map_eq_some_iff]
  constructor
  · rintro ⟨diff, found, same | modified⟩
    exacts [.inl ⟨diff, found, same⟩, .inr ⟨diff, found, modified⟩]
  · rintro (⟨diff, found, same⟩ | ⟨diff, found, modified⟩)
    exacts [⟨diff, found, .inl same⟩, ⟨diff, found, .inr modified⟩]

theorem mem_toAdd_iff_status : id ∈ (computeTriggerDiff oldNodes newNodes).toAdd ↔
    statusOf oldNodes newNodes id = some .added ∨ statusOf oldNodes newNodes id = some .modified :=
  mem_filter_status_iff .added

theorem mem_toRemove_iff_status : id ∈ (computeTriggerDiff oldNodes newNodes).toRemove ↔
    statusOf oldNodes newNodes id = some .deleted ∨ statusOf oldNodes newNodes id = some .modified :=
  mem_filter_status_iff .deleted

theorem statusOf_old {node : VersionNode} (distinct : (oldNodes.map VersionNode.id).Nodup) (member : node ∈ oldNodes) :
    statusOf oldNodes newNodes node.id =
      some (baseStatus (byId (newNodes.map VersionNode.diffable)) node.id node.diffable) := by
  rw [statusOf, compareWorkflowsNodes_get (byId_diffable distinct member), Option.map_some]

theorem statusOf_onlyNew {newNode : VersionNode} (distinct : (oldNodes.map VersionNode.id).Nodup)
    (distinct' : (newNodes.map VersionNode.id).Nodup) (absent : ∀ node ∈ oldNodes, node.id ≠ newNode.id)
    (member : newNode ∈ newNodes) : statusOf oldNodes newNodes newNode.id = some .added := by
  have found : (compareWorkflowsNodes (oldNodes.map VersionNode.diffable)
      (newNodes.map VersionNode.diffable)).get newNode.id = some ⟨.added, newNode.diffable⟩ :=
    compareWorkflowsNodes_get_added ((byId_diffable_eq_none distinct).2 absent) (byId_diffable distinct' member)
  rw [statusOf, found, Option.map_some]

theorem exists_of_statusOf {status : NodeDiffStatus} (found : statusOf oldNodes newNodes id = some status) :
    (∃ node ∈ oldNodes, node.id = id) ∨ ∃ newNode ∈ newNodes, newNode.id = id := by
  obtain ⟨diff, compared, -⟩ := Option.map_eq_some_iff.1 found
  cases List.mem_append.1 (OrderedMap.mem_of_get_ofList compared) with
  | inl ofBase =>
    obtain ⟨entry, inBase, same⟩ := List.mem_map.1 ofBase
    obtain ⟨known, member, ids, -⟩ := mem_ids_diffable (((byId _).get_eq_some_iff _ _).2 inBase)
    exact .inl ⟨known, member, ids.trans (Prod.mk.inj same).1⟩
  | inr ofTarget =>
    obtain ⟨entry, kept, same⟩ := List.mem_map.1 ofTarget
    obtain ⟨known, member, ids, -⟩ :=
      mem_ids_diffable (((byId _).get_eq_some_iff _ _).2 (List.mem_filter.1 kept).1)
    exact .inr ⟨known, member, ids.trans (Prod.mk.inj same).1⟩

section

variable (distinct : (oldNodes.map VersionNode.id).Nodup)
include distinct

section

variable (distinct' : (newNodes.map VersionNode.id).Nodup)
include distinct'

theorem unchanged_iff {node newNode : VersionNode} (member : node ∈ oldNodes) (member' : newNode ∈ newNodes)
    (same : newNode.id = node.id) :
    Unchanged oldNodes newNodes node.id ↔ compareNodes node.diffable newNode.diffable = true := by
  refine ⟨fun unchanged => ?_, fun compared => ⟨node, member, newNode, member', rfl, same, compared⟩⟩
  obtain ⟨known, inOld, known', inNew, ids, ids', compared⟩ := unchanged
  rw [← List.inj_on_of_nodup_map distinct inOld member ids,
    ← List.inj_on_of_nodup_map distinct' inNew member' (ids'.trans same.symm)]
  exact compared

theorem statusOf_old_cases {node : VersionNode} (member : node ∈ oldNodes) :
    (∀ newNode ∈ newNodes, newNode.id ≠ node.id) ∧ ¬ Unchanged oldNodes newNodes node.id ∧
        statusOf oldNodes newNodes node.id = some .deleted ∨
      (∃ newNode ∈ newNodes, newNode.id = node.id) ∧ ¬ Unchanged oldNodes newNodes node.id ∧
        statusOf oldNodes newNodes node.id = some .modified ∨
      Unchanged oldNodes newNodes node.id ∧ statusOf oldNodes newNodes node.id = some .eq := by
  rw [statusOf_old distinct member, baseStatus]
  by_cases absent : ∀ newNode ∈ newNodes, newNode.id ≠ node.id
  · rw [(byId_diffable_eq_none distinct').2 absent]
    refine .inl ⟨absent, fun unchanged => ?_, rfl⟩
    obtain ⟨_, _, newNode, inNew, _, ids, _⟩ := unchanged
    exact absent newNode inNew ids
  · simp only [not_forall, not_not] at absent
    obtain ⟨newNode, inNew, ids⟩ := absent
    have found := byId_diffable distinct' inNew
    rw [ids] at found
    rw [found, unchanged_iff distinct distinct' member inNew ids]
    by_cases compared : compareNodes node.diffable newNode.diffable = true
    · exact .inr (.inr ⟨compared, by simp [compared]⟩)
    · exact .inr (.inl ⟨⟨newNode, inNew, ids⟩, compared, by simp [compared]⟩)

theorem mem_toAdd :
    id ∈ (computeTriggerDiff oldNodes newNodes).toAdd ↔
      (∃ newNode ∈ newNodes, newNode.id = id) ∧ ¬ Unchanged oldNodes newNodes id := by
  rw [mem_toAdd_iff_status]
  by_cases old : ∃ node ∈ oldNodes, node.id = id
  · obtain ⟨node, member, ids⟩ := old
    rw [← ids]
    obtain ⟨absent, -, status⟩ | ⟨present, changed, status⟩ | ⟨unchanged, status⟩ :=
      statusOf_old_cases distinct distinct' member <;> rw [status]
    · exact iff_of_false (by simp) fun h => by
        obtain ⟨⟨newNode, inNew, same⟩, -⟩ := h
        exact absent newNode inNew same
    · exact iff_of_true (by simp) ⟨present, changed⟩
    · exact iff_of_false (by simp) fun h => h.2 unchanged
  · have onlyNew : ∀ node ∈ oldNodes, node.id ≠ id := fun node member ids => old ⟨node, member, ids⟩
    constructor
    · intro status
      have found : ∃ status, statusOf oldNodes newNodes id = some status := by
        cases status with
        | inl added => exact ⟨_, added⟩
        | inr modified => exact ⟨_, modified⟩
      refine ⟨(exists_of_statusOf found.choose_spec).resolve_left old, fun unchanged => ?_⟩
      obtain ⟨node, member, _, _, ids, _⟩ := unchanged
      exact onlyNew node member ids
    · rintro ⟨⟨newNode, member, ids⟩, -⟩
      rw [← ids] at onlyNew ⊢
      exact .inl (statusOf_onlyNew distinct distinct' onlyNew member)

theorem mem_toRemove :
    id ∈ (computeTriggerDiff oldNodes newNodes).toRemove ↔
      (∃ node ∈ oldNodes, node.id = id) ∧ ¬ Unchanged oldNodes newNodes id := by
  rw [mem_toRemove_iff_status]
  by_cases old : ∃ node ∈ oldNodes, node.id = id
  · obtain ⟨node, member, ids⟩ := old
    rw [← ids]
    obtain ⟨-, changed, status⟩ | ⟨-, changed, status⟩ | ⟨unchanged, status⟩ :=
      statusOf_old_cases distinct distinct' member <;> rw [status]
    · exact iff_of_true (by simp) ⟨⟨node, member, rfl⟩, changed⟩
    · exact iff_of_true (by simp) ⟨⟨node, member, rfl⟩, changed⟩
    · exact iff_of_false (by simp) fun h => h.2 unchanged
  · have onlyNew : ∀ node ∈ oldNodes, node.id ≠ id := fun node member ids => old ⟨node, member, ids⟩
    refine iff_of_false (fun status => ?_) fun h => old h.1
    have found : ∃ status, statusOf oldNodes newNodes id = some status := by
      cases status with
      | inl deleted => exact ⟨_, deleted⟩
      | inr modified => exact ⟨_, modified⟩
    obtain ⟨newNode, member, ids⟩ := (exists_of_statusOf found.choose_spec).resolve_left old
    rw [← ids] at status onlyNew
    rw [statusOf_onlyNew distinct distinct' onlyNew member] at status
    simp at status

end

end

end

end NodeAutomation.WorkflowPublication
