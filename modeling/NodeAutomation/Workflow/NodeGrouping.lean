import Mathlib.Data.List.Pairwise
import NodeAutomation.Lib.Fallible
import NodeAutomation.Lib.QueueSearch
import NodeAutomation.Workflow.Connections
import NodeAutomation.Workflow.GraphUtils

/-! Which groups of nodes a workflow may have: `validateWorkflowNodeGroups`
(`packages/cli/src/workflow-helpers.ts`) and the checks of a single group
(`packages/workflow/src/node-grouping-validation.ts`). -/

namespace NodeAutomation.NodeGrouping

open GraphUtils Connections

structure IWorkflowGroup where
  id : String
  name : String
  nodeIds : List String

structure IdentifiedNode extends INode where
  id : String

structure WorkflowBase where
  nodes : List IdentifiedNode
  connections : IConnections := ∅
  nodeGroups : List IWorkflowGroup

/-- The `group` of a node's type, where the type is known. -/
abbrev GetNodeType := IdentifiedNode → Option (List String)

def isTriggerNode (group : List String) : Bool := group.contains "trigger"

inductive Invalid where
  | triggerSelected (triggers : List String)
  | invalidSubgraph (errors : List ExtractableError)
  | nodeAlreadyGrouped (nodeIds : List String)
  | nonMainBoundary (source target : String) (type : NodeConnectionType)

inductive BadRequestError where
  | duplicateId (id : String)
  | duplicateName (name : String)
  | missingNode (group nodeId : String)
  | multipleGroups (nodeId existing group : String)
  | invalid (group : IWorkflowGroup) (result : Invalid)

def findAlreadyGroupedNodeIds (selection : List String) (existing : List IWorkflowGroup) : List String :=
  selection.filter (· ∈ existing.flatMap (·.nodeIds))

def buildAdjacencyList (connections : IConnections) : IConnectionAdjacencyList :=
  (OrderedMap.groupBy (·.source) (links connections)).mapValues (·.map (·.target))

section

variable (names : OrderedSet String) (adjacencyList : IConnectionAdjacencyList)

/-- The connections between two different nodes of the selection. -/
def innerEdges : List (String × IConnection) :=
  adjacencyList.entries.flatMap fun (source, tos) =>
    if names.contains source then
      (tos.filter fun edge => names.contains edge.node && edge.node ≠ source).map (source, ·)
    else []

/-- `neighborsByNodeName.get(name) ?? []`, in the order in which neighbors are added. -/
def neighbors (name : String) : OrderedSet String :=
  .ofList ((innerEdges names adjacencyList).flatMap fun (source, edge) =>
    (if source = name then [edge.node] else []) ++ if edge.node = name then [source] else [])

/-- An empty name is taken off the queue and left. -/
def followed (name : String) : List String :=
  if name = "" then [] else (neighbors names adjacencyList name).elems

def findDisconnectedSelectionError : Option ExtractableError :=
  if names.size ≤ 1 then none
  else
    match names.first with
    | none => none
    | some firstName =>
      if firstName = "" then none
      else
        let visited := QueueSearch.visit (followed names adjacencyList) names.size [firstName] [firstName]
        if visited.length = names.size then none
        else
          match names.elems.find? (· ∉ visited) with
          | none => none
          | some name => if name = "" then none else some (.noContinuousPathFromRootToLeaf firstName name)

end

def findNonMainBoundaryConnection (names : OrderedSet String) (connections : IConnections) : Option Link :=
  (links connections).find? fun link =>
    link.type ≠ .main && names.contains link.source != names.contains link.target.node

def nodeNames (nodes : List IdentifiedNode) : OrderedSet String := .ofList (nodes.map (·.name))

variable (getNodeType : GetNodeType) (connections : IConnections)

/-- The selection always parses to a value. -/
def validateNodeSelectionSubgraph (nodes : List IdentifiedNode) : Except Invalid ExtractableSubgraphData :=
  let triggers := nodes.filter fun node => (getNodeType node).any isTriggerNode
  if triggers ≠ [] then .error (.triggerSelected (triggers.map (·.name)))
  else
    let adjacencyList := buildAdjacencyList connections
    match parseExtractableSubgraphSelection (nodeNames nodes) adjacencyList with
    | none => .error (.invalidSubgraph [])
    | some (.errors errors) => .error (.invalidSubgraph errors)
    | some (.data selection) =>
      match findDisconnectedSelectionError (nodeNames nodes) adjacencyList with
      | some error => .error (.invalidSubgraph [error])
      | none => .ok selection

def validateNodeSelectionForGrouping (nodes : List IdentifiedNode) (existing : List IWorkflowGroup) :
    Except Invalid ExtractableSubgraphData :=
  let grouped := findAlreadyGroupedNodeIds (nodes.map (·.id)) existing
  if grouped ≠ [] then .error (.nodeAlreadyGrouped grouped)
  else do
    let selection ← validateNodeSelectionSubgraph getNodeType connections nodes
    match findNonMainBoundaryConnection (nodeNames nodes) connections with
    | some link => .error (.nonMainBoundary link.source link.target.node link.type)
    | none => .ok selection

structure Seen where
  groupIds : List String := []
  groupNames : List String := []
  nodeToGroup : OrderedMap String String := ∅

/-- A group with the empty name is not found again: the name is falsy. -/
def addNode (nodeIds : List String) (group : IWorkflowGroup) (nodeToGroup : OrderedMap String String)
    (nodeId : String) : Except BadRequestError (OrderedMap String String) :=
  if nodeId ∉ nodeIds then .error (.missingNode group.name nodeId)
  else
    match (nodeToGroup.get nodeId).filter (· ≠ "") with
    | some existing => .error (.multipleGroups nodeId existing group.name)
    | none => .ok (nodeToGroup.set nodeId group.name)

def addGroup (nodeIds : List String) (seen : Seen) (group : IWorkflowGroup) : Except BadRequestError Seen :=
  if group.id ∈ seen.groupIds then .error (.duplicateId group.id)
  else if group.name ∈ seen.groupNames then .error (.duplicateName group.name)
  else do
    let nodeToGroup ← group.nodeIds.foldlM (addNode nodeIds group) seen.nodeToGroup
    .ok ⟨seen.groupIds ++ [group.id], seen.groupNames ++ [group.name], nodeToGroup⟩

variable (workflow : WorkflowBase)

def WorkflowBase.nodeIds : List String := (workflow.nodes.map (·.id)).filter (· ≠ "")

def WorkflowBase.nodeById : OrderedMap String IdentifiedNode :=
  .ofList (workflow.nodes.map fun node => (node.id, node))

def WorkflowBase.groupNodes (group : IWorkflowGroup) : List IdentifiedNode :=
  group.nodeIds.flatMap fun id => (workflow.nodeById.get id).toList

def validateGroup (_ : Unit) (group : IWorkflowGroup) : Except BadRequestError Unit :=
  match validateNodeSelectionForGrouping getNodeType workflow.connections (workflow.groupNodes group)
      (workflow.nodeGroups.filter (·.id ≠ group.id)) with
  | .ok _ => .ok ()
  | .error result => .error (.invalid group result)

/-- Without `getNodeType` only the basic checks are made. -/
def validateWorkflowNodeGroups (getNodeType : Option GetNodeType) : Except BadRequestError Unit := do
  let _ ← workflow.nodeGroups.foldlM (addGroup workflow.nodeIds) {}
  match getNodeType with
  | none => .ok ()
  | some getNodeType => workflow.nodeGroups.foldlM (validateGroup getNodeType workflow) ()

def Linked (source target : String) : Prop :=
  ∃ link ∈ links connections, link.source = source ∧ link.target.node = target

/-- Two nodes of a selection with a connection, one way or the other. -/
def Joined (names : OrderedSet String) (a b : String) : Prop :=
  a ∈ names ∧ b ∈ names ∧ (Linked connections a b ∨ Linked connections b a)

instance (names : OrderedSet String) : Std.Symm (Joined connections names) :=
  ⟨fun _ _ joined => ⟨joined.2.1, joined.1, joined.2.2.symm⟩⟩

def Connected (names : OrderedSet String) : Prop :=
  ∀ a ∈ names, ∀ b ∈ names, Relation.ReflTransGen (Joined connections names) a b

/-- The selection is extractable and connected, and without triggers. -/
def ValidSubgraph (nodes : List IdentifiedNode) : Prop :=
  (∀ node ∈ nodes, ¬ (getNodeType node).any isTriggerNode) ∧
    (∃ selection, parseExtractableSubgraphSelection (nodeNames nodes) (buildAdjacencyList connections) =
      some (.data selection)) ∧ Connected connections (nodeNames nodes)

def OnlyMainBoundary (names : OrderedSet String) : Prop :=
  ∀ link ∈ links connections, link.type ≠ .main → (link.source ∈ names ↔ link.target.node ∈ names)

structure ValidGroup (group : IWorkflowGroup) : Prop where
  exist : ∀ id ∈ group.nodeIds, id ≠ "" ∧ ∃ node ∈ workflow.nodes, node.id = id
  subgraph : ValidSubgraph getNodeType workflow.connections (workflow.groupNodes group)
  boundary : OnlyMainBoundary workflow.connections (nodeNames (workflow.groupNodes group))

structure WellFormed : Prop where
  ids : (workflow.nodeGroups.map (·.id)).Nodup
  names : (workflow.nodeGroups.map (·.name)).Nodup
  disjoint : workflow.nodeGroups.Pairwise fun a b => a.nodeIds.Disjoint b.nodeIds
  groups : ∀ group ∈ workflow.nodeGroups, ValidGroup getNodeType workflow group

variable {connections : IConnections} {names : OrderedSet String}

theorem mem_connectionsOf_build {source : String} {edge : IConnection} :
    edge ∈ connectionsOf (buildAdjacencyList connections) source ↔
      ∃ link ∈ links connections, link.source = source ∧ link.target = edge := by
  rw [connectionsOf, buildAdjacencyList, OrderedMap.get_mapValues, OrderedMap.get_groupBy]
  split
  case isTrue none =>
    rw [List.filter_eq_nil_iff] at none
    simpa using fun link member same => absurd same (by simpa using none link member)
  case isFalse => simp [and_assoc]

variable (connections names) in
theorem mem_innerEdges (source target : String) :
    (∃ edge, (source, edge) ∈ innerEdges names (buildAdjacencyList connections) ∧ edge.node = target) ↔
      source ∈ names ∧ target ∈ names ∧ target ≠ source ∧ Linked connections source target := by
  have edges (edge : IConnection) : (source, edge) ∈ innerEdges names (buildAdjacencyList connections) ↔
      source ∈ names ∧ (edge.node ∈ names ∧ edge.node ≠ source) ∧
        ∃ link ∈ links connections, link.source = source ∧ link.target = edge := by
    rw [← mem_connectionsOf_build, ← OrderedSet.contains_iff, ← OrderedSet.contains_iff,
      ← @decide_eq_true_iff (edge.node ≠ source), ← Bool.and_eq_true]
    exact mem_edgesOf names.contains fun source edge => names.contains edge.node && edge.node ≠ source
  simp only [edges]
  refine ⟨fun ⟨edge, ⟨inside, kept, link, member, starts, same⟩, ends⟩ => ?_,
    fun ⟨inside, within, differ, link, member, starts, ends⟩ => ?_⟩
  · rw [ends] at kept
    exact ⟨inside, kept.1, kept.2, link, member, starts, by rw [same, ends]⟩
  · rw [← ends] at within differ
    exact ⟨link.target, ⟨inside, ⟨within, differ⟩, link, member, starts, rfl⟩, ends⟩

theorem mem_followed {a b : String} : b ∈ followed names (buildAdjacencyList connections) a ↔
    a ≠ "" ∧ a ∈ names ∧ b ∈ names ∧ b ≠ a ∧ (Linked connections a b ∨ Linked connections b a) := by
  have forward := mem_innerEdges connections names a b
  have backward := mem_innerEdges connections names b a
  rw [followed]
  split
  case isTrue empty => simp [empty]
  case isFalse named =>
    rw [← OrderedSet.mem_def, neighbors, OrderedSet.mem_ofList, List.mem_flatMap]
    grind

theorem connected_iff {first : String} (named : "" ∉ names) (inside : first ∈ names) :
    Connected connections names ↔ ∀ b ∈ names,
      Relation.ReflTransGen (fun a b => b ∈ followed names (buildAdjacencyList connections) a) first b := by
  refine ⟨fun connected b member => ?_, fun reached a here b there => ?_⟩
  · have path := connected first inside b member
    induction path with
    | refl => exact .refl
    | @tail b c _ step ih =>
      by_cases same : c = b
      · exact same ▸ ih step.1
      · have bNamed : b ≠ "" := fun empty => named (empty ▸ step.1)
        exact (ih step.1).tail (mem_followed.2 ⟨bNamed, step.1, step.2.1, same, step.2.2⟩)
  · have path (c : String) (member : c ∈ names) :
        Relation.ReflTransGen (Joined connections names) first c := by
      refine Relation.ReflTransGen.mono (fun a b follows => ?_) first c (reached c member)
      exact (mem_followed.1 follows).2.imp_right fun h => ⟨h.1, h.2.2⟩
    exact (symm (path a here)).trans (path b there)

variable (connections) in
/-- Where the selection has no empty name, it is searched right. -/
theorem findDisconnectedSelectionError_iff (named : "" ∉ names) :
    findDisconnectedSelectionError names (buildAdjacencyList connections) = none ↔
      Connected connections names := by
  rw [findDisconnectedSelectionError]
  split
  case isTrue small =>
    have same := (OrderedSet.size_le_one_iff names).1 small
    exact iff_of_true rfl fun a here b there => same a here b there ▸ .refl
  case isFalse =>
    split
    case h_1 empty =>
      have none := (OrderedSet.first_eq_none_iff names).1 empty
      exact iff_of_true rfl fun a here => absurd here (none a)
    case h_2 first starts =>
      have inside := OrderedSet.mem_of_first starts
      have firstNamed : first ≠ "" := fun empty => named (empty ▸ inside)
      rw [if_neg firstNamed, connected_iff named inside]
      obtain ⟨nodup, reached⟩ := QueueSearch.mem_visit_iff (followed names (buildAdjacencyList connections))
        (fun a => by rw [followed]; split; exacts [List.nodup_nil, OrderedSet.nodup _])
        (fun a b follows => (mem_followed.1 follows).2.2.1) inside
      have size : names.elems.length = names.size := rfl
      rw [size] at nodup reached
      simp only [← reached]
      split
      case isTrue all =>
        have subset : ∀ a ∈ QueueSearch.visit (followed names (buildAdjacencyList connections))
            names.size [first] [first], a ∈ names.elems := by
          intro a met
          cases ((reached a).1 met).cases_tail with
          | inl same => exact same ▸ inside
          | inr last =>
            obtain ⟨b, _, follows⟩ := last
            exact (mem_followed.1 follows).2.2.1
        have perm := (List.subperm_of_subset nodup subset).perm_of_length_le (Nat.le_of_eq all.symm)
        exact iff_of_true rfl fun b member => perm.mem_iff.2 member
      case isFalse =>
        split
        case h_1 absent =>
          refine iff_of_true rfl fun b member => ?_
          simpa using List.find?_eq_none.1 absent b member
        case h_2 name found =>
          have member := List.mem_of_find?_eq_some found
          have missed := List.find?_some found
          rw [if_neg fun empty : name = "" => named (empty ▸ member)]
          exact iff_of_false (by simp) fun met => absurd (met name member) (by simpa using missed)

theorem findNonMainBoundaryConnection_iff : findNonMainBoundaryConnection names connections = none ↔
    OnlyMainBoundary connections names := by
  rw [findNonMainBoundaryConnection, List.find?_eq_none]
  refine forall₂_congr fun link _ => ?_
  rw [← OrderedSet.contains_iff, ← OrderedSet.contains_iff]
  cases names.contains link.source <;> cases names.contains link.target.node <;> simp

variable {getNodeType : GetNodeType} {nodes : List IdentifiedNode} {existing : List IWorkflowGroup}

theorem validateNodeSelectionSubgraph_ok_iff (named : "" ∉ nodeNames nodes) :
    (∃ selection, validateNodeSelectionSubgraph getNodeType connections nodes = .ok selection) ↔
      ValidSubgraph getNodeType connections nodes := by
  have search := findDisconnectedSelectionError_iff connections named
  simp only [validateNodeSelectionSubgraph, ValidSubgraph, ← search, ← List.filter_eq_nil_iff]
  generalize nodes.filter _ = triggers
  by_cases none : triggers = []
  · cases parseExtractableSubgraphSelection (nodeNames nodes) (buildAdjacencyList connections) with
    | none => simp [none]
    | some result =>
      cases result with
      | errors errors => simp [none]
      | data selection =>
        cases findDisconnectedSelectionError (nodeNames nodes) (buildAdjacencyList connections) <;> simp [none]
  · simp [none]

variable (getNodeType connections existing) in
theorem validateNodeSelectionForGrouping_ok_iff (named : "" ∉ nodeNames nodes) :
    (∃ selection, validateNodeSelectionForGrouping getNodeType connections nodes existing = .ok selection) ↔
      (∀ id ∈ nodes.map (·.id), ∀ other ∈ existing, id ∉ other.nodeIds) ∧
        ValidSubgraph getNodeType connections nodes ∧ OnlyMainBoundary connections (nodeNames nodes) := by
  have grouped : findAlreadyGroupedNodeIds (nodes.map (·.id)) existing = [] ↔
      ∀ id ∈ nodes.map (·.id), ∀ other ∈ existing, id ∉ other.nodeIds := by
    simp [findAlreadyGroupedNodeIds, List.filter_eq_nil_iff]
  rw [← validateNodeSelectionSubgraph_ok_iff named, ← findNonMainBoundaryConnection_iff, ← grouped]
  simp only [validateNodeSelectionForGrouping]
  split
  case isTrue some => exact iff_of_false (by simp) fun h => some h.1
  case isFalse none =>
    rw [not_not] at none
    simp only [Fallible.bind_eq_ok_iff, none, true_and]
    cases findNonMainBoundaryConnection (nodeNames nodes) connections <;> simp

/-- The node has been found in a group with a name. -/
def Taken (nodeToGroup : OrderedMap String String) (nodeId : String) : Prop :=
  ((nodeToGroup.get nodeId).filter (· ≠ "")).isSome

theorem addNode_ok_iff {nodeIds : List String} {group : IWorkflowGroup} {m m' : OrderedMap String String}
    {id : String} : addNode nodeIds group m id = .ok m' ↔
      id ∈ nodeIds ∧ ¬ Taken m id ∧ m.set id group.name = m' := by
  rw [addNode, Taken]
  by_cases known : id ∈ nodeIds
  · rw [if_neg (by simpa using known)]
    cases (m.get id).filter (· ≠ "") <;> simp [known]
  · simp [known]

theorem taken_set {m : OrderedMap String String} {id name other : String} (free : ¬ Taken m id) :
    Taken (m.set id name) other ↔ Taken m other ∨ other = id ∧ name ≠ "" := by
  rw [Taken, OrderedMap.get_set]
  split
  case isTrue same =>
    by_cases empty : name = "" <;> simp [Option.filter, same, empty, free]
  case isFalse differ => simp [Taken, differ]

section

variable {nodeIds : List String} {group : IWorkflowGroup} {m m' : OrderedMap String String}

/-- What is taken when the visited nodes of a group have been added. -/
def TakenBy (group : IWorkflowGroup) (m : OrderedMap String String) (visited : List String)
    (now : OrderedMap String String) : Prop :=
  ∀ id, Taken now id ↔ Taken m id ∨ id ∈ visited ∧ group.name ≠ ""

theorem TakenBy.addNode {visited : List String} {added : String} {now later : OrderedMap String String}
    (before : TakenBy group m visited now) (here : addNode nodeIds group now added = .ok later) :
    TakenBy group m (visited ++ [added]) later := by
  intro id
  obtain ⟨_, free, same⟩ := addNode_ok_iff.1 here
  rw [← same, taken_set free, before id, List.mem_append, List.mem_singleton]
  tauto

theorem addNodes_taken (went : group.nodeIds.foldlM (addNode nodeIds group) m = .ok m') (id : String) :
    Taken m' id ↔ Taken m id ∨ id ∈ group.nodeIds ∧ group.name ≠ "" :=
  Fallible.foldlM_kept (P := TakenBy group m) went (by simp [TakenBy])
    (fun _ _ _ _ _ before here => before.addNode here) id

variable (nodeIds group m) in
theorem addNodes_ok_iff : (∃ m', group.nodeIds.foldlM (addNode nodeIds group) m = .ok m') ↔
    (group.name ≠ "" → group.nodeIds.Nodup) ∧ ∀ id ∈ group.nodeIds, id ∈ nodeIds ∧ ¬ Taken m id := by
  have whole := Fallible.foldlM_ok_iff_pairwise (addNode nodeIds group) group.nodeIds m
    (P := TakenBy group m) (R := fun a b => group.name ≠ "" → a ≠ b) (Q := fun id => id ∈ nodeIds ∧ ¬ Taken m id) []
    (by simp [TakenBy]) ?_ fun _ _ _ _ before here => before.addNode here
  · rw [whole]
    by_cases empty : group.name = "" <;> simp [empty, List.Nodup, List.pairwise_of_forall]
  · intro visited id now before
    simp only [addNode_ok_iff, before id]
    refine ⟨fun ⟨_, known, free, _⟩ => ?_, fun ⟨fresh, known, free⟩ => ⟨_, known, fun h => ?_, rfl⟩⟩
    · refine ⟨fun y member named same => free (.inr ⟨same ▸ member, named⟩), known, fun h => free (.inl h)⟩
    · exact h.elim free fun again => fresh id again.1 again.2 rfl

theorem addGroup_ok_iff {seen later : Seen} : addGroup nodeIds seen group = .ok later ↔
    group.id ∉ seen.groupIds ∧ group.name ∉ seen.groupNames ∧
      ∃ m, group.nodeIds.foldlM (addNode nodeIds group) seen.nodeToGroup = .ok m ∧
        ⟨seen.groupIds ++ [group.id], seen.groupNames ++ [group.name], m⟩ = later := by
  rw [addGroup]
  by_cases ids : group.id ∈ seen.groupIds
  · simp [ids]
  · by_cases names : group.name ∈ seen.groupNames
    · simp [ids, names]
    · simp [ids, names, Fallible.bind_eq_ok_iff]

/-- What the basic checks ask of two groups. -/
def Apart (a b : IWorkflowGroup) : Prop :=
  a.id ≠ b.id ∧ a.name ≠ b.name ∧ (a.name ≠ "" → a.nodeIds.Disjoint b.nodeIds)

variable (nodeIds) in
theorem addGroups_ok_iff (groups : List IWorkflowGroup) :
    (∃ seen, groups.foldlM (addGroup nodeIds) {} = .ok seen) ↔ groups.Pairwise Apart ∧
      ∀ group ∈ groups, (group.name ≠ "" → group.nodeIds.Nodup) ∧ ∀ id ∈ group.nodeIds, id ∈ nodeIds := by
  have whole := Fallible.foldlM_ok_iff_pairwise (addGroup nodeIds) groups {}
    (P := fun visited seen => seen.groupIds = visited.map (·.id) ∧ seen.groupNames = visited.map (·.name) ∧
      ∀ id, Taken seen.nodeToGroup id ↔ ∃ group ∈ visited, id ∈ group.nodeIds ∧ group.name ≠ "")
    (R := Apart) (Q := fun group => (group.name ≠ "" → group.nodeIds.Nodup) ∧
      ∀ id ∈ group.nodeIds, id ∈ nodeIds) [] (by simp [Taken]) ?_ ?_
  · simpa using whole
  · intro visited group seen before
    obtain ⟨ids, names, taken⟩ := before
    have added := addNodes_ok_iff nodeIds group seen.nodeToGroup
    have found : (∃ t, addGroup nodeIds seen group = .ok t) ↔ group.id ∉ seen.groupIds ∧
        group.name ∉ seen.groupNames ∧ ∃ m, group.nodeIds.foldlM (addNode nodeIds group) seen.nodeToGroup =
          .ok m := by
      simp [addGroup_ok_iff]
    rw [found, added, ids, names]
    simp only [taken, List.mem_map, Apart, List.Disjoint]
    grind
  · intro visited group seen later before here
    obtain ⟨ids, names, taken⟩ := before
    obtain ⟨_, _, m, went, same⟩ := addGroup_ok_iff.1 here
    rw [← same, List.map_append, List.map_append, ← ids, ← names]
    refine ⟨rfl, rfl, fun id => ?_⟩
    rw [addNodes_taken went, taken]
    simp [or_and_right, exists_or]

end

variable {workflow : WorkflowBase}

theorem id_of_mem_groupNodes {group : IWorkflowGroup} {node : IdentifiedNode}
    (member : node ∈ workflow.groupNodes group) : node.id ∈ group.nodeIds := by
  obtain ⟨id, listed, found⟩ := List.mem_flatMap.1 member
  obtain ⟨given, _, same⟩ := List.mem_map.1 (OrderedMap.mem_of_get_ofList (Option.mem_toList.1 found))
  obtain ⟨ids, nodes⟩ := Prod.mk.inj same
  rw [← nodes, ids]
  exact listed

theorem mem_ids_groupNodes {group : IWorkflowGroup} {id : String}
    (exist : ∀ id ∈ group.nodeIds, id ≠ "" ∧ ∃ node ∈ workflow.nodes, node.id = id) :
    id ∈ (workflow.groupNodes group).map (·.id) ↔ id ∈ group.nodeIds := by
  refine ⟨fun member => ?_, fun listed => ?_⟩
  · obtain ⟨node, member, same⟩ := List.mem_map.1 member
    exact same ▸ id_of_mem_groupNodes member
  · obtain ⟨_, node, there, same⟩ := exist id listed
    cases OrderedMap.get_foldl_set (workflow.nodes.map fun node => (node.id, node)) ∅ id with
    | inl found =>
      obtain ⟨given, stored, found⟩ := found
      obtain ⟨other, _, pair⟩ := List.mem_map.1 stored
      obtain ⟨ids, nodes⟩ := Prod.mk.inj pair
      refine List.mem_map.2 ⟨given, List.mem_flatMap.2 ⟨id, listed, Option.mem_toList.2 found⟩, ?_⟩
      rw [← nodes, ids]
    | inr absent => exact absurd (List.mem_map.2 ⟨node, there, by rw [same]⟩) (absent.1 node)

theorem validateGroup_ok_iff {group : IWorkflowGroup} (named : "" ∉ nodeNames (workflow.groupNodes group))
    (exist : ∀ id ∈ group.nodeIds, id ≠ "" ∧ ∃ node ∈ workflow.nodes, node.id = id) :
    (∃ t, validateGroup getNodeType workflow () group = .ok t) ↔ ValidGroup getNodeType workflow group ∧
      ∀ other ∈ workflow.nodeGroups, other.id ≠ group.id → group.nodeIds.Disjoint other.nodeIds := by
  have selected := validateNodeSelectionForGrouping_ok_iff workflow.connections getNodeType
    (workflow.nodeGroups.filter (·.id ≠ group.id)) named
  have here : (∃ t, validateGroup getNodeType workflow () group = .ok t) ↔
      ∃ selection, validateNodeSelectionForGrouping getNodeType workflow.connections
        (workflow.groupNodes group) (workflow.nodeGroups.filter (·.id ≠ group.id)) = .ok selection := by
    rw [validateGroup]
    cases validateNodeSelectionForGrouping getNodeType workflow.connections (workflow.groupNodes group)
      (workflow.nodeGroups.filter (·.id ≠ group.id)) <;> simp
  rw [here, selected]
  simp only [mem_ids_groupNodes exist, List.mem_filter, decide_eq_true_iff]
  refine ⟨fun ⟨apart, subgraph, boundary⟩ => ⟨⟨exist, subgraph, boundary⟩,
      fun other member differ id listed again => ?_⟩,
    fun ⟨valid, apart⟩ => ⟨fun id listed other member again => ?_, valid.subgraph, valid.boundary⟩⟩
  · exact apart id listed other ⟨member, differ⟩ again
  · exact apart other member.1 member.2 listed again

/-- The full checks come behind the basic ones. -/
theorem validateWorkflowNodeGroups_ok_iff
    (named : ∀ group ∈ workflow.nodeGroups, ∀ node ∈ workflow.groupNodes group, node.name ≠ "") :
    (validateWorkflowNodeGroups workflow (some getNodeType) = .ok () ↔ WellFormed getNodeType workflow ∧
      ∀ group ∈ workflow.nodeGroups, group.name ≠ "" → group.nodeIds.Nodup) ∧
    (validateWorkflowNodeGroups workflow (some getNodeType) = .ok () →
      validateWorkflowNodeGroups workflow none = .ok ()) := by
  have named (group : IWorkflowGroup) (member : group ∈ workflow.nodeGroups) :
      "" ∉ nodeNames (workflow.groupNodes group) := by
    simpa [nodeNames] using named group member
  have all : (∃ t, workflow.nodeGroups.foldlM (validateGroup getNodeType workflow) () = .ok t) ↔
      ∀ group ∈ workflow.nodeGroups, ∃ t, validateGroup getNodeType workflow () group = .ok t := by
    have whole := Fallible.foldlM_ok_iff_pairwise (validateGroup getNodeType workflow)
      workflow.nodeGroups () (P := fun _ _ => True) (R := fun _ _ => True)
      (Q := fun group => ∃ t, validateGroup getNodeType workflow () group = .ok t) [] trivial (by simp) (by simp)
    simpa [List.pairwise_of_forall] using whole
  have basic := addGroups_ok_iff workflow.nodeIds workflow.nodeGroups
  have ids (id : String) : id ∈ workflow.nodeIds ↔ id ≠ "" ∧ ∃ node ∈ workflow.nodes, node.id = id := by
    simp [WorkflowBase.nodeIds, and_comm]
  simp only [ids] at basic
  simp only [validateWorkflowNodeGroups, Fallible.bind_eq_ok_iff, exists_and_right, basic]
  refine ⟨⟨fun ⟨⟨apart, each⟩, passed⟩ => ?_, fun ⟨formed, noTwice⟩ => ?_⟩, fun h => ⟨h.1, trivial⟩⟩
  · have valid (group : IWorkflowGroup) (member : group ∈ workflow.nodeGroups) :=
      (validateGroup_ok_iff (named group member) (each group member).2).1 (all.1 ⟨(), passed⟩ group member)
    refine ⟨⟨?_, ?_, ?_, fun group member => (valid group member).1⟩, fun group member => (each group member).1⟩
    · exact List.pairwise_map.2 (apart.imp And.left)
    · exact List.pairwise_map.2 (apart.imp fun h => h.2.1)
    · exact apart.imp_of_mem fun here there h => (valid _ here).2 _ there (Ne.symm h.1)
  · have exist (group : IWorkflowGroup) (member : group ∈ workflow.nodeGroups) :=
      (formed.groups group member).exist
    refine ⟨⟨?_, fun group member => ⟨noTwice group member, exist group member⟩⟩, ?_⟩
    · have ids := List.pairwise_map.1 formed.ids
      have names := List.pairwise_map.1 formed.names
      exact ids.imp₂ (fun a b h k => ⟨h, k.1, fun _ => k.2⟩) (names.and formed.disjoint)
    · obtain ⟨_, passed⟩ := all.2 fun group member => by
        refine (validateGroup_ok_iff (named group member) (exist group member)).2 ⟨formed.groups group member, ?_⟩
        intro other there differ
        have symmetric : Std.Symm fun a b : IWorkflowGroup => a.nodeIds.Disjoint b.nodeIds :=
          ⟨fun _ _ disjoint => disjoint.symm⟩
        exact formed.disjoint.forall member there fun same => differ (congrArg (·.id) same.symm)
      exact passed

/-- Two connected nodes in a group, and a node beside them. -/
def pair : WorkflowBase where
  nodes := [{ name := "Set", id := "a" }, { name := "Wait", id := "b" }, { name := "Merge", id := "c" }]
  connections := .ofList [("Set", .ofList [(.main, [some [{ node := "Wait" }]])])]
  nodeGroups := [⟨"g", "Group", ["b", "a"]⟩]

theorem pair_wellFormed : WellFormed (fun _ => none) pair :=
  ((validateWorkflowNodeGroups_ok_iff (by decide)).1.1 rfl).1

/-- One node, which its group lists twice. -/
def twice : WorkflowBase where
  nodes := [{ name := "Set", id := "a" }]
  nodeGroups := [⟨"g", "Group", ["a", "a"]⟩]

theorem twice_refused : ¬ (validateWorkflowNodeGroups twice (some fun _ => none) = .ok () ↔
    WellFormed (fun _ => none) twice) := by
  have refused : validateWorkflowNodeGroups twice (some fun _ => none) =
      .error (.multipleGroups "a" "Group" "Group") := rfl
  have small : (nodeNames (twice.groupNodes ⟨"g", "Group", ["a", "a"]⟩)).size ≤ 1 := by decide
  rw [refused]
  refine fun h => absurd (h.2 ⟨by decide, by decide, List.pairwise_singleton .., fun group member => ?_⟩) nofun
  rw [List.mem_singleton.1 member]
  refine ⟨by decide, ⟨by decide, ⟨⟨none, none⟩, by decide⟩, fun a here b there => ?_⟩, nofun⟩
  exact (OrderedSet.size_le_one_iff _).1 small a here b there ▸ .refl

end NodeAutomation.NodeGrouping
