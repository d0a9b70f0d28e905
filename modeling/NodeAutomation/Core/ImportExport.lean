import NodeAutomation.Core.DirectedGraph

/-! Import of a workflow into a graph and export back: when the way there and
back keeps the nodes and the connections. -/

namespace NodeAutomation.DirectedGraph
open Connections

def nodeNamed (workflow : Workflow) (name : String) : INode :=
  (workflow.getNode name).getD { name := name }

@[simp] theorem nodeNamed_name (workflow : Workflow) (name : String) :
    (nodeNamed workflow name).name = name := by
  unfold nodeNamed
  cases stored : workflow.getNode name with
  | none => rfl
  | some node => exact workflow.named name node stored

def imported (workflow : Workflow) (link : Link) : GraphConnection :=
  ⟨nodeNamed workflow link.source, nodeNamed workflow link.target.node, link.type,
    link.outputIndex, link.target.index⟩

theorem nodeNamed_eq {workflow : Workflow} {name : String} {node : INode}
    (stored : workflow.getNode name = some node) : nodeNamed workflow name = node := by
  rw [nodeNamed, stored, Option.getD_some]

theorem has_nodeNamed_iff {graph : DirectedGraph} {workflow : Workflow}
    (nodes : graph.nodes = workflow.nodes) (name : String) :
    graph.Has (nodeNamed workflow name) ↔ name ∈ workflow.nodes.keys := by
  rw [Has, nodeNamed_name, nodes, OrderedMap.mem_keys_iff]
  constructor
  · exact fun h => ⟨_, h⟩
  · intro h
    obtain ⟨node, stored⟩ := h
    rw [stored, nodeNamed_eq stored]

theorem importConnection_eq_ok_iff {workflow : Workflow} {graph : DirectedGraph}
    (nodes : graph.nodes = workflow.nodes) (next : DirectedGraph) (link : Link)
    (source : link.source ∈ workflow.nodes.keys) :
    importConnection workflow (nodeNamed workflow link.source) graph link = .ok next ↔
      link.target.node ∈ workflow.nodes.keys ∧ next = graph.setConnection (imported workflow link) := by
  unfold importConnection
  cases stored : workflow.getNode link.target.node with
  | none =>
    have absent := (OrderedMap.get_eq_none_iff _ _).1 stored
    simp [absent]
  | some node =>
    have ends : (⟨nodeNamed workflow link.source, node, link.type, link.outputIndex,
        link.target.index⟩ : GraphConnection) = imported workflow link := by
      rw [imported, nodeNamed_eq stored]
    simp only [ends, addConnection_eq_ok_iff]
    change (graph.Has (nodeNamed workflow link.source) ∧
      graph.Has (nodeNamed workflow link.target.node)) ∧ _ ↔ _
    rw [has_nodeNamed_iff nodes, has_nodeNamed_iff nodes]
    simp only [source, true_and]

theorem importConnections_eq_ok_iff {workflow : Workflow} {graph next : DirectedGraph}
    (nodes : graph.nodes = workflow.nodes) (source : String) (more : List Link)
    (sources : ∀ link ∈ more, link.source = source) (known : source ∈ workflow.nodes.keys) :
    more.foldlM (importConnection workflow (nodeNamed workflow source)) graph = .ok next ↔
      (∀ link ∈ more, link.target.node ∈ workflow.nodes.keys) ∧
        next = (more.map (imported workflow)).foldl setConnection graph := by
  induction more generalizing graph with
  | nil => simp [pure, Except.pure, eq_comm]
  | cons link more ih =>
    have same := sources link List.mem_cons_self
    have later := fun l member => sources l (List.mem_cons_of_mem link member)
    have first := fun g => importConnection_eq_ok_iff nodes g link (same ▸ known)
    rw [same] at first
    rw [List.foldlM_cons, Fallible.bind_eq_ok_iff]
    simp only [first, List.forall_mem_cons, List.map_cons, List.foldl_cons, and_assoc]
    constructor
    · intro h
      obtain ⟨middle, target, eq, rest⟩ := h
      rw [eq, ih (by rw [nodes_setConnection, nodes]) later] at rest
      exact ⟨target, rest.1, rest.2⟩
    · intro h
      exact ⟨_, h.1, rfl, (ih (by rw [nodes_setConnection, nodes]) later).2 h.2⟩

theorem importNode_eq_ok_iff {workflow : Workflow} {graph next : DirectedGraph}
    (nodes : graph.nodes = workflow.nodes) (entry : String × INodeConnections) :
    importNode workflow graph entry = .ok next ↔ entry.1 ∈ workflow.nodes.keys ∧
      (∀ link ∈ linksOfNode entry.1 entry.2, link.target.node ∈ workflow.nodes.keys) ∧
        next = ((linksOfNode entry.1 entry.2).map (imported workflow)).foldl setConnection graph := by
  have sources : ∀ link ∈ linksOfNode entry.1 entry.2, link.source = entry.1 := by
    intro link member
    obtain ⟨_, inside⟩ := List.mem_flatMap.1 member
    exact (mem_linksOfOutputs.1 inside.2).1
  unfold importNode
  cases stored : workflow.getNode entry.1 with
  | none =>
    have absent := (OrderedMap.get_eq_none_iff _ _).1 stored
    simp [absent]
  | some node =>
    have known : entry.1 ∈ workflow.nodes.keys := (OrderedMap.mem_keys_iff _ _).2 ⟨node, stored⟩
    simp only [← nodeNamed_eq stored, known, true_and]
    exact importConnections_eq_ok_iff nodes entry.1 _ sources known

theorem importNodes_eq_ok_iff {workflow : Workflow} {graph next : DirectedGraph}
    (nodes : graph.nodes = workflow.nodes) (entries : List (String × INodeConnections)) :
    entries.foldlM (importNode workflow) graph = .ok next ↔
      (∀ entry ∈ entries, entry.1 ∈ workflow.nodes.keys ∧
        ∀ link ∈ linksOfNode entry.1 entry.2, link.target.node ∈ workflow.nodes.keys) ∧
        next = ((entries.flatMap fun entry => linksOfNode entry.1 entry.2).map
          (imported workflow)).foldl setConnection graph := by
  induction entries generalizing graph with
  | nil => simp [pure, Except.pure, eq_comm]
  | cons entry entries ih =>
    rw [List.foldlM_cons, Fallible.bind_eq_ok_iff]
    simp only [importNode_eq_ok_iff nodes, List.forall_mem_cons, List.flatMap_cons, List.map_append,
      List.foldl_append, and_assoc]
    constructor
    · intro h
      obtain ⟨middle, known, targets, eq, rest⟩ := h
      rw [eq, ih (by rw [nodes_foldl_setConnection, nodes])] at rest
      exact ⟨known, targets, rest.1, rest.2⟩
    · intro h
      exact ⟨_, h.1, h.2.1, rfl, (ih (by rw [nodes_foldl_setConnection, nodes])).2 h.2.2⟩

theorem fromWorkflow_eq_ok_iff (workflow : Workflow) (graph : DirectedGraph) :
    fromWorkflow workflow = .ok graph ↔
      (∀ source ∈ workflow.connectionsBySourceNode.keys, source ∈ workflow.nodes.keys) ∧
      (∀ link ∈ links workflow.connectionsBySourceNode, link.target.node ∈ workflow.nodes.keys) ∧
      graph = ((links workflow.connectionsBySourceNode).map (imported workflow)).foldl setConnection
        (addNodes {} workflow.nodes.values) := by
  have nodes := nodes_addNodes_values workflow.nodes workflow.named
  rw [fromWorkflow, importNodes_eq_ok_iff nodes]
  simp only [OrderedMap.keys, List.forall_mem_map, links, List.mem_flatMap]
  constructor
  · intro h
    refine ⟨fun entry member => (h.1 entry member).1, fun link found => ?_, h.2⟩
    obtain ⟨entry, member, inside⟩ := found
    exact (h.1 entry member).2 link inside
  · intro h
    exact ⟨fun entry member => ⟨h.1 entry member, fun link inside =>
      h.2.1 link ⟨entry, member, inside⟩⟩, h.2.2⟩

theorem nodes_fromWorkflow {workflow : Workflow} {graph : DirectedGraph}
    (went : fromWorkflow workflow = .ok graph) : graph.nodes = workflow.nodes := by
  rw [((fromWorkflow_eq_ok_iff _ _).1 went).2.2, nodes_foldl_setConnection]
  exact nodes_addNodes_values workflow.nodes workflow.named

theorem getConnections_addNodes (nodes : List INode) : (addNodes {} nodes).getConnections = [] := by
  rw [getConnections, connections_addNodes]
  rfl

theorem imported_of_mem {workflow : Workflow} {graph : DirectedGraph}
    (went : fromWorkflow workflow = .ok graph) {connection : GraphConnection}
    (member : connection ∈ graph.getConnections) :
    ∃ link ∈ links workflow.connectionsBySourceNode, imported workflow link = connection := by
  rw [((fromWorkflow_eq_ok_iff _ _).1 went).2.2] at member
  cases mem_of_mem_foldl_setConnection _ _ member with
  | inl new => exact List.mem_map.1 new
  | inr old =>
    simp [getConnections_addNodes] at old

theorem getElem?_pushAt (target : IConnection) (groups : NodeInputConnections) (index i : Nat) :
    (((pushAt target groups index)[i]?).join).getD [] =
      ((groups[i]?).join).getD [] ++ if index = i then [target] else [] := by
  induction groups, index using pushAt.induct generalizing i with
  | case1 => cases i <;> simp [pushAt]
  | case2 index ih =>
    cases i with
    | zero => simp [pushAt]
    | succ i => simpa [pushAt] using ih i
  | case3 group groups => cases i <;> simp [pushAt]
  | case4 group groups index ih =>
    cases i with
    | zero => simp [pushAt]
    | succ i => simpa [pushAt] using ih i

/-- What the export has written once it has been through `visited`. -/
structure Exported (visited : List GraphConnection) (result : IConnections) : Prop where
  typed : ∀ c ∈ visited, ∃ byType, result.get c.fromNode.name = some byType ∧
    byType.keys = [c.type]
  known : ∀ name byType, result.get name = some byType → ∃ c ∈ visited, c.fromNode.name = name
  listed : ∀ origin, bucket result origin =
    (visited.filter (·.origin = origin)).map GraphConnection.target

theorem exported_nil : Exported [] ∅ := by
  refine ⟨by simp, by simp, fun origin => ?_⟩
  rw [bucket_eq]
  rfl

/-- The connections of a node that are already written have the type of the next one. -/
def Fits (visited : List GraphConnection) (connection : GraphConnection) : Prop :=
  ∀ c ∈ visited, c.fromNode.name = connection.fromNode.name → c.type = connection.type

theorem keys_set_singleton {ν : Type} (m : OrderedMap NodeConnectionType ν)
    {type : NodeConnectionType} (v : ν) (keys : m.keys = [type]) : (m.set type v).keys = [type] := by
  cases m with
  | mk entries nodup =>
    simp only [OrderedMap.keys] at keys
    cases entries with
    | nil => simp at keys
    | cons entry rest =>
      simp only [List.map_cons, List.cons.injEq, List.map_eq_nil_iff] at keys
      simp [OrderedMap.set, OrderedMap.keys, OrderedMap.insert, keys.1, keys.2]

theorem keys_resultConnection {visited : List GraphConnection} {result : IConnections}
    (written : Exported visited result) (connection : GraphConnection) :
    ∃ type, (resultConnection result connection).keys = [type] ∧
      (Fits visited connection ↔ type = connection.type) := by
  unfold resultConnection
  cases stored : result.get connection.fromNode.name with
  | none =>
    refine ⟨connection.type, rfl, fun _ => rfl, fun _ c member same => ?_⟩
    obtain ⟨byType, found, _⟩ := written.typed c member
    simp [same, stored] at found
  | some byType =>
    obtain ⟨first, member, same⟩ := written.known _ _ stored
    obtain ⟨byType', found, keys⟩ := written.typed first member
    rw [same, stored] at found
    cases found
    refine ⟨first.type, keys, fun fits => fits first member same, fun eq c inside sameName => ?_⟩
    obtain ⟨byType', found, keys'⟩ := written.typed c inside
    rw [sameName, stored] at found
    cases found
    rw [keys, List.singleton_inj] at keys'
    rw [← keys', eq]

theorem exists_exportConnection_iff {visited : List GraphConnection} {result : IConnections}
    (written : Exported visited result) (connection : GraphConnection) :
    (∃ next, exportConnection result connection = .ok next) ↔ Fits visited connection := by
  obtain ⟨type, keys, fits⟩ := keys_resultConnection written connection
  rw [fits]
  unfold exportConnection
  cases found : (resultConnection result connection).get connection.type with
  | none =>
    rw [OrderedMap.get_eq_none_iff, keys, List.mem_singleton] at found
    simp [Ne.symm found]
  | some groups =>
    have key := (OrderedMap.mem_keys_iff _ _).2 ⟨groups, found⟩
    rw [keys, List.mem_singleton] at key
    simp [key]

theorem exportConnection_exported {visited : List GraphConnection} {result next : IConnections}
    (written : Exported visited result) {connection : GraphConnection}
    (went : exportConnection result connection = .ok next) :
    Exported (visited ++ [connection]) next := by
  have fits := (exists_exportConnection_iff written connection).1 ⟨next, went⟩
  obtain ⟨type, keys, fits_iff⟩ := keys_resultConnection written connection
  rw [fits_iff.1 fits] at keys
  unfold exportConnection at went
  cases found : (resultConnection result connection).get connection.type with
  | none => simp [found] at went
  | some groups =>
    simp only [found, Except.ok.injEq] at went
    subst went
    refine ⟨fun c member => ?_, fun name byType stored => ?_, fun origin => ?_⟩
    · by_cases same : c.fromNode.name = connection.fromNode.name
      · have type : c.type = connection.type := by
          cases List.mem_append.1 member with
          | inl old => exact fits c old same
          | inr new => rw [List.mem_singleton.1 new]
        refine ⟨_, by rw [same, OrderedMap.get_set_self], ?_⟩
        rw [type]
        exact keys_set_singleton _ _ keys
      · have old : c ∈ visited := by
          cases List.mem_append.1 member with
          | inl old => exact old
          | inr new => exact absurd (by rw [List.mem_singleton.1 new]) same
        rw [OrderedMap.get_set_of_ne _ _ same]
        exact written.typed c old
    · rw [OrderedMap.get_set] at stored
      split at stored
      · rename_i here
        exact ⟨connection, by simp, here.symm⟩
      · obtain ⟨c, member, same⟩ := written.known name byType stored
        exact ⟨c, List.mem_append_left _ member, same⟩
    · have before : ∀ i, ((groups[i]?).join).getD [] =
          bucket result ⟨connection.fromNode.name, connection.type, i⟩ := by
        intro i
        rw [bucket_eq, outputsOf]
        unfold resultConnection at found
        cases stored : result.get connection.fromNode.name with
        | none =>
          rw [stored, Option.getD_none, OrderedMap.get_set_self, Option.some.injEq] at found
          rw [← found]
          rfl
        | some byType =>
          rw [stored, Option.getD_some] at found
          rw [Option.bind_some, found]
          rfl
      rw [List.filter_append, List.map_append, ← written.listed origin, bucket_eq, outputsOf]
      by_cases sameName : origin.node = connection.fromNode.name
      · rw [sameName, OrderedMap.get_set_self, Option.bind_some]
        by_cases sameType : origin.type = connection.type
        · rw [sameType, OrderedMap.get_set_self, Option.getD_some, getElem?_pushAt, before]
          have whole : (⟨connection.fromNode.name, connection.type, origin.index⟩ : IConnection) =
              origin := IConnection.ext sameName.symm sameType.symm rfl
          rw [whole]
          congr 1
          have same : connection.origin = origin ↔ connection.outputIndex = origin.index := by
            rw [← whole]
            simp [GraphConnection.origin]
          by_cases hit : connection.outputIndex = origin.index <;> simp [same, hit]
        · have absent : (resultConnection result connection).get origin.type = none := by
            rw [OrderedMap.get_eq_none_iff, keys, List.mem_singleton]
            exact sameType
          have nothing : bucket result origin = [] := by
            rw [bucket_eq, outputsOf, sameName]
            unfold resultConnection at absent
            cases stored : result.get connection.fromNode.name with
            | none => rfl
            | some byType =>
              rw [stored, Option.getD_some] at absent
              rw [Option.bind_some, absent]
              rfl
          have other : connection.origin ≠ origin := fun eq =>
            sameType (congrArg IConnection.type eq).symm
          rw [OrderedMap.get_set_of_ne _ _ sameType, absent, nothing,
            List.filter_cons_of_neg (by simpa using other)]
          rfl
      · have other : connection.origin ≠ origin := fun eq =>
          sameName (congrArg IConnection.node eq).symm
        rw [OrderedMap.get_set_of_ne _ _ sameName, bucket_eq, outputsOf,
          List.filter_cons_of_neg (by simpa using other)]
        simp

theorem toIConnections_exported {graph : DirectedGraph} {result : IConnections}
    (went : graph.toIConnections = .ok result) : Exported graph.getConnections result :=
  Fallible.foldlM_kept went exported_nil fun _ _ _ _ _ written step =>
    exportConnection_exported written step

def OneTypeEach (connections : List GraphConnection) : Prop :=
  ∀ a ∈ connections, ∀ b ∈ connections, a.fromNode.name = b.fromNode.name → a.type = b.type

theorem exists_toIConnections_iff (graph : DirectedGraph) :
    (∃ result, graph.toIConnections = .ok result) ↔ OneTypeEach graph.getConnections := by
  constructor
  · intro h a ha b hb same
    obtain ⟨result, went⟩ := h
    have written := toIConnections_exported went
    obtain ⟨byType, found, keys⟩ := written.typed a ha
    obtain ⟨byType', found', keys'⟩ := written.typed b hb
    rw [same, found'] at found
    cases found
    rw [keys, List.singleton_inj] at keys'
    exact keys'
  · intro one
    have loop := @Fallible.foldlM_ok JsError GraphConnection IConnections exportConnection
      (fun visited result => (∀ c ∈ visited, c ∈ graph.getConnections) ∧ Exported visited result)
      graph.getConnections ∅ ⟨by simp, exported_nil⟩
    obtain ⟨result, went, _⟩ := loop fun visited c result member held => by
      have fits : Fits visited c := fun other inside same =>
        one other (held.1 other inside) c member same
      obtain ⟨next, went⟩ := (exists_exportConnection_iff held.2 c).2 fits
      refine ⟨next, went, fun other inside => ?_, exportConnection_exported held.2 went⟩
      cases List.mem_append.1 inside with
      | inl old => exact held.1 other old
      | inr new => exact List.mem_singleton.1 new ▸ member
    exact ⟨result, went⟩

theorem mem_links_of_exported {visited : List GraphConnection} {result : IConnections}
    (written : Exported visited result) (link : Link) :
    link ∈ links result ↔ ∃ c ∈ visited, c.link = link := by
  rw [mem_links_iff_mem_bucket, written.listed, List.mem_map]
  simp only [List.mem_filter, decide_eq_true_eq]
  constructor
  · intro h
    obtain ⟨c, ⟨member, origin⟩, target⟩ := h
    refine ⟨c, member, ?_⟩
    have source := congrArg IConnection.node origin
    have type := congrArg IConnection.type origin
    have index := congrArg IConnection.index origin
    cases link
    simp_all [GraphConnection.link, GraphConnection.origin, Link.origin]
  · intro h
    obtain ⟨c, member, eq⟩ := h
    rw [← eq]
    exact ⟨c, ⟨member, rfl⟩, rfl⟩

def fiveOf (link : Link) : String × NodeConnectionType × Nat × String × Nat :=
  (link.source, link.type, link.outputIndex, link.target.node, link.target.index)

def SameConnections (a b : IConnections) : Prop :=
  ∀ five, five ∈ (links a).map fiveOf ↔ five ∈ (links b).map fiveOf

/-- Nothing is thrown, and the export has the nodes (the constructor writes
their default parameters into the same objects) and the connections. -/
def RoundTrips (getNodeParameters : INode → Option JsValue) (pinData : Option IPinData)
    (executionOrder : Option ExecutionOrder) (workflow : Workflow) : Prop :=
  ∃ graph exported, fromWorkflow workflow = .ok graph ∧
    graph.toWorkflow getNodeParameters pinData executionOrder = .ok exported ∧
    exported.nodes = workflow.nodes.mapValues (Workflow.addDefaultValues getNodeParameters) ∧
    SameConnections exported.connectionsBySourceNode workflow.connectionsBySourceNode

/-- Sources are nodes, a node has connections of one type, and different
connections have different keys. -/
structure Exportable (workflow : Workflow) : Prop where
  sources : ∀ source ∈ workflow.connectionsBySourceNode.keys, source ∈ workflow.nodes.keys
  oneType : ∀ a ∈ links workflow.connectionsBySourceNode,
    ∀ b ∈ links workflow.connectionsBySourceNode, a.source = b.source → a.type = b.type
  keys : ∀ a ∈ links workflow.connectionsBySourceNode,
    ∀ b ∈ links workflow.connectionsBySourceNode,
      (imported workflow a).makeKey = (imported workflow b).makeKey → fiveOf a = fiveOf b

theorem fiveOf_imported (workflow : Workflow) (link : Link) :
    fiveOf (imported workflow link).link = fiveOf link := by
  simp [fiveOf, imported, GraphConnection.link, GraphConnection.target]

theorem imported_eq_iff (workflow : Workflow) (a b : Link) :
    imported workflow a = imported workflow b ↔ fiveOf a = fiveOf b := by
  constructor
  · intro h
    rw [← fiveOf_imported workflow a, h, fiveOf_imported]
  · intro h
    simp only [fiveOf, Prod.mk.injEq] at h
    simp only [imported, h]

theorem nodes_new (getNodeParameters : INode → Option JsValue) (workflow : Workflow)
    (connections : IConnections) (pinData : Option IPinData)
    (executionOrder : Option ExecutionOrder) :
    (Workflow.new getNodeParameters
      ⟨workflow.nodes.values, connections, pinData, executionOrder⟩).nodes =
      workflow.nodes.mapValues (Workflow.addDefaultValues getNodeParameters) := by
  have values : workflow.nodes.values.map (Workflow.addDefaultValues getNodeParameters) =
      (workflow.nodes.mapValues (Workflow.addDefaultValues getNodeParameters)).values := by
    simp [OrderedMap.values, OrderedMap.mapValues, List.map_map, Function.comp_def]
  change Workflow.nodesByName _ = _
  rw [values]
  apply foldl_set_values
  intro name node stored
  rw [OrderedMap.get_mapValues, Option.map_eq_some_iff] at stored
  obtain ⟨before, found, eq⟩ := stored
  rw [← eq, Workflow.addDefaultValues_name]
  exact workflow.named name before found

section

variable {getNodeParameters : INode → Option JsValue} {pinData : Option IPinData}
  {executionOrder : Option ExecutionOrder} {workflow : Workflow}

theorem exportable_of_roundTrips
    (trip : RoundTrips getNodeParameters pinData executionOrder workflow) : Exportable workflow := by
  obtain ⟨graph, exported, wentIn, wentOut, _, same⟩ := trip
  obtain ⟨connections, written, made⟩ := (Fallible.bind_eq_ok_iff _ _ _).1 wentOut
  have eq := (Except.ok.inj made).symm
  have kept : ∀ link ∈ links workflow.connectionsBySourceNode,
      imported workflow link ∈ graph.getConnections := by
    intro link member
    have back := (same (fiveOf link)).2 (List.mem_map_of_mem member)
    rw [eq] at back
    obtain ⟨other, inside, five⟩ := List.mem_map.1 back
    obtain ⟨c, stored, link_eq⟩ :=
      (mem_links_of_exported (toIConnections_exported written) other).1 inside
    obtain ⟨first, _, from_⟩ := imported_of_mem wentIn stored
    rw [← link_eq, ← from_, fiveOf_imported] at five
    rw [← (imported_eq_iff workflow first link).2 five, from_]
    exact stored
  refine ⟨((fromWorkflow_eq_ok_iff _ _).1 wentIn).1, fun a ha b hb source => ?_,
    fun a ha b hb key => ?_⟩
  · have one := (exists_toIConnections_iff graph).1 ⟨connections, written⟩
    exact one _ (kept a ha) _ (kept b hb) (by simpa [imported] using source)
  · rw [← imported_eq_iff workflow]
    exact eq_of_makeKey_eq (kept a ha) (kept b hb) key

theorem roundTrips_of_exportable
    (targets : ∀ link ∈ links workflow.connectionsBySourceNode,
      link.target.node ∈ workflow.nodes.keys)
    (exportable : Exportable workflow) :
    RoundTrips getNodeParameters pinData executionOrder workflow := by
  obtain ⟨graph, wentIn⟩ : ∃ graph, fromWorkflow workflow = .ok graph :=
    ⟨_, (fromWorkflow_eq_ok_iff _ _).2 ⟨exportable.sources, targets, rfl⟩⟩
  have separate : Separate fun c => ∃ link ∈ links workflow.connectionsBySourceNode,
      imported workflow link = c := by
    intro a b ha hb key
    obtain ⟨x, hx, ex⟩ := ha
    obtain ⟨y, hy, ey⟩ := hb
    rw [← ex, ← ey] at key ⊢
    exact (imported_eq_iff _ _ _).2 (exportable.keys x hx y hy key)
  have members : ∀ c, c ∈ graph.getConnections ↔
      ∃ link ∈ links workflow.connectionsBySourceNode, imported workflow link = c := by
    intro c
    rw [((fromWorkflow_eq_ok_iff _ _).1 wentIn).2.2,
      mem_foldl_setConnection separate _ (fun c member => List.mem_map.1 member) _
        (by simp [getConnections_addNodes])]
    simp [getConnections_addNodes]
  have one : OneTypeEach graph.getConnections := by
    intro a ha b hb source
    obtain ⟨x, hx, ex⟩ := (members a).1 ha
    obtain ⟨y, hy, ey⟩ := (members b).1 hb
    rw [← ex, ← ey] at source ⊢
    exact exportable.oneType x hx y hy (by simpa [imported] using source)
  obtain ⟨connections, written⟩ := (exists_toIConnections_iff graph).2 one
  refine ⟨graph, _, wentIn, (Fallible.bind_eq_ok_iff _ _ _).2 ⟨connections, written, rfl⟩, ?_,
    fun five => ?_⟩
  · rw [nodes_fromWorkflow wentIn]
    exact nodes_new _ _ _ _ _
  · change five ∈ (links connections).map fiveOf ↔ _
    simp only [List.mem_map, mem_links_of_exported (toIConnections_exported written), members]
    constructor
    · intro h
      obtain ⟨link, ⟨c, ⟨first, member, from_⟩, link_eq⟩, eq⟩ := h
      refine ⟨first, member, ?_⟩
      rw [← fiveOf_imported workflow first, from_, link_eq, eq]
    · intro h
      obtain ⟨first, member, eq⟩ := h
      exact ⟨_, ⟨_, ⟨first, member, rfl⟩, rfl⟩, by rw [fiveOf_imported, eq]⟩

end

/-- A workflow whose connection targets exist survives import and export
exactly when it is exportable. -/
theorem roundTrips_iff (getNodeParameters : INode → Option JsValue) (pinData : Option IPinData)
    (executionOrder : Option ExecutionOrder) (workflow : Workflow)
    (targets : ∀ link ∈ links workflow.connectionsBySourceNode,
      link.target.node ∈ workflow.nodes.keys) :
    RoundTrips getNodeParameters pinData executionOrder workflow ↔ Exportable workflow :=
  ⟨exportable_of_roundTrips, roundTrips_of_exportable targets⟩

/-- `Model` serves `Agent` and also feeds `Set`. -/
def mixedTypes : Workflow :=
  Workflow.new (fun _ => none)
    { nodes := [{ name := "Model" }, { name := "Agent" }, { name := "Set" }]
      connections := .ofList [("Model", .ofList
        [(.aiLanguageModel, [some [⟨"Agent", .aiLanguageModel, 0⟩]]),
          (.main, [some [⟨"Set", .main, 0⟩]])])] }

/-- `Model` is a source of two types, so the export reads a group that is not there. -/
theorem mixedTypes_not_roundTrips :
    (∀ link ∈ links mixedTypes.connectionsBySourceNode,
      link.target.node ∈ mixedTypes.nodes.keys) ∧
    ¬ RoundTrips (fun _ => none) none none mixedTypes := by
  refine ⟨by decide, fun trip => ?_⟩
  have one := (exportable_of_roundTrips trip).oneType
  exact absurd (one ⟨"Model", .aiLanguageModel, 0, ⟨"Agent", .aiLanguageModel, 0⟩⟩ (by decide)
    ⟨"Model", .main, 0, ⟨"Set", .main, 0⟩⟩ (by decide) rfl) (by decide)

/-- `If` has nothing on its first output; both branches meet in `Merge`. -/
def branches : Workflow :=
  Workflow.new (fun _ => none)
    { nodes := [{ name := "If" }, { name := "Set" }, { name := "Merge" }]
      connections := .ofList
        [("If", .ofList [(.main, [none, some [⟨"Set", .main, 0⟩], some [⟨"Merge", .main, 1⟩]])]),
          ("Set", .ofList [(.main, [some [⟨"Merge", .main, 0⟩]])])] }

theorem branches_roundTrips : RoundTrips (fun _ => none) none none branches :=
  (roundTrips_iff _ _ _ branches (by decide)).2 ⟨by decide, by decide, by decide⟩

end NodeAutomation.DirectedGraph
