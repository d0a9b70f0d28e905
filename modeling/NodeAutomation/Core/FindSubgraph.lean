import NodeAutomation.Core.DirectedGraph

/-! The part of a graph that leads from a trigger to a destination
(`partial-execution-utils/find-subgraph.ts`), with the utility nodes that serve
it. In a closed graph the search ends and no assertion fails. -/

namespace NodeAutomation.DirectedGraph
open Relation

/-- `addNodes(connection.from, connection.to).addConnection(connection)`. -/
def addWithNodes (graph : DirectedGraph) (connection : GraphConnection) :
    Except JsError DirectedGraph :=
  (graph.addNodes [connection.fromNode, connection.toNode]).addConnection connection

def keepBranch (newGraph : DirectedGraph) (currentBranch : List GraphConnection) :
    Except JsError DirectedGraph :=
  currentBranch.foldlM addWithNodes newGraph

def findSubgraphRecursive (graph : DirectedGraph) (destinationNode trigger : INode) :
    Nat → INode → DirectedGraph → List GraphConnection → Except JsError DirectedGraph
  | 0, _, _, _ => .error .rangeError
  | fuel + 1, current, newGraph, currentBranch =>
    if current = trigger then keepBranch (newGraph.addNode trigger) currentBranch
    else do
      let parentConnections ← graph.getDirectParentConnections current
      if parentConnections = [] then return newGraph
      else if current = destinationNode ∧
          (currentBranch.any fun c => c.toNode = destinationNode) = true then
        return newGraph
      else if (currentBranch.any fun c => c.toNode = current) = true then
        keepBranch newGraph currentBranch
      else
        parentConnections.foldlM (fun newGraph parentConnection =>
          if parentConnection.type ≠ .main then .ok newGraph
          else findSubgraphRecursive graph destinationNode trigger fuel parentConnection.fromNode
            newGraph (currentBranch ++ [parentConnection])) newGraph

/-- One round of the second loop: the connections of other types that lead to
the node, over any number of steps. -/
def addUtilityNodes (graph subgraph : DirectedGraph) (node : INode) :
    Except JsError DirectedGraph := do
  let parentConnections ← graph.getParentConnections node
  (parentConnections.filter (·.type ≠ .main)).foldlM addWithNodes subgraph

def findBranches (graph : DirectedGraph) (destination trigger : INode) :
    Except JsError DirectedGraph :=
  findSubgraphRecursive graph destination trigger (graph.nodes.size + 1) destination {} []

def findSubgraph (graph : DirectedGraph) (destination trigger : INode) :
    Except JsError DirectedGraph := do
  let subgraph ← findBranches graph destination trigger
  subgraph.nodes.values.foldlM (addUtilityNodes graph) subgraph

/-- What a call has added: connections of the graph, and with each of them the
connections into its source. -/
structure Climbed (graph : DirectedGraph) (node : INode) (before found : List GraphConnection) :
    Prop where
  kept : ∀ c ∈ before, c ∈ found
  real : ∀ c ∈ found, c ∈ graph.getConnections
  direct : ∀ c ∈ graph.getConnections, c.toNode = node → c ∈ found
  above : ∀ c ∈ found, c ∉ before → ∀ d ∈ graph.getConnections, d.toNode = c.fromNode → d ∈ found

def unseen (graph : DirectedGraph) (seen : List GraphConnection) : Nat :=
  (graph.getConnections.filter (· ∉ seen)).length

theorem unseen_append_lt {graph : DirectedGraph} {seen : List GraphConnection}
    {connection : GraphConnection} (real : connection ∈ graph.getConnections)
    (new : connection ∉ seen) : unseen graph (seen ++ [connection]) < unseen graph seen := by
  have shrink : graph.getConnections.filter (· ∉ seen ++ [connection]) =
      (graph.getConnections.filter (· ∉ seen)).filter (· ≠ connection) := by
    rw [List.filter_filter]
    apply List.filter_congr
    intro c _
    simp [not_or, and_comm]
  unfold unseen
  rw [shrink]
  exact List.length_filter_lt_length_iff_exists.2
    ⟨connection, by simpa using ⟨real, new⟩, by simp⟩

theorem unseen_mono {graph : DirectedGraph} {seen more : List GraphConnection}
    (kept : ∀ c ∈ seen, c ∈ more) : unseen graph more ≤ unseen graph seen := by
  unfold unseen
  apply List.Sublist.length_le
  apply List.monotone_filter_right
  intro c
  simp only [decide_eq_true_eq]
  exact fun absent present => absent (kept c present)

theorem getParentConnectionsRecursive_climbed {graph : DirectedGraph} (closed : graph.Closed)
    (fuel : Nat) (node : INode) (seen : List GraphConnection) (has : graph.Has node)
    (real : ∀ c ∈ seen, c ∈ graph.getConnections) (enough : unseen graph seen < fuel) :
    ∃ found, graph.getParentConnectionsRecursive fuel node seen = .ok found ∧
      Climbed graph node seen found := by
  induction fuel generalizing node seen with
  | zero => omega
  | succ fuel ih =>
    have parents := (getDirectParentConnections_eq_ok_iff graph node _).2 ⟨has, rfl⟩
    rw [getParentConnectionsRecursive, parents, Fallible.ok_bind]
    have loop := @Fallible.foldlM_ok JsError GraphConnection (List GraphConnection)
      (fun connections connection => if connection ∈ connections then .ok connections
        else graph.getParentConnectionsRecursive fuel connection.fromNode
          (connections ++ [connection]))
      (fun visited found => (∀ c ∈ seen, c ∈ found) ∧ (∀ c ∈ found, c ∈ graph.getConnections) ∧
        (∀ c ∈ visited, c ∈ found) ∧
        ∀ c ∈ found, c ∉ seen → ∀ d ∈ graph.getConnections, d.toNode = c.fromNode → d ∈ found)
      (graph.getConnections.filter (·.toNode = node)) seen
      ⟨fun _ h => h, real, by simp, fun c inside new => absurd inside new⟩
    obtain ⟨found, went, held⟩ := loop fun visited c found member held => by
      obtain ⟨kept, true_, covered, above⟩ := held
      have inGraph := (List.mem_filter.1 member).1
      by_cases old : c ∈ found
      · refine ⟨found, by rw [if_pos old], kept, true_, fun d inside => ?_, above⟩
        cases List.mem_append.1 inside with
        | inl before => exact covered d before
        | inr new => exact List.mem_singleton.1 new ▸ old
      · have realNext : ∀ d ∈ found ++ [c], d ∈ graph.getConnections := by
          intro d inside
          cases List.mem_append.1 inside with
          | inl before => exact true_ d before
          | inr new => exact List.mem_singleton.1 new ▸ inGraph
        have fewer : unseen graph (found ++ [c]) < fuel := by
          have now := unseen_append_lt inGraph old
          have start : unseen graph found ≤ unseen graph seen := unseen_mono kept
          omega
        obtain ⟨next, went, climbed⟩ := ih c.fromNode (found ++ [c]) (closed c inGraph).1 realNext fewer
        have carried : ∀ d ∈ found, d ∈ next := fun d inside =>
          climbed.kept d (List.mem_append_left _ inside)
        have itself : c ∈ next := climbed.kept c (by simp)
        refine ⟨next, by rw [if_neg old, went], fun d inside => carried d (kept d inside),
          climbed.real, fun d inside => ?_, fun d inside new e member into => ?_⟩
        · cases List.mem_append.1 inside with
          | inl before => exact carried d (covered d before)
          | inr new => exact List.mem_singleton.1 new ▸ itself
        · by_cases before : d ∈ found
          · exact carried e (above d before new e member into)
          · by_cases same : d = c
            · exact climbed.direct e member (same ▸ into)
            · exact climbed.above d inside (by simp [before, same]) e member into
    refine ⟨found, went, held.1, held.2.1, fun c member into => ?_, held.2.2.2⟩
    exact held.2.2.1 c (by simpa using ⟨member, into⟩)

theorem getParentConnections_climbed {graph : DirectedGraph} (closed : graph.Closed) {node : INode}
    (has : graph.Has node) :
    ∃ found, graph.getParentConnections node = .ok found ∧ Climbed graph node [] found := by
  apply getParentConnectionsRecursive_climbed closed _ node [] has (by simp)
  have all : unseen graph [] = graph.connections.size := by
    simp [unseen, getConnections, OrderedMap.values, OrderedMap.size]
  omega

/-! The search adds nodes and connections of the graph only. -/

/-- Every node of `part` is that node of `graph`. -/
def Within (graph part : DirectedGraph) : Prop :=
  ∀ name node, part.nodes.get name = some node → graph.nodes.get name = some node

theorem Within.has {graph part : DirectedGraph} (within : Within graph part) {node : INode}
    (has : part.Has node) : graph.Has node :=
  within _ _ has

theorem get_addNode (part : DirectedGraph) (node : INode) (name : String) :
    (part.addNode node).nodes.get name =
      if name = node.name then some node else part.nodes.get name :=
  OrderedMap.get_set _ _ _ _

theorem Within.addNode {graph part : DirectedGraph} (within : Within graph part) {node : INode}
    (has : graph.Has node) : Within graph (part.addNode node) := by
  intro name stored found
  rw [get_addNode] at found
  split at found
  · rename_i here
    rw [← Option.some.inj found, here]
    exact has
  · exact within name stored found

theorem Within.has_addNode {graph part : DirectedGraph} (within : Within graph part)
    {node other : INode} (has : graph.Has node) (old : part.Has other) :
    (part.addNode node).Has other := by
  rw [Has, get_addNode]
  split
  · rename_i same
    have found := within.has old
    rw [Has, same, has] at found
    exact found
  · exact old

theorem has_addNode_self (part : DirectedGraph) (node : INode) : (part.addNode node).Has node := by
  rw [Has, get_addNode, if_pos rfl]

/-- What a step of the search keeps. -/
structure Grown (graph before after : DirectedGraph) : Prop where
  within : Within graph after
  kept : ∀ node, before.Has node → after.Has node

theorem Grown.refl {graph part : DirectedGraph} (within : Within graph part) :
    Grown graph part part :=
  ⟨within, fun _ has => has⟩

theorem Grown.trans {graph a b c : DirectedGraph} (first : Grown graph a b)
    (second : Grown graph b c) : Grown graph a c :=
  ⟨second.within, fun node has => second.kept node (first.kept node has)⟩

theorem addWithNodes_grown {graph part : DirectedGraph} (within : Within graph part)
    {connection : GraphConnection} (hasFrom : graph.Has connection.fromNode)
    (hasTo : graph.Has connection.toNode) :
    ∃ next, part.addWithNodes connection = .ok next ∧ Grown graph part next ∧
      next.Has connection.fromNode ∧ next.Has connection.toNode := by
  have first := within.addNode hasFrom
  have whole := first.addNode hasTo
  have from_ : ((part.addNode connection.fromNode).addNode connection.toNode).Has
      connection.fromNode := first.has_addNode hasTo (has_addNode_self _ _)
  have to_ := has_addNode_self (part.addNode connection.fromNode) connection.toNode
  refine ⟨_, (addConnection_eq_ok_iff _ _ _).2 ⟨⟨from_, to_⟩, rfl⟩, ⟨whole, fun node has => ?_⟩,
    from_, to_⟩
  exact first.has_addNode hasTo (within.has_addNode hasFrom has)

theorem foldlM_addWithNodes_grown {graph : DirectedGraph} (closed : graph.Closed)
    (connections : List GraphConnection) (real : ∀ c ∈ connections, c ∈ graph.getConnections)
    {part : DirectedGraph} (within : Within graph part) :
    ∃ next, connections.foldlM addWithNodes part = .ok next ∧ Grown graph part next ∧
      ∀ c ∈ connections, next.Has c.fromNode := by
  have loop := @Fallible.foldlM_ok JsError GraphConnection DirectedGraph addWithNodes
    (fun visited next => Grown graph part next ∧ ∀ c ∈ visited, next.Has c.fromNode)
    connections part ⟨.refl within, by simp⟩
  refine loop fun visited c next member held => ?_
  have ends := closed c (real c member)
  obtain ⟨after, went, grown, from_, _⟩ := addWithNodes_grown held.1.within ends.1 ends.2
  refine ⟨after, went, held.1.trans grown, fun d inside => ?_⟩
  cases List.mem_append.1 inside with
  | inl old => exact grown.kept _ (held.2 d old)
  | inr new => exact List.mem_singleton.1 new ▸ from_

def notEntered (graph : DirectedGraph) (branch : List GraphConnection) : Nat :=
  (graph.nodes.values.filter fun node => !branch.any fun c => c.toNode = node).length

theorem notEntered_append_lt {graph : DirectedGraph} {branch : List GraphConnection}
    {connection : GraphConnection} (has : graph.Has connection.toNode)
    (new : ¬ (branch.any fun c => c.toNode = connection.toNode) = true) :
    notEntered graph (branch ++ [connection]) < notEntered graph branch := by
  have shrink : (graph.nodes.values.filter fun node =>
      !(branch ++ [connection]).any fun c => c.toNode = node) =
      (graph.nodes.values.filter fun node => !branch.any fun c => c.toNode = node).filter
        (· ≠ connection.toNode) := by
    rw [List.filter_filter]
    apply List.filter_congr
    intro node _
    simp [Bool.and_comm, eq_comm]
  unfold notEntered
  rw [shrink]
  refine List.length_filter_lt_length_iff_exists.2 ⟨connection.toNode, ?_, by simp⟩
  refine List.mem_filter.2 ⟨(OrderedMap.mem_values_iff _ _).2 ⟨_, has⟩, by simpa using new⟩

theorem findSubgraphRecursive_grown {graph : DirectedGraph} (closed : graph.Closed)
    (destination trigger : INode) (fuel : Nat) (current : INode) (part : DirectedGraph)
    (branch : List GraphConnection) (has : graph.Has current) (within : Within graph part)
    (real : ∀ c ∈ branch, c ∈ graph.getConnections) (enough : notEntered graph branch < fuel) :
    ∃ next, graph.findSubgraphRecursive destination trigger fuel current part branch = .ok next ∧
      Grown graph part next := by
  induction fuel generalizing current part branch with
  | zero => omega
  | succ fuel ih =>
    rw [findSubgraphRecursive]
    split
    · rename_i atTrigger
      have withTrigger := within.addNode (atTrigger ▸ has : graph.Has trigger)
      obtain ⟨next, went, grown, _⟩ := foldlM_addWithNodes_grown closed branch real withTrigger
      refine ⟨next, went, grown.within, fun node old => grown.kept node ?_⟩
      exact within.has_addNode (atTrigger ▸ has) old
    · rw [(getDirectParentConnections_eq_ok_iff graph current _).2 ⟨has, rfl⟩, Fallible.ok_bind]
      split
      · exact ⟨part, rfl, .refl within⟩
      · split
        · exact ⟨part, rfl, .refl within⟩
        · split
          · obtain ⟨next, went, grown, _⟩ := foldlM_addWithNodes_grown closed branch real within
            exact ⟨next, went, grown⟩
          · rename_i _ _ new
            have loop := @Fallible.foldlM_ok JsError GraphConnection DirectedGraph
              (fun newGraph parentConnection =>
                if parentConnection.type ≠ .main then .ok newGraph
                else graph.findSubgraphRecursive destination trigger fuel
                  parentConnection.fromNode newGraph (branch ++ [parentConnection]))
              (fun _ next => Grown graph part next)
              (graph.getConnections.filter (·.toNode = current)) part (.refl within)
            refine loop fun _ c next member held => ?_
            have inGraph := (List.mem_filter.1 member).1
            have into : c.toNode = current := by simpa using (List.mem_filter.1 member).2
            split
            · exact ⟨next, rfl, held⟩
            · have fewer := notEntered_append_lt (closed c inGraph).2 (into ▸ new)
              obtain ⟨after, went, grown⟩ := ih c.fromNode next (branch ++ [c]) (closed c inGraph).1
                held.within
                (fun d inside => (List.mem_append.1 inside).elim (real d) fun same =>
                  List.mem_singleton.1 same ▸ inGraph) (by omega)
              exact ⟨after, went, held.trans grown⟩

theorem within_empty (graph : DirectedGraph) : Within graph {} := by
  intro name node found
  cases found

theorem findBranches_grown {graph : DirectedGraph} (closed : graph.Closed)
    {destination : INode} (has : graph.Has destination) (trigger : INode) :
    ∃ branches, graph.findBranches destination trigger = .ok branches ∧ Within graph branches := by
  have all : notEntered graph [] ≤ graph.nodes.size := by
    have size : graph.nodes.size = graph.nodes.values.length := by
      simp [OrderedMap.values, OrderedMap.size]
    rw [size]
    exact List.length_filter_le _ _
  obtain ⟨branches, went, grown⟩ := findSubgraphRecursive_grown closed destination trigger
    (graph.nodes.size + 1) destination {} [] has (within_empty graph) (by simp) (by omega)
  exact ⟨branches, went, grown.within⟩

/-- `sub` is connected to `node` by another type than `Main`. -/
def Serves (graph : DirectedGraph) (node sub : INode) : Prop :=
  ∃ c ∈ graph.getConnections, c.type ≠ .main ∧ c.toNode = node ∧ c.fromNode = sub

theorem Climbed.serves {graph : DirectedGraph} {node : INode} {found : List GraphConnection}
    (climbed : Climbed graph node [] found) {sub : INode} (chain : TransGen graph.Serves node sub) :
    ∃ c ∈ found, c.type ≠ .main ∧ c.fromNode = sub := by
  induction chain with
  | single first =>
    obtain ⟨c, real, type, to_, from_⟩ := first
    exact ⟨c, climbed.direct c real to_, type, from_⟩
  | tail _ last ih =>
    obtain ⟨b, inside, _, eq⟩ := ih
    obtain ⟨c, real, type, to_, from_⟩ := last
    exact ⟨c, climbed.above b inside (by simp) c real (to_.trans eq.symm), type, from_⟩

theorem addUtilityNodes_grown {graph part : DirectedGraph} (closed : graph.Closed)
    (within : Within graph part) {node : INode} (has : graph.Has node) :
    ∃ next, graph.addUtilityNodes part node = .ok next ∧ Grown graph part next ∧
      ∀ sub, TransGen graph.Serves node sub → next.Has sub := by
  obtain ⟨found, went, climbed⟩ := getParentConnections_climbed closed has
  rw [addUtilityNodes, went, Fallible.ok_bind]
  have real : ∀ c ∈ found.filter (·.type ≠ .main), c ∈ graph.getConnections := fun c member =>
    climbed.real c (List.mem_filter.1 member).1
  obtain ⟨next, added, grown, sources⟩ := foldlM_addWithNodes_grown closed _ real within
  refine ⟨next, added, grown, fun sub chain => ?_⟩
  obtain ⟨c, member, type, from_⟩ := climbed.serves chain
  exact from_ ▸ sources c (List.mem_filter.2 ⟨member, by simpa using type⟩)

/-- In a closed graph `findSubgraph` throws nothing, whatever the trigger, and
brings along every node that serves a node of a branch. -/
theorem findSubgraph_grown {graph : DirectedGraph} (closed : graph.Closed) {destination : INode}
    (has : graph.Has destination) (trigger : INode) :
    ∃ branches subgraph, graph.findBranches destination trigger = .ok branches ∧
      graph.findSubgraph destination trigger = .ok subgraph ∧
      (∀ node, branches.Has node → subgraph.Has node) ∧
      ∀ node sub, branches.Has node → TransGen graph.Serves node sub → subgraph.Has sub := by
  obtain ⟨branches, went, within⟩ := findBranches_grown closed has trigger
  have members : ∀ node ∈ branches.nodes.values, branches.Has node := by
    intro node member
    obtain ⟨name, stored⟩ := (OrderedMap.mem_values_iff _ _).1 member
    rw [Has, branches.named name node stored]
    exact stored
  have loop := @Fallible.foldlM_ok JsError INode DirectedGraph graph.addUtilityNodes
    (fun visited next => Grown graph branches next ∧
      ∀ node ∈ visited, ∀ sub, TransGen graph.Serves node sub → next.Has sub)
    branches.nodes.values branches ⟨.refl within, by simp⟩
  obtain ⟨subgraph, added, grown, served⟩ := loop fun visited node next member held => by
    obtain ⟨after, step, more, subs⟩ := addUtilityNodes_grown closed held.1.within
      (within.has (members node member))
    refine ⟨after, step, held.1.trans more, fun other inside sub chain => ?_⟩
    cases List.mem_append.1 inside with
    | inl old => exact more.kept sub (held.2 other old sub chain)
    | inr new => exact subs sub (List.mem_singleton.1 new ▸ chain)
  refine ⟨branches, subgraph, went, ?_, grown.kept, fun node sub old chain => ?_⟩
  · rw [findSubgraph, went, Fallible.ok_bind, added]
  · exact served node ((OrderedMap.mem_values_iff _ _).2 ⟨_, old⟩) sub chain

end NodeAutomation.DirectedGraph
