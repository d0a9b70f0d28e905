import NodeAutomation.Core.FindSubgraph
import NodeAutomation.Lib.Elimination

/-! Taking the disabled nodes out of a graph
(`partial-execution-utils/filter-disabled-nodes.ts`). Over the `Main`
connections this is elimination of vertices, as long as no two connections get
the same key. -/

namespace NodeAutomation.DirectedGraph
open Elimination

def skipNonMain (connection : GraphConnection) : Bool := decide (connection.type ≠ .main)

/-- One round of the loop. -/
def filterNode (filteredGraph : DirectedGraph) (node : INode) : Except JsError DirectedGraph := do
  if node.disabled then
    let removed ← filteredGraph.removeNodeReconnecting node skipNonMain
    return removed.1
  else return filteredGraph

def filterDisabledNodes (graph : DirectedGraph) : Except JsError DirectedGraph := do
  let filteredGraph ← graph.clone
  filteredGraph.nodes.values.foldlM filterNode filteredGraph

/-- The `Main` connections, leaving by an output and entering by an input. -/
def mainEdges (graph : DirectedGraph) : Edges INode Nat Nat := fun u outputIndex inputIndex v =>
  (⟨u, v, .main, outputIndex, inputIndex⟩ : GraphConnection) ∈ graph.getConnections

instance (graph : DirectedGraph) (u : INode) (o i : Nat) (v : INode) :
    Decidable (graph.mainEdges u o i v) :=
  inferInstanceAs (Decidable (_ ∈ _))

theorem mem_reconnections {incoming outgoing : List GraphConnection} {c : GraphConnection} :
    c ∈ reconnections skipNonMain incoming outgoing ↔ ∃ a ∈ incoming, a.type = .main ∧
      ∃ b ∈ outgoing, b.type = .main ∧
        c = ⟨a.fromNode, b.toNode, .main, a.outputIndex, b.inputIndex⟩ := by
  simp only [reconnections, skipNonMain, List.mem_flatMap, List.mem_map, List.mem_filter,
    ne_eq, decide_not, Bool.not_not, decide_eq_true_eq]
  refine ⟨fun h => ?_, fun h => ?_⟩
  · obtain ⟨a, ⟨ha, mainA⟩, b, ⟨hb, mainB⟩, eq⟩ := h
    refine ⟨a, ha, mainA, b, hb, mainB, ?_⟩
    rw [← eq, ← mainA]
  · obtain ⟨a, ha, mainA, b, hb, mainB, eq⟩ := h
    refine ⟨a, ⟨ha, mainA⟩, b, ⟨hb, mainB⟩, ?_⟩
    rw [eq, ← mainA]

def Joined (graph : DirectedGraph) (d : INode) (c : GraphConnection) : Prop :=
  c.type = .main ∧ ∃ inputIndex outputIndex,
    graph.mainEdges c.fromNode c.outputIndex inputIndex d ∧
    graph.mainEdges d outputIndex c.inputIndex c.toNode

theorem mem_reconnections_iff_joined (graph : DirectedGraph) (d : INode) (c : GraphConnection) :
    c ∈ reconnections skipNonMain (graph.getConnections.filter (·.toNode = d))
      (graph.getConnections.filter (·.fromNode = d)) ↔ Joined graph d c := by
  simp only [mem_reconnections, Joined, mainEdges, List.mem_filter, decide_eq_true_eq]
  refine ⟨fun h => ?_, fun h => ?_⟩
  · obtain ⟨a, ⟨ha, toA⟩, mainA, b, ⟨hb, fromB⟩, mainB, eq⟩ := h
    rw [eq]
    refine ⟨rfl, a.inputIndex, b.outputIndex, ?_, ?_⟩
    · rw [← toA, ← mainA]
      exact ha
    · rw [← fromB, ← mainB]
      exact hb
  · obtain ⟨type, inputIndex, outputIndex, into, out⟩ := h
    refine ⟨_, ⟨into, rfl⟩, rfl, _, ⟨out, rfl⟩, rfl, ?_⟩
    rw [← type]

section

variable {S : GraphConnection → Prop}

theorem removeNodeReconnecting_spec (separate : Separate S) {graph : DirectedGraph}
    (inside : ∀ c ∈ graph.getConnections, S c) {d : INode} (joints : ∀ c, Joined graph d c → S c)
    (has : graph.Has d) :
    ∃ next, graph.filterNode d = .ok (if d.disabled then next else graph) ∧
      next.nodes = graph.nodes.delete d.name ∧
      ∀ c, c ∈ next.getConnections ↔
        (c ∈ graph.getConnections ∧ c.fromNode ≠ d ∧ c.toNode ≠ d) ∨ Joined graph d c := by
  have parents := (getDirectParentConnections_eq_ok_iff graph d _).2 ⟨has, rfl⟩
  have children := (getDirectChildConnections_eq_ok_iff graph d _).2 ⟨has, rfl⟩
  refine ⟨((reconnections skipNonMain (graph.getConnections.filter (·.toNode = d))
    (graph.getConnections.filter (·.fromNode = d))).foldl setConnection
      (graph.dropConnectionsOf d)).deleteNode d, ?_, ?_, fun c => ?_⟩
  · unfold filterNode
    split
    · rw [removeNodeReconnecting, parents, Fallible.ok_bind, children]
      rfl
    · rfl
  · simp only [deleteNode, nodes_foldl_setConnection]
    rfl
  · have members := mem_foldl_setConnection separate
      (reconnections skipNonMain (graph.getConnections.filter (·.toNode = d))
        (graph.getConnections.filter (·.fromNode = d)))
      (fun c member => joints c ((mem_reconnections_iff_joined graph d c).1 member))
      (graph.dropConnectionsOf d)
      (fun c member => inside c ((mem_dropConnectionsOf graph d c).1 member).1) c
    rw [mem_reconnections_iff_joined, mem_dropConnectionsOf] at members
    exact members.trans or_comm

theorem mainEdges_eliminate {graph next : DirectedGraph} {d : INode}
    (members : ∀ c, c ∈ next.getConnections ↔
      (c ∈ graph.getConnections ∧ c.fromNode ≠ d ∧ c.toNode ≠ d) ∨ Joined graph d c) :
    next.mainEdges = eliminate graph.mainEdges d := by
  funext u outputIndex inputIndex v
  rw [mainEdges, members]
  simp only [eliminate, Joined, true_and]
  rfl

theorem mem_nonMain {graph next : DirectedGraph} {d : INode}
    (members : ∀ c, c ∈ next.getConnections ↔
      (c ∈ graph.getConnections ∧ c.fromNode ≠ d ∧ c.toNode ≠ d) ∨ Joined graph d c)
    {c : GraphConnection} (type : c.type ≠ .main) :
    c ∈ next.getConnections ↔ c ∈ graph.getConnections ∧ c.fromNode ≠ d ∧ c.toNode ≠ d := by
  rw [members]
  simp only [Joined, type, false_and, or_false]

end

def disabledNodes (graph : DirectedGraph) : List INode :=
  graph.nodes.values.filter (·.disabled)

/-- The connections the filter may ever store: those of the graph, and the
`Main` chains through its disabled nodes. -/
def Bridged (graph : DirectedGraph) (c : GraphConnection) : Prop :=
  c ∈ graph.getConnections ∨ c.type = .main ∧
    Chain graph.mainEdges (anyPort (· ∈ graph.disabledNodes)) c.fromNode c.outputIndex
      c.inputIndex c.toNode

def KeysSeparate (graph : DirectedGraph) : Prop := Separate graph.Bridged

theorem bridged_iff_chain (graph : DirectedGraph) {c : GraphConnection} (type : c.type = .main) :
    graph.Bridged c ↔ Chain graph.mainEdges (anyPort (· ∈ graph.disabledNodes)) c.fromNode
      c.outputIndex c.inputIndex c.toNode := by
  refine ⟨fun h => h.elim (fun member => .edge ?_) And.right, fun chain => .inr ⟨type, chain⟩⟩
  rw [mainEdges, ← type]
  exact member

/-- The state of the loop when `removed` has been taken out. -/
structure Filtered (graph : DirectedGraph) (removed : List INode) (now : DirectedGraph) : Prop where
  nodes : ∀ name, now.nodes.get name =
    if name ∈ removed.map INode.name then none else graph.nodes.get name
  main : now.mainEdges = eliminateAll graph.mainEdges removed
  others : ∀ c, c.type ≠ .main → (c ∈ now.getConnections ↔
    c ∈ graph.getConnections ∧ c.fromNode ∉ removed ∧ c.toNode ∉ removed)

theorem Filtered.bridged {graph now : DirectedGraph} {removed : List INode}
    (state : Filtered graph removed now) (known : ∀ d ∈ removed, d ∈ graph.disabledNodes)
    {c : GraphConnection} (member : c ∈ now.getConnections) : graph.Bridged c := by
  by_cases type : c.type = .main
  · rw [bridged_iff_chain graph type]
    apply chain_of_eliminateAll known
    rw [← state.main, mainEdges, ← type]
    exact member
  · exact .inl ((state.others c type).1 member).1

theorem Filtered.step {graph now : DirectedGraph} (separate : graph.KeysSeparate)
    {removed : List INode} (state : Filtered graph removed now)
    (known : ∀ d ∈ removed, d ∈ graph.disabledNodes) {d : INode} (disabled : d ∈ graph.disabledNodes)
    (new : d.name ∉ removed.map INode.name) :
    ∃ next, now.filterNode d = .ok next ∧ Filtered graph (removed ++ [d]) next := by
  obtain ⟨stored, flag⟩ := List.mem_filter.1 disabled
  obtain ⟨name, found⟩ := (OrderedMap.mem_values_iff _ _).1 stored
  have named := graph.named name d found
  have has : now.Has d := by
    rw [Has, state.nodes, if_neg new, named]
    exact found
  have joints : ∀ c, Joined now d c → graph.Bridged c := by
    intro c joint
    obtain ⟨type, _, _, into, out⟩ := joint
    have first := (bridged_iff_chain graph rfl).1 (state.bridged known into)
    have second := (bridged_iff_chain graph rfl).1 (state.bridged known out)
    exact (bridged_iff_chain graph type).2 (first.trans disabled second)
  obtain ⟨next, went, nodes, members⟩ := removeNodeReconnecting_spec separate
    (fun c member => state.bridged known member) joints has
  refine ⟨next, by rw [went, if_pos flag], fun name => ?_, ?_, fun c type => ?_⟩
  · rw [nodes, OrderedMap.get_delete, state.nodes]
    simp only [List.map_append, List.mem_append, List.map_cons, List.map_nil, List.mem_singleton]
    by_cases old : name ∈ removed.map INode.name <;> simp [old]
  · rw [mainEdges_eliminate members, state.main, eliminateAll, eliminateAll, List.foldl_append]
    rfl
  · rw [mem_nonMain members type, state.others c type]
    simp only [List.mem_append, List.mem_singleton, not_or]
    tauto

theorem foldlM_filterNode {graph : DirectedGraph} (separate : graph.KeysSeparate)
    (nodes : List INode) (real : ∀ node ∈ nodes, node ∈ graph.nodes.values)
    (distinct : (nodes.map INode.name).Nodup) (removed : List INode) (now : DirectedGraph)
    (state : Filtered graph removed now) (known : ∀ d ∈ removed, d ∈ graph.disabledNodes)
    (new : ∀ node ∈ nodes, node.name ∉ removed.map INode.name) :
    ∃ next, nodes.foldlM filterNode now = .ok next ∧
      Filtered graph (removed ++ nodes.filter (·.disabled)) next := by
  induction nodes generalizing removed now with
  | nil => exact ⟨now, rfl, by simpa using state⟩
  | cons node nodes ih =>
    rw [List.map_cons, List.nodup_cons] at distinct
    have realLater := fun n member => real n (List.mem_cons_of_mem node member)
    rw [List.foldlM_cons, List.filter_cons]
    split
    · rename_i flag
      have disabled : node ∈ graph.disabledNodes :=
        List.mem_filter.2 ⟨real node List.mem_cons_self, flag⟩
      obtain ⟨next, went, after⟩ := state.step separate known disabled (new node List.mem_cons_self)
      obtain ⟨last, rest, final⟩ := ih realLater distinct.2 (removed ++ [node]) next after
        (fun d member => (List.mem_append.1 member).elim (known d) fun same =>
          List.mem_singleton.1 same ▸ disabled)
        (fun n member => by
          rw [List.map_append, List.mem_append, not_or]
          refine ⟨new n (List.mem_cons_of_mem node member), fun same => distinct.1 ?_⟩
          have eq : n.name = node.name := by simpa using same
          exact eq ▸ List.mem_map_of_mem member)
      refine ⟨last, by rw [went, Fallible.ok_bind, rest], ?_⟩
      simpa using final
    · rename_i flag
      have went : now.filterNode node = .ok now := by
        rw [filterNode, if_neg flag]
        rfl
      rw [went, Fallible.ok_bind]
      exact ih realLater distinct.2 removed now state known
        fun n member => new n (List.mem_cons_of_mem node member)

theorem names_values_nodup (graph : DirectedGraph) :
    (graph.nodes.values.map INode.name).Nodup := by
  have names : graph.nodes.values.map INode.name = graph.nodes.keys := by
    rw [OrderedMap.values, OrderedMap.keys, List.map_map]
    apply List.map_congr_left
    intro entry member
    exact graph.named entry.1 entry.2 ((graph.nodes.get_eq_some_iff _ _).2 member)
  rw [names]
  exact graph.nodes.nodup

theorem filterDisabledNodes_spec {graph : DirectedGraph} (separate : graph.KeysSeparate)
    (closed : graph.Closed) :
    ∃ result, graph.filterDisabledNodes = .ok result ∧
      Filtered graph graph.disabledNodes result := by
  rw [filterDisabledNodes, (clone_eq_ok_iff graph graph).2 ⟨closed, rfl⟩, Fallible.ok_bind]
  have start : Filtered graph [] graph := ⟨by simp, rfl, by simp⟩
  have loop := foldlM_filterNode separate graph.nodes.values (fun _ member => member)
    (names_values_nodup graph) [] graph start (by simp) (by simp)
  simpa [disabledNodes] using loop

theorem chain_ends {graph : DirectedGraph} {pass : INode → Nat → Nat → Prop} {u v : INode}
    {o i : Nat} (chain : Chain graph.mainEdges pass u o i v) :
    (∃ i' w, graph.mainEdges u o i' w) ∧ ∃ o' w, graph.mainEdges w o' i v := by
  induction chain with
  | edge e => exact ⟨⟨_, _, e⟩, ⟨_, _, e⟩⟩
  | through _ _ e ih => exact ⟨ih.1, ⟨_, _, e⟩⟩

theorem Closed.bridged {graph : DirectedGraph} (closed : graph.Closed) {c : GraphConnection}
    (bridged : graph.Bridged c) : graph.Has c.fromNode ∧ graph.Has c.toNode := by
  cases bridged with
  | inl member => exact closed c member
  | inr chain =>
    obtain ⟨⟨_, _, first⟩, ⟨_, _, last⟩⟩ := chain_ends chain.2
    exact ⟨(closed _ first).1, (closed _ last).2⟩

theorem keysSeparate_of_noDash {graph : DirectedGraph} (closed : graph.Closed)
    (noDash : ∀ node ∈ graph.nodes.values, '-' ∉ node.name.toList) : graph.KeysSeparate := by
  intro a b ha hb same
  have endsA := closed.bridged ha
  have endsB := closed.bridged hb
  have known : ∀ node, graph.Has node → node ∈ graph.nodes.values := fun node has =>
    (OrderedMap.mem_values_iff _ _).2 ⟨_, has⟩
  have link := link_eq_of_makeKey_eq (noDash _ (known _ endsA.1)) (noDash _ (known _ endsB.1)) same
  simp only [GraphConnection.link, GraphConnection.target, Connections.Link.mk.injEq,
    IConnection.mk.injEq] at link
  have from_ := eq_of_name_eq endsA.1 endsB.1 link.1
  have to_ := eq_of_name_eq endsA.2 endsB.2 link.2.2.2.1
  cases a
  cases b
  simp_all

theorem closed_of_filterDisabledNodes {graph result : DirectedGraph}
    (went : graph.filterDisabledNodes = .ok result) : graph.Closed := by
  obtain ⟨copy, cloned, _⟩ := (Fallible.bind_eq_ok_iff _ _ _).1 went
  exact ((clone_eq_ok_iff graph copy).1 cloned).1

/-- No disabled node is left, nothing dangles, enabled nodes are connected as
they were through disabled ones, and `findSubgraph` can run. -/
structure WellFiltered (graph result : DirectedGraph) : Prop where
  enabled : ∀ node, result.Has node → node.disabled = false
  closed : result.Closed
  flow : ∀ u v : INode, u.disabled = false → v.disabled = false →
    ((∃ o i, result.mainEdges u o i v) ↔
      ∃ o i, Chain graph.mainEdges (anyPort (· ∈ graph.disabledNodes)) u o i v)
  searchable : ∀ destination trigger, result.Has destination →
    ∃ subgraph, result.findSubgraph destination trigger = .ok subgraph

/-- No disabled node leads back to itself through disabled nodes. -/
def NoDisabledCycle (graph : DirectedGraph) : Prop :=
  Acyclic graph.mainEdges (· ∈ graph.disabledNodes)

section

variable {graph result : DirectedGraph}

theorem not_mem_disabledNodes {node : INode} (enabled : node.disabled = false) :
    node ∉ graph.disabledNodes := by
  intro member
  have flag : node.disabled = true := (List.mem_filter.1 member).2
  simp [enabled] at flag

theorem has_of_mem_disabledNodes {node : INode} (member : node ∈ graph.disabledNodes) :
    graph.Has node := by
  obtain ⟨name, stored⟩ := (OrderedMap.mem_values_iff _ _).1 (List.mem_filter.1 member).1
  rw [Has, graph.named name node stored]
  exact stored

theorem mem_disabledNodes {node : INode} (has : graph.Has node) (disabled : node.disabled = true) :
    node ∈ graph.disabledNodes :=
  List.mem_filter.2 ⟨(OrderedMap.mem_values_iff _ _).2 ⟨_, has⟩, disabled⟩

section

variable (state : Filtered graph graph.disabledNodes result)
include state

theorem Filtered.has_iff (node : INode) :
    result.Has node ↔ graph.Has node ∧ node.disabled = false := by
  rw [Has, state.nodes]
  split
  · rename_i gone
    obtain ⟨d, member, same⟩ := List.mem_map.1 gone
    refine ⟨fun absent => ?_, fun h => ?_⟩
    · cases absent
    · have eq := eq_of_name_eq (has_of_mem_disabledNodes member) h.1 same
      exact absurd (eq ▸ member) (not_mem_disabledNodes h.2)
  · rename_i kept
    refine ⟨fun has => ⟨has, ?_⟩, And.left⟩
    cases flag : node.disabled with
    | false => rfl
    | true => exact absurd (List.mem_map_of_mem (mem_disabledNodes has flag)) kept

theorem Filtered.mainEdges_iff {u v : INode}
    (hu : u.disabled = false) (hv : v.disabled = false) (o i : Nat) :
    result.mainEdges u o i v ↔
      Chain graph.mainEdges (anyPort (· ∈ graph.disabledNodes)) u o i v := by
  rw [state.main]
  exact eliminateAll_iff _ _ (not_mem_disabledNodes hu) (not_mem_disabledNodes hv)

theorem Filtered.closed_iff
    (closed : graph.Closed) : result.Closed ↔ graph.NoDisabledCycle := by
  rw [NoDisabledCycle, ← closed_iff_acyclic, ← state.main]
  refine ⟨fun closedAfter d member u o i v edge => ?_, fun avoids c member => ?_⟩
  · have ends := closedAfter _ edge
    have enabledU := ((state.has_iff u).1 ends.1).2
    have enabledV := ((state.has_iff v).1 ends.2).2
    exact ⟨fun same => not_mem_disabledNodes enabledU (same ▸ member),
      fun same => not_mem_disabledNodes enabledV (same ▸ member)⟩
  · have ends := closed.bridged (state.bridged (fun _ h => h) member)
    have away : c.fromNode ∉ graph.disabledNodes ∧ c.toNode ∉ graph.disabledNodes := by
      by_cases type : c.type = .main
      · have edge : result.mainEdges c.fromNode c.outputIndex c.inputIndex c.toNode := by
          rw [mainEdges, ← type]
          exact member
        exact ⟨fun gone => (avoids _ gone _ _ _ _ edge).1 rfl,
          fun gone => (avoids _ gone _ _ _ _ edge).2 rfl⟩
      · exact ((state.others c type).1 member).2
    have flag : ∀ node, graph.Has node → node ∉ graph.disabledNodes → node.disabled = false := by
      intro node has kept
      cases disabled : node.disabled with
      | false => rfl
      | true => exact absurd (mem_disabledNodes has disabled) kept
    exact ⟨(state.has_iff _).2 ⟨ends.1, flag _ ends.1 away.1⟩,
      (state.has_iff _).2 ⟨ends.2, flag _ ends.2 away.2⟩⟩

theorem Filtered.wellFiltered_iff
    (closed : graph.Closed) : WellFiltered graph result ↔ graph.NoDisabledCycle := by
  rw [← state.closed_iff closed]
  refine ⟨WellFiltered.closed, fun closedAfter => ⟨fun node has => ((state.has_iff node).1 has).2,
    closedAfter, fun u v hu hv => ?_, fun destination trigger has => ?_⟩⟩
  · simp only [state.mainEdges_iff hu hv]
  · obtain ⟨_, subgraph, _, went, _⟩ := findSubgraph_grown closedAfter has trigger
    exact ⟨subgraph, went⟩

end

end

theorem wellFiltered_of_noDisabledCycle {graph : DirectedGraph} (separate : graph.KeysSeparate)
    (closed : graph.Closed) (noCycle : graph.NoDisabledCycle) :
    ∃ result, graph.filterDisabledNodes = .ok result ∧ WellFiltered graph result := by
  obtain ⟨result, went, state⟩ := filterDisabledNodes_spec separate closed
  exact ⟨result, went, (state.wellFiltered_iff closed).2 noCycle⟩

theorem noDisabledCycle_of_wellFiltered {graph result : DirectedGraph}
    (separate : graph.KeysSeparate) (went : graph.filterDisabledNodes = .ok result)
    (well : WellFiltered graph result) : graph.NoDisabledCycle := by
  have closed := closed_of_filterDisabledNodes went
  obtain ⟨same, went', state⟩ := filterDisabledNodes_spec separate closed
  rw [went] at went'
  cases went'
  exact (state.wellFiltered_iff closed).1 well

/-- `Loop` is disabled and feeds itself, between `Start` and `End`. -/
def loopGraph : DirectedGraph :=
  let start : INode := { name := "Start" }
  let loop : INode := { name := "Loop", disabled := true }
  let end_ : INode := { name := "End" }
  [(⟨start, loop, .main, 0, 0⟩ : GraphConnection), ⟨loop, loop, .main, 1, 0⟩,
    ⟨loop, end_, .main, 0, 0⟩].foldl setConnection (addNodes {} [start, loop, end_])

theorem loopGraph_keysSeparate : loopGraph.KeysSeparate :=
  keysSeparate_of_noDash (by decide) (by decide)

def rowGraph : DirectedGraph :=
  let start : INode := { name := "Start" }
  let first : INode := { name := "First", disabled := true }
  let second : INode := { name := "Second", disabled := true }
  let end_ : INode := { name := "End" }
  [(⟨start, first, .main, 0, 0⟩ : GraphConnection), ⟨first, second, .main, 0, 1⟩,
    ⟨second, end_, .main, 0, 0⟩].foldl setConnection (addNodes {} [start, first, second, end_])

theorem rowGraph_noDisabledCycle : rowGraph.NoDisabledCycle := by
  have climbs : ∀ c ∈ rowGraph.getConnections, c.fromNode ∈ rowGraph.disabledNodes →
      c.toNode ∈ rowGraph.disabledNodes →
      c.fromNode.name.length < c.toNode.name.length := by decide
  exact acyclic_of_rank (fun node => node.name.length) fun u o i v hu hv edge =>
    climbs _ edge hu hv

end NodeAutomation.DirectedGraph
