import NodeAutomation.Core.FindSubgraph

/-! The nodes an execution towards a destination may run: as
`WorkflowExecute.run` collects them, and as `runPartialWorkflow2` takes them
from the subgraph. -/

namespace NodeAutomation.RunNodeFilter
open ConnectedNodes Connections Relation

inductive DestinationMode where
  | inclusive
  | exclusive
  deriving DecidableEq

structure IDestinationNode where
  nodeName : String
  mode : DestinationMode
  deriving DecidableEq

/-- The filter `run` builds for a destination. -/
def runNodeFilter (workflow : Workflow) (destinationNode : IDestinationNode)
    (additionalRunFilterNodes : List String) : List String :=
  (workflow.getParentNodes destinationNode.nodeName ++
    workflow.getParentNodes destinationNode.nodeName .allNonMain ++
    (if destinationNode.mode = .inclusive then [destinationNode.nodeName] else []) ++
    additionalRunFilterNodes).eraseDups

/-- The filter `runPartialWorkflow2` builds from the subgraph. -/
def partialRunNodeFilter (subgraph : DirectedGraph) : List String :=
  subgraph.nodes.values.map INode.name

def passesRunFilter (filter : Option (List String)) (nodeName : String) : Bool :=
  match filter with
  | none => true
  | some names => names.contains nodeName

/-! Ancestors and sub-nodes, in the index by destination node. -/

/-- `parent` is connected to a main input of `node`. -/
def MainParent (workflow : Workflow) (node parent : String) : Prop :=
  Next workflow.connectionsByDestinationNode (.ofType .main) node parent

/-- `sub` is connected to an input of `node` of another type. -/
def SubNode (workflow : Workflow) (node sub : String) : Prop :=
  Next workflow.connectionsByDestinationNode .allNonMain node sub

def MainAncestor (workflow : Workflow) (node ancestor : String) : Prop :=
  ancestor ≠ node ∧ TransGen (MainParent workflow) node ancestor

theorem next_mapConnectionsByDestination_iff (connections : IConnections)
    (filter : ConnectionFilter) (node parent : String) :
    Next (mapConnectionsByDestination connections) filter node parent ↔
      ∃ link ∈ links connections, link.target.node = node ∧ filter.Admits link.target.type ∧
        link.source = parent := by
  rw [next_iff]
  refine ⟨fun h => ?_, fun h => ?_⟩
  · obtain ⟨back, member, source, admitted, target⟩ := h
    rw [mem_links_iff_mem_bucket, mem_bucket_iff] at member
    exact ⟨_, member, source, admitted, target⟩
  · obtain ⟨link, member, target, admitted, source⟩ := h
    refine ⟨⟨link.target.node, link.target.type, link.target.index, link.origin⟩, ?_, target,
      admitted, source⟩
    rw [mem_links_iff_mem_bucket]
    exact (mem_bucket_iff _ _ _).2 member

theorem mem_runNodeFilter_iff (workflow : Workflow) (destinationNode : IDestinationNode)
    (additional : List String) (name : String) :
    name ∈ runNodeFilter workflow destinationNode additional ↔
      MainAncestor workflow destinationNode.nodeName name ∨
      name ≠ destinationNode.nodeName ∧
        TransGen (SubNode workflow) destinationNode.nodeName name ∨
      destinationNode.mode = .inclusive ∧ name = destinationNode.nodeName ∨
      name ∈ additional := by
  have inclusive : name ∈ (if destinationNode.mode = .inclusive then [destinationNode.nodeName]
      else []) ↔ destinationNode.mode = .inclusive ∧ name = destinationNode.nodeName := by
    split <;> simp [*]
  simp only [runNodeFilter, List.mem_eraseDups, List.mem_append, inclusive,
    Workflow.getParentNodes, mem_getConnectedNodes, MainAncestor, or_assoc]
  rfl

def KeepsSubNodes (workflow : Workflow) (destinationNode : IDestinationNode)
    (filter : List String) : Prop :=
  ∀ ancestor, MainAncestor workflow destinationNode.nodeName ancestor →
    passesRunFilter filter ancestor = true ∧
      ∀ sub, TransGen (SubNode workflow) ancestor sub → passesRunFilter filter sub = true

/-- A sub-node of an ancestor also leads to the destination itself, is the
destination of an inclusive run, or was asked for. -/
def SubNodesShared (workflow : Workflow) (destinationNode : IDestinationNode)
    (additional : List String) : Prop :=
  ∀ ancestor, MainAncestor workflow destinationNode.nodeName ancestor →
    ∀ sub, TransGen (SubNode workflow) ancestor sub →
      MainAncestor workflow destinationNode.nodeName sub ∨
      sub ≠ destinationNode.nodeName ∧
        TransGen (SubNode workflow) destinationNode.nodeName sub ∨
      destinationNode.mode = .inclusive ∧ sub = destinationNode.nodeName ∨
      sub ∈ additional

theorem passesRunFilter_iff (filter : List String) (name : String) :
    passesRunFilter filter name = true ↔ name ∈ filter := by
  simp [passesRunFilter]

theorem runNodeFilter_keepsSubNodes_iff (workflow : Workflow) (destinationNode : IDestinationNode)
    (additional : List String) :
    KeepsSubNodes workflow destinationNode (runNodeFilter workflow destinationNode additional) ↔
      SubNodesShared workflow destinationNode additional := by
  simp only [KeepsSubNodes, passesRunFilter_iff, mem_runNodeFilter_iff, SubNodesShared]
  refine ⟨fun keeps ancestor above => (keeps ancestor above).2, fun shared ancestor above => ?_⟩
  exact ⟨.inl above, shared ancestor above⟩

/-- The filter of a partial execution passes the nodes of the branches, with their sub-nodes. -/
def PartialKeepsSubNodes (graph : DirectedGraph) (destination trigger : INode) : Prop :=
  ∃ branches subgraph, graph.findBranches destination trigger = .ok branches ∧
    graph.findSubgraph destination trigger = .ok subgraph ∧
    ∀ node sub, branches.Has node → (node = sub ∨ TransGen graph.Serves node sub) →
      passesRunFilter (partialRunNodeFilter subgraph) sub.name = true

theorem partialRunNodeFilter_subNodes {graph : DirectedGraph} (closed : graph.Closed)
    {destination : INode} (has : graph.Has destination) (trigger : INode) :
    PartialKeepsSubNodes graph destination trigger := by
  obtain ⟨branches, subgraph, wentBranches, went, kept, subs⟩ :=
    DirectedGraph.findSubgraph_grown closed has trigger
  refine ⟨branches, subgraph, wentBranches, went, fun node sub on reach => ?_⟩
  have inside : subgraph.Has sub := by
    cases reach with
    | inl same => exact kept sub (same ▸ on)
    | inr chain => exact subs node sub on chain
  rw [passesRunFilter_iff]
  exact List.mem_map_of_mem ((OrderedMap.mem_values_iff _ _).2 ⟨_, inside⟩)

def agentGraph : DirectedGraph :=
  DirectedGraph.setConnection (DirectedGraph.addNodes {} [{ name := "Agent" }, { name := "Tool" }])
    ⟨{ name := "Tool" }, { name := "Agent" }, .aiTool, 0, 0⟩

theorem agentGraph_subNodes :
    PartialKeepsSubNodes agentGraph { name := "Agent" } { name := "Agent" } :=
  partialRunNodeFilter_subNodes (by decide) (by decide) _

/-- `Agent` has a tool and feeds `Set`. -/
def agentUpstream : Workflow :=
  Workflow.new (fun _ => none)
    { nodes := [{ name := "Agent" }, { name := "Tool" }, { name := "Set" }]
      connections := .ofList [("Tool", .ofList [(.aiTool, [some [⟨"Agent", .aiTool, 0⟩]])]),
        ("Agent", .ofList [(.main, [some [⟨"Set", .main, 0⟩]])])] }

theorem agentUpstream_next {filter : ConnectionFilter} {node parent : String}
    (link : Link) (member : link ∈ links agentUpstream.connectionsBySourceNode)
    (target : link.target.node = node) (admitted : filter.Admits link.target.type)
    (source : link.source = parent) :
    Next agentUpstream.connectionsByDestinationNode filter node parent :=
  (next_mapConnectionsByDestination_iff _ _ _ _).2 ⟨link, member, target, admitted, source⟩

/-- The tool of `Agent` may not run when `Set` is the destination. -/
theorem agentUpstream_not_keepsSubNodes :
    ¬ KeepsSubNodes agentUpstream ⟨"Set", .inclusive⟩
      (runNodeFilter agentUpstream ⟨"Set", .inclusive⟩ []) := by
  intro keeps
  have above : MainAncestor agentUpstream "Set" "Agent" :=
    ⟨by decide, .single (agentUpstream_next ⟨"Agent", .main, 0, ⟨"Set", .main, 0⟩⟩ (by decide)
      rfl rfl rfl)⟩
  have below : TransGen (SubNode agentUpstream) "Agent" "Tool" :=
    .single (agentUpstream_next ⟨"Tool", .aiTool, 0, ⟨"Agent", .aiTool, 0⟩⟩ (by decide)
      rfl nofun rfl)
  have passes := (keeps "Agent" above).2 "Tool" below
  exact absurd passes (by decide)

end NodeAutomation.RunNodeFilter
