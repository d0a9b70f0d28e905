import NodeAutomation.Core.Descendants
import NodeAutomation.Core.FindSubgraph
import NodeAutomation.Workflow.ExtractReferences

/-! A tool that is run on its own
(`packages/core/src/execution-engine/partial-execution-utils/rewire-graph.ts`). A tool executor takes
the place of the agent at the root of the tool. -/

namespace NodeAutomation

def TOOL_EXECUTOR_NODE_NAME : String := "PartialExecutionToolExecutor"

structure AgentRequestTool where
  name : String

structure AiAgentRequest where
  query : List (String × JsValue)
  tool : AgentRequestTool

namespace JsValue

mutual

/-- `JSON.stringify`: an undefined field is left out, an undefined element is `null`. -/
def stringify : JsValue → Option String
  | .undefined => none
  | .null => some "null"
  | .bool value => some (if value then "true" else "false")
  | .number value => some (toString value)
  | .string value => some (quote value)
  | .array values => some ("[" ++ ",".intercalate (stringifyElements values) ++ "]")
  | .object fields => some ("\x7b" ++ ",".intercalate (stringifyFields fields) ++ "\x7d")

def stringifyElements : List JsValue → List String
  | [] => []
  | value :: values => (stringify value).getD "null" :: stringifyElements values

def stringifyFields : List (String × JsValue) → List String
  | [] => []
  | (name, value) :: fields => match stringify value with
    | none => stringifyFields fields
    | some text => (quote name ++ ":" ++ text) :: stringifyFields fields

end

end JsValue

namespace DirectedGraph

open Fallible

def toolExecutor (tool : INode) (agentRequest : Option AiAgentRequest) : INode where
  name := TOOL_EXECUTOR_NODE_NAME
  disabled := false
  type := "@n8n/n8n-nodes-langchain.toolExecutor"
  parameters := .object
    [("query", .string (((JsValue.object ((agentRequest.map (·.query)).getD [])).stringify).getD "")),
      ("toolName", .string ((agentRequest.map (·.tool.name)).getD "")),
      ("node", .string tool.name)]
  typeVersion := 0
  position := (0, 0)

/-- The graph, and `rewireOutputLogTo` of its nodes, a field that is set on the tool. -/
def rewireGraph (tool : INode) (graph : DirectedGraph) (agentRequest : Option AiAgentRequest)
    (rewireOutputLogTo : OrderedMap String NodeConnectionType) :
    Except JsError (DirectedGraph × OrderedMap String NodeConnectionType) := do
  let modifiedGraph ← graph.clone
  let children ← modifiedGraph.getChildren tool
  match children.elems.getLast? with
  | none => return (graph, rewireOutputLogTo)
  | some rootNode =>
    let parents ← modifiedGraph.getDirectParentConnections rootNode
    let allIncomingConnection := parents.filter (·.type = .main)
    let executor := toolExecutor tool agentRequest
    let withExecutor ← (modifiedGraph.addNode executor).addConnection
      { fromNode := tool, toNode := executor, type := .aiTool }
    let rewired ← withExecutor.addConnections (allIncomingConnection.map fun cn =>
      { fromNode := cn.fromNode, toNode := executor, type := cn.type })
    return (rewired.removeNode rootNode, rewireOutputLogTo.set tool.name .aiTool)

theorem eq_of_dash_append {a a' b b' : List Char} (hb : '-' ∉ b) (hb' : '-' ∉ b')
    (eq : a ++ '-' :: b = a' ++ '-' :: b') : a = a' ∧ b = b' := by
  have turned := congrArg List.reverse eq
  simp only [List.reverse_append, List.reverse_cons, List.append_assoc, List.singleton_append] at turned
  obtain ⟨second, first⟩ := eq_of_append_dash (by simpa using hb) (by simpa using hb') turned
  exact ⟨List.reverse_inj.1 first, List.reverse_inj.1 second⟩

theorem source_eq_of_makeKey_eq {a b : GraphConnection} (output : a.outputIndex = b.outputIndex)
    (input : a.inputIndex = b.inputIndex) (target : a.toNode = b.toNode) (same : a.makeKey = b.makeKey) :
    a.fromNode.name = b.fromNode.name ∧ a.type = b.type := by
  have chars := congrArg String.toList same
  have dash : "-".toList = ['-'] := rfl
  simp only [GraphConnection.makeKey, String.toList_append, output, input, target, List.append_cancel_right_eq] at chars
  simp only [dash, List.append_assoc, List.singleton_append] at chars
  obtain ⟨source, type⟩ := eq_of_dash_append (dash_not_mem_text _) (dash_not_mem_text _) chars
  exact ⟨String.toList_inj.1 source, text_injective type⟩

theorem mem_foldl_setConnection_of_injective (connections : List GraphConnection) (graph : DirectedGraph)
    (separate : ∀ a ∈ connections, ∀ b ∈ connections, a.makeKey = b.makeKey → a = b) (x : GraphConnection) :
    x ∈ (connections.foldl setConnection graph).getConnections ↔
      x ∈ connections ∨ (∀ a ∈ connections, x.makeKey ≠ a.makeKey) ∧ x ∈ graph.getConnections := by
  induction connections generalizing graph with
  | nil => simp
  | cons connection connections ih =>
    rw [List.foldl_cons, ih _ fun a ha b hb => separate a (List.mem_cons_of_mem _ ha) b (List.mem_cons_of_mem _ hb),
      mem_setConnection]
    rw [List.forall_mem_cons, List.mem_cons]
    by_cases later : x ∈ connections
    · simp [later]
    · by_cases now : x = connection
      · by_cases again : ∃ a ∈ connections, x.makeKey = a.makeKey
        · obtain ⟨a, member, key⟩ := again
          have equal := separate connection List.mem_cons_self a (List.mem_cons_of_mem _ member) (now ▸ key)
          exact absurd (now.trans equal ▸ member) later
        · simp only [not_exists, not_and] at again
          exact ⟨fun _ => .inl (.inl now), fun _ => .inr ⟨again, .inl now⟩⟩
      · simp only [later, now, false_or]
        tauto

variable {graph result : DirectedGraph} {tool root executor : INode} {agentRequest : Option AiAgentRequest}
  {log : OrderedMap String NodeConnectionType}

def added (graph : DirectedGraph) (tool root executor : INode) : List GraphConnection :=
  { fromNode := tool, toNode := executor, type := .aiTool } ::
    ((graph.getConnections.filter (·.toNode = root)).filter (·.type = .main)).map fun cn =>
      { fromNode := cn.fromNode, toNode := executor, type := cn.type }

theorem mem_added {c : GraphConnection} : c ∈ graph.added tool root executor ↔
    c = { fromNode := tool, toNode := executor, type := .aiTool } ∨
      ∃ cn ∈ graph.getConnections, cn.toNode = root ∧ cn.type = .main ∧
        c = { fromNode := cn.fromNode, toNode := executor, type := .main } := by
  simp only [added, List.mem_cons, List.mem_map, List.mem_filter, decide_eq_true_eq, and_assoc]
  refine or_congr_right (exists_congr fun cn => and_congr_right fun _ => and_congr_right fun _ => ?_)
  constructor
  · intro h
    obtain ⟨main, rfl⟩ := h
    exact ⟨main, by rw [main]⟩
  · intro h
    obtain ⟨main, rfl⟩ := h
    exact ⟨main, by rw [main]⟩

theorem ports_added {c : GraphConnection} (member : c ∈ graph.added tool root executor) :
    c.outputIndex = 0 ∧ c.inputIndex = 0 ∧ c.toNode = executor := by
  cases mem_added.1 member with
  | inl first => exact first ▸ ⟨rfl, rfl, rfl⟩
  | inr other =>
    obtain ⟨_, _, _, _, rfl⟩ := other
    exact ⟨rfl, rfl, rfl⟩

theorem injective_added (closed : graph.Closed) (has : graph.Has tool) :
    ∀ a ∈ graph.added tool root executor, ∀ b ∈ graph.added tool root executor, a.makeKey = b.makeKey → a = b := by
  have source (c : GraphConnection) (member : c ∈ graph.added tool root executor) : graph.Has c.fromNode := by
    cases mem_added.1 member with
    | inl first => exact first ▸ has
    | inr other =>
      obtain ⟨cn, real, _, _, rfl⟩ := other
      exact (closed cn real).1
  intro a ha b hb same
  obtain ⟨outputA, inputA, targetA⟩ := ports_added ha
  obtain ⟨outputB, inputB, targetB⟩ := ports_added hb
  obtain ⟨name, type⟩ := source_eq_of_makeKey_eq (outputA.trans outputB.symm) (inputA.trans inputB.symm)
    (targetA.trans targetB.symm) same
  have node := eq_of_name_eq (source a ha) (source b hb) name
  cases a
  cases b
  simp_all

def replaced (graph : DirectedGraph) (tool root executor : INode) : DirectedGraph :=
  ((graph.added tool root executor).foldl setConnection (graph.addNode executor)).removeNode root

theorem mem_replaced (closed : graph.Closed) (has : graph.Has tool) (x : GraphConnection) :
    x ∈ (graph.replaced tool root executor).getConnections ↔
      (x ∈ graph.added tool root executor ∨
        (∀ a ∈ graph.added tool root executor, x.makeKey ≠ a.makeKey) ∧ x ∈ graph.getConnections) ∧
      x.fromNode ≠ root ∧ x.toNode ≠ root := by
  have all := mem_foldl_setConnection_of_injective (graph.added tool root executor) (graph.addNode executor)
    (injective_added closed has) x
  exact (mem_dropConnectionsOf _ root x).trans (and_congr_left fun _ => all)

theorem has_replaced (node : INode) : (graph.replaced tool root executor).Has node ↔
    node.name ≠ root.name ∧ (if node.name = executor.name then node = executor else graph.Has node) := by
  have nodes : (graph.replaced tool root executor).nodes = (graph.nodes.set executor.name executor).delete root.name := by
    exact congrArg (OrderedMap.delete · root.name)
      (nodes_foldl_setConnection (graph.added tool root executor) (graph.addNode executor))
  rw [Has, nodes, OrderedMap.get_delete, OrderedMap.get_set]
  by_cases gone : node.name = root.name
  · simp [gone]
  · rw [if_neg gone]
    split
    · simp [gone, eq_comm]
    · simp [gone, Has]

theorem has_of_getChildren {node : INode} {children : OrderedSet INode} (went : graph.getChildren node = .ok children) :
    graph.Has node := by
  obtain ⟨direct, found, _⟩ := (bind_eq_ok_iff _ _ _).1 went
  exact ((getDirectChildConnections_eq_ok_iff graph node direct).1 found).1

theorem has_of_below (closed : graph.Closed) {node below : INode} (path : graph.Below node below) : graph.Has below := by
  obtain ⟨_, _, step⟩ := Relation.TransGen.tail'_iff.1 path
  obtain ⟨connection, real, _, rfl⟩ := mem_children.1 step
  exact (closed connection real).2

theorem below_of_last (closed : graph.Closed) {children : OrderedSet INode}
    (went : graph.getChildren tool = .ok children) (last : children.elems.getLast? = some root) :
    graph.Below tool root := by
  obtain ⟨found, went', below⟩ := getChildren_spec (fun c real _ => (closed c real).2) (has_of_getChildren went)
  rw [went] at went'
  cases went'
  exact (below root).1 (List.mem_of_getLast? last)

theorem name_ne_of_unused {name : String} (unused : graph.nodes.get name = none) {node : INode} (has : graph.Has node) :
    node.name ≠ name := by
  intro same
  simp [Has, same, unused] at has

theorem has_addNode_of_unused {node : INode} (unused : graph.nodes.get executor.name = none) (has : graph.Has node) :
    (graph.addNode executor).Has node := by
  rw [Has, addNode, OrderedMap.get_set_of_ne _ _ (name_ne_of_unused unused has)]
  exact has

theorem rewireGraph_eq (closed : graph.Closed) {children : OrderedSet INode}
    (below : graph.getChildren tool = .ok children) (last : children.elems.getLast? = some root)
    (unused : graph.nodes.get TOOL_EXECUTOR_NODE_NAME = none) :
    rewireGraph tool graph agentRequest log =
      .ok (graph.replaced tool root (toolExecutor tool agentRequest), log.set tool.name .aiTool) := by
  have hasTool := has_of_getChildren below
  have hasRoot := has_of_below closed (below_of_last closed below last)
  have here : (graph.addNode (toolExecutor tool agentRequest)).Has (toolExecutor tool agentRequest) :=
    OrderedMap.get_set_self _ _ _
  have kept {node : INode} (has : graph.Has node) : (graph.addNode (toolExecutor tool agentRequest)).Has node :=
    has_addNode_of_unused unused has
  have first := (addConnection_eq_ok_iff (graph.addNode (toolExecutor tool agentRequest)) _
    { fromNode := tool, toNode := toolExecutor tool agentRequest, type := .aiTool }).2 ⟨⟨kept hasTool, here⟩, rfl⟩
  have parents := (getDirectParentConnections_eq_ok_iff graph root _).2 ⟨hasRoot, rfl⟩
  rw [rewireGraph, (clone_eq_ok_iff graph graph).2 ⟨closed, rfl⟩, ok_bind, below, ok_bind, last]
  dsimp only
  rw [parents, ok_bind, first, ok_bind, (addConnections_eq_ok_iff _ _ _).2 ⟨?_, rfl⟩, ok_bind]
  · rfl
  · intro c member
    obtain ⟨cn, incoming, rfl⟩ := List.mem_map.1 member
    have real := (List.mem_filter.1 (List.mem_filter.1 incoming).1).1
    exact ⟨kept (closed cn real).1, here⟩

/-- The executor is there for the root, and gets what comes in at its `Main` inputs. All other nodes
stay with all connections between them, those below the root among them. -/
structure RootReplaced (graph result : DirectedGraph) (tool root executor : INode) : Prop where
  served : Relation.TransGen graph.Serves root tool
  inside : graph.Has root
  new : graph.nodes.get executor.name = none
  nodes : ∀ node, result.Has node ↔ node = executor ∨ graph.Has node ∧ node ≠ root
  entered : ∀ c ∈ graph.getConnections, c.toNode = root → c.type = .main → ∃ c' ∈ result.getConnections,
    c'.fromNode = c.fromNode ∧ c'.type = .main ∧ c'.outputIndex = c.outputIndex ∧ c'.toNode = executor
  intact : ∀ c ∈ graph.getConnections, c.fromNode ≠ root → c.toNode ≠ root → c ∈ result.getConnections

/-- The node that is entered last below the tool is one the tool serves. Its `Main` connections come
from the first outputs of other nodes, and neither the name of the executor nor the keys of its
connections are in use. -/
structure Replaceable (graph : DirectedGraph) (tool root executor : INode) : Prop where
  closed : graph.Closed
  last : ∃ children, graph.getChildren tool = .ok children ∧ children.elems.getLast? = some root
  served : Relation.TransGen graph.Serves root tool
  incoming : ∀ c ∈ graph.getConnections, c.toNode = root → c.type = .main → c.fromNode ≠ root ∧ c.outputIndex = 0
  unused : graph.nodes.get executor.name = none
  apart : ∀ c ∈ graph.getConnections, c.fromNode ≠ root → c.toNode ≠ root →
    ∀ a ∈ graph.added tool root executor, c.makeKey ≠ a.makeKey

theorem Replaceable.rootReplaced (h : Replaceable graph tool root executor) :
    RootReplaced graph (graph.replaced tool root executor) tool root executor := by
  obtain ⟨children, went, last⟩ := h.last
  have hasTool := has_of_getChildren went
  have hasRoot := has_of_below h.closed (below_of_last h.closed went last)
  have other := name_ne_of_unused h.unused hasRoot
  refine ⟨h.served, hasRoot, h.unused, fun node => ?_, fun c real into main => ?_, fun c real from_ to_ => ?_⟩
  · rw [has_replaced]
    constructor
    · intro inside
      by_cases same : node.name = executor.name
      · rw [if_pos same] at inside
        exact .inl inside.2
      · rw [if_neg same] at inside
        exact .inr ⟨inside.2, fun root => inside.1 (congrArg INode.name root)⟩
    · intro inside
      cases inside with
      | inl same => exact ⟨fun name => other (name.symm.trans (congrArg INode.name same)),
          by rw [if_pos (congrArg INode.name same), same]⟩
      | inr stays => exact ⟨fun name => stays.2 (eq_of_name_eq stays.1 hasRoot name),
          by rw [if_neg (name_ne_of_unused h.unused stays.1)]; exact stays.1⟩
  · obtain ⟨away, first⟩ := h.incoming c real into main
    refine ⟨{ fromNode := c.fromNode, toNode := executor, type := .main }, ?_, rfl, rfl, first.symm, rfl⟩
    refine (mem_replaced h.closed hasTool _).2 ⟨.inl (mem_added.2 (.inr ⟨c, real, into, main, rfl⟩)), away, ?_⟩
    exact fun same => other (congrArg INode.name same.symm)
  · exact (mem_replaced h.closed hasTool c).2 ⟨.inr ⟨h.apart c real from_ to_, real⟩, from_, to_⟩

theorem RootReplaced.root_eq {last : INode} (h : RootReplaced graph (graph.replaced tool last executor) tool root executor)
    (hasLast : graph.Has last) : root = last := by
  have other := name_ne_of_unused h.new h.inside
  by_contra different
  have stays : (graph.replaced tool last executor).Has root := by
    rw [has_replaced, if_neg other]
    exact ⟨fun same => different (eq_of_name_eq h.inside hasLast same), h.inside⟩
  cases (h.nodes root).1 stays with
  | inl same => exact other (congrArg INode.name same)
  | inr away => exact away.2 rfl

theorem RootReplaced.replaceable (h : RootReplaced graph (graph.replaced tool root executor) tool root executor)
    (closed : graph.Closed) {children : OrderedSet INode} (went : graph.getChildren tool = .ok children)
    (last : children.elems.getLast? = some root) : Replaceable graph tool root executor := by
  have hasTool := has_of_getChildren went
  have old (c : GraphConnection) (real : c ∈ graph.getConnections) : c.toNode ≠ executor := fun same =>
    name_ne_of_unused h.new (closed c real).2 (congrArg INode.name same)
  refine ⟨closed, ⟨children, went, last⟩, h.served, fun c real into main => ?_, h.new, fun c real from_ to_ => ?_⟩
  · obtain ⟨c', there, from_, _, output, to_⟩ := h.entered c real into main
    obtain ⟨origin, away⟩ := (mem_replaced closed hasTool c').1 there
    refine ⟨from_ ▸ away.1, ?_⟩
    cases origin with
    | inl new => exact output.symm.trans (ports_added new).1
    | inr kept => exact absurd to_ (old c' kept.2)
  · obtain ⟨origin, _⟩ := (mem_replaced closed hasTool c).1 (h.intact c real from_ to_)
    cases origin with
    | inl new => exact absurd (ports_added new).2.2 (old c real)
    | inr kept => exact kept.1

/-- The root is replaced, and nothing else, exactly where the last node below the tool is one that the
tool serves, and nothing stands in the way of the executor. -/
theorem rewireGraph_replacesRoot_iff (tool : INode) (graph : DirectedGraph) (agentRequest : Option AiAgentRequest)
    (log : OrderedMap String NodeConnectionType) :
    (∃ result log', rewireGraph tool graph agentRequest log = .ok (result, log') ∧
      ∃ root, RootReplaced graph result tool root (toolExecutor tool agentRequest)) ↔
      ∃ root, Replaceable graph tool root (toolExecutor tool agentRequest) := by
  constructor
  · intro h
    obtain ⟨result, log', went, root, replaced⟩ := h
    have whole := went
    obtain ⟨copy, cloned, went⟩ := (bind_eq_ok_iff _ _ _).1 went
    obtain ⟨closed, rfl⟩ := (clone_eq_ok_iff graph copy).1 cloned
    obtain ⟨children, below, went⟩ := (bind_eq_ok_iff _ _ _).1 went
    cases last : children.elems.getLast? with
    | none =>
      rw [last] at went
      cases went
      exact absurd rfl (name_ne_of_unused replaced.new ((replaced.nodes _).2 (.inl rfl)))
    | some lastNode =>
      rw [rewireGraph_eq closed below last replaced.new] at whole
      cases whole
      obtain rfl := replaced.root_eq (has_of_below closed (below_of_last closed below last))
      exact ⟨root, replaced.replaceable closed below last⟩
  · intro h
    obtain ⟨root, able⟩ := h
    obtain ⟨children, below, last⟩ := able.last
    exact ⟨_, _, rewireGraph_eq able.closed below last able.unused, root, able.rootReplaced⟩

def agentInFlow : DirectedGraph :=
  let trigger : INode := { name := "Trigger" }
  let agent : INode := { name := "Agent" }
  let tool : INode := { name := "Tool" }
  let next_ : INode := { name := "Next" }
  [(⟨trigger, agent, .main, 0, 0⟩ : GraphConnection), ⟨tool, agent, .aiTool, 0, 0⟩, ⟨agent, next_, .main, 0, 0⟩].foldl
    setConnection (addNodes {} [trigger, agent, tool, next_])

/-- `Next` is removed, and `Agent` stays. -/
theorem agentInFlow_not_rootReplaced :
    (∃ c ∈ agentInFlow.getConnections, c.fromNode = { name := "Tool" } ∧ c.type ≠ .main) ∧
      ¬ ∃ result log, rewireGraph { name := "Tool" } agentInFlow none ∅ = .ok (result, log) ∧
        ∃ root, RootReplaced agentInFlow result { name := "Tool" } root (toolExecutor { name := "Tool" } none) := by
  refine ⟨by decide, fun h => ?_⟩
  obtain ⟨result, log, went, root, replaced⟩ := h
  have closed : agentInFlow.Closed := by decide
  have below : agentInFlow.getChildren { name := "Tool" } =
      .ok ⟨[{ name := "Agent" }, { name := "Next" }], by decide⟩ := by rfl
  rw [rewireGraph_eq closed below rfl replaced.new] at went
  cases went
  have last : root = { name := "Next" } := replaced.root_eq (by decide)
  obtain ⟨_, ⟨c, real, other, into, _⟩, _⟩ := Relation.TransGen.head'_iff.1 replaced.served
  have onlyMain : ∀ c ∈ agentInFlow.getConnections, c.type ≠ .main → c.toNode ≠ { name := "Next" } := by decide
  exact onlyMain c real other (into.trans last)

end DirectedGraph
end NodeAutomation
