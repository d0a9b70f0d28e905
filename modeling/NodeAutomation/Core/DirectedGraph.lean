import NodeAutomation.Lib.Fallible
import NodeAutomation.Workflow.Workflow

/-! Graphs with nodes and connections in two flat maps
(`packages/core/src/execution-engine/partial-execution-utils/directed-graph.ts`),
built from a workflow and exported back to one. Nodes are compared as values:
the objects of one workflow have different names. -/

namespace NodeAutomation
open Connections

structure GraphConnection where
  fromNode : INode
  toNode : INode
  type : NodeConnectionType := .main
  outputIndex : Nat := 0
  inputIndex : Nat := 0
  deriving DecidableEq

namespace GraphConnection

/-- fromName-outputType-outputIndex-inputIndex-toName -/
def makeKey (connection : GraphConnection) : String :=
  connection.fromNode.name ++ "-" ++ connection.type.text ++ "-" ++
    toString connection.outputIndex ++ "-" ++ toString connection.inputIndex ++ "-" ++
    connection.toNode.name

def origin (connection : GraphConnection) : IConnection :=
  ⟨connection.fromNode.name, connection.type, connection.outputIndex⟩

def target (connection : GraphConnection) : IConnection :=
  ⟨connection.toNode.name, connection.type, connection.inputIndex⟩

def link (connection : GraphConnection) : Link :=
  ⟨connection.fromNode.name, connection.type, connection.outputIndex, connection.target⟩

end GraphConnection

theorem named_empty (name : String) (node : INode)
    (stored : (∅ : OrderedMap String INode).get name = some node) : node.name = name :=
  absurd stored (by simp)

theorem keyed_empty (key : String) (connection : GraphConnection)
    (stored : (∅ : OrderedMap String GraphConnection).get key = some connection) :
    connection.makeKey = key :=
  absurd stored (by simp)

/-- Nodes are stored under their names, connections under their keys. -/
structure DirectedGraph where
  nodes : OrderedMap String INode := ∅
  connections : OrderedMap String GraphConnection := ∅
  named : ∀ name node, nodes.get name = some node → node.name = name := by exact named_empty
  keyed : ∀ key connection, connections.get key = some connection →
    connection.makeKey = key := by exact keyed_empty

namespace DirectedGraph

def getConnections (graph : DirectedGraph) : List GraphConnection := graph.connections.values

/-- `graph.nodes.get(node.name) === node`. -/
def Has (graph : DirectedGraph) (node : INode) : Prop := graph.nodes.get node.name = some node

instance (graph : DirectedGraph) (node : INode) : Decidable (graph.Has node) :=
  inferInstanceAs (Decidable (_ = _))

def addNode (graph : DirectedGraph) (node : INode) : DirectedGraph :=
  { graph with
    nodes := graph.nodes.set node.name node
    named := by
      intro name stored h
      rw [OrderedMap.get_set] at h
      split at h
      · rename_i here
        rw [← Option.some.inj h, here]
      · exact graph.named name stored h }

def addNodes (graph : DirectedGraph) (nodes : List INode) : DirectedGraph :=
  nodes.foldl addNode graph

def setConnection (graph : DirectedGraph) (connection : GraphConnection) : DirectedGraph :=
  { graph with
    connections := graph.connections.set connection.makeKey connection
    keyed := by
      intro key stored h
      rw [OrderedMap.get_set] at h
      split at h
      · rename_i here
        rw [← Option.some.inj h, here]
      · exact graph.keyed key stored h }

def addConnection (graph : DirectedGraph) (connection : GraphConnection) :
    Except JsError DirectedGraph := do
  assertOk (graph.Has connection.fromNode) ("Cannot add connection: source node \"" ++
    connection.fromNode.name ++ "\" is not part of this graph.")
  assertOk (graph.Has connection.toNode) ("Cannot add connection: target node \"" ++
    connection.toNode.name ++ "\" is not part of this graph.")
  return graph.setConnection connection

def addConnections (graph : DirectedGraph) (connections : List GraphConnection) :
    Except JsError DirectedGraph :=
  connections.foldlM addConnection graph

def getDirectChildConnections (graph : DirectedGraph) (node : INode) :
    Except JsError (List GraphConnection) := do
  assertOk (graph.Has node) ("Node \"" ++ node.name ++ "\" is not part of this graph.")
  return graph.getConnections.filter (·.fromNode = node)

def getDirectParentConnections (graph : DirectedGraph) (node : INode) :
    Except JsError (List GraphConnection) := do
  assertOk (graph.Has node) ("Node \"" ++ node.name ++ "\" is not part of this graph.")
  return graph.getConnections.filter (·.toNode = node)

def getParentConnectionsRecursive (graph : DirectedGraph) :
    Nat → INode → List GraphConnection → Except JsError (List GraphConnection)
  | 0, _, _ => .error .rangeError
  | fuel + 1, node, connections => do
    let parentConnections ← graph.getDirectParentConnections node
    parentConnections.foldlM (fun connections connection =>
      if connection ∈ connections then .ok connections
      else getParentConnectionsRecursive graph fuel connection.fromNode (connections ++ [connection]))
      connections

def getParentConnections (graph : DirectedGraph) (node : INode) :
    Except JsError (List GraphConnection) :=
  graph.getParentConnectionsRecursive (graph.connections.size + 1) node []

def getConnection (graph : DirectedGraph) (connection : GraphConnection) : Option GraphConnection :=
  graph.connections.get connection.makeKey

def dropConnectionsOf (graph : DirectedGraph) (node : INode) : DirectedGraph :=
  { graph with
    connections := graph.connections.filterValues fun connection =>
      !(connection.toNode = node ∨ connection.fromNode = node)
    keyed := fun key connection h =>
      graph.keyed key connection ((OrderedMap.get_filterValues_eq_some_iff _ _ _ _).1 h).1 }

def deleteNode (graph : DirectedGraph) (node : INode) : DirectedGraph :=
  { graph with
    nodes := graph.nodes.delete node.name
    named := by
      intro name stored h
      rw [OrderedMap.get_delete] at h
      split at h
      · cases h
      · exact graph.named name stored h }

/-- `removeNode` without options. -/
def removeNode (graph : DirectedGraph) (node : INode) : DirectedGraph :=
  (graph.dropConnectionsOf node).deleteNode node

/-- The connections that replace the way through a node: every incoming one is
joined with every outgoing one. -/
def reconnections (skipConnectionFn : GraphConnection → Bool)
    (incomingConnections outgoingConnections : List GraphConnection) : List GraphConnection :=
  (incomingConnections.filter (!skipConnectionFn ·)).flatMap fun incomingConnection =>
    (outgoingConnections.filter (!skipConnectionFn ·)).map fun outgoingConnection =>
      { incomingConnection with
        toNode := outgoingConnection.toNode
        inputIndex := outgoingConnection.inputIndex }

/-- `removeNode` with `reconnectConnections: true`. -/
def removeNodeReconnecting (graph : DirectedGraph) (node : INode)
    (skipConnectionFn : GraphConnection → Bool) :
    Except JsError (DirectedGraph × List GraphConnection) := do
  let incomingConnections ← graph.getDirectParentConnections node
  let outgoingConnections ← graph.getDirectChildConnections node
  let newConnections := reconnections skipConnectionFn incomingConnections outgoingConnections
  return ((newConnections.foldl setConnection (graph.dropConnectionsOf node)).deleteNode node,
    newConnections)

def clone (graph : DirectedGraph) : Except JsError DirectedGraph :=
  (addNodes {} graph.nodes.values).addConnections graph.getConnections

def falsy (expression : String) : JsError :=
  .assertionError ("The expression evaluated to a falsy value:\n\n  " ++ expression ++ "\n")

def importConnection (workflow : Workflow) (fromNode : INode) (graph : DirectedGraph) (link : Link) :
    Except JsError DirectedGraph :=
  match workflow.getNode link.target.node with
  | none => .error (falsy "a.ok(to)")
  | some toNode => graph.addConnection
      ⟨fromNode, toNode, link.type, link.outputIndex, link.target.index⟩

def importNode (workflow : Workflow) (graph : DirectedGraph)
    (entry : String × INodeConnections) : Except JsError DirectedGraph :=
  match workflow.getNode entry.1 with
  | none => .error (falsy "a.ok(from)")
  | some fromNode =>
    (linksOfNode entry.1 entry.2).foldlM (importConnection workflow fromNode) graph

def fromWorkflow (workflow : Workflow) : Except JsError DirectedGraph :=
  workflow.connectionsBySourceNode.entries.foldlM (importNode workflow)
    (addNodes {} workflow.nodes.values)

/-- `groups[index] = groups[index] ?? []; groups[index].push(target)`. -/
def pushAt (target : IConnection) : NodeInputConnections → Nat → NodeInputConnections
  | [], 0 => [some [target]]
  | [], index + 1 => none :: pushAt target [] index
  | group :: groups, 0 => some (group.getD [] ++ [target]) :: groups
  | group :: groups, index + 1 => group :: pushAt target groups index

/-- `result[from.name] ?? { [type]: [] }`: the first connection of a node makes
room for its own type only. -/
def resultConnection (result : IConnections) (connection : GraphConnection) : INodeConnections :=
  (result.get connection.fromNode.name).getD (OrderedMap.set ∅ connection.type [])

def exportConnection (result : IConnections) (connection : GraphConnection) :
    Except JsError IConnections :=
  match (resultConnection result connection).get connection.type with
  | none => .error .typeError
  | some groups =>
    .ok (result.set connection.fromNode.name
      ((resultConnection result connection).set connection.type
        (pushAt connection.target groups connection.outputIndex)))

def toIConnections (graph : DirectedGraph) : Except JsError IConnections :=
  graph.getConnections.foldlM exportConnection ∅

def toWorkflow (getNodeParameters : INode → Option JsValue) (pinData : Option IPinData)
    (executionOrder : Option ExecutionOrder) (graph : DirectedGraph) : Except JsError Workflow := do
  let connections ← graph.toIConnections
  return Workflow.new getNodeParameters ⟨graph.nodes.values, connections, pinData, executionOrder⟩

variable (graph : DirectedGraph)

theorem mem_getConnections_iff (connection : GraphConnection) :
    connection ∈ graph.getConnections ↔
      graph.connections.get connection.makeKey = some connection := by
  rw [getConnections, OrderedMap.mem_values_iff]
  constructor
  · intro h
    obtain ⟨key, stored⟩ := h
    rw [graph.keyed key connection stored]
    exact stored
  · exact fun stored => ⟨_, stored⟩

theorem eq_of_makeKey_eq {graph : DirectedGraph} {a b : GraphConnection}
    (ha : a ∈ graph.getConnections) (hb : b ∈ graph.getConnections)
    (same : a.makeKey = b.makeKey) : a = b := by
  rw [mem_getConnections_iff] at ha hb
  rw [same, hb] at ha
  exact (Option.some.inj ha).symm

theorem eq_of_name_eq {graph : DirectedGraph} {a b : INode} (ha : graph.Has a) (hb : graph.Has b)
    (same : a.name = b.name) : a = b := by
  rw [Has, same, hb] at ha
  exact (Option.some.inj ha).symm

theorem mem_dropConnectionsOf (d : INode) (c : GraphConnection) :
    c ∈ (graph.dropConnectionsOf d).getConnections ↔
      c ∈ graph.getConnections ∧ c.fromNode ≠ d ∧ c.toNode ≠ d := by
  rw [getConnections, dropConnectionsOf, OrderedMap.mem_values_filterValues]
  simp only [Bool.decide_or, Bool.not_or, Bool.and_eq_true, Bool.not_eq_true', decide_eq_false_iff_not]
  tauto

theorem mem_setConnection (connection x : GraphConnection) :
    x ∈ (graph.setConnection connection).getConnections ↔
      x = connection ∨ x.makeKey ≠ connection.makeKey ∧ x ∈ graph.getConnections := by
  rw [mem_getConnections_iff, mem_getConnections_iff, setConnection, OrderedMap.get_set]
  split
  · rename_i same
    constructor
    · exact fun h => .inl (Option.some.inj h).symm
    · exact fun h => h.elim (fun eq => by rw [eq]) fun away => absurd same away.1
  · rename_i away
    constructor
    · exact fun h => .inr ⟨away, h⟩
    · exact fun h => h.elim (fun eq => absurd (by rw [eq]) away) And.right

/-- No two of the connections share a key. -/
def Separate (S : GraphConnection → Prop) : Prop :=
  ∀ a b, S a → S b → a.makeKey = b.makeKey → a = b

theorem mem_setConnection_of_separate {S : GraphConnection → Prop} (separate : Separate S)
    {graph : DirectedGraph} (inside : ∀ c ∈ graph.getConnections, S c)
    {connection : GraphConnection} (new : S connection) (x : GraphConnection) :
    x ∈ (graph.setConnection connection).getConnections ↔
      x = connection ∨ x ∈ graph.getConnections := by
  rw [mem_setConnection]
  constructor
  · exact fun h => h.imp_right And.right
  · intro h
    by_cases same : x = connection
    · exact .inl same
    · have old := h.resolve_left same
      exact .inr ⟨fun eq => same (separate x connection (inside x old) new eq), old⟩

theorem mem_foldl_setConnection {S : GraphConnection → Prop} (separate : Separate S)
    (connections : List GraphConnection) (new : ∀ c ∈ connections, S c) (graph : DirectedGraph)
    (inside : ∀ c ∈ graph.getConnections, S c) (x : GraphConnection) :
    x ∈ (connections.foldl setConnection graph).getConnections ↔
      x ∈ connections ∨ x ∈ graph.getConnections := by
  induction connections generalizing graph with
  | nil => simp
  | cons connection connections ih =>
    have first := mem_setConnection_of_separate separate inside (new _ List.mem_cons_self)
    have insideNext : ∀ c ∈ (graph.setConnection connection).getConnections, S c := by
      intro c member
      cases (first c).1 member with
      | inl same => exact same ▸ new _ List.mem_cons_self
      | inr old => exact inside c old
    rw [List.foldl_cons, ih (fun c member => new c (List.mem_cons_of_mem _ member)) _ insideNext,
      first, List.mem_cons]
    tauto

variable (connections : List GraphConnection)

theorem mem_of_mem_foldl_setConnection (graph : DirectedGraph)
    {x : GraphConnection} (member : x ∈ (connections.foldl setConnection graph).getConnections) :
    x ∈ connections ∨ x ∈ graph.getConnections := by
  induction connections generalizing graph with
  | nil => exact .inr member
  | cons connection connections ih =>
    cases ih _ member with
    | inl later => exact .inl (List.mem_cons_of_mem _ later)
    | inr now =>
      cases (mem_setConnection _ _ _).1 now with
      | inl same => exact .inl (same ▸ List.mem_cons_self)
      | inr old => exact .inr old.2

@[simp] theorem nodes_setConnection (connection : GraphConnection) :
    (graph.setConnection connection).nodes = graph.nodes := rfl

@[simp] theorem nodes_foldl_setConnection
    (graph : DirectedGraph) : (connections.foldl setConnection graph).nodes = graph.nodes := by
  induction connections generalizing graph with
  | nil => rfl
  | cons connection connections ih => rw [List.foldl_cons, ih, nodes_setConnection]

/-! A key tells its parts apart as long as the source's name has no dash. -/

theorem split_dash {a b c d : List Char} (same : a ++ '-' :: b = c ++ '-' :: d) :
    a = c ∧ b = d ∨ (∃ m, a = c ++ '-' :: m ∧ d = m ++ '-' :: b) ∨
      ∃ m, c = a ++ '-' :: m ∧ b = m ++ '-' :: d := by
  rcases List.append_eq_append_iff.1 same with ⟨m, hc, hb⟩ | ⟨m, ha, hd⟩
  · cases m with
    | nil => exact .inl ⟨by rw [hc, List.append_nil], (List.cons.inj hb).2⟩
    | cons x m =>
      obtain ⟨rfl, rfl⟩ := List.cons.inj hb
      exact .inr (.inr ⟨m, hc, rfl⟩)
  · cases m with
    | nil => exact .inl ⟨by rw [ha, List.append_nil], (List.cons.inj hd).2.symm⟩
    | cons x m =>
      obtain ⟨rfl, rfl⟩ := List.cons.inj hd
      exact .inr (.inl ⟨m, ha, rfl⟩)

theorem read_word {word b c d : List Char} (clean : '-' ∉ word)
    (same : word ++ '-' :: b = c ++ '-' :: d) :
    c = word ∧ b = d ∨ ∃ m, c = word ++ '-' :: m ∧ b = m ++ '-' :: d := by
  rcases split_dash same with ⟨eq, rest⟩ | ⟨m, eq, -⟩ | longer
  · exact .inl ⟨eq.symm, rest⟩
  · exact absurd (eq ▸ by simp) clean
  · exact .inr longer

theorem eq_of_append_dash {a a' b b' : List Char} (ha : '-' ∉ a) (ha' : '-' ∉ a')
    (eq : a ++ '-' :: b = a' ++ '-' :: b') : a = a' ∧ b = b' := by
  rcases read_word ha eq with ⟨word, rest⟩ | ⟨m, word, -⟩
  · exact ⟨word.symm, rest⟩
  · exact absurd (word ▸ by simp) ha'

theorem dash_not_mem_text (type : NodeConnectionType) : '-' ∉ type.text.toList := by
  cases type <;> decide

theorem text_injective {a b : NodeConnectionType} (same : a.text.toList = b.text.toList) : a = b := by
  have texts : a.text = b.text := String.toList_inj.1 same
  revert texts
  cases a <;> cases b <;> decide

theorem dash_not_mem_toString (n : Nat) : '-' ∉ (toString n).toList := by
  change '-' ∉ n.repr.toList
  rw [Nat.toList_repr]
  intro member
  have digit := Nat.isDigit_of_mem_toDigits (by decide) (by decide) member
  exact absurd digit (by decide)

theorem toString_injective {m n : Nat} (same : (toString m).toList = (toString n).toList) : m = n := by
  change m.repr.toList = n.repr.toList at same
  rw [Nat.toList_repr, Nat.toList_repr] at same
  rw [← @Nat.ofDigitChars_ten_toDigits m, same, Nat.ofDigitChars_ten_toDigits]

theorem link_eq_of_makeKey_eq {a b : GraphConnection} (ha : '-' ∉ a.fromNode.name.toList)
    (hb : '-' ∉ b.fromNode.name.toList) (same : a.makeKey = b.makeKey) : a.link = b.link := by
  have chars := congrArg String.toList same
  simp only [GraphConnection.makeKey, String.toList_append, List.append_assoc] at chars
  have dash : "-".toList = ['-'] := rfl
  simp only [dash, List.singleton_append] at chars
  obtain ⟨source, afterSource⟩ := eq_of_append_dash ha hb chars
  obtain ⟨type, afterType⟩ :=
    eq_of_append_dash (dash_not_mem_text _) (dash_not_mem_text _) afterSource
  obtain ⟨output, afterOutput⟩ :=
    eq_of_append_dash (dash_not_mem_toString _) (dash_not_mem_toString _) afterType
  obtain ⟨input, target⟩ :=
    eq_of_append_dash (dash_not_mem_toString _) (dash_not_mem_toString _) afterOutput
  simp only [GraphConnection.link, GraphConnection.target, String.toList_inj.1 source,
    text_injective type, toString_injective output, toString_injective input,
    String.toList_inj.1 target]

/-- Both ends of every connection are nodes of the graph. -/
def Closed (graph : DirectedGraph) : Prop :=
  ∀ connection ∈ graph.getConnections, graph.Has connection.fromNode ∧ graph.Has connection.toNode

instance (graph : DirectedGraph) : Decidable graph.Closed :=
  inferInstanceAs (Decidable (∀ c ∈ graph.getConnections, _ ∧ _))

theorem assertOk_bind_eq_ok_iff {α : Type} (p : Prop) [Decidable p] (message : String)
    (next : Unit → Except JsError α) (a : α) :
    (assertOk (decide p) message >>= next) = .ok a ↔ p ∧ next () = .ok a := by
  by_cases holds : p
  · simp [assertOk, holds]
  · simp [assertOk, holds]

theorem addConnection_eq_ok_iff (graph next : DirectedGraph) (connection : GraphConnection) :
    graph.addConnection connection = .ok next ↔
      (graph.Has connection.fromNode ∧ graph.Has connection.toNode) ∧
        next = graph.setConnection connection := by
  rw [addConnection, assertOk_bind_eq_ok_iff, assertOk_bind_eq_ok_iff, and_assoc]
  simp [pure, Except.pure, eq_comm]

theorem addConnections_eq_ok_iff (graph next : DirectedGraph) (connections : List GraphConnection) :
    graph.addConnections connections = .ok next ↔
      (∀ c ∈ connections, graph.Has c.fromNode ∧ graph.Has c.toNode) ∧
        next = connections.foldl setConnection graph := by
  induction connections generalizing graph with
  | nil => simp [addConnections, pure, Except.pure, eq_comm]
  | cons connection connections ih =>
    have unfolded : graph.addConnections (connection :: connections) =
        graph.addConnection connection >>= fun g => g.addConnections connections :=
      List.foldlM_cons
    rw [unfolded, Fallible.bind_eq_ok_iff]
    simp only [addConnection_eq_ok_iff, List.forall_mem_cons, List.foldl_cons, and_assoc]
    constructor
    · intro h
      obtain ⟨middle, hasFrom, hasTo, eq, rest⟩ := h
      rw [eq, ih] at rest
      exact ⟨hasFrom, hasTo, rest.1, rest.2⟩
    · intro h
      exact ⟨_, h.1, h.2.1, rfl, (ih _).2 h.2.2⟩

theorem getDirectParentConnections_eq_ok_iff (node : INode)
    (found : List GraphConnection) :
    graph.getDirectParentConnections node = .ok found ↔
      graph.Has node ∧ found = graph.getConnections.filter (·.toNode = node) := by
  rw [getDirectParentConnections, assertOk_bind_eq_ok_iff]
  simp [pure, Except.pure, eq_comm]

theorem getDirectChildConnections_eq_ok_iff (node : INode)
    (found : List GraphConnection) :
    graph.getDirectChildConnections node = .ok found ↔
      graph.Has node ∧ found = graph.getConnections.filter (·.fromNode = node) := by
  rw [getDirectChildConnections, assertOk_bind_eq_ok_iff]
  simp [pure, Except.pure, eq_comm]

theorem nodes_addNodes (nodes : List INode) (graph : DirectedGraph) :
    (graph.addNodes nodes).nodes =
      (nodes.map fun node => (node.name, node)).foldl (fun m entry => m.set entry.1 entry.2)
        graph.nodes := by
  induction nodes generalizing graph with
  | nil => rfl
  | cons node nodes ih => exact ih (graph.addNode node)

theorem connections_addNodes (nodes : List INode) (graph : DirectedGraph) :
    (graph.addNodes nodes).connections = graph.connections := by
  induction nodes generalizing graph with
  | nil => rfl
  | cons node nodes ih => exact ih (graph.addNode node)

theorem foldl_set_values {ν : Type} (m : OrderedMap String ν) (key : ν → String)
    (keyed : ∀ k v, m.get k = some v → key v = k) :
    (m.values.map fun v => (key v, v)).foldl (fun m entry => m.set entry.1 entry.2) ∅ = m := by
  have entries : (m.values.map fun v => (key v, v)) = m.entries := by
    rw [OrderedMap.values, List.map_map]
    refine (List.map_congr_left fun entry member => ?_).trans (List.map_id _)
    have stored := (m.get_eq_some_iff entry.1 entry.2).2 member
    simp only [Function.comp_apply, keyed entry.1 entry.2 stored, id]
  rw [entries]
  exact OrderedMap.ofList_entries m

theorem nodes_addNodes_values (m : OrderedMap String INode)
    (named : ∀ name node, m.get name = some node → node.name = name) :
    (addNodes {} m.values).nodes = m := by
  rw [nodes_addNodes]
  exact foldl_set_values m INode.name named

theorem connections_foldl_setConnection
    (graph : DirectedGraph) :
    (connections.foldl setConnection graph).connections =
      (connections.map fun c => (c.makeKey, c)).foldl (fun m entry => m.set entry.1 entry.2)
        graph.connections := by
  induction connections generalizing graph with
  | nil => rfl
  | cons connection connections ih => exact ih (graph.setConnection connection)

@[ext] theorem ext {a b : DirectedGraph} (nodes : a.nodes = b.nodes)
    (connections : a.connections = b.connections) : a = b := by
  cases a
  cases b
  congr

theorem clone_eq_ok_iff (graph copy : DirectedGraph) :
    graph.clone = .ok copy ↔ graph.Closed ∧ copy = graph := by
  have nodes : (addNodes {} graph.nodes.values).nodes = graph.nodes :=
    nodes_addNodes_values graph.nodes graph.named
  have has : ∀ node, (addNodes {} graph.nodes.values).Has node ↔ graph.Has node := by
    intro node
    rw [Has, Has, nodes]
  have whole : graph.getConnections.foldl setConnection (addNodes {} graph.nodes.values) = graph := by
    apply ext
    · rw [nodes_foldl_setConnection, nodes]
    · rw [connections_foldl_setConnection, connections_addNodes]
      exact foldl_set_values graph.connections GraphConnection.makeKey graph.keyed
  rw [clone, addConnections_eq_ok_iff, whole]
  simp only [has, Closed]

end DirectedGraph
end NodeAutomation
