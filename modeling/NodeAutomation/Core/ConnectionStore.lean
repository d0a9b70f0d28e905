import Mathlib.Data.List.Induction
import Mathlib.Data.Set.Function
import NodeAutomation.Core.DirectedGraph
import NodeAutomation.Lib.Runs

/-! The store of connections against the set it stands for, over runs of the
graph's operations. A key is one string of names and literals, and the names
may contain the literals. -/

namespace NodeAutomation

namespace DirectedGraph

theorem toString_append_ne_text_append (n : Nat) (type : NodeConnectionType) (b d : List Char) :
    (toString n).toList ++ '-' :: b ≠ type.text.toList ++ '-' :: d := by
  intro same
  have word := (eq_of_append_dash (dash_not_mem_toString n) (dash_not_mem_text type) same).1
  change n.repr.toList = _ at word
  rw [Nat.toList_repr] at word
  have digits : type.text.toList.all Char.isDigit = true := List.all_eq_true.2 fun c member =>
    Nat.isDigit_of_mem_toDigits (by decide) (by decide) (word ▸ member)
  revert digits
  cases type <;> decide

end DirectedGraph

namespace GraphConnection

/-- outputType-outputIndex-inputIndex -/
def linkText (connection : GraphConnection) : String :=
  connection.type.text ++ "-" ++ toString connection.outputIndex ++ "-" ++
    toString connection.inputIndex

/-- The source's name of `a` goes on where that of `b` ends, with the link of
`b`; the target's name of `b` ends with the link and the target of `a`; and
whatever is between is the same text in both. -/
def Swallows (a b : GraphConnection) : Prop :=
  (a.fromNode.name = b.fromNode.name ++ "-" ++ b.linkText ∧
    b.toNode.name = a.linkText ++ "-" ++ a.toNode.name) ∨
  ∃ text : String, a.fromNode.name = b.fromNode.name ++ "-" ++ b.linkText ++ "-" ++ text ∧
    b.toNode.name = text ++ "-" ++ a.linkText ++ "-" ++ a.toNode.name

def Overlaps (a b : GraphConnection) : Prop := a.Swallows b ∨ b.Swallows a

theorem makeKey_eq (c : GraphConnection) :
    c.makeKey = c.fromNode.name ++ "-" ++ (c.linkText ++ "-" ++ c.toNode.name) := by
  simp only [makeKey, linkText, String.append_assoc]

theorem toList_makeKey (c : GraphConnection) : c.makeKey.toList =
    c.fromNode.name.toList ++ '-' :: (c.linkText ++ "-" ++ c.toNode.name).toList := by
  simp [makeKey_eq]

theorem toList_link (c : GraphConnection) : (c.linkText ++ "-" ++ c.toNode.name).toList =
    c.type.text.toList ++ '-' :: ((toString c.outputIndex).toList ++
      '-' :: ((toString c.inputIndex).toList ++ '-' :: c.toNode.name.toList)) := by
  have dash : "-".toList = ['-'] := rfl
  simp only [linkText, String.toList_append, List.append_assoc, dash, List.cons_append, List.nil_append]

theorem Swallows.makeKey_eq {a b : GraphConnection} (swallows : a.Swallows b) :
    a.makeKey = b.makeKey := by
  rw [GraphConnection.makeKey_eq, GraphConnection.makeKey_eq]
  rcases swallows with ⟨source, target⟩ | ⟨text, source, target⟩
  all_goals rw [source, target]; simp only [String.append_assoc]

theorem Swallows.ne {a b : GraphConnection} (swallows : a.Swallows b) : a ≠ b := by
  rintro rfl
  rcases swallows with ⟨source, -⟩ | ⟨text, source, -⟩
  all_goals
    have lengths := congrArg String.length source
    simp only [String.length_append] at lengths
    have dash : "-".length = 1 := rfl
    omega

theorem swallows_of_longer {a b : GraphConnection} {m : List Char}
    (source : a.fromNode.name.toList = b.fromNode.name.toList ++ '-' :: m)
    (rest : (b.linkText ++ "-" ++ b.toNode.name).toList =
      m ++ '-' :: (a.linkText ++ "-" ++ a.toNode.name).toList) : a.Swallows b := by
  rw [toList_link, toList_link] at rest
  -- the words of `b`'s link are read one by one from the rest of `a`'s name
  rcases DirectedGraph.read_word (DirectedGraph.dash_not_mem_text b.type) rest with
    ⟨-, output⟩ | ⟨m, rfl, output⟩
  · exact absurd output (DirectedGraph.toString_append_ne_text_append _ _ _ _)
  rcases DirectedGraph.read_word (DirectedGraph.dash_not_mem_toString b.outputIndex) output with
    ⟨-, input⟩ | ⟨m, rfl, input⟩
  · exact absurd input (DirectedGraph.toString_append_ne_text_append _ _ _ _)
  rcases DirectedGraph.read_word (DirectedGraph.dash_not_mem_toString b.inputIndex) input with
    ⟨rfl, target⟩ | ⟨m, rfl, target⟩
  · refine .inl ⟨String.toList_inj.1 ?_, String.toList_inj.1 ?_⟩
    · simp [source, linkText]
    · simp [target, linkText]
  · refine .inr ⟨String.ofList m, String.toList_inj.1 ?_, String.toList_inj.1 ?_⟩
    · simp [source, linkText]
    · simp [target, linkText]

/-- Two connections share a key when they are one, or when the names of one
contain the other. -/
theorem makeKey_eq_iff {U : Set INode} (distinct : Set.InjOn INode.name U) {a b : GraphConnection}
    (ha : a.fromNode ∈ U ∧ a.toNode ∈ U) (hb : b.fromNode ∈ U ∧ b.toNode ∈ U) :
    a.makeKey = b.makeKey ↔ a = b ∨ a.Overlaps b := by
  constructor
  · intro same
    have chars := congrArg String.toList same
    rw [toList_makeKey, toList_makeKey] at chars
    rcases DirectedGraph.split_dash chars with ⟨source, rest⟩ | ⟨m, source, rest⟩ | ⟨m, source, rest⟩
    · refine .inl ?_
      rw [toList_link, toList_link] at rest
      obtain ⟨type, rest⟩ := DirectedGraph.eq_of_append_dash (DirectedGraph.dash_not_mem_text _)
        (DirectedGraph.dash_not_mem_text _) rest
      obtain ⟨output, rest⟩ := DirectedGraph.eq_of_append_dash
        (DirectedGraph.dash_not_mem_toString _) (DirectedGraph.dash_not_mem_toString _) rest
      obtain ⟨input, target⟩ := DirectedGraph.eq_of_append_dash
        (DirectedGraph.dash_not_mem_toString _) (DirectedGraph.dash_not_mem_toString _) rest
      have fromNode := distinct ha.1 hb.1 (String.toList_inj.1 source)
      have toNode := distinct ha.2 hb.2 (String.toList_inj.1 target)
      cases a
      cases b
      simp only [GraphConnection.mk.injEq]
      exact ⟨fromNode, toNode, DirectedGraph.text_injective type,
        DirectedGraph.toString_injective output, DirectedGraph.toString_injective input⟩
    · exact .inr (.inl (swallows_of_longer source rest))
    · exact .inr (.inr (swallows_of_longer source rest))
  · rintro (rfl | swallows | swallows)
    · rfl
    · exact swallows.makeKey_eq
    · exact swallows.makeKey_eq.symm

/-- The nodes that a run uses have different names. -/
def Over (U : Set INode) (c : GraphConnection) : Prop := c.fromNode ∈ U ∧ c.toNode ∈ U

end GraphConnection

structure ConnectionSet where
  nodes : Set INode := ∅
  connections : Set GraphConnection := ∅

inductive GraphAction where
  | addNode (node : INode)
  | addConnection (connection : GraphConnection)
  | removeNode (node : INode)
  | removeNodeReconnecting (node : INode) (skipConnectionFn : GraphConnection → Bool)
  | clone

namespace GraphAction

def Over (U : Set INode) : GraphAction → Prop
  | addNode node | removeNode node | removeNodeReconnecting node _ => node ∈ U
  | addConnection connection => connection.Over U
  | clone => True

def run (graph : DirectedGraph) : GraphAction → DirectedGraph
  | addNode node => graph.addNode node
  | addConnection connection => (graph.addConnection connection).toOption.getD graph
  | removeNode node => graph.removeNode node
  | removeNodeReconnecting node skipConnectionFn =>
    ((graph.removeNodeReconnecting node skipConnectionFn).toOption.map Prod.fst).getD graph
  | clone => graph.clone.toOption.getD graph

def expect (kept : ConnectionSet) : GraphAction → ConnectionSet
  | addNode node => { kept with nodes := insert node kept.nodes }
  | addConnection connection =>
    { kept with connections := {c | c ∈ kept.connections ∨
        c = connection ∧ connection.fromNode ∈ kept.nodes ∧ connection.toNode ∈ kept.nodes} }
  | removeNode node =>
    ⟨kept.nodes \ {node}, {c | c ∈ kept.connections ∧ c.fromNode ≠ node ∧ c.toNode ≠ node}⟩
  | removeNodeReconnecting node skipConnectionFn =>
    ⟨kept.nodes \ {node}, {c |
      (c ∈ kept.connections ∧ (node ∈ kept.nodes → c.fromNode ≠ node ∧ c.toNode ≠ node)) ∨
      node ∈ kept.nodes ∧
        ∃ incoming ∈ kept.connections, incoming.toNode = node ∧ !skipConnectionFn incoming ∧
        ∃ outgoing ∈ kept.connections, outgoing.fromNode = node ∧ !skipConnectionFn outgoing ∧
          c = { incoming with toNode := outgoing.toNode, inputIndex := outgoing.inputIndex }}⟩
  | clone => kept

end GraphAction

namespace DirectedGraph

def runAll (actions : List GraphAction) : DirectedGraph := actions.foldl GraphAction.run {}

def expectAll (actions : List GraphAction) : ConnectionSet := actions.foldl GraphAction.expect {}

/-- The graph tells the connections over `U` apart: it returns those of the set,
and finds each under its own five components. -/
def ExactOn (U : Set INode) (graph : DirectedGraph) (kept : ConnectionSet) : Prop :=
  ∀ c, c.Over U → (c ∈ graph.getConnections ↔ c ∈ kept.connections) ∧
    ∀ found, graph.getConnection c = some found ↔ found = c ∧ c ∈ kept.connections

/-- No connection of the set overlaps with another one over `U`. -/
def Clear (U : Set INode) (kept : ConnectionSet) : Prop :=
  ∀ c ∈ kept.connections, ∀ d, d.Over U → ¬ c.Overlaps d

structure StandsFor (U : Set INode) (graph : DirectedGraph) (kept : ConnectionSet) : Prop where
  nodes : ∀ node ∈ U, graph.Has node ↔ node ∈ kept.nodes
  connections : ∀ c, c ∈ graph.getConnections ↔ c ∈ kept.connections

variable {U : Set INode} {graph : DirectedGraph} {kept : ConnectionSet}

theorem over_expect {action : GraphAction} (among : action.Over U)
    (inside : ∀ c ∈ kept.connections, c.Over U) : ∀ c ∈ (action.expect kept).connections, c.Over U := by
  cases action with
  | addNode node => exact inside
  | clone => exact inside
  | removeNode node => exact fun c member => inside c member.1
  | addConnection connection =>
    rintro c (old | ⟨rfl, -⟩)
    · exact inside c old
    · exact among
  | removeNodeReconnecting node skipConnectionFn =>
    rintro c (⟨old, -⟩ | ⟨-, incoming, fromIn, -, -, outgoing, fromOut, -, -, rfl⟩)
    · exact inside c old
    · exact ⟨(inside incoming fromIn).1, (inside outgoing fromOut).2⟩

section

variable (distinct : Set.InjOn INode.name U)
include distinct

theorem separate_of_clear (clear : Clear U kept)
    (inside : ∀ c ∈ kept.connections, c.Over U) : Separate (· ∈ kept.connections) := by
  intro a b ha hb same
  rcases (GraphConnection.makeKey_eq_iff distinct (inside a ha) (inside b hb)).1 same with
    eq | overlaps
  · exact eq
  · exact absurd overlaps (clear a ha b (inside b hb))

theorem has_addNode {node other : INode} (hn : node ∈ U)
    (ho : other ∈ U) : (graph.addNode node).Has other ↔ other = node ∨ graph.Has other := by
  rw [Has, addNode, OrderedMap.get_set]
  split
  · rename_i same
    have eq : other = node := distinct ho hn same
    simp [eq]
  · rename_i away
    have ne : other ≠ node := fun eq => away (by rw [eq])
    simp [ne, Has]

theorem has_deleteNode {node other : INode} (hn : node ∈ U)
    (ho : other ∈ U) : (graph.deleteNode node).Has other ↔ graph.Has other ∧ other ≠ node := by
  rw [Has, deleteNode, OrderedMap.get_delete]
  split
  · rename_i same
    have eq : other = node := distinct ho hn same
    simp [eq]
  · rename_i away
    have ne : other ≠ node := fun eq => away (by rw [eq])
    simp [ne, Has]

end

theorem run_addConnection (graph : DirectedGraph) (connection : GraphConnection) :
    (GraphAction.addConnection connection).run graph =
      if graph.Has connection.fromNode ∧ graph.Has connection.toNode then
        graph.setConnection connection else graph := by
  have outcome := fun next => addConnection_eq_ok_iff graph next connection
  rw [GraphAction.run]
  cases added : graph.addConnection connection with
  | ok next =>
    obtain ⟨has, rfl⟩ := (outcome next).1 added
    exact (if_pos has).symm
  | error e =>
    refine (if_neg fun has => ?_).symm
    simp [(outcome _).2 ⟨has, rfl⟩] at added

theorem run_removeNodeReconnecting (graph : DirectedGraph) (node : INode)
    (skipConnectionFn : GraphConnection → Bool) :
    (GraphAction.removeNodeReconnecting node skipConnectionFn).run graph =
      if graph.Has node then
        ((reconnections skipConnectionFn (graph.getConnections.filter (·.toNode = node))
          (graph.getConnections.filter (·.fromNode = node))).foldl setConnection
            (graph.dropConnectionsOf node)).deleteNode node
      else graph := by
  rw [GraphAction.run, removeNodeReconnecting, getDirectParentConnections, getDirectChildConnections]
  by_cases has : graph.Has node
  · simp only [assertOk, has, decide_true, if_true]
    rfl
  · simp only [assertOk, has, decide_false, if_false]
    rfl

theorem run_clone (graph : DirectedGraph) : GraphAction.clone.run graph = graph := by
  rw [GraphAction.run]
  cases cloned : graph.clone with
  | ok copy => exact ((clone_eq_ok_iff graph copy).1 cloned).2
  | error e => rfl

theorem mem_reconnections_of_node (skipConnectionFn : GraphConnection → Bool) (node : INode)
    (connections : List GraphConnection) (c : GraphConnection) :
    c ∈ reconnections skipConnectionFn (connections.filter (·.toNode = node))
        (connections.filter (·.fromNode = node)) ↔
      ∃ incoming ∈ connections, incoming.toNode = node ∧ !skipConnectionFn incoming ∧
        ∃ outgoing ∈ connections, outgoing.fromNode = node ∧ !skipConnectionFn outgoing ∧
          c = { incoming with toNode := outgoing.toNode, inputIndex := outgoing.inputIndex } := by
  simp only [reconnections, List.mem_flatMap, List.mem_filter, List.mem_map, decide_eq_true_eq,
    and_assoc, @eq_comm _ c]

/-- One operation keeps the graph and the set together, unless it brings two
overlapping connections in. -/
theorem StandsFor.run {action : GraphAction} (stands : StandsFor U graph kept)
    (distinct : Set.InjOn INode.name U) (among : action.Over U)
    (inside : ∀ c ∈ kept.connections, c.Over U) (clear : Clear U (action.expect kept)) :
    StandsFor U (action.run graph) (action.expect kept) := by
  have separate := separate_of_clear distinct clear (over_expect among inside)
  cases action with
  | clone =>
    rw [run_clone]
    exact stands
  | addNode node =>
    refine ⟨fun other member => ?_, stands.connections⟩
    exact (has_addNode distinct among member).trans (or_congr_right (stands.nodes other member))
  | removeNode node =>
    refine ⟨fun other member => ?_, fun c => ?_⟩
    · exact (has_deleteNode distinct among member).trans (and_congr_left' (stands.nodes other member))
    · exact (mem_dropConnectionsOf graph node c).trans (and_congr_left' (stands.connections c))
  | addConnection connection =>
    have ends := and_congr (stands.nodes _ among.1) (stands.nodes _ among.2)
    rw [run_addConnection]
    split
    · rename_i has
      refine ⟨stands.nodes, fun c => ?_⟩
      have here := ends.1 has
      rw [mem_setConnection_of_separate separate
        (fun c member => .inl ((stands.connections c).1 member)) (.inr ⟨rfl, here⟩)]
      simp [GraphAction.expect, stands.connections, here, or_comm]
    · rename_i lacks
      refine ⟨stands.nodes, fun c => ?_⟩
      have absent := fun here => lacks (ends.2 here)
      exact (stands.connections c).trans ⟨.inl, fun h => h.resolve_right fun new => absent new.2⟩
  | removeNodeReconnecting node skipConnectionFn =>
    have present := stands.nodes node among
    have same : ∀ c, c ∈ reconnections skipConnectionFn
        (graph.getConnections.filter (·.toNode = node))
        (graph.getConnections.filter (·.fromNode = node)) ↔ _ :=
      mem_reconnections_of_node skipConnectionFn node graph.getConnections
    simp only [stands.connections] at same
    rw [run_removeNodeReconnecting]
    split
    · rename_i has
      have here := present.1 has
      refine ⟨fun other member => ?_, fun c => ?_⟩
      · rw [has_deleteNode distinct among member, Has, nodes_foldl_setConnection]
        exact and_congr_left' (stands.nodes other member)
      · have old : ∀ c, c ∈ (graph.dropConnectionsOf node).getConnections ↔
            c ∈ kept.connections ∧ (node ∈ kept.nodes → c.fromNode ≠ node ∧ c.toNode ≠ node) := by
          intro c
          rw [mem_dropConnectionsOf, stands.connections, imp_iff_right here]
        have folded := mem_foldl_setConnection separate _
          (fun c member => .inr ⟨here, (same c).1 member⟩) (graph.dropConnectionsOf node)
          (fun c member => .inl ((old c).1 member)) c
        refine folded.trans ?_
        rw [same, old, or_comm]
        exact or_congr_right (and_iff_right here).symm
    · rename_i lacks
      have absent := fun here => lacks (present.2 here)
      refine ⟨fun other member => ?_, fun c => ?_⟩
      · refine (stands.nodes other member).trans ⟨fun h => ⟨h, ?_⟩, And.left⟩
        rintro rfl
        exact absent h
      · exact (stands.connections c).trans ⟨fun h => .inl ⟨h, fun here => absurd here absent⟩,
          fun h => (h.resolve_right fun new => absent new.1).1⟩

theorem exactOn_of_standsFor (stands : StandsFor U graph kept) (clear : Clear U kept)
    (distinct : Set.InjOn INode.name U) (inside : ∀ c ∈ kept.connections, c.Over U) :
    ExactOn U graph kept := by
  refine fun c among => ⟨stands.connections c, fun found => ⟨fun stored => ?_, ?_⟩⟩
  · have same : found.makeKey = c.makeKey := graph.keyed _ _ stored
    have member : found ∈ kept.connections := by
      rw [← stands.connections, mem_getConnections_iff, same]
      exact stored
    rcases (GraphConnection.makeKey_eq_iff distinct (inside _ member) among).1 same with rfl | overlaps
    · exact ⟨rfl, member⟩
    · exact absurd overlaps (clear found member c among)
  · rintro ⟨rfl, member⟩
    exact (mem_getConnections_iff _ _).1 ((stands.connections found).2 member)

theorem clear_of_exactOn (exactOn : ExactOn U graph kept)
    (inside : ∀ c ∈ kept.connections, c.Over U) : Clear U kept := by
  intro c member d among overlaps
  have found := ((exactOn c (inside c member)).2 c).2 ⟨rfl, member⟩
  have same : d.makeKey = c.makeKey :=
    overlaps.elim (fun swallows => swallows.makeKey_eq.symm) fun swallows => swallows.makeKey_eq
  have eq := ((exactOn d among).2 c).1 (by rw [getConnection, same]; exact found)
  rcases overlaps with swallows | swallows
  · exact swallows.ne eq.1
  · exact swallows.ne eq.1.symm

theorem over_expectAll (actions : List GraphAction) (among : ∀ action ∈ actions, action.Over U) :
    ∀ c ∈ (expectAll actions).connections, c.Over U := by
  induction actions using List.reverseRecOn with
  | nil => exact fun c member => member.elim
  | append_singleton actions action ih =>
    rw [expectAll, List.foldl_concat]
    exact over_expect (among action (by simp)) (ih fun other member => among other (by simp [member]))

theorem standsFor_runAll (distinct : Set.InjOn INode.name U) (actions : List GraphAction)
    (among : ∀ action ∈ actions, action.Over U)
    (clear : ∀ before, before <+: actions → Clear U (expectAll before)) :
    StandsFor U (runAll actions) (expectAll actions) := by
  induction actions using List.reverseRecOn with
  | nil => exact ⟨by simp [runAll, expectAll, Has], fun c =>
      ⟨fun member => absurd (show c ∈ [] from member) List.not_mem_nil, False.elim⟩⟩
  | append_singleton actions action ih =>
    have overFirst : ∀ other ∈ actions, other.Over U := fun other member => among other (by simp [member])
    have last := clear _ List.prefix_rfl
    have first := ih overFirst fun before early => clear before (early.trans (List.prefix_append _ _))
    rw [expectAll, List.foldl_concat] at last ⊢
    rw [runAll, List.foldl_concat]
    exact first.run distinct (among action (by simp)) (over_expectAll actions overFirst) last

/-- In every state of a run the store tells all connections apart, exactly when no
connection that a state should hold overlaps with another one over the nodes. -/
theorem exactOn_iff_clear (distinct : Set.InjOn INode.name U) (actions : List GraphAction)
    (among : ∀ action ∈ actions, action.Over U) :
    (∀ before, before <+: actions → ExactOn U (runAll before) (expectAll before)) ↔
      ∀ before, before <+: actions → Clear U (expectAll before) := by
  have overPart : ∀ before, before <+: actions → ∀ action ∈ before, action.Over U :=
    fun before early action member => among action (early.subset member)
  constructor
  · intro exactOn before early
    exact clear_of_exactOn (exactOn before early) (over_expectAll before (overPart before early))
  · intro clear before early
    have stands := standsFor_runAll distinct before (overPart before early)
      fun earlier first => clear earlier (first.trans early)
    exact exactOn_of_standsFor stands (clear before early) distinct
      (over_expectAll before (overPart before early))

theorem clear_of_no_dash (plain : ∀ node ∈ U, '-' ∉ node.name.toList)
    (inside : ∀ c ∈ kept.connections, c.Over U) : Clear U kept := by
  have none : ∀ a b : GraphConnection, a.Over U → ¬ a.Swallows b := by
    rintro a b among (⟨source, -⟩ | ⟨text, source, -⟩)
    all_goals exact plain _ among.1 (by rw [source]; simp)
  exact fun c member d among overlaps => overlaps.elim (none c d (inside c member)) (none d c among)

def pairOf (first second : INode) : Set INode := {node | node ∈ [first, second]}

def plainRun : List GraphAction :=
  [.addNode { name := "Webhook" }, .addNode { name := "Set" },
    .addConnection ⟨{ name := "Webhook" }, { name := "Set" }, .main, 0, 0⟩, .clone]

theorem plainNames_exactOn :
    ExactOn (pairOf { name := "Webhook" } { name := "Set" }) (runAll plainRun) (expectAll plainRun) := by
  have among : ∀ action ∈ plainRun, action.Over (pairOf { name := "Webhook" } { name := "Set" }) := by
    simp [plainRun, GraphAction.Over, GraphConnection.Over, pairOf]
  refine (exactOn_iff_clear ?_ _ among).2 (fun before early => clear_of_no_dash ?_ ?_) _ List.prefix_rfl
  · have distinct : ∀ x ∈ [({ name := "Webhook" } : INode), { name := "Set" }],
        ∀ y ∈ [({ name := "Webhook" } : INode), { name := "Set" }], x.name = y.name → x = y := by decide
    exact fun x hx y hy => distinct x hx y hy
  · have plain : ∀ x ∈ [({ name := "Webhook" } : INode), { name := "Set" }],
        '-' ∉ x.name.toList := by decide
    exact plain
  · exact over_expectAll before fun action member => among action (early.subset member)

def joinedNodes : List INode :=
  [{ name := "a" }, { name := "a-main-0-0-b" }, { name := "b-main-0-0-c" }, { name := "c" }]

def shortFirst : GraphConnection := ⟨{ name := "a" }, { name := "b-main-0-0-c" }, .main, 0, 0⟩

def longFirst : GraphConnection := ⟨{ name := "a-main-0-0-b" }, { name := "c" }, .main, 0, 0⟩

/-- Both connections have the key `a-main-0-0-b-main-0-0-c`: the second one
replaces the first. -/
theorem joinedNodes_not_exactOn : ∃ (U : Set INode) (actions : List GraphAction),
    Set.InjOn INode.name U ∧ (∀ action ∈ actions, action.Over U) ∧
      ¬ ExactOn U (runAll actions) (expectAll actions) := by
  refine ⟨{node | node ∈ joinedNodes},
    joinedNodes.map .addNode ++ [.addConnection shortFirst, .addConnection longFirst], ?_, ?_, ?_⟩
  · have distinct : ∀ x ∈ joinedNodes, ∀ y ∈ joinedNodes, x.name = y.name → x = y := by decide
    exact fun x hx y hy => distinct x hx y hy
  · simp [GraphAction.Over, GraphConnection.Over, joinedNodes, shortFirst, longFirst]
  · intro exactOn
    have expected : shortFirst ∈ (expectAll (joinedNodes.map .addNode ++
        [.addConnection shortFirst, .addConnection longFirst])).connections := by
      simp [expectAll, GraphAction.expect, joinedNodes, shortFirst, longFirst]
    have here := (exactOn shortFirst (by simp [GraphConnection.Over, joinedNodes, shortFirst])).1.2 expected
    exact absurd here (by decide)

end DirectedGraph
end NodeAutomation
