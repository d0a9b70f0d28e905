import NodeAutomation.Core.DirectedGraph
import NodeAutomation.Lib.DepthFirst
import NodeAutomation.Lib.OrderedSet

/-! The nodes below a node (`getChildren` of
`packages/core/src/execution-engine/partial-execution-utils/directed-graph.ts`): all that can be
reached from it by one connection or more. -/

namespace NodeAutomation.DirectedGraph

open DepthFirst Fallible

variable {graph : DirectedGraph}

def children (graph : DirectedGraph) (node : INode) : List INode :=
  (graph.getConnections.filter (·.fromNode = node)).map (·.toNode)

def ChildrenPresent (graph : DirectedGraph) : Prop :=
  ∀ connection ∈ graph.getConnections, graph.Has connection.fromNode → graph.Has connection.toNode

theorem mem_children {node child : INode} : child ∈ graph.children node ↔
    ∃ connection ∈ graph.getConnections, connection.fromNode = node ∧ connection.toNode = child := by
  simp [children, and_assoc]

theorem has_iff_mem_values (node : INode) : graph.Has node ↔ node ∈ graph.nodes.values := by
  rw [OrderedMap.mem_values_iff]
  constructor
  · exact fun has => ⟨node.name, has⟩
  · intro stored
    obtain ⟨name, found⟩ := stored
    have same := graph.named name node found
    rw [Has, same]
    exact found

theorem ChildrenPresent.within (present : graph.ChildrenPresent) : ∀ node ∈ graph.nodes.values,
    ∀ child ∈ graph.children node, child ∈ graph.nodes.values := by
  intro node member child step
  obtain ⟨connection, there, rfl, rfl⟩ := mem_children.1 step
  exact (has_iff_mem_values _).1 (present connection there ((has_iff_mem_values _).2 member))

theorem getDirectChildConnections_eq {node : INode} (has : graph.Has node) :
    graph.getDirectChildConnections node = .ok (graph.getConnections.filter (·.fromNode = node)) := by
  rw [getDirectChildConnections, assertOk, if_pos (decide_eq_true has)]
  rfl

def getChildrenRecursive (graph : DirectedGraph) :
    Nat → INode → OrderedSet INode → Except JsError (OrderedSet INode)
  | 0, _, _ => .error .rangeError
  | fuel + 1, node, children => do
    let directChildren ← graph.getDirectChildConnections node
    directChildren.foldlM (fun children directChild =>
      if directChild.toNode ∈ children then .ok children
      else getChildrenRecursive graph fuel directChild.toNode (children.add directChild.toNode)) children

def getChildren (graph : DirectedGraph) (node : INode) : Except JsError (OrderedSet INode) :=
  graph.getChildrenRecursive (graph.nodes.size + 1) node ∅

def Below (graph : DirectedGraph) : INode → INode → Prop :=
  Relation.TransGen fun a b => b ∈ graph.children a

/-- What a call has added: nodes below, and with each of them its children. -/
structure Descended (graph : DirectedGraph) (node : INode) (before found : OrderedSet INode) : Prop where
  grown : ∃ more, found.elems = before.elems ++ more
  real : ∀ x ∈ found, x ∈ before ∨ graph.Below node x
  direct : ∀ x ∈ graph.children node, x ∈ found
  below : ∀ x ∈ found, x ∉ before → ∀ y ∈ graph.children x, y ∈ found

variable {node child : INode} {before found further : OrderedSet INode}

theorem Descended.kept (h : Descended graph node before found) {x : INode} (inside : x ∈ before) : x ∈ found := by
  obtain ⟨more, elems⟩ := h.grown
  rw [OrderedSet.mem_def, elems]
  exact List.mem_append_left _ inside

theorem elems_add (new : node ∉ before) : (before.add node).elems = before.elems ++ [node] := by
  have fresh : node ∉ before.elems := new
  rw [OrderedSet.add, dif_neg fresh]

structure Descending (graph : DirectedGraph) (node : INode) (before : OrderedSet INode) (done : List GraphConnection)
    (found : OrderedSet INode) : Prop where
  grown : ∃ more, found.elems = before.elems ++ more
  real : ∀ x ∈ found, x ∈ before ∨ graph.Below node x
  come : ∀ connection ∈ done, connection.toNode ∈ found
  below : ∀ x ∈ found, x ∉ before → ∀ y ∈ graph.children x, y ∈ found

theorem descending_begin (graph : DirectedGraph) (node : INode) (before : OrderedSet INode) :
    Descending graph node before [] before where
  grown := ⟨[], (List.append_nil _).symm⟩
  real _ inside := .inl inside
  come _ never := absurd never List.not_mem_nil
  below _ inside new := absurd inside new

theorem Descending.known {done : List GraphConnection} {connection : GraphConnection}
    (h : Descending graph node before done found) (old : connection.toNode ∈ found) :
    Descending graph node before (done ++ [connection]) found where
  grown := h.grown
  real := h.real
  come other member := by
    cases List.mem_append.1 member with
    | inl earlier => exact h.come other earlier
    | inr here => exact List.mem_singleton.1 here ▸ old
  below := h.below

theorem Descending.deeper {done : List GraphConnection} {connection : GraphConnection}
    (h : Descending graph node before done found) (step : connection.toNode ∈ graph.children node)
    (new : connection.toNode ∉ found)
    (deeper : Descended graph connection.toNode (found.add connection.toNode) further) :
    Descending graph node before (done ++ [connection]) further where
  grown := by
    obtain ⟨more, elems⟩ := h.grown
    obtain ⟨rest, elems'⟩ := deeper.grown
    exact ⟨more ++ [connection.toNode] ++ rest, by rw [elems', elems_add new, elems]; simp⟩
  real x inside := by
    cases deeper.real x inside with
    | inr further => exact .inr (.head step further)
    | inl earlier =>
      cases (OrderedSet.mem_add _ _ _).1 earlier with
      | inl there => exact h.real x there
      | inr same => exact .inr (same ▸ .single step)
  come other member := by
    cases List.mem_append.1 member with
    | inl earlier => exact deeper.kept ((OrderedSet.mem_add _ _ _).2 (.inl (h.come other earlier)))
    | inr here => exact List.mem_singleton.1 here ▸ deeper.kept ((OrderedSet.mem_add _ _ _).2 (.inr rfl))
  below x inside fresh y step' := by
    by_cases there : x ∈ found
    · exact deeper.kept ((OrderedSet.mem_add _ _ _).2 (.inl (h.below x there fresh y step')))
    · by_cases same : x = connection.toNode
      · exact deeper.direct y (same ▸ step')
      · refine deeper.below x inside (fun added => ?_) y step'
        exact ((OrderedSet.mem_add _ _ _).1 added).elim there same

theorem getChildrenRecursive_descended (present : graph.ChildrenPresent) {fuel : Nat} (has : graph.Has node)
    (enough : unmet graph.nodes.values before.elems < fuel) :
    ∃ found, graph.getChildrenRecursive fuel node before = .ok found ∧ Descended graph node before found := by
  induction fuel generalizing node before with
  | zero => exact absurd enough (Nat.not_lt_zero _)
  | succ fuel ih =>
    rw [getChildrenRecursive, getDirectChildConnections_eq has, ok_bind]
    have loop := @foldlM_ok JsError GraphConnection (OrderedSet INode)
      (fun children directChild => if directChild.toNode ∈ children then .ok children
        else graph.getChildrenRecursive fuel directChild.toNode (children.add directChild.toNode))
      (Descending graph node before) (graph.getConnections.filter (·.fromNode = node)) before
      (descending_begin graph node before)
    obtain ⟨found, went, done⟩ := loop fun visited connection found member held => by
      have step : connection.toNode ∈ graph.children node := List.mem_map_of_mem member
      have inside := present.within node ((has_iff_mem_values node).1 has) _ step
      by_cases old : connection.toNode ∈ found
      · exact ⟨found, if_pos old, held.known old⟩
      · have fewer : unmet graph.nodes.values (found.add connection.toNode).elems < fuel := by
          obtain ⟨more, elems⟩ := held.grown
          have less := unmet_append_le graph.nodes.values before.elems more
          have entered := unmet_enter_lt inside (show connection.toNode ∉ found.elems from old)
          rw [elems_add old]
          rw [elems] at entered ⊢
          omega
        obtain ⟨next, went, deeper⟩ := ih ((has_iff_mem_values _).2 inside) fewer
        exact ⟨next, by rw [if_neg old, went], held.deeper step old deeper⟩
    refine ⟨found, went, done.grown, done.real, fun x step => ?_, done.below⟩
    obtain ⟨connection, member, rfl⟩ := List.mem_map.1 step
    exact done.come connection member

theorem unmet_values_lt (graph : DirectedGraph) (met : List INode) :
    unmet graph.nodes.values met < graph.nodes.size + 1 := by
  have all := unmet_le_length graph.nodes.values met
  have size : graph.nodes.values.length = graph.nodes.size := List.length_map _
  omega

theorem getChildren_spec (present : graph.ChildrenPresent) (has : graph.Has node) :
    ∃ found, graph.getChildren node = .ok found ∧ ∀ x, x ∈ found ↔ graph.Below node x := by
  obtain ⟨found, went, descended⟩ := getChildrenRecursive_descended present has (unmet_values_lt graph _)
  refine ⟨found, went, fun x => ⟨fun inside => ?_, fun path => ?_⟩⟩
  · exact (descended.real x inside).resolve_left (OrderedSet.not_mem_empty x)
  · induction path with
    | single step => exact descended.direct _ step
    | tail _ step ih => exact descended.below _ ih (OrderedSet.not_mem_empty _) _ step

end NodeAutomation.DirectedGraph
