import NodeAutomation.Core.Descendants
import NodeAutomation.Core.FindSubgraph

/-! What is left of the run data once some nodes are to run again
(`packages/core/src/execution-engine/partial-execution-utils/clean-run-data.ts`). The run data of
these nodes goes, that of what is below them, and that of the sub-nodes of both. -/

namespace NodeAutomation.DirectedGraph

open DepthFirst Fallible

/-- The run data of a node and of what the connections above it that are not `Main` come from. -/
def deleteWithSubNodes (graph : DirectedGraph) (newRunData : IRunData) (node : INode) : Except JsError IRunData := do
  let subNodeConnections ← graph.getParentConnections node
  return (newRunData.delete node.name).deleteMany
    ((subNodeConnections.filter (·.type ≠ .main)).map (·.fromNode.name))

def cleanNode (graph : DirectedGraph) (newRunData : IRunData) (nodeToClean : INode) : Except JsError IRunData := do
  let children ← graph.getChildren nodeToClean
  (nodeToClean :: children.elems).foldlM graph.deleteWithSubNodes (newRunData.delete nodeToClean.name)

def cleanRunData (runData : IRunData) (graph : DirectedGraph) (nodesToClean : OrderedSet INode) :
    Except JsError IRunData := do
  let newRunData ← nodesToClean.elems.foldlM graph.cleanNode runData
  return newRunData.deleteMany (newRunData.keys.filter fun nodeName => !graph.nodes.contains nodeName)

variable {graph : DirectedGraph} {node : INode}

theorem getParentConnectionsRecursive_leads {fuel : Nat} {seen found : List GraphConnection}
    (went : graph.getParentConnectionsRecursive fuel node seen = .ok found) :
    ∀ c ∈ found, c ∈ seen ∨ c ∈ graph.getConnections ∧ Reaches graph.children c.toNode node := by
  induction fuel generalizing node seen found with
  | zero => cases went
  | succ fuel ih =>
    obtain ⟨parents, direct, loop⟩ := (bind_eq_ok_iff _ _ _).1 went
    refine foldlM_kept (P := fun _ found => ∀ c ∈ found, c ∈ seen ∨ c ∈ graph.getConnections ∧
      Reaches graph.children c.toNode node) loop (fun c inside => .inl inside) ?_
    intro visited connection found next member before body c inside
    rw [((getDirectParentConnections_eq_ok_iff graph node _).1 direct).2] at member
    have real := (List.mem_filter.1 member).1
    have into : connection.toNode = node := of_decide_eq_true (List.mem_filter.1 member).2
    split at body
    · cases body
      exact before c inside
    · cases ih body c inside with
      | inl earlier =>
        cases List.mem_append.1 earlier with
        | inl old => exact before c old
        | inr here =>
          rw [List.mem_singleton.1 here]
          exact .inr ⟨real, into ▸ .refl⟩
      | inr above =>
        have step : node ∈ graph.children connection.fromNode := mem_children.2 ⟨connection, real, rfl, into⟩
        exact .inr ⟨above.1, above.2.tail step⟩

theorem getParentConnections_spec (closed : graph.Closed) (has : graph.Has node) :
    ∃ found, graph.getParentConnections node = .ok found ∧
      ∀ c, c ∈ found ↔ c ∈ graph.getConnections ∧ Reaches graph.children c.toNode node := by
  obtain ⟨found, went, climbed⟩ := getParentConnections_climbed closed has
  refine ⟨found, went, fun c => ⟨fun inside => ?_, fun above => ?_⟩⟩
  · exact (getParentConnectionsRecursive_leads went c inside).resolve_left List.not_mem_nil
  · obtain ⟨real, path⟩ := above
    have general (a : INode) (path : Reaches graph.children a node) :
        ∀ c ∈ graph.getConnections, c.toNode = a → c ∈ found := by
      induction path using Relation.ReflTransGen.head_induction_on with
      | refl => exact climbed.direct
      | @head a b step _ ih =>
        intro c real into
        obtain ⟨further, there, from_, to_⟩ := mem_children.1 step
        exact climbed.above further (ih further there to_) List.not_mem_nil c real (into.trans from_.symm)
    exact general _ path c real rfl

theorem Closed.childrenPresent (closed : graph.Closed) : graph.ChildrenPresent :=
  fun c real _ => (closed c real).2

/-- The nodes that the sweep from a node finds: the node itself, and what a connection above it that
is not `Main` comes from. -/
def SweptFrom (graph : DirectedGraph) (node swept : INode) : Prop :=
  swept = node ∨ ∃ c ∈ graph.getConnections, c.type ≠ .main ∧ Reaches graph.children c.toNode node ∧ c.fromNode = swept

/-- The nodes whose run data is deleted. -/
def Swept (graph : DirectedGraph) (nodesToClean : OrderedSet INode) (swept : INode) : Prop :=
  ∃ nodeToClean ∈ nodesToClean, ∃ node, Reaches graph.children nodeToClean node ∧ graph.SweptFrom node swept

/-- Exactly the entries under the names of some nodes are gone. -/
def Deletes (P : INode → Prop) (before after : IRunData) : Prop :=
  ∀ name, after.get name = before.get name ∧ (∀ node, P node → node.name ≠ name) ∨
    after.get name = none ∧ ∃ node, P node ∧ node.name = name

variable {P Q : INode → Prop} {before middle after : IRunData}

theorem Deletes.trans (h : Deletes P before middle) (h' : Deletes Q middle after) :
    Deletes (fun node => P node ∨ Q node) before after := by
  intro name
  cases h' name with
  | inr gone =>
    obtain ⟨gone, node, there, same⟩ := gone
    exact .inr ⟨gone, node, .inr there, same⟩
  | inl kept =>
    cases h name with
    | inl old => exact .inl ⟨kept.1.trans old.1, fun node => Or.rec (old.2 node) (kept.2 node)⟩
    | inr gone =>
      obtain ⟨gone, node, there, same⟩ := gone
      exact .inr ⟨kept.1.trans gone, node, .inl there, same⟩

theorem Deletes.congr (h : Deletes P before after) (same : ∀ node, P node ↔ Q node) : Deletes Q before after := by
  have equal : P = Q := funext fun node => propext (same node)
  exact equal ▸ h

theorem deletes_delete (runData : IRunData) (node : INode) :
    Deletes (· = node) runData (runData.delete node.name) := by
  intro name
  rw [OrderedMap.get_delete]
  split
  case isTrue here => exact .inr ⟨rfl, node, rfl, here.symm⟩
  case isFalse elsewhere => exact .inl ⟨rfl, fun other same equal => elsewhere (by rw [← equal, same])⟩

theorem deletes_deleteMany (runData : IRunData) (connections : List GraphConnection) :
    Deletes (fun node => ∃ c ∈ connections, c.fromNode = node) runData
      (runData.deleteMany (connections.map (·.fromNode.name))) := by
  intro name
  rw [OrderedMap.get_deleteMany]
  split
  case isTrue here =>
    obtain ⟨c, member, same⟩ := List.mem_map.1 here
    exact .inr ⟨rfl, c.fromNode, ⟨c, member, rfl⟩, same⟩
  case isFalse elsewhere =>
    refine .inl ⟨rfl, fun node among equal => elsewhere ?_⟩
    obtain ⟨c, member, rfl⟩ := among
    exact List.mem_map.2 ⟨c, member, equal⟩

theorem deleteWithSubNodes_spec (closed : graph.Closed) (has : graph.Has node) (runData : IRunData) :
    ∃ after, graph.deleteWithSubNodes runData node = .ok after ∧ Deletes (graph.SweptFrom node) runData after := by
  obtain ⟨found, went, above⟩ := getParentConnections_spec closed has
  refine ⟨_, by rw [deleteWithSubNodes, went]; rfl, ?_⟩
  refine ((deletes_delete runData node).trans (deletes_deleteMany _ _)).congr fun x => or_congr_right ?_
  constructor
  · intro among
    obtain ⟨c, member, same⟩ := among
    obtain ⟨inside, type⟩ := List.mem_filter.1 member
    exact ⟨c, ((above c).1 inside).1, of_decide_eq_true type, ((above c).1 inside).2, same⟩
  · intro among
    obtain ⟨c, real, type, path, same⟩ := among
    exact ⟨c, List.mem_filter.2 ⟨(above c).2 ⟨real, path⟩, decide_eq_true type⟩, same⟩

theorem deletes_foldlM {body : IRunData → INode → Except JsError IRunData} {R : INode → INode → Prop}
    {nodes : List INode} (each : ∀ node ∈ nodes, ∀ runData, ∃ after, body runData node = .ok after ∧
      Deletes (R node) runData after) (runData : IRunData) :
    ∃ after, nodes.foldlM body runData = .ok after ∧ Deletes (fun x => ∃ node ∈ nodes, R node x) runData after := by
  refine foldlM_ok (P := fun visited after => Deletes (fun x => ∃ node ∈ visited, R node x) runData after)
    (fun name => .inl ⟨rfl, (by simp)⟩) ?_
  intro visited node middle member before
  obtain ⟨after, went, further⟩ := each node member middle
  exact ⟨after, went, (before.trans further).congr fun x => by simp [or_and_right, exists_or]⟩

theorem reaches_iff (a b : INode) : Reaches graph.children a b ↔ b = a ∨ graph.Below a b := by
  rw [Reaches, Relation.reflTransGen_iff_eq_or_transGen]
  rfl

section

variable (closed : graph.Closed)
include closed

theorem Closed.has_of_reaches {a b : INode} (has : graph.Has a)
    (path : Reaches graph.children a b) : graph.Has b := by
  induction path with
  | refl => exact has
  | tail _ step _ =>
    obtain ⟨c, real, _, rfl⟩ := mem_children.1 step
    exact (closed c real).2

theorem cleanNode_spec (has : graph.Has node) (runData : IRunData) :
    ∃ after, graph.cleanNode runData node = .ok after ∧
      Deletes (fun x => ∃ below, Reaches graph.children node below ∧ graph.SweptFrom below x) runData after := by
  obtain ⟨found, went, below⟩ := getChildren_spec closed.childrenPresent has
  have listed (x : INode) : x ∈ node :: found.elems ↔ Reaches graph.children node x := by
    rw [List.mem_cons, ← OrderedSet.mem_def, below, reaches_iff]
  obtain ⟨after, swept, deletes⟩ := deletes_foldlM
    (fun x (member : x ∈ node :: found.elems) => deleteWithSubNodes_spec closed (closed.has_of_reaches has ((listed x).1 member)))
    (runData.delete node.name)
  refine ⟨after, by rw [cleanNode, went]; exact swept, ?_⟩
  refine ((deletes_delete runData node).trans deletes).congr fun x => ?_
  constructor
  · intro gone
    cases gone with
    | inl self => exact ⟨node, .refl, .inl self⟩
    | inr among =>
      obtain ⟨below, member, from_⟩ := among
      exact ⟨below, (listed below).1 member, from_⟩
  · intro among
    obtain ⟨below, path, from_⟩ := among
    exact .inr ⟨below, (listed below).2 path, from_⟩

theorem Swept.has {nodesToClean : OrderedSet INode}
    (present : ∀ node ∈ nodesToClean, graph.Has node) {x : INode} (swept : graph.Swept nodesToClean x) :
    graph.Has x := by
  obtain ⟨nodeToClean, member, below, path, from_⟩ := swept
  cases from_ with
  | inl self => exact self ▸ closed.has_of_reaches (present nodeToClean member) path
  | inr above =>
    obtain ⟨c, real, _, _, rfl⟩ := above
    exact (closed c real).1

theorem cleanRunData_spec {nodesToClean : OrderedSet INode}
    (present : ∀ node ∈ nodesToClean, graph.Has node) (runData : IRunData) :
    ∃ result, cleanRunData runData graph nodesToClean = .ok result ∧ ∀ name,
      (∀ node, graph.nodes.get name = some node → ¬graph.Swept nodesToClean node → result.get name = runData.get name) ∧
      ((∀ node, graph.nodes.get name = some node → graph.Swept nodesToClean node) → result.get name = none) := by
  obtain ⟨after, went, deletes⟩ := deletes_foldlM (fun node member => cleanNode_spec closed (present node member)) runData
  refine ⟨_, by rw [cleanRunData, went]; rfl, fun name => ⟨fun node stored spared => ?_, fun all => ?_⟩⟩
  · have known : name ∉ after.keys.filter fun nodeName => !graph.nodes.contains nodeName := by
      simp [OrderedMap.contains, stored]
    rw [OrderedMap.get_deleteMany, if_neg known]
    cases deletes name with
    | inl kept => exact kept.1
    | inr gone =>
      obtain ⟨_, x, swept, same⟩ := gone
      have has := Swept.has closed present swept
      rw [Has, same, stored] at has
      cases has
      exact absurd swept spared
  · rw [OrderedMap.get_deleteMany]
    split
    case isTrue => rfl
    case isFalse known =>
      cases stored : graph.nodes.get name with
      | none =>
        refine (OrderedMap.get_eq_none_iff _ _).2 fun there => known (List.mem_filter.2 ⟨there, ?_⟩)
        simp [OrderedMap.contains, stored]
      | some node =>
        cases deletes name with
        | inl kept => exact absurd (graph.named name node stored) (kept.2 node (all node stored))
        | inr gone => exact gone.1

end

/-- A node to clean, a descendant of one, or a sub-node of these, by one connection or more that are
not `Main`. -/
def MustGo (graph : DirectedGraph) (nodesToClean : OrderedSet INode) (x : INode) : Prop :=
  ∃ nodeToClean ∈ nodesToClean, ∃ node, Reaches graph.children nodeToClean node ∧
    (x = node ∨ Relation.TransGen graph.Serves node x)

def CleansExactly (graph : DirectedGraph) (runData : IRunData) (nodesToClean : OrderedSet INode) : Prop :=
  ∃ result, cleanRunData runData graph nodesToClean = .ok result ∧ ∀ name,
    (∀ node, graph.nodes.get name = some node → ¬graph.MustGo nodesToClean node → result.get name = runData.get name) ∧
    ((∀ node, graph.nodes.get name = some node → graph.MustGo nodesToClean node) → result.get name = none)

/-- Where a connection that is not `Main` ends upstream of what is cleaned, its source has no run data
or has to go anyway. -/
def NothingUpstream (graph : DirectedGraph) (runData : IRunData) (nodesToClean : OrderedSet INode) : Prop :=
  ∀ c ∈ graph.getConnections, c.type ≠ .main → ∀ nodeToClean ∈ nodesToClean, ∀ node,
    Reaches graph.children nodeToClean node → Reaches graph.children c.toNode node →
    runData.get c.fromNode.name = none ∨ graph.MustGo nodesToClean c.fromNode

theorem MustGo.swept {nodesToClean : OrderedSet INode} {x : INode} (h : graph.MustGo nodesToClean x) :
    graph.Swept nodesToClean x := by
  obtain ⟨nodeToClean, member, node, path, from_⟩ := h
  refine ⟨nodeToClean, member, node, path, from_.imp_right fun chain => ?_⟩
  have leads (y : INode) (chain : Relation.ReflTransGen graph.Serves node y) : Reaches graph.children y node := by
    induction chain with
    | refl => exact .refl
    | tail _ last ih =>
      obtain ⟨c, real, _, to_, from_⟩ := last
      exact .head (mem_children.2 ⟨c, real, from_, to_⟩) ih
  obtain ⟨y, before, c, real, type, to_, same⟩ := Relation.TransGen.tail'_iff.1 chain
  exact ⟨c, real, type, to_ ▸ leads y before, same⟩

/-- Exactly what must be is deleted, if and only if there is no run data of sub-nodes upstream. -/
theorem cleanRunData_exact_iff (closed : graph.Closed) {nodesToClean : OrderedSet INode}
    (present : ∀ node ∈ nodesToClean, graph.Has node) (runData : IRunData) :
    graph.CleansExactly runData nodesToClean ↔ graph.NothingUpstream runData nodesToClean := by
  obtain ⟨result, went, spec⟩ := cleanRunData_spec closed present runData
  constructor
  · intro exactly c real type nodeToClean member node path above
    obtain ⟨result', went', spec'⟩ := exactly
    rw [went] at went'
    cases went'
    have swept : graph.Swept nodesToClean c.fromNode := ⟨nodeToClean, member, node, path, .inr ⟨c, real, type, above, rfl⟩⟩
    have stored : graph.nodes.get c.fromNode.name = some c.fromNode := (closed c real).1
    by_cases must : graph.MustGo nodesToClean c.fromNode
    · exact .inr must
    · refine .inl ?_
      have kept := (spec' c.fromNode.name).1 c.fromNode stored must
      have gone := (spec c.fromNode.name).2 fun node found => by
        rw [stored] at found
        cases found
        exact swept
      exact kept.symm.trans gone
  · intro upstream
    refine ⟨result, went, fun name => ⟨fun node stored spared => ?_, fun all => ?_⟩⟩
    · by_cases swept : graph.Swept nodesToClean node
      · have gone := (spec name).2 fun other found => by
          rw [stored] at found
          cases found
          exact swept
        obtain ⟨nodeToClean, member, below, path, from_⟩ := swept
        cases from_ with
        | inl self => exact absurd ⟨nodeToClean, member, below, path, .inl self⟩ spared
        | inr above =>
          obtain ⟨c, real, type, path', rfl⟩ := above
          have none := (upstream c real type nodeToClean member below path path').resolve_right spared
          rw [graph.named name _ stored] at none
          exact gone.trans none.symm
      · exact (spec name).1 node stored swept
    · exact (spec name).2 fun node stored => (all node stored).swept

def agent : INode := { name := "Agent" }

def model : INode := { name := "Model" }

def followUp : INode := { name := "FollowUp" }

/-- `Model` serves `Agent`, which leads to `FollowUp`. -/
def servedGraph : DirectedGraph :=
  [(⟨model, agent, .aiTool, 0, 0⟩ : GraphConnection), ⟨agent, followUp, .main, 0, 0⟩].foldl setConnection
    (addNodes {} [agent, model, followUp])

def modelRan : IRunData := OrderedMap.ofList [("Model", [{}])]

/-- Where `Agent` is to run again, the run data of `Model` has to go. -/
theorem servedGraph_agent_exact : servedGraph.CleansExactly modelRan (OrderedSet.ofList [agent]) := by
  refine (cleanRunData_exact_iff (by decide) (by decide) modelRan).2 fun c real type _ _ _ _ _ => .inr ?_
  have only : ∀ c ∈ servedGraph.getConnections, c.type ≠ .main → servedGraph.Serves agent c.fromNode := by
    intro c real type
    have into : ∀ c ∈ servedGraph.getConnections, c.type ≠ .main → c.toNode = agent := by decide
    exact ⟨c, real, type, into c real type, rfl⟩
  exact ⟨agent, by decide, agent, .refl, .inr (.single (only c real type))⟩

/-- Where only `FollowUp` is to run again, the run data of `Model` is deleted all the same. -/
theorem servedGraph_followUp_not_exact : ¬servedGraph.CleansExactly modelRan (OrderedSet.ofList [followUp]) := by
  intro exactly
  obtain ⟨result, went, spec⟩ := exactly
  have last (node : INode) (path : Reaches servedGraph.children followUp node) : node = followUp := by
    cases (reaches_iff followUp node).1 path with
    | inl self => exact self
    | inr below =>
      obtain ⟨next, step, _⟩ := Relation.TransGen.head'_iff.1 below
      have none : servedGraph.children followUp = [] := by decide
      rw [none] at step
      exact absurd step List.not_mem_nil
  have spared : ¬servedGraph.MustGo (OrderedSet.ofList [followUp]) model := by
    intro must
    obtain ⟨nodeToClean, member, node, path, from_⟩ := must
    have self : nodeToClean = followUp := by simpa using member
    rw [self] at path
    rw [last node path] at from_
    cases from_ with
    | inl same => exact absurd same (by decide)
    | inr chain =>
      obtain ⟨next, step, _⟩ := Relation.TransGen.head'_iff.1 chain
      obtain ⟨c, real, type, into, _⟩ := step
      have none : ∀ c ∈ servedGraph.getConnections, c.type ≠ .main → c.toNode ≠ followUp := by decide
      exact none c real type into
  have kept := (spec "Model").1 model (by decide) spared
  have gone : (cleanRunData modelRan servedGraph (OrderedSet.ofList [followUp])).toOption.map (·.contains "Model") =
    some false := by decide
  rw [went] at gone
  have none : result.contains "Model" = false := Option.some.inj gone
  rw [OrderedMap.contains, kept] at none
  exact absurd none (by decide)

end NodeAutomation.DirectedGraph
