import NodeAutomation.Core.FilterDisabledNodes

/-! What a disabled node passes on: the engine hands the data of its first main
input to its first output, the graph filter joins every input with every
output. -/

namespace NodeAutomation

/-- `WorkflowExecute.handleDisabledNode`: the data of the outputs, `none` where
it is undefined. -/
def handleDisabledNode (inputData : ITaskDataConnections) :
    Option (List (Slot (List INodeExecutionData))) :=
  match inputData.get .main with
  | none => none
  | some [] => none
  | some (.null :: _) => none
  | some (first :: _) => some [first]

/-- The input data when items arrive at one input: `null` at the inputs before it. -/
def arriving (inputIndex : Nat) (items : List INodeExecutionData) : ITaskDataConnections :=
  mainOnly (List.replicate inputIndex .null ++ [.value items])

def passedOn (inputIndex outputIndex : Nat) (items : List INodeExecutionData) :
    Option (List INodeExecutionData) :=
  (handleDisabledNode (arriving inputIndex items)).bind fun outputs =>
    (Slot.at_ outputs outputIndex).value?

theorem passedOn_eq (inputIndex outputIndex : Nat) (items : List INodeExecutionData) :
    passedOn inputIndex outputIndex items =
      if inputIndex = 0 ∧ outputIndex = 0 then some items else none := by
  cases inputIndex with
  | succ inputIndex => simp [passedOn, arriving, handleDisabledNode, List.replicate_succ]
  | zero =>
    cases outputIndex with
    | zero => rfl
    | succ outputIndex => simp [passedOn, arriving, handleDisabledNode, Slot.at_, Slot.value?]

namespace DirectedGraph

/-- A disabled node on the way: the input that is entered, the node, the output
that is left. -/
structure Visit where
  inputIndex : Nat
  node : INode
  outputIndex : Nat

/-- A way along `Main` connections through disabled nodes. -/
inductive Route (graph : DirectedGraph) : INode → Nat → List Visit → Nat → INode → Prop
  | direct {u o i v} : graph.mainEdges u o i v → Route graph u o [] i v
  | via {u o visits i d o' i' v} : Route graph u o visits i d → d ∈ graph.disabledNodes →
      graph.mainEdges d o' i' v → Route graph u o (visits ++ [⟨i, d, o'⟩]) i' v

def carry (visits : List Visit) (items : List INodeExecutionData) :
    Option (List INodeExecutionData) :=
  visits.foldlM (fun items visit => passedOn visit.inputIndex visit.outputIndex items) items

def EngineDelivers (visits : List Visit) : Prop := ∀ items, carry visits items = some items

def FirstPortsOnly (visits : List Visit) : Prop :=
  ∀ visit ∈ visits, visit.inputIndex = 0 ∧ visit.outputIndex = 0

theorem engineDelivers_iff (visits : List Visit) :
    EngineDelivers visits ↔ FirstPortsOnly visits := by
  induction visits with
  | nil => simp [EngineDelivers, FirstPortsOnly, carry]
  | cons visit visits ih =>
    have unfolded : ∀ items, carry (visit :: visits) items =
        (passedOn visit.inputIndex visit.outputIndex items).bind (carry visits) := fun _ => rfl
    simp only [FirstPortsOnly, List.forall_mem_cons]
    by_cases ports : visit.inputIndex = 0 ∧ visit.outputIndex = 0
    · simp only [EngineDelivers, unfolded, passedOn_eq, ports, and_self, if_true, Option.bind_some,
        true_and]
      exact ih
    · simp [EngineDelivers, unfolded, passedOn_eq, ports]

theorem Route.chain {graph : DirectedGraph} {u v : INode} {o i : Nat} {visits : List Visit}
    (route : Route graph u o visits i v) :
    Elimination.Chain graph.mainEdges (Elimination.anyPort (· ∈ graph.disabledNodes)) u o i v := by
  induction route with
  | direct e => exact .edge e
  | via _ disabled e ih => exact .through ih disabled e

/-- On every way through disabled nodes between enabled ones, the filter
connects the two ends exactly when the engine delivers along the way. -/
def AgreesWithEngine (graph result : DirectedGraph) : Prop :=
  ∀ u v : INode, u.disabled = false → v.disabled = false → ∀ o visits i,
    Route graph u o visits i v → (result.mainEdges u o i v ↔ EngineDelivers visits)

/-- Disabled nodes between enabled ones are entered and left by the first port. -/
def OnlyFirstPorts (graph : DirectedGraph) : Prop :=
  ∀ u v : INode, u.disabled = false → v.disabled = false → ∀ o visits i,
    Route graph u o visits i v → FirstPortsOnly visits

theorem onlyFirstPorts_of_connections {graph : DirectedGraph}
    (into : ∀ c ∈ graph.getConnections, c.toNode ∈ graph.disabledNodes → c.inputIndex = 0)
    (out : ∀ c ∈ graph.getConnections, c.fromNode ∈ graph.disabledNodes → c.outputIndex = 0) :
    graph.OnlyFirstPorts := by
  intro u v hu hv o visits i route
  clear hu hv
  induction route with
  | direct => exact List.forall_mem_nil _
  | via before disabled e ih =>
    intro visit member
    cases List.mem_append.1 member with
    | inl earlier => exact ih visit earlier
    | inr last =>
      obtain ⟨_, _, enters⟩ := (chain_ends before.chain).2
      rw [List.mem_singleton.1 last]
      exact ⟨into _ enters disabled, out _ e disabled⟩

theorem Filtered.agreesWithEngine_iff {graph result : DirectedGraph}
    (state : Filtered graph graph.disabledNodes result) :
    AgreesWithEngine graph result ↔ graph.OnlyFirstPorts := by
  have connected : ∀ u v : INode, u.disabled = false → v.disabled = false → ∀ o visits i,
      Route graph u o visits i v → result.mainEdges u o i v := by
    intro u v hu hv o visits i route
    exact (state.mainEdges_iff hu hv o i).2 route.chain
  refine ⟨fun agrees u v hu hv o visits i route => ?_, fun first u v hu hv o visits i route => ?_⟩
  · have delivers := (agrees u v hu hv o visits i route).1 (connected u v hu hv o visits i route)
    exact (engineDelivers_iff visits).1 delivers
  · have delivers := (engineDelivers_iff visits).2 (first u v hu hv o visits i route)
    exact ⟨fun _ => delivers, fun _ => connected u v hu hv o visits i route⟩

theorem onlyFirstPorts_of_agrees {graph result : DirectedGraph} (separate : graph.KeysSeparate)
    (went : graph.filterDisabledNodes = .ok result) (agrees : AgreesWithEngine graph result) :
    graph.OnlyFirstPorts := by
  obtain ⟨same, went', state⟩ :=
    filterDisabledNodes_spec separate (closed_of_filterDisabledNodes went)
  rw [went] at went'
  cases went'
  exact state.agreesWithEngine_iff.1 agrees

/-- `Source` feeds the second input of a disabled node, which feeds `Target`. -/
def secondInputGraph : DirectedGraph :=
  let source : INode := { name := "Source" }
  let merge : INode := { name := "Merge", disabled := true }
  let target : INode := { name := "Target" }
  [(⟨source, merge, .main, 0, 1⟩ : GraphConnection), ⟨merge, target, .main, 0, 0⟩].foldl
    setConnection (addNodes {} [source, merge, target])

/-- Both ends of `Through` use the first port; the enabled nodes need not. -/
def firstPortsGraph : DirectedGraph :=
  let source : INode := { name := "Source" }
  let through_ : INode := { name := "Through", disabled := true }
  let target : INode := { name := "Target" }
  [(⟨source, through_, .main, 2, 0⟩ : GraphConnection), ⟨through_, target, .main, 0, 1⟩].foldl
    setConnection (addNodes {} [source, through_, target])

end DirectedGraph
end NodeAutomation
