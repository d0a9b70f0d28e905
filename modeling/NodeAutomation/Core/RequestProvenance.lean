import NodeAutomation.Core.RequestsResponse

/-! Where the data of a requesting node came from, before the request and after it
(`requests-response.ts`, `WorkflowExecute.addNodeToBeExecuted`): the node is put back to run again
with the same input, and what is recorded for the requested tools names the source of that input. -/

namespace NodeAutomation.RequestsResponse
open WorkflowExecute

def place (source : ISourceData) : String × Nat × Nat :=
  (source.previousNode, source.previousNodeOutput.getD 0, source.previousNodeRun.getD 0)

/-- `data.main[0]`. -/
def firstInput (executionData : IExecuteData) : Slot (List INodeExecutionData) :=
  Slot.at_ ((executionData.data.get .main).getD []) 0

/-- `sourceOverwrite` of the first item. -/
def overwriteOf : List (Slot (List INodeExecutionData)) → Option ISourceData
  | .value (item :: _) :: _ => match item.pairedItem with
    | some (.one pairedItem) => pairedItem.sourceOverwrite
    | _ => none
  | _ => none

/-- What is recorded for a tool says what the source says, but for the run where the action names a
parent of its own. -/
structure Derived (source : ISourceData) (action : ExecuteNodeAction) (recorded : ISourceData) : Prop where
  node : recorded.previousNode = source.previousNode
  output : recorded.previousNodeOutput.getD 0 = source.previousNodeOutput.getD 0
  run : hasParent action = false → recorded.previousNodeRun.getD 0 = source.previousNodeRun.getD 0

/-- `preservedSourceOverwrite` of an entry that is itself a tool. -/
def inherited (executionData : IExecuteData) : Option ISourceData :=
  executionData.metadata.bind (·.preservedSourceOverwrite)

/-- All that is recorded for a tool is derived: on the item it is given, in its metadata, and in the run
that shows its input. -/
structure ToolDerived (executionData : IExecuteData) (source : ISourceData) (runData : IRunData)
    (action : ExecuteNodeAction) (call : NodeToBeExecuted) : Prop where
  given : ∃ data recorded, call.nodeSuccessData = some data ∧ overwriteOf data = some recorded ∧
    Derived source action recorded
  preserved : inherited executionData = none → ∃ recorded,
    call.metadata.bind (·.preservedSourceOverwrite) = some recorded ∧ Derived source action recorded
  shown : ∃ runs index run, runData.get call.connectionData.node = some runs ∧ call.newRunIndex = some index ∧
    runs[index]? = some run ∧
    (∃ data recorded, run.inputOverride.bind (·.get .aiTool) = some data ∧ overwriteOf data = some recorded ∧
      Derived source action recorded) ∧
    ∃ parent, run.source = [.value parent] ∧
      parent.previousNodeOutput.getD 0 = source.previousNodeOutput.getD 0

/-- The entry that was put back has the input of the paused one, and where that came from is what is
recorded for the tools. -/
structure ProvenanceKept (workflow : Workflow) (executionData : IExecuteData) (request : EngineRequest)
    (prepared : IRunExecutionData) (resume : NodeToBeExecuted) (tools : List NodeToBeExecuted) : Prop where
  resumed : ∃ next entry, addNodeToBeExecuted workflow prepared resume = .ok next ∧
    next.nodeExecutionStack.Perm (entry :: prepared.nodeExecutionStack) ∧
    entry.node.name = executionData.node.name ∧ firstInput entry = firstInput executionData ∧
    (sourceAt entry 0).map place = (sourceAt executionData 0).map place
  recorded : ∃ source, sourceAt executionData 0 = some source ∧
    List.Forall₂ (ToolDerived executionData source prepared.runData) request.actions tools

def defaultSource (executionData : IExecuteData) (runIndex : Nat) : ISourceData :=
  let parentSourceData := sourceAt executionData runIndex
  ⟨(parentSourceData.map (·.previousNode)).getD executionData.node.name,
    some ((parentSourceData.bind (·.previousNodeOutput)).getD 0),
    some ((parentSourceData.bind (·.previousNodeRun)).getD 0)⟩

/-- The input came from the first output of a run of the same index, and `source.main` says at the run
index what it says at 0. -/
def SourceFits (executionData : IExecuteData) (runIndex : Nat) (request : EngineRequest) : Prop :=
  ∃ source, sourceAt executionData 0 = some source ∧ source.previousNodeOutput.getD 0 = 0 ∧
    source.previousNodeRun.getD 0 = runIndex ∧
    ∀ action ∈ request.actions, Derived source action (defaultSource executionData runIndex)

section

variable {workflow : Workflow} {executionData : IExecuteData} {runIndex : Nat} {runData : IRunData}
  {action : ExecuteNodeAction} {call : NodeToBeExecuted} {source : ISourceData}

def onRun (executionData : IExecuteData) (runIndex run : Nat) : ISourceData :=
  { defaultSource executionData runIndex with previousNodeRun := some run }

structure Recorded (executionData : IExecuteData) (runIndex run : Nat) (runData : IRunData)
    (call : NodeToBeExecuted) : Prop where
  given : ∃ data, call.nodeSuccessData = some data ∧ overwriteOf data = some (onRun executionData runIndex run)
  preserved : inherited executionData = none →
    call.metadata.bind (·.preservedSourceOverwrite) = some (onRun executionData runIndex run)
  shown : ∃ runs index shown, runData.get call.connectionData.node = some runs ∧ call.newRunIndex = some index ∧
    runs[index]? = some shown ∧
    (∃ data, shown.inputOverride.bind (·.get .aiTool) = some data ∧
      overwriteOf data = some (onRun executionData runIndex run)) ∧
    ∃ parent, shown.source = [.value parent] ∧
      parent.previousNodeOutput = (defaultSource executionData runIndex).previousNodeOutput

theorem derived_onRun_iff {run : Nat}
    (own : hasParent action = false → (defaultSource executionData runIndex).previousNodeRun = some run) :
    Derived source action (onRun executionData runIndex run) ↔
      Derived source action (defaultSource executionData runIndex) := by
  constructor
  · intro h
    exact ⟨h.node, h.output, fun none_ => by rw [own none_]; exact h.run none_⟩
  · intro h
    exact ⟨h.node, h.output, fun none_ => by rw [← h.run none_, own none_]; rfl⟩

theorem toolDerived_iff {run : Nat} (recorded : Recorded executionData runIndex run runData call)
    (own : hasParent action = false → (defaultSource executionData runIndex).previousNodeRun = some run) :
    ToolDerived executionData source runData action call ↔
      Derived source action (defaultSource executionData runIndex) := by
  rw [← derived_onRun_iff own]
  constructor
  · intro h
    obtain ⟨data, given, overwrite⟩ := recorded.given
    obtain ⟨data', found, given', overwrite', derived⟩ := h.given
    rw [given] at given'
    cases given'
    rw [overwrite] at overwrite'
    cases overwrite'
    exact derived
  · intro derived
    obtain ⟨data, given, overwrite⟩ := recorded.given
    obtain ⟨runs, index, shown, stored, number, there, ⟨data', showing, overwrite'⟩, parent, origin, output⟩ :=
      recorded.shown
    refine ⟨⟨data, _, given, overwrite, derived⟩, fun none_ => ⟨_, recorded.preserved none_, derived⟩,
      ⟨runs, index, shown, stored, number, there, ⟨data', _, showing, overwrite', derived⟩, parent, origin, ?_⟩⟩
    rw [output]
    exact derived.output

theorem Recorded.pushed {run : Nat} (h : Recorded executionData runIndex run runData call) (name : String)
    (more : List ITaskData) :
    Recorded executionData runIndex run (runData.set name ((runData.get name).getD [] ++ more)) call where
  given := h.given
  preserved := h.preserved
  shown := by
    obtain ⟨runs, index, shown, stored, number, there, rest⟩ := h.shown
    by_cases same : call.connectionData.node = name
    · refine ⟨runs ++ more, index, shown, ?_, number, ?_, rest⟩
      · rw [same, OrderedMap.get_set_self, ← same, stored, Option.getD_some]
      · rw [List.getElem?_append_left (List.getElem?_eq_some_iff.1 there).1]
        exact there
    · exact ⟨runs, index, shown, by rw [OrderedMap.get_set_of_ne _ _ same]; exact stored, number, there, rest⟩

def Recording (executionData : IExecuteData) (runIndex : Nat) (runData : IRunData) (action : ExecuteNodeAction)
    (call : NodeToBeExecuted) : Prop :=
  ∃ run, (hasParent action = false → (defaultSource executionData runIndex).previousNodeRun = some run) ∧
    Recorded executionData runIndex run runData call

theorem shown_initializeNodeRunData (state : IRunExecutionData) (nodeName : String) (parent : ISourceData)
    (display : List (Slot (List INodeExecutionData))) :
    ∃ runs shown, (initializeNodeRunData state nodeName parent display).1.runData.get nodeName = some runs ∧
      runs[(initializeNodeRunData state nodeName parent display).2]? = some shown ∧
      shown.inputOverride.bind (·.get .aiTool) = some display ∧ shown.source = [.value parent] :=
  ⟨_, _, OrderedMap.get_set_self _ _ _, List.getElem?_concat_length, rfl, rfl⟩

theorem prepareAction_recording (preparation : Preparation) {node : INode} (named : node.name = action.nodeName) :
    ∃ call, (prepareAction executionData runIndex preparation node action).nodesToBeExecuted =
        preparation.nodesToBeExecuted ++ [call] ∧
      Recording executionData runIndex (prepareAction executionData runIndex preparation node action).state.runData
        action call := by
  obtain ⟨runs, shown, stored, there, showing, origin⟩ := shown_initializeNodeRunData
    { preparation.state with rewireOutputLogTo := preparation.state.rewireOutputLogTo.set node.name action.type } node.name
    ⟨parentNodeOf executionData action, (defaultSource executionData runIndex).previousNodeOutput,
      some (if hasParent action then parentRunIndexOf executionData runIndex preparation.state.runData action else runIndex)⟩
    (buildParentOutputData action.input (parentRunIndexOf executionData runIndex preparation.state.runData action)
      (((sourceAt executionData runIndex).bind (·.previousNodeOutput)).getD 0)
      (defaultSource executionData runIndex).previousNode)
  refine ⟨_, rfl, parentRunIndexOf executionData runIndex preparation.state.runData action, fun own => ?_,
    ⟨_, rfl, rfl⟩, fun none_ => ?_, runs, _, shown, ?_, rfl, there, ⟨_, showing, rfl⟩, _, origin, rfl⟩
  · rw [parentRunIndexOf, if_neg (by rw [own]; decide)]
    rfl
  · change some ((inherited executionData).getD _) = _
    rw [none_]
    rfl
  · exact named ▸ stored

theorem prepareRequestedNodes_recording {state : IRunExecutionData} {request : EngineRequest} {preparation : Preparation}
    (went : prepareRequestedNodesForExecution workflow executionData runIndex state request = .ok preparation) :
    List.Forall₂ (Recording executionData runIndex preparation.state.runData) request.actions
      preparation.nodesToBeExecuted := by
  refine Fallible.foldlM_kept went (P := fun visited now =>
    List.Forall₂ (Recording executionData runIndex now.state.runData) visited now.nodesToBeExecuted) .nil ?_
  intro visited action before after _ held step
  unfold prepareRequestedNode at step
  split at step
  · cases step
  · rename_i node found
    cases step
    obtain ⟨call, calls, recording⟩ := @prepareAction_recording executionData runIndex action before node
      (workflow.named _ _ found)
    rw [calls]
    refine List.rel_append (held.imp fun _ earlier old => ?_) (.cons recording .nil)
    obtain ⟨run, own, recorded⟩ := old
    exact ⟨run, own, recorded.pushed node.name _⟩

theorem toolsDerived_iff {actions : List ExecuteNodeAction} {calls : List NodeToBeExecuted}
    (recording : List.Forall₂ (Recording executionData runIndex runData) actions calls) :
    List.Forall₂ (ToolDerived executionData source runData) actions calls ↔
      ∀ action ∈ actions, Derived source action (defaultSource executionData runIndex) := by
  induction recording with
  | nil => simp
  | cons first _ ih =>
    obtain ⟨run, own, recorded⟩ := first
    rw [List.forall₂_cons, List.forall_mem_cons, ih, toolDerived_iff recorded own]

theorem perm_enqueue (workflow : Workflow) (state : IRunExecutionData) (entry : IExecuteData) :
    (enqueue state workflow entry).nodeExecutionStack.Perm
      ({ entry with ref := state.nextRef } :: state.nodeExecutionStack) := by
  unfold enqueue
  split
  · exact List.perm_append_singleton _ _
  · exact .refl _

theorem addNodeToBeExecuted_single {state : IRunExecutionData} {node : INode}
    (single : numberOfInputs workflow call.connectionData.node ≤ 1)
    (stored : workflow.nodes.get call.connectionData.node = some node) :
    addNodeToBeExecuted workflow state call = .ok (enqueue state workflow (directEntry node call)) := by
  rw [addNodeToBeExecuted, if_neg (Nat.not_lt.2 single), addDirectly, stored]

theorem eq_of_perm_cons {first second : IExecuteData} {rest : List IExecuteData}
    (perm : (first :: rest).Perm (second :: rest)) : first = second := by
  have counts := perm.count_eq first
  rw [List.count_cons_self, List.count_cons] at counts
  by_contra different
  rw [if_neg (by simpa using Ne.symm different)] at counts
  omega

end

theorem requestParent_eq_some_iff {executionData : IExecuteData} {parentNode : String} :
    requestParent executionData = some parentNode ↔
      ∃ source, sourceAt executionData 0 = some source ∧ source.previousNode = parentNode ∧ parentNode ≠ "" := by
  unfold requestParent
  cases sourceAt executionData 0 with
  | none => simp
  | some source =>
    by_cases empty : source.previousNode = ""
    · simp only [empty, if_true, Option.some.injEq, exists_eq_left']
      exact ⟨nofun, fun h => absurd h.1.symm h.2⟩
    · simp only [empty, if_false, Option.some.injEq, exists_eq_left']
      exact ⟨fun same => ⟨same, same ▸ empty⟩, And.left⟩

theorem handleRequest_parts {workflow : Workflow} {executionData : IExecuteData} {runIndex : Nat}
    {state prepared : IRunExecutionData} {request : EngineRequest} {resume : NodeToBeExecuted}
    {tools : List NodeToBeExecuted}
    (handled : handleRequest workflow executionData runIndex state request = .ok (prepared, resume :: tools)) :
    ∃ preparation parentNode main,
      prepareRequestedNodesForExecution workflow executionData runIndex state request = .ok preparation ∧
      requestParent executionData = some parentNode ∧ executionData.data.get .main = some main ∧
      prepared = preparation.state ∧ tools = preparation.nodesToBeExecuted ∧
      resume = prepareRequestingNodeForResuming executionData runIndex request preparation.actions parentNode main := by
  unfold handleRequest at handled
  split at handled
  · cases handled
  · rename_i preparation went
    split at handled
    · cases handled
    · rename_i parentNode parent
      split at handled
      · cases handled
      · rename_i main input
        cases handled
        exact ⟨preparation, parentNode, main, went, parent, input, rfl, rfl, rfl⟩

section

variable {workflow : Workflow} {executionData : IExecuteData} {runIndex : Nat}
  {state prepared : IRunExecutionData} {request : EngineRequest} {resume : NodeToBeExecuted}
  {tools : List NodeToBeExecuted} {node : INode}

theorem firstInput_resumed {main : List (Slot (List INodeExecutionData))} (actions : List SubNodeExecutionDataAction)
    (parentNode : String) (input : executionData.data.get .main = some main) :
    firstInput (directEntry node
      (prepareRequestingNodeForResuming executionData runIndex request actions parentNode main)) =
      firstInput executionData := by
  rw [firstInput, firstInput, input]
  rfl

section

variable (stored : workflow.nodes.get executionData.node.name = some node)
include stored

theorem addNodeToBeExecuted_resumed {main : List (Slot (List INodeExecutionData))}
    (single : numberOfInputs workflow executionData.node.name ≤ 1) (actions : List SubNodeExecutionDataAction)
    (parentNode : String) :
    addNodeToBeExecuted workflow prepared
      (prepareRequestingNodeForResuming executionData runIndex request actions parentNode main) =
      .ok (enqueue prepared workflow (directEntry node
        (prepareRequestingNodeForResuming executionData runIndex request actions parentNode main))) :=
  addNodeToBeExecuted_single single stored

theorem place_of_provenanceKept
    (single : numberOfInputs workflow executionData.node.name ≤ 1)
    (handled : handleRequest workflow executionData runIndex state request = .ok (prepared, resume :: tools))
    (kept : ProvenanceKept workflow executionData request prepared resume tools) {source : ISourceData}
    (origin : sourceAt executionData 0 = some source) : place source = (source.previousNode, 0, runIndex) := by
  obtain ⟨preparation, parentNode, main, _, parent, _, rfl, rfl, rfl⟩ := handleRequest_parts handled
  obtain ⟨found, there, rfl, _⟩ := requestParent_eq_some_iff.1 parent
  rw [origin] at there
  cases there
  obtain ⟨next, entry, went, perm, _, _, same⟩ := kept.resumed
  rw [addNodeToBeExecuted_resumed stored single] at went
  cases went
  have whole := eq_of_perm_cons ((perm_enqueue workflow preparation.state _).symm.trans perm)
  rw [← whole, origin] at same
  exact (Option.some.inj same).symm

end

/-- What is put back and recorded keeps the provenance of the input exactly where that came from output
0 of a run of the same index, and the source at the run index says the same as that at 0. -/
theorem handleRequest_provenance_iff (stored : workflow.nodes.get executionData.node.name = some node)
    (single : numberOfInputs workflow executionData.node.name ≤ 1)
    (handled : handleRequest workflow executionData runIndex state request = .ok (prepared, resume :: tools)) :
    ProvenanceKept workflow executionData request prepared resume tools ↔
      SourceFits executionData runIndex request := by
  have said := place_of_provenanceKept stored single handled
  obtain ⟨preparation, parentNode, main, went, parent, input, rfl, rfl, rfl⟩ := handleRequest_parts handled
  obtain ⟨source, origin, rfl, _⟩ := requestParent_eq_some_iff.1 parent
  have recorded := @toolsDerived_iff _ _ _ source _ _ (prepareRequestedNodes_recording went)
  constructor
  · intro h
    have parts := said h origin
    simp only [place, Prod.mk.injEq, true_and] at parts
    obtain ⟨found, there, derived⟩ := h.recorded
    rw [origin] at there
    cases there
    exact ⟨source, origin, parts.1, parts.2, recorded.1 derived⟩
  · intro h
    obtain ⟨found, there, output, run, derived⟩ := h
    rw [origin] at there
    cases there
    refine ⟨⟨_, _, addNodeToBeExecuted_resumed stored single _ _, perm_enqueue workflow preparation.state _,
      workflow.named _ _ stored, @firstInput_resumed _ runIndex request node main preparation.actions _ input, ?_⟩,
      source, origin, recorded.2 derived⟩
    rw [origin]
    change some (source.previousNode, 0, runIndex) = some (place source)
    rw [place, output, run]

end

def agentBehindIf : Workflow :=
  Workflow.new (fun _ => none)
    { nodes := [{ name := "If" }, { name := "Agent" }, { name := "Tool" }]
      connections := .ofList [
        ("If", .ofList [(.main, [some [⟨"Agent", .main, 0⟩], some [⟨"Agent", .main, 0⟩]])]),
        ("Tool", .ofList [(.aiTool, [some [⟨"Agent", .aiTool, 0⟩]])])] }

def agentEntry (source : ISourceData) : IExecuteData where
  ref := 0
  node := { name := "Agent" }
  data := mainOnly [.value [{}]]
  source := some (mainOnly [.value source])

def askTool : EngineRequest where
  actions := [{ nodeName := "Tool", id := "call" }]

theorem firstOutput_provenanceKept : ∃ prepared resume tools,
    handleRequest agentBehindIf (agentEntry ⟨"If", some 0, some 0⟩) 0 {} askTool = .ok (prepared, resume :: tools) ∧
      ProvenanceKept agentBehindIf (agentEntry ⟨"If", some 0, some 0⟩) askTool prepared resume tools :=
  ⟨_, _, _, rfl, (handleRequest_provenance_iff (by rfl) (by decide) rfl).2
    ⟨_, rfl, rfl, rfl, List.forall_mem_singleton.2 ⟨rfl, rfl, fun _ => rfl⟩⟩⟩

/-- What came from the second output is put back as from the first. -/
theorem secondOutput_not_provenanceKept : ∃ prepared resume tools,
    handleRequest agentBehindIf (agentEntry ⟨"If", some 1, some 0⟩) 0 {} askTool = .ok (prepared, resume :: tools) ∧
      ¬ ProvenanceKept agentBehindIf (agentEntry ⟨"If", some 1, some 0⟩) askTool prepared resume tools := by
  refine ⟨_, _, _, rfl, fun kept => ?_⟩
  have said := place_of_provenanceKept (by rfl) (by decide) rfl kept rfl
  exact absurd said (by decide)

end NodeAutomation.RequestsResponse
