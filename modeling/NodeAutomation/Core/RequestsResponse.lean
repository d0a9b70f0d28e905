import NodeAutomation.Core.WaitingExecution

/-! A node that asks the engine to run other nodes first
(`requests-response.ts`, `WorkflowExecute.handleEngineRequest`): the requested
nodes and the requesting one are handed to `addNodeToBeExecuted` one by one, the
requesting one first. A list of runs is never left empty, so its length less one
is the index of the last run. -/

namespace NodeAutomation.RequestsResponse
open WorkflowExecute

/-- What is thrown, and the state left behind. A call of `addNodeToBeExecuted`
that throws leaves the state as it was. -/
abbrev Thrown := JsError × IRunExecutionData

/-- `executionData.source?.main?.[index]`. -/
def sourceAt (executionData : IExecuteData) (index : Nat) : Option ISourceData :=
  (Slot.at_ ((executionData.source.bind (·.get .main)).getD []) index).value?

def buildParentOutputData (json : List (String × JsValue))
    (parentRunIndex parentOutputIndex : Nat) (parentSourceNode : String) :
    List (Slot (List INodeExecutionData)) :=
  [.value [
    { json := json
      pairedItem := some (.one
        { item := parentRunIndex
          input := some parentOutputIndex
          sourceOverwrite :=
            some ⟨parentSourceNode, some parentOutputIndex, some parentRunIndex⟩ }) }]]

def initializeNodeRunData (state : IRunExecutionData) (nodeName : String) (source : ISourceData)
    (displayOutputData : List (Slot (List INodeExecutionData))) : IRunExecutionData × Nat :=
  let nodeRunData := (state.runData.get nodeName).getD []
  let placeholder : ITaskData :=
    { inputOverride := some (OrderedMap.set ∅ .aiTool displayOutputData)
      source := [.value source] }
  ({ state with runData := state.runData.set nodeName (nodeRunData ++ [placeholder]) },
    nodeRunData.length)

/-- `{ ...first, ...second }`. -/
def spread (first second : List (String × JsValue)) : List (String × JsValue) :=
  (OrderedMap.ofList (first ++ second)).entries

structure Preparation where
  state : IRunExecutionData
  nodesToBeExecuted : List NodeToBeExecuted := []
  actions : List SubNodeExecutionDataAction := []

section

variable (workflow : Workflow) (executionData : IExecuteData) (runIndex : Nat)

def hasParent (action : ExecuteNodeAction) : Bool := decide (action.parentNodeName.getD "" ≠ "")

def parentNodeOf (action : ExecuteNodeAction) : String :=
  action.parentNodeName.getD executionData.node.name

def parentRunIndexOf (runData : IRunData) (action : ExecuteNodeAction) : Nat :=
  if hasParent action then
    ((runData.get (parentNodeOf executionData action)).map List.length).getD 1 - 1
  else ((sourceAt executionData runIndex).bind (·.previousNodeRun)).getD 0

def agentInputData (action : ExecuteNodeAction) : Option INodeExecutionData :=
  ((executionData.data.get .main).bind fun main =>
    (Slot.at_ main 0).value?).bind fun items => items[action.itemIndex.getD 0]?

def prepareAction (preparation : Preparation) (node : INode) (action : ExecuteNodeAction) :
    Preparation :=
  let parentSourceData := sourceAt executionData runIndex
  let defaultParentOutputIndex := (parentSourceData.bind (·.previousNodeOutput)).getD 0
  let defaultParentSourceNode := (parentSourceData.map (·.previousNode)).getD executionData.node.name
  let parentNode := parentNodeOf executionData action
  let parentRunIndex := parentRunIndexOf executionData runIndex preparation.state.runData action
  let previousNodeRun := if hasParent action then parentRunIndex else runIndex
  let mergedJson := spread
    (spread (((agentInputData executionData action).map (·.json)).getD []) action.input)
    [("toolCallId", .string action.id)]
  let output := fun json =>
    buildParentOutputData json parentRunIndex defaultParentOutputIndex defaultParentSourceNode
  let rewired := { preparation.state with
    rewireOutputLogTo := preparation.state.rewireOutputLogTo.set node.name action.type }
  let (state, nodeRunIndex) := initializeNodeRunData rewired node.name
    ⟨parentNode, some defaultParentOutputIndex, some previousNodeRun⟩ (output action.input)
  { state := state
    nodesToBeExecuted := preparation.nodesToBeExecuted ++
      [{ connectionData := ⟨action.nodeName, action.type, 0⟩
         outputIndex := 0
         parentNodeName := parentNode
         nodeSuccessData := some (output mergedJson)
         runIndex := previousNodeRun
         newRunIndex := some nodeRunIndex
         metadata := some
          { preserveSourceOverwrite := true
            preservedSourceOverwrite := some <|
              (executionData.metadata.bind (·.preservedSourceOverwrite)).getD
                ⟨defaultParentSourceNode, some defaultParentOutputIndex, some parentRunIndex⟩ } }]
    actions := preparation.actions ++ [⟨action, action.nodeName, nodeRunIndex⟩] }

def prepareRequestedNode (preparation : Preparation) (action : ExecuteNodeAction) :
    Except Thrown Preparation :=
  match workflow.getNode action.nodeName with
  | none => .error (.unexpectedError
      ("Workflow does not contain a node with the name of \"" ++ action.nodeName ++ "\"."),
      preparation.state)
  | some node => .ok (prepareAction executionData runIndex preparation node action)

def prepareRequestedNodesForExecution (state : IRunExecutionData) (request : EngineRequest) :
    Except Thrown Preparation :=
  request.actions.foldlM (prepareRequestedNode workflow executionData runIndex) { state := state }

def requestParent : Option String :=
  match sourceAt executionData 0 with
  | none => none
  | some source => if source.previousNode = "" then none else some source.previousNode

def resumeMetadata : ITaskMetadata :=
  match executionData.metadata with
  | some metadata =>
    if metadata.preservedSourceOverwrite.isSome ∧ metadata.preserveSourceOverwrite then
      { preserveSourceOverwrite := true
        preservedSourceOverwrite := metadata.preservedSourceOverwrite }
    else {}
  | none => {}

def prepareRequestingNodeForResuming (request : EngineRequest)
    (actions : List SubNodeExecutionDataAction) (parentNode : String)
    (main : List (Slot (List INodeExecutionData))) : NodeToBeExecuted where
  connectionData := ⟨executionData.node.name, .aiTool, 0⟩
  outputIndex := 0
  parentNodeName := parentNode
  nodeSuccessData := some main
  runIndex := runIndex
  newRunIndex := some runIndex
  metadata := some { resumeMetadata executionData with
    nodeWasResumed := true
    subNodeExecutionData := some ⟨actions, request.metadata⟩ }

def handleRequest (state : IRunExecutionData) (request : EngineRequest) :
    Except Thrown (IRunExecutionData × List NodeToBeExecuted) :=
  match prepareRequestedNodesForExecution workflow executionData runIndex state request with
  | .error thrown => .error thrown
  | .ok preparation =>
    match requestParent executionData with
    | none => .ok (preparation.state, [])
    | some parentNode =>
      match executionData.data.get .main with
      | none => .error (.typeError, preparation.state)
      | some main => .ok (preparation.state,
          prepareRequestingNodeForResuming executionData runIndex request preparation.actions
            parentNode main :: preparation.nodesToBeExecuted)

def addRequested (state : IRunExecutionData) (call : NodeToBeExecuted) :
    Except Thrown IRunExecutionData :=
  match addNodeToBeExecuted workflow state call with
  | .ok next => .ok next
  | .error error => .error (error, state)

def handleEngineRequest (state : IRunExecutionData) (request : EngineRequest) :
    Except Thrown IRunExecutionData :=
  match handleRequest workflow executionData runIndex state request with
  | .error thrown => .error thrown
  | .ok (state, nodesToBeExecuted) => nodesToBeExecuted.foldlM (addRequested workflow) state

end

def leftBy : Except Thrown IRunExecutionData → IRunExecutionData
  | .ok state => state
  | .error (_, state) => state

/-! Preparing a request touches runs and node objects, not the queues. -/

section

variable {workflow : Workflow} {executionData : IExecuteData} {runIndex : Nat}
  {state next : IRunExecutionData} {request : EngineRequest}

theorem sameQueues_prepareAction (preparation : Preparation) (node : INode)
    (action : ExecuteNodeAction) :
    SameQueues preparation.state
      (prepareAction executionData runIndex preparation node action).state :=
  ⟨rfl, rfl, rfl, rfl, rfl, rfl⟩

theorem prepareRequestedNodes_kept {preparation : Preparation}
    (went : prepareRequestedNodesForExecution workflow executionData runIndex state request =
      .ok preparation) :
    SameQueues state preparation.state ∧
      preparation.nodesToBeExecuted.map (·.connectionData.node) =
        request.actions.map (·.nodeName) ∧
      ∀ action ∈ request.actions, ∃ node, workflow.nodes.get action.nodeName = some node := by
  refine Fallible.foldlM_kept went (P := fun visited now => SameQueues state now.state ∧
    now.nodesToBeExecuted.map (·.connectionData.node) = visited.map (·.nodeName) ∧
    ∀ action ∈ visited, ∃ node, workflow.nodes.get action.nodeName = some node)
    ⟨.refl state, rfl, by simp⟩ ?_
  intro visited action before after _ held step
  unfold prepareRequestedNode at step
  split at step
  · cases step
  · rename_i node found
    rw [← Except.ok.inj step]
    refine ⟨held.1.trans (sameQueues_prepareAction before node action), ?_,
      fun other member => ?_⟩
    · simp only [prepareAction, List.map_append, held.2.1, List.map_cons, List.map_nil]
    · cases List.mem_append.1 member with
      | inl earlier => exact held.2.2 other earlier
      | inr last =>
        rw [List.mem_singleton.1 last]
        exact ⟨node, found⟩

theorem prepareRequestedNodes_thrown {error : JsError}
    (thrown : prepareRequestedNodesForExecution workflow executionData runIndex state request =
      .error (error, next)) : SameQueues state next := by
  have keeps : ∀ (visited : List ExecuteNodeAction) (action : ExecuteNodeAction)
      (before after : Preparation), action ∈ request.actions → SameQueues state before.state →
      prepareRequestedNode workflow executionData runIndex before action = .ok after →
      SameQueues state after.state := by
    intro _ action before after _ held step
    unfold prepareRequestedNode at step
    split at step
    · cases step
    · rename_i node _
      rw [← Except.ok.inj step]
      exact held.trans (sameQueues_prepareAction before node action)
  obtain ⟨_, action, before, _, held, step⟩ := Fallible.foldlM_error thrown
    (P := fun _ now => SameQueues state now.state) (.refl state) keeps
  unfold prepareRequestedNode at step
  split at step
  · have same := (Prod.mk.inj (Except.error.inj step)).2
    rw [← same]
    exact held
  · cases step

theorem handleRequest_thrown {error : JsError}
    (thrown : handleRequest workflow executionData runIndex state request = .error (error, next)) :
    SameQueues state next := by
  unfold handleRequest at thrown
  split at thrown
  · rename_i prepared
    rw [Except.error.inj thrown] at prepared
    exact prepareRequestedNodes_thrown prepared
  · rename_i preparation prepared
    split at thrown
    · cases thrown
    · split at thrown
      · rw [← (Prod.mk.inj (Except.error.inj thrown)).2]
        exact (prepareRequestedNodes_kept prepared).1
      · cases thrown

theorem handleRequest_ignored {calls : List NodeToBeExecuted}
    (unknown : requestParent executionData = none)
    (went : handleRequest workflow executionData runIndex state request = .ok (next, calls)) :
    SameQueues state next ∧ calls = [] := by
  unfold handleRequest at went
  split at went
  · cases went
  · rename_i preparation prepared
    rw [unknown] at went
    have same := Prod.mk.inj (Except.ok.inj went)
    rw [← same.1, ← same.2]
    exact ⟨(prepareRequestedNodes_kept prepared).1, rfl⟩

theorem handleRequest_scheduled {calls : List NodeToBeExecuted} {parentNode : String}
    (known : requestParent executionData = some parentNode)
    (went : handleRequest workflow executionData runIndex state request = .ok (next, calls)) :
    SameQueues state next ∧ ∃ resume tools, calls = resume :: tools ∧
      resume.connectionData.node = executionData.node.name ∧
      (resume.metadata.map (·.nodeWasResumed)) = some true ∧
      tools.map (·.connectionData.node) = request.actions.map (·.nodeName) ∧
      ∀ action ∈ request.actions, ∃ node, workflow.nodes.get action.nodeName = some node := by
  unfold handleRequest at went
  split at went
  · cases went
  · rename_i preparation prepared
    have kept := prepareRequestedNodes_kept prepared
    rw [known] at went
    simp only at went
    split at went
    · cases went
    · have same := Prod.mk.inj (Except.ok.inj went)
      rw [← same.1]
      exact ⟨kept.1, _, _, same.2.symm, rfl, rfl, kept.2⟩

end

section

variable {workflow : Workflow} {executionData : IExecuteData} {runIndex : Nat}
  {state next : IRunExecutionData} {request : EngineRequest}

theorem stacked_addAllRequested (v1 : workflow.isLegacyExecutionOrder = false)
    (calls : List NodeToBeExecuted) :
    Stacked state (leftBy (calls.foldlM (addRequested workflow) state)) := by
  induction calls generalizing state with
  | nil => exact .refl state
  | cons call calls ih =>
    rw [List.foldlM_cons, addRequested]
    cases added : addNodeToBeExecuted workflow state call with
    | ok middle => exact (stacked_addNodeToBeExecuted v1 added).trans ih
    | error error => exact .refl state

theorem addAllRequested_direct (v1 : workflow.isLegacyExecutionOrder = false)
    {calls : List NodeToBeExecuted}
    (single : ∀ call ∈ calls, numberOfInputs workflow call.connectionData.node ≤ 1)
    (stored : ∀ call ∈ calls, ∃ node, workflow.nodes.get call.connectionData.node = some node)
    (went : calls.foldlM (addRequested workflow) state = .ok next) :
    ∃ added, next.nodeExecutionStack = added ++ state.nodeExecutionStack ∧
      added.map (·.node.name) = (calls.map (·.connectionData.node)).reverse ∧
      state.nextRef ≤ next.nextRef ∧
      ∀ entry ∈ added, state.nextRef ≤ entry.ref ∧ entry.ref < next.nextRef := by
  induction calls generalizing state with
  | nil =>
    rw [← Except.ok.inj went]
    exact ⟨[], rfl, rfl, le_rfl, by simp⟩
  | cons call calls ih =>
    obtain ⟨node, found⟩ := stored call List.mem_cons_self
    have direct := addNodeToBeExecuted_direct v1 state call
      (single call List.mem_cons_self) found
    rw [List.foldlM_cons, addRequested, direct] at went
    obtain ⟨added, stack, names, grows, entries⟩ := ih
      (fun other member => single other (List.mem_cons_of_mem call member))
      (fun other member => stored other (List.mem_cons_of_mem call member)) went
    have grown : state.nextRef < next.nextRef := grows
    refine ⟨added ++ [{ directEntry node call with ref := state.nextRef }], ?_, ?_, grown.le,
      fun entry member => ?_⟩
    · rw [stack, List.append_assoc, List.singleton_append]
    · simp only [List.map_append, names, List.map_cons, List.map_nil, List.reverse_cons,
        directEntry, workflow.named _ _ found]
    · cases List.mem_append.1 member with
      | inl later =>
        have numbered := entries entry later
        exact ⟨(Nat.le_succ _).trans numbered.1, numbered.2⟩
      | inr first =>
        rw [List.mem_singleton.1 first]
        exact ⟨le_rfl, grown⟩

theorem sameQueues_handleEngineRequest (unknown : requestParent executionData = none) :
    SameQueues state (leftBy (handleEngineRequest workflow executionData runIndex state request)) := by
  unfold handleEngineRequest
  cases handled : handleRequest workflow executionData runIndex state request with
  | error thrown => exact handleRequest_thrown handled
  | ok prepared =>
    obtain ⟨same, nothing⟩ := handleRequest_ignored unknown handled
    simp only [nothing]
    exact same

section

variable (v1 : workflow.isLegacyExecutionOrder = false)
include v1

theorem occupied_of_handleRequest
    {parentNode : String} (known : requestParent executionData = some parentNode) {node : INode}
    (stored : workflow.nodes.get executionData.node.name = some node)
    (single : numberOfInputs workflow executionData.node.name ≤ 1)
    {prepared : IRunExecutionData × List NodeToBeExecuted}
    (handled : handleRequest workflow executionData runIndex state request = .ok prepared) :
    (leftBy (handleEngineRequest workflow executionData runIndex state request)).nodeExecutionStack ≠
      [] := by
  obtain ⟨_, resume, tools, eq, name, _⟩ := handleRequest_scheduled known handled
  have direct := addNodeToBeExecuted_direct v1 prepared.1 resume
    (by rw [name]; exact single) (by rw [name]; exact stored)
  simp only [handleEngineRequest, handled, eq, List.foldlM_cons, addRequested, direct,
    Fallible.ok_bind]
  exact (stacked_addAllRequested v1 tools).occupied (List.cons_ne_nil _ _)

theorem handleEngineRequest_quiet
    {node : INode} (stored : workflow.nodes.get executionData.node.name = some node)
    (single : numberOfInputs workflow executionData.node.name ≤ 1) (runIndex : Nat)
    (state : IRunExecutionData) (request : EngineRequest) :
    let after := leftBy (handleEngineRequest workflow executionData runIndex state request)
    SameQueues state after ∨ after.nodeExecutionStack ≠ [] := by
  cases parent : requestParent executionData with
  | none => exact .inl (sameQueues_handleEngineRequest parent)
  | some parentNode =>
    cases handled : handleRequest workflow executionData runIndex state request with
    | error thrown =>
      simp only [handleEngineRequest, handled]
      exact .inl (handleRequest_thrown handled)
    | ok prepared => exact .inr (occupied_of_handleRequest v1 parent stored single handled)

theorem stacked_handleEngineRequest :
    Stacked state (leftBy (handleEngineRequest workflow executionData runIndex state request)) := by
  unfold handleEngineRequest
  cases handled : handleRequest workflow executionData runIndex state request with
  | error thrown => exact (handleRequest_thrown handled).stacked
  | ok prepared =>
    have same : SameQueues state prepared.1 := by
      cases parent : requestParent executionData with
      | none => exact (handleRequest_ignored parent handled).1
      | some parentNode => exact (handleRequest_scheduled parent handled).1
    exact same.stacked.trans (stacked_addAllRequested v1 prepared.2)

/-- The requested nodes lie above the requesting one, and that above all that
was there before. -/
theorem handleEngineRequest_stack
    {parentNode : String} (known : requestParent executionData = some parentNode)
    {node : INode} (stored : workflow.nodes.get executionData.node.name = some node)
    (single : numberOfInputs workflow executionData.node.name ≤ 1)
    (tools : ∀ action ∈ request.actions, numberOfInputs workflow action.nodeName ≤ 1)
    (went : handleEngineRequest workflow executionData runIndex state request = .ok next) :
    ∃ requested resumed,
      next.nodeExecutionStack = requested ++ resumed :: state.nodeExecutionStack ∧
      requested.map (·.node.name) = (request.actions.map (·.nodeName)).reverse ∧
      resumed.node.name = executionData.node.name ∧
      resumed.metadata.map (·.nodeWasResumed) = some true ∧
      resumed.ref = state.nextRef ∧ state.nextRef < next.nextRef ∧
      ∀ entry ∈ requested, resumed.ref < entry.ref ∧ entry.ref < next.nextRef := by
  unfold handleEngineRequest at went
  split at went
  · cases went
  · rename_i prepared calls handled
    obtain ⟨same, resume, requests, eq, name, metadata, names, exist⟩ :=
      handleRequest_scheduled known handled
    have direct := addNodeToBeExecuted_direct v1 prepared resume
      (by rw [name]; exact single) (by rw [name]; exact stored)
    have among : ∀ call ∈ requests, ∃ action ∈ request.actions,
        action.nodeName = call.connectionData.node := by
      intro call member
      have listed := List.mem_map_of_mem (f := fun call => call.connectionData.node) member
      rw [names] at listed
      exact List.mem_map.1 listed
    rw [eq, List.foldlM_cons, addRequested, direct] at went
    obtain ⟨added, stack, order, grows, entries⟩ := addAllRequested_direct v1
      (fun call member => by
        obtain ⟨action, listed, same⟩ := among call member
        rw [← same]
        exact tools action listed)
      (fun call member => by
        obtain ⟨action, listed, same⟩ := among call member
        rw [← same]
        exact exist action listed) went
    refine ⟨added, { directEntry node resume with ref := prepared.nextRef }, ?_, ?_, ?_, metadata,
      same.nextRef, ?_, ?_⟩
    · rw [stack, ← same.stack]
    · rw [order, names]
    · exact workflow.named _ _ stored
    · rw [← same.nextRef]
      exact grows
    · exact entries

end

end
end NodeAutomation.RequestsResponse
