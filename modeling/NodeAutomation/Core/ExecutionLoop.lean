import NodeAutomation.Core.RequestsResponse
import NodeAutomation.Core.WaitingScan

/-! The execution loop (`WorkflowExecute.processRunExecutionData`), one
iteration at a time. What a node answers, and when the execution is cancelled,
comes from outside; an answer is the data after the steps that only touch items
(binary data, paired items, error items). -/

namespace NodeAutomation.ExecutionLoop
open Connections RunNodeFilter WorkflowExecute RequestsResponse WaitingScan

abbrev Outputs := List (Slot (List INodeExecutionData))

/-- Data (`none` for `null`), a request, or an error next to the data the node
had returned before. -/
inductive NodeAnswer where
  | data (nodeSuccessData : Option Outputs)
  | request (request : EngineRequest)
  | error (message : String) (nodeSuccessData : Option Outputs)

structure NodeRun where
  answer : NodeAnswer
  waitTill : Bool := false

/-- One iteration as seen from outside; a node that failed may be run again. -/
structure Turn where
  canceled : Bool := false
  run : NodeRun
  retries : List NodeRun := []

structure LoopState where
  data : IRunExecutionData
  lastExecutionTry : String := ""

section

/-- `resolveSourceOverwrite`. -/
def resolveSourceOverwrite (item : INodeExecutionData) (executionData : IExecuteData) :
    Option ISourceData :=
  match executionData.metadata with
  | none => none
  | some metadata =>
    if metadata.preserveSourceOverwrite then
      match metadata.preservedSourceOverwrite with
      | some source => some source
      | none => match item.pairedItem with
        | some (.one pairedItem) => pairedItem.sourceOverwrite
        | _ => none
    else none

def pairItem (executionData : IExecuteData) (inputIndex itemIndex : Nat)
    (item : INodeExecutionData) : INodeExecutionData :=
  { item with
    pairedItem := some (.one
      { item := itemIndex
        input := if inputIndex = 0 then none else some inputIndex
        sourceOverwrite := resolveSourceOverwrite item executionData }) }

def updatePairedItems (executionData : IExecuteData) : IExecuteData :=
  { executionData with
    data := executionData.data.mapValues fun inputs => inputs.mapIdx fun inputIndex input =>
      input.map fun items => items.mapIdx (pairItem executionData inputIndex) }

def runIndexOf (state : IRunExecutionData) (executionData : IExecuteData) : Nat :=
  match executionData.runIndex with
  | some runIndex => runIndex
  | none => ((state.runData.get executionData.node.name).map List.length).getD 0

/-- `Workflow.getHighestNode`, with the nodes checked so far; no call is deeper
than there are nodes. -/
def getHighestNode (workflow : Workflow) :
    Nat → String → Option Nat → List String → List String × List String
  | 0, _, _, checkedNodes => ([], checkedNodes)
  | fuel + 1, nodeName, nodeConnectionIndex, checkedNodes =>
    match workflow.nodes.get nodeName with
    | none => ([], checkedNodes)
    | some node =>
      let currentHighest := if node.disabled then [] else [nodeName]
      match outputsOf workflow.connectionsByDestinationNode nodeName .main with
      | none => (currentHighest, checkedNodes)
      | some inputs =>
        if checkedNodes.contains nodeName then (currentHighest, checkedNodes)
        else
          let indexes := match nodeConnectionIndex with
            | none => inputs
            | some index => [inputs.getD index none]
          (indexes.flatMap fun group => group.getD []).foldl
            (fun found connection =>
              match workflow.nodes.get connection.node with
              | none => found
              | some parent =>
                if found.2.contains connection.node then found
                else
                  let above := getHighestNode workflow fuel connection.node none found.2
                  let addNodes :=
                    if above.1.isEmpty ∧ parent.disabled = false then [connection.node]
                    else above.1
                  (found.1 ++ addNodes.filter fun name => !found.1.contains name, above.2))
            ([], checkedNodes ++ [nodeName])

def inputsAreThere (workflow : Workflow) (executionData : IExecuteData) : List Nat → Bool
  | [] => true
  | connectionIndex :: indexes =>
    if (getHighestNode workflow (workflow.nodes.size + 1) executionData.node.name
        (some connectionIndex) []).1.isEmpty then true
    else match executionData.data.get .main with
      | none => false
      | some main =>
        if workflow.isLegacyExecutionOrder ∧
            (main.length < connectionIndex ∨ Slot.at_ main connectionIndex = .null) then false
        else inputsAreThere workflow executionData indexes

/-- `ensureInputData`; where it answers no, the entry goes to the end of the stack. -/
def ensureInputData (workflow : Workflow) (executionData : IExecuteData) : Bool :=
  inputsAreThere workflow executionData
    (List.range (numberOfInputs workflow executionData.node.name))

end

inductive Attempt where
  | requested (state : IRunExecutionData)
  | noData (state : IRunExecutionData)
  | succeeded (state : IRunExecutionData) (nodeSuccessData : Option Outputs)
  | failed (state : IRunExecutionData) (message : String) (nodeSuccessData : Option Outputs)

def Attempt.state : Attempt → IRunExecutionData
  | requested state | noData state | succeeded state _ | failed state _ _ => state

section

variable (env : Environment) (workflow : Workflow) (executionData : IExecuteData) (runIndex : Nat)

def failed (state : IRunExecutionData) (message : String) (nodeSuccessData : Option Outputs) :
    Attempt :=
  .failed { state with lastNodeExecuted := some executionData.node.name } message nodeSuccessData

def pinnedData (state : IRunExecutionData) : Option (List INodeExecutionData) :=
  if executionData.node.disabled then none
  else state.pinData.bind (·.get executionData.node.name)

/-- `!nodeSuccessData?.[0]?.[0]`. -/
def lacksItem : Option Outputs → Bool
  | some (.value (_ :: _) :: _) => false
  | _ => true

def inputPairs (main : List (Slot (List INodeExecutionData))) : List IPairedItemData :=
  (main.mapIdx fun inputIndex input =>
    ((input.value?).getD []).mapIdx fun itemIndex _ =>
      ({ item := itemIndex, input := some inputIndex } : IPairedItemData)).flatten

def alwaysOutputData (nodeSuccessData : Option Outputs) : Except JsError (Option Outputs) :=
  if lacksItem nodeSuccessData ∧ executionData.node.alwaysOutputData then
    match executionData.data.get .main with
    | none => .error .typeError
    | some main => .ok (some (Slot.assign (nodeSuccessData.getD []) 0
        (.value [{ pairedItem := some (.many (inputPairs main)) }])))
  else .ok nodeSuccessData

def noteExecuted (state : IRunExecutionData) (nodeSuccessData : Option Outputs) :
    IRunExecutionData :=
  if nodeSuccessData.isSome then { state with lastNodeExecuted := some executionData.node.name }
  else state

def finishTry (state : IRunExecutionData) (nodeSuccessData : Option Outputs) : Attempt :=
  match alwaysOutputData executionData nodeSuccessData with
  | .error error => failed executionData state (env.message error) nodeSuccessData
  | .ok output =>
    if output.isNone ∧ state.waitTill = false then
      .noData (noteExecuted executionData state nodeSuccessData)
    else .succeeded (noteExecuted executionData state nodeSuccessData) output

def tryNode (state : IRunExecutionData) (run : NodeRun) : Attempt :=
  match pinnedData executionData state with
  | some items => finishTry env executionData state (some [.value items])
  | none =>
    let state := { state with waitTill := state.waitTill || run.waitTill }
    match run.answer with
    | .data nodeSuccessData => finishTry env executionData state nodeSuccessData
    | .error message nodeSuccessData => failed executionData state message nodeSuccessData
    | .request request =>
      match handleEngineRequest workflow executionData runIndex state request with
      | .ok next => .requested next
      | .error (error, left) => failed executionData left (env.message error) none

def tries (state : IRunExecutionData) (run : NodeRun) : List NodeRun → Attempt
  | [] => tryNode env workflow executionData runIndex state run
  | again :: retries =>
    match tryNode env workflow executionData runIndex state run with
    | .failed state _ _ => tries state again retries
    | attempt => attempt

end

section

variable (state : IRunExecutionData) (executionData : IExecuteData) (runIndex : Nat)

def inputOverrideOf : ITaskDataConnections :=
  ((((state.runData.get executionData.node.name).getD [])[runIndex]?).bind
    (·.inputOverride)).getD ∅

def newTaskData (error : Option String) : ITaskData where
  source := (executionData.source.bind (·.get .main)).getD []
  metadata := executionData.metadata
  error := error

def rewire (taskData : ITaskData) (outputs : Outputs) : ITaskData :=
  match state.rewireOutputLogTo.get executionData.node.name with
  | none => taskData
  | some type => { taskData with
      inputOverride := some (inputOverrideOf state executionData runIndex)
      data := some (OrderedMap.set ∅ type outputs) }

def recordRun (taskData : ITaskData) : IRunExecutionData :=
  let runs := (state.runData.get executionData.node.name).getD []
  let runs := match runs[runIndex]? with
    | some current => runs.set runIndex { taskData with
        data := taskData.data.or current.data
        inputOverride := taskData.inputOverride.or current.inputOverride
        error := taskData.error.or current.error }
    | none => runs ++ [taskData]
  { state with runData := state.runData.set executionData.node.name runs }

end

section

def continuesOnError (node : INode) : Bool :=
  node.continueOnFail || node.onError = some .continueRegularOutput ||
    node.onError = some .continueErrorOutput

variable (state : IRunExecutionData) (executionData : IExecuteData)

def isAiToolExecution : Bool :=
  state.rewireOutputLogTo.get executionData.node.name = some .aiTool

def continues : Bool :=
  continuesOnError executionData.node ||
    isAiToolExecution state executionData && executionData.node.onError ≠ some .stopWorkflow

def errorItem (message : String) : Outputs := [.value [{ json := [("error", .string message)] }]]

def continueWith (message : String) (nodeSuccessData : Option Outputs) : Option Outputs :=
  if isAiToolExecution state executionData then some (errorItem message)
  else match executionData.data.get .main with
    | some (first :: _) => if first = .null then nodeSuccessData else some [first]
    | _ => nodeSuccessData

def stopOnError (runIndex : Nat) (message : String) : IRunExecutionData :=
  let recorded := recordRun state executionData runIndex
    (rewire state executionData runIndex (newTaskData executionData (some message))
      (errorItem message))
  { recorded with nodeExecutionStack := executionData :: recorded.nodeExecutionStack }

end

section

variable (workflow : Workflow) (executionNode : String) (runIndex : Nat) (outputs : Outputs)

structure NodeToAdd where
  position : Int × Int
  connection : IConnection
  outputIndex : Nat

def brings (outputIndex : Nat) (connectionData : IConnection) : Bool :=
  match Slot.at_ outputs outputIndex with
  | .value items =>
    decide (items.length ≠ 0) || decide (0 < connectionData.index) && workflow.isLegacyExecutionOrder
  | .hole | .null => false

def outgoing : List (Nat × IConnection) :=
  (((outputsOf workflow.connectionsBySourceNode executionNode .main).getD []).mapIdx
    fun outputIndex group => (group.getD []).map fun connection => (outputIndex, connection)).flatten

def nodesToAdd : Except JsError (List NodeToAdd) :=
  (outgoing workflow executionNode).foldlM
    (fun added link =>
      match workflow.nodes.get link.2.node with
      | none => .error (.unexpectedError "Destination node not found")
      | some node => .ok (if brings workflow outputs link.1 link.2 then
          added ++ [⟨node.position, link.2, link.1⟩] else added))
    []

def sortsBefore (a b : NodeToAdd) : Bool :=
  decide (b.position.2 < a.position.2) ||
    decide (a.position.2 = b.position.2) && decide (b.position.1 < a.position.1)

/-- The top-left node is added last, and so runs first; the legacy order keeps
the order of the connections. -/
def inOrderOfExecution (nodes : List NodeToAdd) : List NodeToAdd :=
  if workflow.isLegacyExecutionOrder then nodes
  else nodes.insertionSort fun a b => sortsBefore b a = false

def childCall (node : NodeToAdd) : NodeToBeExecuted where
  connectionData := node.connection
  outputIndex := node.outputIndex
  parentNodeName := executionNode
  nodeSuccessData := some outputs
  runIndex := runIndex

def addChildren (state : IRunExecutionData) : Except JsError IRunExecutionData := do
  let nodes ← nodesToAdd workflow executionNode outputs
  (inOrderOfExecution workflow nodes).foldlM
    (fun state node =>
      addNodeToBeExecuted workflow state (childCall executionNode runIndex outputs node)) state

end

/-- How an iteration is left. -/
inductive Exit where
  | empty
  | canceled
  | filtered
  | deferred
  | requested
  | noData
  | stoppedOnError
  | waitTill
  | destination
  | completed
  deriving DecidableEq

def Exit.goesOn : Exit → Bool
  | filtered | deferred | requested | noData | completed => true
  | empty | canceled | stoppedOnError | waitTill | destination => false

section

variable (env : Environment) (workflow : Workflow)

def complete (state : IRunExecutionData) (executionData : IExecuteData) (runIndex : Nat)
    (error : Option String) (outputs : Outputs) : Except JsError (Exit × IRunExecutionData) :=
  if outputs.all Slot.isValue = false then .error .typeError
  else
    let taskData := rewire state executionData runIndex
      { newTaskData executionData error with data := some (mainOnly outputs) } outputs
    let state := recordRun state executionData runIndex taskData
    if state.waitTill then
      .ok (.waitTill, { state with nodeExecutionStack := executionData :: state.nodeExecutionStack })
    else if state.destinationNode.map IDestinationNode.nodeName = some executionData.node.name then
      .ok (.destination, state)
    else do
      let state ← addChildren workflow executionData.node.name runIndex outputs state
      let state ← releaseWaiting env workflow state
      return (.completed, state)

def completeWith (state : IRunExecutionData) (executionData : IExecuteData) (runIndex : Nat)
    (error : Option String) : Option Outputs → Except JsError (Exit × IRunExecutionData)
  | none => .error .typeError
  | some outputs => complete env workflow state executionData runIndex error outputs

def afterTries (executionData : IExecuteData) (runIndex : Nat) :
    Attempt → Except JsError (Exit × IRunExecutionData)
  | .requested state => .ok (.requested, state)
  | .noData state => .ok (.noData, state)
  | .succeeded state nodeSuccessData =>
    completeWith env workflow state executionData runIndex none nodeSuccessData
  | .failed state message nodeSuccessData =>
    if continues state executionData then
      completeWith env workflow state executionData runIndex (some message)
        (continueWith state executionData message nodeSuccessData)
    else .ok (.stoppedOnError, stopOnError state executionData runIndex message)

def runEntry (loop : LoopState) (turn : Turn) (state : IRunExecutionData)
    (executionData : IExecuteData) : Except JsError (Exit × LoopState) :=
  let runIndex := runIndexOf state executionData
  let currentExecutionTry := executionData.node.name ++ ":" ++ toString runIndex
  if currentExecutionTry = loop.lastExecutionTry then
    .error (.userError "Stopped execution because it seems to be in an endless loop" none)
  else if passesRunFilter state.runNodeFilter executionData.node.name = false then
    .ok (.filtered, { loop with data := state })
  else if ensureInputData workflow executionData = false then
    .ok (.deferred,
      { data := { state with nodeExecutionStack := state.nodeExecutionStack ++ [executionData] }
        lastExecutionTry := currentExecutionTry })
  else do
    let (exit, state) ← afterTries env workflow executionData runIndex
      (tries env workflow executionData runIndex state turn.run turn.retries)
    return (exit, { loop with data := state })

def iterate (loop : LoopState) (turn : Turn) : Except JsError (Exit × LoopState) :=
  match loop.data.nodeExecutionStack with
  | [] => .ok (.empty, loop)
  | entry :: rest =>
    if turn.canceled then .ok (.canceled, loop)
    else runEntry env workflow loop turn { loop.data with nodeExecutionStack := rest }
      (updatePairedItems entry)

def next (loop : LoopState) (turn : Turn) : LoopState :=
  match iterate env workflow loop turn with
  | .ok (_, after) => after
  | .error _ => loop

end

/-! What an iteration does to the queues, in the order `v1`. -/

section

variable {env : Environment} {workflow : Workflow}

theorem addChildren_stacked (v1 : workflow.isLegacyExecutionOrder = false)
    {executionNode : String} {runIndex : Nat} {outputs : Outputs} {state after : IRunExecutionData}
    (went : addChildren workflow executionNode runIndex outputs state = .ok after) :
    Stacked state after := by
  unfold addChildren at went
  obtain ⟨_, _, added⟩ := (Fallible.bind_eq_ok_iff _ _ _).1 went
  exact Fallible.foldlM_kept added (P := fun _ now => Stacked state now) (.refl state)
    fun _ _ _ _ _ held step => held.trans (stacked_addNodeToBeExecuted v1 step)

variable (env workflow) (executionData : IExecuteData) (runIndex : Nat) (state : IRunExecutionData)

theorem sameQueues_finishTry (nodeSuccessData : Option Outputs) :
    SameQueues state (finishTry env executionData state nodeSuccessData).state := by
  have noted : SameQueues state (noteExecuted executionData state nodeSuccessData) := by
    unfold noteExecuted
    split
    · exact ⟨rfl, rfl, rfl, rfl, rfl, rfl⟩
    · exact .refl state
  unfold finishTry
  split
  · exact ⟨rfl, rfl, rfl, rfl, rfl, rfl⟩
  · split
    · exact noted
    · exact noted

theorem tryNode_state (run : NodeRun) :
    SameQueues state (tryNode env workflow executionData runIndex state run).state ∨
      ∃ waiting request, run.answer = .request request ∧ SameQueues state waiting ∧
        SameQueues (leftBy (handleEngineRequest workflow executionData runIndex waiting request))
          (tryNode env workflow executionData runIndex state run).state := by
  have waits : SameQueues state { state with waitTill := state.waitTill || run.waitTill } :=
    ⟨rfl, rfl, rfl, rfl, rfl, rfl⟩
  unfold tryNode
  split
  · exact .inl (sameQueues_finishTry env executionData state _)
  · simp only
    split
    · exact .inl (waits.trans (sameQueues_finishTry env executionData _ _))
    · exact .inl ⟨rfl, rfl, rfl, rfl, rfl, rfl⟩
    · rename_i request asked
      refine .inr ⟨_, request, asked, waits, ?_⟩
      split
      · rename_i handled
        rw [handled]
        exact .refl _
      · rename_i handled
        rw [handled]
        exact ⟨rfl, rfl, rfl, rfl, rfl, rfl⟩

theorem stacked_tryNode (v1 : workflow.isLegacyExecutionOrder = false) (run : NodeRun) :
    Stacked state (tryNode env workflow executionData runIndex state run).state := by
  cases tryNode_state env workflow executionData runIndex state run with
  | inl same => exact same.stacked
  | inr asked =>
    obtain ⟨_, _, _, before, after⟩ := asked
    exact before.stacked.trans ((stacked_handleEngineRequest v1).trans after.stacked)

variable {env workflow executionData runIndex state} in
theorem tries_kept {P : IRunExecutionData → Prop} (run : NodeRun) (retries : List NodeRun)
    (step : ∀ s, ∀ try_ ∈ run :: retries, P s →
      P (tryNode env workflow executionData runIndex s try_).state)
    (initial : P state) : P (tries env workflow executionData runIndex state run retries).state := by
  induction retries generalizing run state with
  | nil => exact step state run List.mem_cons_self initial
  | cons again retries ih =>
    have first := step state run List.mem_cons_self initial
    unfold tries
    split
    · rename_i failed _ _ attempt
      rw [attempt] at first
      exact ih again (fun s try_ member => step s try_ (List.mem_cons_of_mem run member)) first
    · exact first

theorem stacked_tries (v1 : workflow.isLegacyExecutionOrder = false) (run : NodeRun)
    (retries : List NodeRun) :
    Stacked state (tries env workflow executionData runIndex state run retries).state :=
  tries_kept (P := Stacked state) run retries
    (fun s try_ _ held => held.trans (stacked_tryNode env workflow executionData runIndex s v1 try_))
    (.refl state)

end

section

variable (env : Environment) (workflow : Workflow)

/-- What follows a node's tries. -/
inductive Finished (executionData : IExecuteData) (attempt : Attempt) :
    Exit → IRunExecutionData → Prop
  | requested (after : IRunExecutionData) (attempted : attempt = .requested after) :
      Finished executionData attempt .requested after
  | noData (after : IRunExecutionData) (attempted : attempt = .noData after) :
      Finished executionData attempt .noData after
  | restored (exit : Exit) (state after : IRunExecutionData)
      (leaves : exit = .stoppedOnError ∨ exit = .waitTill) (same : SameQueues attempt.state state)
      (stack : after.nodeExecutionStack = executionData :: state.nodeExecutionStack)
      (nextRef : after.nextRef = state.nextRef) : Finished executionData attempt exit after
  | destination (after : IRunExecutionData) (same : SameQueues attempt.state after) :
      Finished executionData attempt .destination after
  | completed (after : IRunExecutionData) (stacked : Stacked attempt.state after)
      (settled : Settled env workflow after) : Finished executionData attempt .completed after

variable {env workflow} {executionData : IExecuteData} {runIndex : Nat} {attempt : Attempt}
  {exit : Exit} {state after : IRunExecutionData}

section

variable (v1 : workflow.isLegacyExecutionOrder = false)
include v1

theorem complete_finished {error : Option String}
    {outputs : Outputs} (same : SameQueues attempt.state state)
    (went : complete env workflow state executionData runIndex error outputs = .ok (exit, after)) :
    Finished env workflow executionData attempt exit after := by
  unfold complete at went
  split at went
  · cases went
  · simp only at went
    have recorded : ∀ taskData, SameQueues attempt.state
        (recordRun state executionData runIndex taskData) :=
      fun taskData => same.trans ⟨rfl, rfl, rfl, rfl, rfl, rfl⟩
    split at went
    · have parts := Prod.mk.inj (Except.ok.inj went)
      exact .restored _ _ _ (.inr parts.1.symm) (recorded _)
        (by rw [← parts.2]) (by rw [← parts.2])
    · split at went
      · have parts := Prod.mk.inj (Except.ok.inj went)
        rw [← parts.1, ← parts.2]
        exact .destination _ (recorded _)
      · obtain ⟨children, added, rest⟩ := (Fallible.bind_eq_ok_iff _ _ _).1 went
        obtain ⟨released, searched, done⟩ := (Fallible.bind_eq_ok_iff _ _ _).1 rest
        have parts := Prod.mk.inj (Except.ok.inj done)
        have settles := releaseWaiting_settles searched
        rw [← parts.1, ← parts.2]
        exact .completed _
          ((recorded _).stacked.trans ((addChildren_stacked v1 added).trans settles.2)) settles.1

theorem completeWith_finished
    {error : Option String} {output : Option Outputs} (same : SameQueues attempt.state state)
    (went : completeWith env workflow state executionData runIndex error output =
      .ok (exit, after)) : Finished env workflow executionData attempt exit after := by
  cases output with
  | none => cases went
  | some outputs => exact complete_finished v1 same went

theorem afterTries_finished
    (went : afterTries env workflow executionData runIndex attempt = .ok (exit, after)) :
    Finished env workflow executionData attempt exit after := by
  cases attempt with
  | requested state =>
    have parts := Prod.mk.inj (Except.ok.inj went)
    rw [← parts.1, ← parts.2]
    exact .requested _ rfl
  | noData state =>
    have parts := Prod.mk.inj (Except.ok.inj went)
    rw [← parts.1, ← parts.2]
    exact .noData _ rfl
  | succeeded state output => exact completeWith_finished v1 (.refl state) went
  | failed state message output =>
    simp only [afterTries] at went
    split at went
    · exact completeWith_finished v1 (.refl state) went
    · have parts := Prod.mk.inj (Except.ok.inj went)
      exact .restored _ _ _ (.inl parts.1.symm) (.refl state) (by rw [← parts.2]; rfl)
        (by rw [← parts.2]; rfl)

end

/-- An iteration that takes `entry` off the stack above `rest`. -/
inductive Iterated (env : Environment) (workflow : Workflow) (loop : LoopState) (turn : Turn)
    (entry : IExecuteData) (rest : List IExecuteData) : Exit → LoopState → Prop
  | filtered (after : LoopState)
      (refused : passesRunFilter loop.data.runNodeFilter entry.node.name = false)
      (same : after.data = { loop.data with nodeExecutionStack := rest }) :
      Iterated env workflow loop turn entry rest .filtered after
  | deferred (after : LoopState)
      (same : after.data =
        { loop.data with nodeExecutionStack := rest ++ [updatePairedItems entry] }) :
      Iterated env workflow loop turn entry rest .deferred after
  | ran (runIndex : Nat) (exit : Exit) (after : LoopState)
      (finished : Finished env workflow (updatePairedItems entry)
        (tries env workflow (updatePairedItems entry) runIndex
          { loop.data with nodeExecutionStack := rest } turn.run turn.retries) exit after.data) :
      Iterated env workflow loop turn entry rest exit after

theorem iterate_iterated (v1 : workflow.isLegacyExecutionOrder = false) {loop after : LoopState}
    {turn : Turn} {entry : IExecuteData} {rest : List IExecuteData}
    (stack : loop.data.nodeExecutionStack = entry :: rest) (running : turn.canceled = false)
    (went : iterate env workflow loop turn = .ok (exit, after)) :
    Iterated env workflow loop turn entry rest exit after := by
  unfold iterate at went
  simp only [stack, running, Bool.false_eq_true, if_false, runEntry] at went
  split at went
  · cases went
  · split at went
    · rename_i refused
      have parts := Prod.mk.inj (Except.ok.inj went)
      rw [← parts.1, ← parts.2]
      exact .filtered _ refused rfl
    · split at went
      · have parts := Prod.mk.inj (Except.ok.inj went)
        rw [← parts.1, ← parts.2]
        exact .deferred _ rfl
      · obtain ⟨last, finished, done⟩ := (Fallible.bind_eq_ok_iff _ _ _).1 went
        have parts := Prod.mk.inj (Except.ok.inj done)
        rw [← parts.1, ← parts.2]
        exact .ran _ _ _ (afterTries_finished v1 finished)

end
end NodeAutomation.ExecutionLoop
