import NodeAutomation.Core.RunNodeFilter
import Mathlib.Data.List.Sort

/-! Handing data to a node (`WorkflowExecute.addNodeToBeExecuted`): a node with
several main inputs waits in `waitingExecution` until every input has data, any
other node goes to the execution stack at once. The keys of a run-index map are
read in ascending order, as JavaScript lists integer keys. -/

namespace NodeAutomation
open Connections RunNodeFilter

/-- The part of `IRunExecutionData` the execution loop works on. `nextRef` is
the identity of the next stack entry; `rewireOutputLogTo` is a field of the node
objects. -/
structure IRunExecutionData where
  nodeExecutionStack : List IExecuteData := []
  waitingExecution : IWaitingForExecution := ∅
  waitingExecutionSource : IWaitingForExecutionSource := ∅
  runData : IRunData := ∅
  pinData : Option IPinData := none
  destinationNode : Option IDestinationNode := none
  runNodeFilter : Option (List String) := none
  lastNodeExecuted : Option String := none
  waitTill : Bool := false
  rewireOutputLogTo : OrderedMap String NodeConnectionType := ∅
  nextRef : Nat := 0

/-- The arguments of `addNodeToBeExecuted`. -/
structure NodeToBeExecuted where
  connectionData : IConnection
  outputIndex : Nat
  parentNodeName : String
  nodeSuccessData : Option (List (Slot (List INodeExecutionData)))
  runIndex : Nat
  newRunIndex : Option Nat := none
  metadata : Option ITaskMetadata := none

namespace NodeToBeExecuted

/-- What is written at the input. -/
def batch (call : NodeToBeExecuted) : Slot (List INodeExecutionData) :=
  match call.nodeSuccessData with
  | none => .null
  | some data => Slot.at_ data call.outputIndex

def origin (call : NodeToBeExecuted) : ISourceData :=
  ⟨call.parentNodeName, some call.outputIndex, some call.runIndex⟩

def source (call : NodeToBeExecuted) : Slot ISourceData :=
  match call.nodeSuccessData with
  | none => .null
  | some _ => .value call.origin

end NodeToBeExecuted

/-- `waitingExecution[node]` and `waitingExecutionSource[node]`. -/
structure NodeWaiting where
  data : OrderedMap Nat ITaskDataConnections := ∅
  source : OrderedMap Nat ITaskDataConnectionsSource := ∅

namespace NodeWaiting

def runIndexes (waiting : NodeWaiting) : List Nat := waiting.data.keys.insertionSort (· ≤ ·)

/-- `rows[index].main`. -/
def mainOf {α : Type} (rows : OrderedMap Nat (OrderedMap NodeConnectionType (List (Slot α))))
    (index : Nat) : Except JsError (List (Slot α)) :=
  match (rows.get index).bind (·.get .main) with
  | none => .error .typeError
  | some main => .ok main

/-- `rows[index].main[inputIndex] = slot`. -/
def writeMain {α : Type} (rows : OrderedMap Nat (OrderedMap NodeConnectionType (List (Slot α))))
    (index inputIndex : Nat) (slot : Slot α) :
    Except JsError (OrderedMap Nat (OrderedMap NodeConnectionType (List (Slot α)))) :=
  match rows.get index with
  | none => .error .typeError
  | some row => match row.get .main with
    | none => .error .typeError
    | some main => .ok (rows.set index (row.set .main (Slot.assign main inputIndex slot)))

def findMissing (waiting : NodeWaiting) (inputIndex : Nat) : List Nat → Except JsError (Option Nat)
  | [] => .ok none
  | index :: indexes =>
    match mainOf waiting.data index with
    | .error error => .error error
    | .ok main =>
      if (Slot.at_ main inputIndex).isValue then findMissing waiting inputIndex indexes
      else .ok (some index)

def prepareWaitingToExecution (waiting : NodeWaiting) (numberOfConnections runIndex : Nat) :
    NodeWaiting where
  data := waiting.data.set runIndex (mainOnly (List.replicate numberOfConnections .null))
  source := waiting.source.set runIndex (mainOnly (List.replicate numberOfConnections .null))

def createNewWaitingEntry (waiting : NodeWaiting) (numberOfConnections waitingNodeIndex : Nat) :
    Option Nat → NodeWaiting
  | none => waiting.prepareWaitingToExecution numberOfConnections waitingNodeIndex
  | some _ => waiting

/-- Finds or creates the entry and adds the new data to it. -/
def fill (waiting : NodeWaiting) (numberOfInputs : Nat) (call : NodeToBeExecuted) :
    Except JsError (NodeWaiting × Nat) := do
  let found ← waiting.findMissing call.connectionData.index waiting.runIndexes
  let waitingNodeIndex := found.getD waiting.data.size
  let entry := waiting.createNewWaitingEntry numberOfInputs waitingNodeIndex found
  let data ← writeMain entry.data waitingNodeIndex call.connectionData.index call.batch
  let source ← writeMain entry.source waitingNodeIndex call.connectionData.index call.source
  return (⟨data, source⟩, waitingNodeIndex)

def allDataFound (main : List (Slot (List INodeExecutionData))) : Bool :=
  !main.contains .null

def remove (waiting : NodeWaiting) (index : Nat) : NodeWaiting :=
  ⟨waiting.data.delete index, waiting.source.delete index⟩

/-- The end of `addNodeToBeExecuted` for an entry that stays: only its `main` is kept. -/
def keep (waiting : NodeWaiting) (index : Nat) (call : NodeToBeExecuted)
    (main : List (Slot (List INodeExecutionData))) (mainSource : List (Slot ISourceData)) :
    NodeWaiting where
  data := waiting.data.set index (mainOnly (Slot.assign main call.connectionData.index call.batch))
  source := waiting.source.set index (mainOnly mainSource)

end NodeWaiting

namespace WorkflowExecute

section

variable (state : IRunExecutionData)

def nodeWaiting (nodeName : String) : NodeWaiting :=
  match state.waitingExecution.get nodeName with
  | none => {}
  | some data => ⟨data, (state.waitingExecutionSource.get nodeName).getD ∅⟩

def storeWaiting (nodeName : String) (waiting : NodeWaiting) : IRunExecutionData :=
  if waiting.data.size = 0 then
    { state with
      waitingExecution := state.waitingExecution.delete nodeName
      waitingExecutionSource := state.waitingExecutionSource.delete nodeName }
  else
    { state with
      waitingExecution := state.waitingExecution.set nodeName waiting.data
      waitingExecutionSource := state.waitingExecutionSource.set nodeName waiting.source }

/-- `nodeExecutionStack[enqueueFn](entry)`, with a fresh identity. -/
def enqueue (workflow : Workflow) (entry : IExecuteData) : IRunExecutionData :=
  let entry := { entry with ref := state.nextRef }
  { state with
    nodeExecutionStack :=
      if workflow.isLegacyExecutionOrder then state.nodeExecutionStack ++ [entry]
      else entry :: state.nodeExecutionStack
    nextRef := state.nextRef + 1 }

end

def numberOfInputs (workflow : Workflow) (nodeName : String) : Nat :=
  ((outputsOf workflow.connectionsByDestinationNode nodeName .main).map List.length).getD 0

def incomingConnectionIsEmpty (runData : IRunData) (inputConnections : List IConnection)
    (runIndex : Nat) : Except JsError Bool :=
  match inputConnections with
  | [] => .ok true
  | inputConnection :: inputConnections =>
    let nodeIncomingData := ((((runData.get inputConnection.node).getD []).getD runIndex {}).data.bind
      (·.get .main)).map fun main => Slot.at_ main inputConnection.index
    match nodeIncomingData with
    | some .null => .error .typeError
    | some (.value (_ :: _)) => .ok false
    | _ => incomingConnectionIsEmpty runData inputConnections runIndex

/-- `connectionsByDestinationNode[node].main[0] ?? []`. -/
def firstInputConnections (workflow : Workflow) (nodeName : String) :
    Except JsError (List IConnection) :=
  match outputsOf workflow.connectionsByDestinationNode nodeName .main with
  | none => .error .typeError
  | some inputs => .ok ((inputs.getD 0 none).getD [])

/-! The legacy execution order forces the other parents of a node that starts
to wait. -/

section

variable (workflow : Workflow) (call : NodeToBeExecuted) (checkOutputNodes : List String)

/-- Follows the parents from the highest one down; `none` where nothing is to be added. -/
def findNodeToAdd (state : IRunExecutionData) (inputNode : String) (nodeToAdd : Option String) :
    List String → Option String
  | [] => nodeToAdd
  | parentNode :: parentNodes =>
    if inputNode ≠ parentNode ∧ checkOutputNodes.contains parentNode then none
    else if (state.nodeExecutionStack.map (·.node.name)).contains parentNode then none
    else if state.runData.contains parentNode then nodeToAdd
    else findNodeToAdd state inputNode (some parentNode) parentNodes

def batchIsEmpty : Except JsError Bool :=
  match call.batch with
  | .value items => .ok items.isEmpty
  | .hole | .null => .error .typeError

def needsEmptyItem (state : IRunExecutionData) (nodeToAdd : String) : Except JsError Bool :=
  if workflow.connectionsByDestinationNode.contains nodeToAdd then do
    let connections ← firstInputConnections workflow nodeToAdd
    incomingConnectionIsEmpty state.runData connections call.runIndex
  else .ok true

def addLegacyParent (state : IRunExecutionData) (inputNode : String) :
    Except JsError IRunExecutionData :=
  let parentNodes := workflow.getParentNodes inputNode ++ [inputNode]
  match findNodeToAdd checkOutputNodes state inputNode (some inputNode) parentNodes.reverse with
  | none => .ok state
  | some nodeToAdd => do
    let unwanted ← if (workflow.getParentNodes nodeToAdd).contains call.parentNodeName then
      batchIsEmpty call else .ok false
    if unwanted then return state
    let addEmptyItem ← needsEmptyItem workflow call state nodeToAdd
    if addEmptyItem then
      match workflow.getNode nodeToAdd with
      | none => .error .typeError
      | some node => .ok (enqueue state workflow
          { ref := 0
            node := node
            data := mainOnly [.value [{}]]
            source := some (mainOnly [.value call.origin]) })
    else return state

/-- Whether a node the parent also leads to brings data of its own, so that it
will run by itself. -/
def siblingWillRun (state : IRunExecutionData) (inputNode : String) : Except JsError Bool :=
  if checkOutputNodes.contains inputNode then do
    let connections ← firstInputConnections workflow inputNode
    let empty ← incomingConnectionIsEmpty state.runData connections call.runIndex
    return !empty
  else .ok false

def addInputNode (state : IRunExecutionData) (inputData : IConnection) :
    Except JsError IRunExecutionData :=
  if inputData.node = call.parentNodeName then .ok state
  else do
    let willRun ← siblingWillRun workflow call checkOutputNodes state inputData.node
    if willRun ∨ (state.nodeExecutionStack.map (·.node.name)).contains inputData.node ∨
        state.runData.contains inputData.node ∨ workflow.isLegacyExecutionOrder = false then
      return state
    else addLegacyParent workflow call checkOutputNodes state inputData.node

def addInputNodes (state : IRunExecutionData) : Except JsError IRunExecutionData :=
  match workflow.connectionsBySourceNode.get call.parentNodeName with
  | none => .error .typeError
  | some byType =>
    let checkOutputNodes := ((byType.get .main).getD []).flatMap fun group =>
      (group.getD []).map IConnection.node
    let inputs := (outputsOf workflow.connectionsByDestinationNode call.connectionData.node .main).getD []
    (inputs.flatMap (·.getD [])).foldlM (addInputNode workflow call checkOutputNodes) state

def addInputNodesOfNew (state : IRunExecutionData) : Except JsError IRunExecutionData :=
  if state.waitingExecution.contains call.connectionData.node then .ok state
  else addInputNodes workflow call state

end

/-- A node with several main inputs. A connection to a node that does not exist
is refused here; the source stacks an entry without a node. -/
def addWaitingNode (workflow : Workflow) (state : IRunExecutionData) (call : NodeToBeExecuted) :
    Except JsError IRunExecutionData := do
  let nodeName := call.connectionData.node
  let (waiting, waitingNodeIndex) ←
    (nodeWaiting state nodeName).fill (numberOfInputs workflow nodeName) call
  let main ← NodeWaiting.mainOf waiting.data waitingNodeIndex
  let mainSource ← NodeWaiting.mainOf waiting.source waitingNodeIndex
  if NodeWaiting.allDataFound main then
    match workflow.nodes.get nodeName, waiting.data.get waitingNodeIndex with
    | some node, some data =>
      return storeWaiting
        (enqueue state workflow
          { ref := 0, node := node, data := data, source := waiting.source.get waitingNodeIndex })
        nodeName (waiting.remove waitingNodeIndex)
    | _, _ => .error .typeError
  else do
    let state ← addInputNodesOfNew workflow call state
    return storeWaiting state nodeName (waiting.keep waitingNodeIndex call main mainSource)

/-- The entry for a node with one main input at most: `null` at the inputs
before the connected one. -/
def directEntry (node : INode) (call : NodeToBeExecuted) : IExecuteData where
  ref := 0
  node := node
  data := mainOnly (Slot.assign (List.replicate (call.connectionData.index + 1) .null)
    call.connectionData.index call.batch)
  source := some (mainOnly [.value call.origin])
  runIndex := call.newRunIndex
  metadata := call.metadata

def addDirectly (workflow : Workflow) (state : IRunExecutionData) (call : NodeToBeExecuted) :
    IRunExecutionData :=
  match workflow.nodes.get call.connectionData.node with
  | none => state
  | some node => enqueue state workflow (directEntry node call)

def addNodeToBeExecuted (workflow : Workflow) (state : IRunExecutionData) (call : NodeToBeExecuted) :
    Except JsError IRunExecutionData :=
  if 1 < numberOfInputs workflow call.connectionData.node then addWaitingNode workflow state call
  else .ok (addDirectly workflow state call)

theorem nodeWaiting_storeWaiting (state : IRunExecutionData) (nodeName : String)
    (waiting : NodeWaiting) (empty : waiting.data.size = 0 → waiting = {}) :
    nodeWaiting (storeWaiting state nodeName waiting) nodeName = waiting := by
  unfold storeWaiting
  split
  · rename_i none_
    rw [empty none_]
    simp only [nodeWaiting, OrderedMap.get_delete_self]
  · simp only [nodeWaiting, OrderedMap.get_set_self, Option.getD_some]

@[simp] theorem nodeExecutionStack_storeWaiting (state : IRunExecutionData) (nodeName : String)
    (waiting : NodeWaiting) :
    (storeWaiting state nodeName waiting).nodeExecutionStack = state.nodeExecutionStack := by
  unfold storeWaiting
  split <;> rfl

theorem nodeExecutionStack_enqueue {workflow : Workflow}
    (v1 : workflow.isLegacyExecutionOrder = false) (state : IRunExecutionData)
    (entry : IExecuteData) :
    (enqueue state workflow entry).nodeExecutionStack =
      { entry with ref := state.nextRef } :: state.nodeExecutionStack := by
  simp only [enqueue, v1, Bool.false_eq_true, if_false]

theorem addInputNodes_v1 {workflow : Workflow} (v1 : workflow.isLegacyExecutionOrder = false)
    {call : NodeToBeExecuted} {state next : IRunExecutionData}
    (went : addInputNodes workflow call state = .ok next) : next = state := by
  unfold addInputNodes at went
  split at went
  · cases went
  · refine Fallible.foldlM_kept went (P := fun _ now => now = state) rfl ?_
    intro _ inputData now after _ same step
    unfold addInputNode at step
    split at step
    · rw [← Except.ok.inj step, same]
    · obtain ⟨willRun, _, rest⟩ := (Fallible.bind_eq_ok_iff _ _ _).1 step
      rw [if_pos (.inr (.inr (.inr v1)))] at rest
      rw [← Except.ok.inj rest, same]

theorem addInputNodesOfNew_v1 {workflow : Workflow}
    (v1 : workflow.isLegacyExecutionOrder = false) {call : NodeToBeExecuted}
    {state next : IRunExecutionData} (went : addInputNodesOfNew workflow call state = .ok next) :
    next = state := by
  unfold addInputNodesOfNew at went
  split at went
  · exact (Except.ok.inj went).symm
  · exact addInputNodes_v1 v1 went

/-! What is queued: the entries to run and those that wait, and what decides
which of them run. -/

structure SameQueues (state next : IRunExecutionData) : Prop where
  stack : next.nodeExecutionStack = state.nodeExecutionStack
  waiting : next.waitingExecution = state.waitingExecution
  waitingSource : next.waitingExecutionSource = state.waitingExecutionSource
  filter : next.runNodeFilter = state.runNodeFilter
  pinData : next.pinData = state.pinData
  nextRef : next.nextRef = state.nextRef

theorem SameQueues.refl (state : IRunExecutionData) : SameQueues state state :=
  ⟨rfl, rfl, rfl, rfl, rfl, rfl⟩

theorem SameQueues.trans {state middle next : IRunExecutionData} (first : SameQueues state middle)
    (second : SameQueues middle next) : SameQueues state next where
  stack := second.stack.trans first.stack
  waiting := second.waiting.trans first.waiting
  waitingSource := second.waitingSource.trans first.waitingSource
  filter := second.filter.trans first.filter
  pinData := second.pinData.trans first.pinData
  nextRef := second.nextRef.trans first.nextRef

/-! Entries are numbered as they are stacked, so that a new one is none of the old. -/

/-- The stack grew at its top, by entries with new numbers. -/
def Stacked (state next : IRunExecutionData) : Prop :=
  ∃ added, next.nodeExecutionStack = added ++ state.nodeExecutionStack ∧
    state.nextRef ≤ next.nextRef ∧
    ∀ entry ∈ added, state.nextRef ≤ entry.ref ∧ entry.ref < next.nextRef

theorem Stacked.refl (state : IRunExecutionData) : Stacked state state :=
  ⟨[], rfl, le_rfl, by simp⟩

theorem Stacked.trans {state middle next : IRunExecutionData} (first : Stacked state middle)
    (second : Stacked middle next) : Stacked state next := by
  obtain ⟨below, stack, grows, numbered⟩ := first
  obtain ⟨above, stack', grows', numbered'⟩ := second
  refine ⟨above ++ below, ?_, grows.trans grows', fun entry member => ?_⟩
  · rw [stack', stack, List.append_assoc]
  · cases List.mem_append.1 member with
    | inl top => exact ⟨grows.trans (numbered' entry top).1, (numbered' entry top).2⟩
    | inr bottom =>
      exact ⟨(numbered entry bottom).1, Nat.lt_of_lt_of_le (numbered entry bottom).2 grows'⟩

theorem Stacked.occupied {state next : IRunExecutionData} (stacked : Stacked state next)
    (occupied : state.nodeExecutionStack ≠ []) : next.nodeExecutionStack ≠ [] := by
  obtain ⟨added, stack, _⟩ := stacked
  rw [stack]
  exact List.append_ne_nil_of_right_ne_nil added occupied

theorem SameQueues.stacked {state next : IRunExecutionData} (same : SameQueues state next) :
    Stacked state next :=
  ⟨[], same.stack, same.nextRef.ge, by simp⟩

@[simp] theorem nextRef_storeWaiting (state : IRunExecutionData) (nodeName : String)
    (waiting : NodeWaiting) : (storeWaiting state nodeName waiting).nextRef = state.nextRef := by
  unfold storeWaiting
  split <;> rfl

theorem stacked_enqueue {workflow : Workflow} (v1 : workflow.isLegacyExecutionOrder = false)
    (state : IRunExecutionData) (entry : IExecuteData) :
    Stacked state (enqueue state workflow entry) := by
  refine ⟨[{ entry with ref := state.nextRef }], nodeExecutionStack_enqueue v1 state entry,
    Nat.le_succ _, fun new member => ?_⟩
  rw [List.mem_singleton.1 member]
  exact ⟨le_rfl, Nat.lt_succ_self _⟩

theorem stacked_storeWaiting {state next : IRunExecutionData} (nodeName : String)
    (waiting : NodeWaiting) (stacked : Stacked state next) :
    Stacked state (storeWaiting next nodeName waiting) := by
  obtain ⟨added, stack, grows, numbered⟩ := stacked
  refine ⟨added, ?_, ?_, ?_⟩
  · rw [nodeExecutionStack_storeWaiting, stack]
  · rw [nextRef_storeWaiting]
    exact grows
  · rw [nextRef_storeWaiting]
    exact numbered

theorem stacked_addWaitingNode {workflow : Workflow}
    (v1 : workflow.isLegacyExecutionOrder = false) {state next : IRunExecutionData}
    {call : NodeToBeExecuted} (went : addWaitingNode workflow state call = .ok next) :
    Stacked state next := by
  simp only [addWaitingNode, Fallible.bind_eq_ok_iff] at went
  obtain ⟨_, _, main, _, mainSource, _, rest⟩ := went
  split at rest
  · split at rest
    · rw [← Except.ok.inj rest]
      exact stacked_storeWaiting _ _ (stacked_enqueue v1 state _)
    · cases rest
  · rw [Fallible.bind_eq_ok_iff] at rest
    obtain ⟨same, parents, stored⟩ := rest
    rw [addInputNodesOfNew_v1 v1 parents] at stored
    rw [← Except.ok.inj stored]
    exact stacked_storeWaiting _ _ (.refl state)

theorem stacked_addNodeToBeExecuted {workflow : Workflow}
    (v1 : workflow.isLegacyExecutionOrder = false) {state next : IRunExecutionData}
    {call : NodeToBeExecuted} (went : addNodeToBeExecuted workflow state call = .ok next) :
    Stacked state next := by
  unfold addNodeToBeExecuted at went
  split at went
  · exact stacked_addWaitingNode v1 went
  · rw [← Except.ok.inj went]
    unfold addDirectly
    split
    · exact .refl state
    · exact stacked_enqueue v1 state _

theorem addNodeToBeExecuted_direct {workflow : Workflow}
    (v1 : workflow.isLegacyExecutionOrder = false) (state : IRunExecutionData)
    (call : NodeToBeExecuted) {node : INode}
    (single : numberOfInputs workflow call.connectionData.node ≤ 1)
    (stored : workflow.nodes.get call.connectionData.node = some node) :
    addNodeToBeExecuted workflow state call = .ok
      { state with
        nodeExecutionStack :=
          { directEntry node call with ref := state.nextRef } :: state.nodeExecutionStack
        nextRef := state.nextRef + 1 } := by
  rw [addNodeToBeExecuted, if_neg (Nat.not_lt.2 single), addDirectly, stored]
  simp only [enqueue, v1, Bool.false_eq_true, if_false]

end WorkflowExecute
end NodeAutomation
