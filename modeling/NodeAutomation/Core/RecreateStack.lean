import NodeAutomation.Core.DirectedGraph
import Mathlib.Data.List.Sort

/-! The execution stack and the waiting entries of a partial execution
(`recreate-node-execution-stack.ts`, `get-source-data-groups.ts` and
`get-incoming-data.ts`). How names compare is a matter of the locale. -/

namespace NodeAutomation.RecreateStack

def getIncomingData (runData : IRunData) (nodeName : String) (runIndex : Nat)
    (connectionType : NodeConnectionType) (outputIndex : Nat) :
    Except JsError (Option (List INodeExecutionData)) :=
  match (((runData.get nodeName).getD [])[runIndex]?).bind (·.data) with
  | none => .ok none
  | some data =>
    match data.get connectionType with
    | none => .error .typeError
    | some outputs => .ok (Slot.at_ outputs outputIndex).value?

def firstIncomingData (runData : IRunData) (nodeName : String)
    (connectionType : NodeConnectionType) (outputIndex : Nat) :
    List Nat → Except JsError (Option (List INodeExecutionData × Nat))
  | [] => .ok none
  | runIndex :: runIndexes =>
    match getIncomingData runData nodeName runIndex connectionType outputIndex with
    | .error error => .error error
    | .ok (some (item :: items)) => .ok (some (item :: items, runIndex))
    | .ok _ => firstIncomingData runData nodeName connectionType outputIndex runIndexes

def getIncomingDataFromAnyRun (runData : IRunData) (nodeName : String)
    (connectionType : NodeConnectionType) (outputIndex : Nat) :
    Except JsError (Option (List INodeExecutionData × Nat)) :=
  firstIncomingData runData nodeName connectionType outputIndex
    (List.range ((runData.get nodeName).getD []).length)

/-! Groups of connections, one for each input where possible. -/

structure SourceConnectionGroup where
  complete : Bool := true
  connections : List GraphConnection := []
  deriving DecidableEq

section

variable (localeBefore : String → String → Bool)

/-- `sortByInputIndexThenByName` gives a negative number. -/
def sortsBefore (a b : GraphConnection) : Bool :=
  if a.inputIndex = b.inputIndex then localeBefore a.fromNode.name b.fromNode.name
  else decide (a.inputIndex < b.inputIndex)

def sortConnections (connections : List GraphConnection) : List GraphConnection :=
  connections.insertionSort fun a b => sortsBefore localeBefore b a = false

def minInputIndex (connections : List GraphConnection) : Nat :=
  ((connections.map (·.inputIndex)).min?).getD 0

/-- The loop: the group under way takes a connection to the next input, of those
with data if it can; where there is none, a new group starts. -/
def collectGroups :
    Nat → List GraphConnection → List GraphConnection → Nat → SourceConnectionGroup →
      List SourceConnectionGroup
  | 0, _, _, _, currentGroup => [currentGroup]
  | fuel + 1, withData, withoutData, inputIndex, currentGroup =>
    if withData.isEmpty ∧ withoutData.isEmpty then [currentGroup]
    else match withData.find? (·.inputIndex = inputIndex) with
      | some connection =>
        collectGroups fuel (withData.eraseP (·.inputIndex = inputIndex)) withoutData
          (inputIndex + 1)
          { currentGroup with connections := currentGroup.connections ++ [connection] }
      | none =>
        match withoutData.find? (·.inputIndex = inputIndex) with
        | some connection =>
          collectGroups fuel withData (withoutData.eraseP (·.inputIndex = inputIndex))
            (inputIndex + 1)
            { complete := false, connections := currentGroup.connections ++ [connection] }
        | none =>
          currentGroup ::
            collectGroups fuel withData withoutData (minInputIndex (withData ++ withoutData)) {}

def getSourceDataGroups (graph : DirectedGraph) (node : INode) (runData : IRunData)
    (pinnedData : IPinData) : List SourceConnectionGroup :=
  let connections := graph.getConnections.filter (·.toNode = node)
  let hasData := fun connection : GraphConnection =>
    runData.contains connection.fromNode.name || pinnedData.contains connection.fromNode.name
  let withData := sortConnections localeBefore (connections.filter hasData)
  let withoutData := sortConnections localeBefore
    (connections.filter fun connection => !hasData connection && connection.type = .main)
  if withData.isEmpty ∧ withoutData.isEmpty then []
  else
    -- Every step takes a connection away, or starts a group that will.
    collectGroups (2 * (withData.length + withoutData.length) + 1) withData withoutData
      (minInputIndex (withData ++ withoutData)) {}

end

structure Recreated where
  nodeExecutionStack : List IExecuteData := []
  waitingExecution : IWaitingForExecution := ∅
  waitingExecutionSource : IWaitingForExecutionSource := ∅

/-- `rows[runIndex][inputType][inputIndex] = slot`, creating what is missing on the way. -/
def addToRow {α : Type} (rows : OrderedMap Nat (OrderedMap NodeConnectionType (List (Slot α))))
    (runIndex : Nat) (inputType : NodeConnectionType) (inputIndex : Nat) (slot : Slot α) :
    OrderedMap Nat (OrderedMap NodeConnectionType (List (Slot α))) :=
  let row := (rows.get runIndex).getD ∅
  rows.set runIndex (row.set inputType (Slot.assign ((row.get inputType).getD []) inputIndex slot))

def addWaitingExecution (waitingExecution : IWaitingForExecution) (nodeName : String)
    (runIndex : Nat) (inputType : NodeConnectionType) (inputIndex : Nat)
    (executionData : Slot (List INodeExecutionData)) : IWaitingForExecution :=
  waitingExecution.set nodeName
    (addToRow ((waitingExecution.get nodeName).getD ∅) runIndex inputType inputIndex executionData)

def addWaitingExecutionSource (waitingExecutionSource : IWaitingForExecutionSource)
    (nodeName : String) (runIndex : Nat) (inputType : NodeConnectionType) (inputIndex : Nat)
    (sourceData : Slot ISourceData) : IWaitingForExecutionSource :=
  waitingExecutionSource.set nodeName
    (addToRow ((waitingExecutionSource.get nodeName).getD ∅) runIndex inputType inputIndex sourceData)

section

variable (localeBefore : String → String → Bool) (graph : DirectedGraph) (runData : IRunData)
  (pinData : IPinData)

def push (recreated : Recreated) (node : INode) (main : List (Slot (List INodeExecutionData)))
    (source : Option ITaskDataConnectionsSource) : Recreated :=
  { recreated with
    nodeExecutionStack := recreated.nodeExecutionStack ++
      [{ ref := recreated.nodeExecutionStack.length
         node := node
         data := mainOnly main
         source := source }] }

def completeIncomingData (startNode : INode) (connection : GraphConnection) :
    Except JsError (Option (List INodeExecutionData) × Nat) :=
  let sourceNode := connection.fromNode
  match pinData.get sourceNode.name with
  | some items => .ok (some items, 0)
  | none => do
    assertOk (runData.contains sourceNode.name) ("Start node(" ++ connection.toNode.name ++
      ") has an incoming connection with no run or pinned data. This is not supported. " ++
      "The connection in question is \"" ++ sourceNode.name ++ "->" ++ startNode.name ++
      "\". Are you sure the start nodes come from the \"findStartNodes\" function?")
    let incoming ← getIncomingDataFromAnyRun runData sourceNode.name connection.type
      connection.outputIndex
    return match incoming with
    | some (items, runIndex) => (some items, runIndex)
    | none => (none, 0)

def completeGroup (startNode : INode) (connections : List GraphConnection) :
    Except JsError (List (Slot (List INodeExecutionData)) × List (Slot ISourceData)) :=
  connections.foldlM
    (fun incoming connection => do
      let (items, runIndex) ← completeIncomingData runData pinData startNode connection
      let source : ISourceData :=
        ⟨connection.fromNode.name, some connection.outputIndex, some runIndex⟩
      let data := match items with
        | some items => incoming.1 ++ [.value items]
        | none => incoming.1
      return (data, incoming.2 ++ [.value source]))
    ([], [])

/-- The waiting entry of an incomplete group takes what the connections bring;
data that is only pinned does not count. -/
def incompleteConnection (nodeName : String) (nextRunIndex : Nat) (recreated : Recreated)
    (connection : GraphConnection) : Except JsError Recreated := do
  let incoming ← getIncomingDataFromAnyRun runData connection.fromNode.name connection.type
    connection.outputIndex
  return match incoming with
  | none => recreated
  | some (items, _) =>
    { recreated with
      waitingExecution := addWaitingExecution recreated.waitingExecution nodeName nextRunIndex
        connection.type connection.inputIndex (.value items)
      waitingExecutionSource := addWaitingExecutionSource recreated.waitingExecutionSource nodeName
        nextRunIndex connection.type connection.inputIndex
        (.value ⟨connection.fromNode.name, some connection.outputIndex, some nextRunIndex⟩) }

def nextRunIndex (recreated : Recreated) (nodeName : String) : Nat :=
  ((recreated.waitingExecution.get nodeName).map OrderedMap.size).getD 0

def recreateGroup (startNode : INode) (recreated : Recreated) (group : SourceConnectionGroup) :
    Except JsError Recreated :=
  if group.complete then do
    let (data, source) ← completeGroup runData pinData startNode group.connections
    return push recreated startNode data (some (mainOnly source))
  else group.connections.foldlM
    (incompleteConnection runData startNode.name (nextRunIndex recreated startNode.name)) recreated

def recreateStartNode (recreated : Recreated) (startNode : INode) : Except JsError Recreated := do
  let parents ← graph.getDirectParentConnections startNode
  if (parents.filter (·.type = .main)).isEmpty then
    return push recreated startNode [.value [{}]] none
  else
    (getSourceDataGroups localeBefore graph startNode runData pinData).foldlM
      (recreateGroup runData pinData startNode) recreated

def assertEnabled (node : INode) : Except JsError Unit :=
  assertOk (!node.disabled) ("Graph contains disabled nodes. This is not supported. " ++
    "Make sure to pass the graph through \"findSubgraph\" before calling " ++
    "\"recreateNodeExecutionStack\". The node in question is \"" ++ node.name ++ "\"")

def recreateNodeExecutionStack (startNodes : List INode) : Except JsError Recreated := do
  graph.nodes.values.forM assertEnabled
  startNodes.foldlM (recreateStartNode localeBefore graph runData pinData) {}

end
end NodeAutomation.RecreateStack
