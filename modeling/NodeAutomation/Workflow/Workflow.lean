import NodeAutomation.Workflow.ConnectedNodes

/-! The `Workflow` class (`packages/workflow/src/workflow.ts`): the nodes by
name and the connections in both indexes. -/

namespace NodeAutomation
open Connections ConnectedNodes

/-- The nodes are stored under their own names. -/
structure Workflow where
  nodes : OrderedMap String INode := ∅
  connectionsBySourceNode : IConnections := ∅
  connectionsByDestinationNode : IConnections := ∅
  pinData : Option IPinData := none
  executionOrder : Option ExecutionOrder := none
  named : ∀ name node, nodes.get name = some node → node.name = name := by simp

namespace Workflow

/-- `for (const node of nodes) this.nodes[node.name] = node`. -/
def nodesByName (nodes : List INode) : OrderedMap String INode :=
  OrderedMap.ofList (nodes.map fun node => (node.name, node))

theorem foldl_named (nodes : List INode) (stored : OrderedMap String INode)
    (named : ∀ name node, stored.get name = some node → node.name = name) (name : String)
    (node : INode)
    (h : ((nodes.map fun node => (node.name, node)).foldl
      (fun m entry => m.set entry.1 entry.2) stored).get name = some node) :
    node.name = name := by
  induction nodes generalizing stored with
  | nil => exact named name node h
  | cons first nodes ih =>
    refine ih _ (fun name node found => ?_) h
    rw [OrderedMap.get_set] at found
    split at found
    · rename_i here
      have stored : first = node := Option.some.inj found
      rw [here, ← stored]
    · exact named name node found

theorem nodesByName_named (nodes : List INode) (name : String) (node : INode)
    (h : (nodesByName nodes).get name = some node) : node.name = name :=
  foldl_named nodes ∅ (by simp) name node h

def setNodes (workflow : Workflow) (nodes : List INode) : Workflow :=
  { workflow with nodes := nodesByName nodes, named := nodesByName_named nodes }

def setConnections (workflow : Workflow) (connections : IConnections) : Workflow :=
  { workflow with
    connectionsBySourceNode := connections
    connectionsByDestinationNode := mapConnectionsByDestination connections }

structure WorkflowParameters where
  nodes : List INode
  connections : IConnections
  pinData : Option IPinData := none
  executionOrder : Option ExecutionOrder := none

section

variable (getNodeParameters : INode → Option JsValue)

def addDefaultValues (node : INode) : INode :=
  match getNodeParameters node with
  | some parameters => { node with parameters := parameters }
  | none => node

@[simp] theorem addDefaultValues_name (node : INode) :
    (addDefaultValues getNodeParameters node).name = node.name := by
  unfold addDefaultValues
  split <;> rfl

/-- The constructor. -/
def new (parameters : WorkflowParameters) : Workflow :=
  setConnections
    (setNodes
      { pinData := parameters.pinData, executionOrder := parameters.executionOrder }
      (parameters.nodes.map (addDefaultValues getNodeParameters)))
    parameters.connections

end

def getNode (workflow : Workflow) (nodeName : String) : Option INode := workflow.nodes.get nodeName

def getParentNodes (workflow : Workflow) (nodeName : String)
    (type : ConnectionFilter := .ofType .main) (depth : Int := -1) : List String :=
  getConnectedNodes workflow.connectionsByDestinationNode nodeName type depth

def getChildNodes (workflow : Workflow) (nodeName : String)
    (type : ConnectionFilter := .ofType .main) (depth : Int := -1) : List String :=
  getConnectedNodes workflow.connectionsBySourceNode nodeName type depth

/-- `WorkflowExecute.isLegacyExecutionOrder`. -/
def isLegacyExecutionOrder (workflow : Workflow) : Bool :=
  decide (workflow.executionOrder ≠ some .v1)

/-- The destination index is what `mapConnectionsByDestination` makes of the
source index, up to the order inside a bucket. -/
def InStep (workflow : Workflow) : Prop :=
  SameUpToBuckets workflow.connectionsByDestinationNode
    (mapConnectionsByDestination workflow.connectionsBySourceNode)

/-- Both ends of every connection are nodes. -/
def EndpointsExist (workflow : Workflow) : Prop :=
  ∀ link ∈ links workflow.connectionsBySourceNode,
    link.source ∈ workflow.nodes.keys ∧ link.target.node ∈ workflow.nodes.keys

theorem setConnections_inStep (workflow : Workflow) (connections : IConnections) :
    (workflow.setConnections connections).InStep :=
  .refl _

theorem new_inStep (getNodeParameters : INode → Option JsValue) (parameters : WorkflowParameters) :
    (new getNodeParameters parameters).InStep :=
  .refl _

end Workflow
end NodeAutomation
