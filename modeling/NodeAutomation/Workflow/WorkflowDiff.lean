import NodeAutomation.Interfaces
import NodeAutomation.Lib.OrderedSet
import NodeAutomation.Lib.NeighbourMerge

/-! Differences between versions of a workflow, and the pruning of its history
(`packages/workflow/src/workflow-diff.ts`, `connections-diff.ts`). -/

namespace NodeAutomation.WorkflowDiff

/-- A node: its `id`, its `parameters`, and its other properties by their names. -/
structure DiffableNode where
  id : String
  parameters : JsValue
  properties : OrderedMap String JsValue
  deriving DecidableEq

structure IWorkflowGroup where
  id : String
  name : String
  nodeIds : List String
  deriving DecidableEq

structure DiffableWorkflow where
  nodes : List DiffableNode
  connections : IConnections := ∅
  nodeGroups : Option (List IWorkflowGroup) := none

def codeUnits (text : String) : List Nat :=
  text.toList.flatMap fun c =>
    if c.toNat < 0x10000 then [c.toNat]
    else [0xD800 + (c.toNat - 0x10000) / 0x400, 0xDC00 + (c.toNat - 0x10000) % 0x400]

mutual

/-- `isEqual` of lodash: the fields of an object in any order. -/
def isEqual : JsValue → JsValue → Bool
  | .array xs, .array ys => isEqualValues xs ys
  | .object fields, .object others => fields.length = others.length && isEqualFields fields others
  | .undefined, .undefined | .null, .null => true
  | .bool x, .bool y => x = y
  | .number x, .number y => x = y
  | .string x, .string y => x = y
  | _, _ => false

def isEqualValues : List JsValue → List JsValue → Bool
  | [], [] => true
  | x :: xs, y :: ys => isEqual x y && isEqualValues xs ys
  | _, _ => false

def isEqualFields : List (String × JsValue) → List (String × JsValue) → Bool
  | [], _ => true
  | (key, x) :: fields, others =>
    (match others.lookup key with
      | none => false
      | some y => isEqual x y) &&
    isEqualFields fields others

end

def containsPartsFrom {α : Type} [DecidableEq α] (substr : List α) (diffSize : Nat) :
    (i marker : Nat) → List α → Bool
  | _, marker, [] => marker ≥ substr.length
  | i, marker, c :: rest =>
    let marker := if substr[marker]? = some c then marker + 1 else marker
    if i > marker + diffSize then false else containsPartsFrom substr diffSize (i + 1) marker rest

def stringContainsParts {α : Type} [DecidableEq α] (s substr : List α) : Bool :=
  if substr.length > s.length then false
  else containsPartsFrom substr (s.length - substr.length) 0 0 s

/-- The number of `Object.keys(next)`. -/
def keyCount : JsValue → Nat
  | .object fields => fields.length
  | .array values => values.length
  | _ => 0

/-- An own property; an array has its indices and its `length`. -/
def ownProperty (value : JsValue) (key : String) : Option JsValue :=
  match value with
  | .object fields => fields.lookup key
  | .array values =>
    if key = "length" then some (.number values.length)
    else (values.zipIdx.find? fun (_, index) => toString index = key).map Prod.fst
  | _ => none

/-- Arrays and objects, and null: what `typeof` calls an object. -/
def typeof : JsValue → String
  | .undefined => "undefined"
  | .bool _ => "boolean"
  | .number _ => "number"
  | .string _ => "string"
  | .null | .array _ | .object _ => "object"

mutual

def parametersAreSuperset : JsValue → JsValue → Bool
  | .string prev, next =>
    match next with
    | .string next => stringContainsParts (codeUnits next) (codeUnits prev)
    | _ => false
  | .array prev, next =>
    match next with
    | .array next => prev.length = next.length && valuesAreSuperset prev next
    | _ => false
  | .object prev, next =>
    if typeof next = "object" && next ≠ .null then
      prev.length = keyCount next && fieldsAreSuperset prev next
    else false
  | prev, next => prev = next

def valuesAreSuperset : List JsValue → List JsValue → Bool
  | [], _ => true
  | _ :: _, [] => false
  | x :: prev, y :: next => parametersAreSuperset x y && valuesAreSuperset prev next

def fieldsAreSuperset : List (String × JsValue) → JsValue → Bool
  | [], _ => true
  | (key, x) :: fields, next =>
    (match ownProperty next key with
      | none => false
      | some y => parametersAreSuperset x y) &&
    fieldsAreSuperset fields next

end

mutual

def determineNodeSize : JsValue → Nat
  | .string text => if text = "" then 1 else (codeUnits text).length
  | .array values => valuesSize values
  | .object fields => fieldsSize fields
  | _ => 1

def valuesSize : List JsValue → Nat
  | [] => 1
  | value :: values => determineNodeSize value + valuesSize values

def fieldsSize : List (String × JsValue) → Nat
  | [] => 1
  | (_, value) :: fields => determineNodeSize value + fieldsSize fields

end

def propsToCompare : List String := ["name", "type", "typeVersion", "webhookId", "credentials"]

def sameProperty (base target : DiffableNode) (property : String) : Bool :=
  match base.properties.get property, target.properties.get property with
  | none, none => true
  | some x, some y => isEqual x y
  | _, _ => false

def compareNodes (base target : DiffableNode) : Bool :=
  propsToCompare.all (sameProperty base target) && isEqual base.parameters target.parameters

inductive NodeDiffStatus where
  | eq
  | modified
  | added
  | deleted
  deriving DecidableEq

structure NodeDiff where
  status : NodeDiffStatus
  node : DiffableNode

abbrev NodesDiff := OrderedMap String NodeDiff

def byId (nodes : List DiffableNode) : OrderedMap String DiffableNode :=
  .ofList (nodes.map fun node => (node.id, node))

def baseStatus (targetNodes : OrderedMap String DiffableNode) (id : String) (node : DiffableNode) :
    NodeDiffStatus :=
  match targetNodes.get id with
  | none => .deleted
  | some target => if !compareNodes node target then .modified else .eq

def compareWorkflowsNodes (base target : List DiffableNode) : NodesDiff :=
  let baseNodes := byId base
  let targetNodes := byId target
  .ofList (
    baseNodes.entries.map (fun (id, node) => (id, ⟨baseStatus targetNodes id node, node⟩)) ++
    (targetNodes.entries.filter fun (id, _) => !baseNodes.contains id).map
      fun (id, node) => (id, ⟨.added, node⟩))

structure ConnectionEntry where
  sourceIndex : Nat
  index : Nat
  connection : IConnection

abbrev INodeConnectionsDiff := OrderedMap NodeConnectionType (List ConnectionEntry)

structure ConnectionsDiff where
  added : OrderedMap String INodeConnectionsDiff
  removed : OrderedMap String INodeConnectionsDiff

def connectionsAt (connections : IConnections) (nodeName : String) (inputName : NodeConnectionType)
    (sourceIndex : Nat) : List IConnection :=
  ((((connections.get nodeName).getD ∅).get inputName).getD [])[sourceIndex]?.join.getD []

/-- `prevMap` and `nextMap`: a connection, for its text, and where it stands. -/
def positions (connections : List IConnection) : OrderedMap IConnection Nat :=
  .ofList connections.zipIdx

def missingAt (source other : List IConnection) (sourceIndex : Nat) : List ConnectionEntry :=
  (positions source).entries.filterMap fun (connection, index) =>
    if !(positions other).contains connection then some ⟨sourceIndex, index, connection⟩ else none

def outputs (prev next : IConnections) : List (String × NodeConnectionType × Nat) :=
  (OrderedSet.ofList (prev.keys ++ next.keys)).elems.flatMap fun nodeName =>
    let prevNodeConnections := (prev.get nodeName).getD ∅
    let nextNodeConnections := (next.get nodeName).getD ∅
    (OrderedSet.ofList (prevNodeConnections.keys ++ nextNodeConnections.keys)).elems.flatMap
      fun inputName =>
        let maxLength := max ((prevNodeConnections.get inputName).getD []).length
          ((nextNodeConnections.get inputName).getD []).length
        (List.range maxLength).map fun sourceIndex => (nodeName, inputName, sourceIndex)

/-- `diff[nodeName][inputName].push(entry)`, both made where they are not there. -/
def record (diff : OrderedMap String INodeConnectionsDiff) (nodeName : String)
    (inputName : NodeConnectionType) (entry : ConnectionEntry) :
    OrderedMap String INodeConnectionsDiff :=
  let ofNode := (diff.get nodeName).getD ∅
  diff.set nodeName (ofNode.set inputName ((ofNode.get inputName).getD [] ++ [entry]))

def recordOutput (source other : IConnections) (diff : OrderedMap String INodeConnectionsDiff)
    (output : String × NodeConnectionType × Nat) : OrderedMap String INodeConnectionsDiff :=
  let (nodeName, inputName, sourceIndex) := output
  (missingAt (connectionsAt source nodeName inputName sourceIndex)
    (connectionsAt other nodeName inputName sourceIndex) sourceIndex).foldl
    (fun diff entry => record diff nodeName inputName entry) diff

def compareConnections (prev next : IConnections) : ConnectionsDiff where
  added := (outputs prev next).foldl (recordOutput next prev) ∅
  removed := (outputs prev next).foldl (recordOutput prev next) ∅

/-- The constructor's shortcut for one and the same object gives the same: such a
version has equal nodes and no connection more or less. -/
structure WorkflowChangeSet where
  nodes : NodesDiff
  connections : ConnectionsDiff

def WorkflowChangeSet.new (prev next : DiffableWorkflow) : WorkflowChangeSet where
  nodes := compareWorkflowsNodes prev.nodes next.nodes
  connections := compareConnections prev.connections next.connections

/-- Compares the nodes with `parameters: {}`, and the parameters apart. -/
def nodeIsSuperset (prevNode nextNode : DiffableNode) : Bool :=
  if !compareNodes { prevNode with parameters := .object [] }
      { nextNode with parameters := .object [] } then false
  else parametersAreSuperset prevNode.parameters nextNode.parameters

def nodeGroupChangesAreAdditive (prev next : DiffableWorkflow) : Bool :=
  let nextGroupsById : OrderedMap String IWorkflowGroup :=
    .ofList ((next.nodeGroups.getD []).map fun group => (group.id, group))
  (prev.nodeGroups.getD []).all fun prevGroup =>
    match nextGroupsById.get prevGroup.id with
    | none => false
    | some nextGroup => nextGroup.name = prevGroup.name &&
        prevGroup.nodeIds.all fun id => nextGroup.nodeIds.contains id

def nodesAreKept (next : DiffableWorkflow) : List NodeDiff → Except JsError Bool
  | [] => .ok true
  | d :: rest =>
    match d.status with
    | .deleted => .ok false
    | .added => nodesAreKept next rest
    | .eq | .modified =>
      match next.nodes.find? fun x => x.id = d.node.id with
      | none => .error (.userError "invariant broken - no next node" none)
      | some nextNode =>
        if d.status = .modified && !nodeIsSuperset d.node nextNode then .ok false
        else nodesAreKept next rest

def mergeAdditiveChanges (prev next : DiffableWorkflow) (diff : WorkflowChangeSet) :
    Except JsError Bool := do
  let nodesKept ← nodesAreKept next diff.nodes.values
  if !nodesKept then return false
  if diff.connections.removed.size > 0 then return false
  return nodeGroupChangesAreAdditive prev next

structure DiffMetaData where
  workflowSizeScore : Option Nat

section

variable {W : Type} (base : W → DiffableWorkflow)

abbrev DiffRule (W : Type) := W → W → WorkflowChangeSet → DiffMetaData → Except JsError Bool

def determineNodeParametersSize (workflow : W) : Nat :=
  ((base workflow).nodes.map fun node => determineNodeSize node.parameters).sum

def someRule (rules : List (DiffRule W)) (prev next : W) (diff : WorkflowChangeSet)
    (metaData : DiffMetaData) : Except JsError Bool :=
  match rules with
  | [] => .ok false
  | rule :: rules => do
    if ← rule prev next diff metaData then return true
    someRule rules prev next diff metaData

/-- The loop `diffLoop`, from the given index down to 1. -/
def diffLoop (rules skipRules : List (DiffRule W)) (metaData : DiffMetaData) :
    (i : Nat) → (remaining removed : List W) → Except JsError (List W × List W)
  | 0, remaining, removed => .ok (remaining, removed)
  | i + 1, remaining, removed =>
    match remaining[i]?, remaining[i + 1]? with
    | some prev, some next => do
      let wcs := WorkflowChangeSet.new (base prev) (base next)
      if ← someRule skipRules prev next wcs metaData then
        diffLoop rules skipRules metaData i remaining removed
      else if ← someRule rules prev next wcs metaData then
        diffLoop rules skipRules metaData i (remaining.eraseIdx i) (removed ++ [prev])
      else diffLoop rules skipRules metaData i remaining removed
    | _, _ => .error .typeError

structure GroupedWorkflows (W : Type) where
  removed : List W
  remaining : List W

def metaDataOf (workflows : List W) (workflowSizeScore : Bool) : DiffMetaData :=
  let sizeAt := fun (index : Nat) => (workflows[index]?.map (determineNodeParametersSize base)).getD 0
  ⟨if workflowSizeScore then
      some (max (sizeAt (workflows.length / 2)) (sizeAt (workflows.length - 1)))
    else none⟩

def groupWorkflows (workflows : List W) (rules skipRules : List (DiffRule W))
    (workflowSizeScore : Bool) : Except JsError (GroupedWorkflows W) :=
  if workflows.length = 0 then .ok ⟨[], []⟩
  else if workflows.length = 1 then .ok ⟨[], workflows⟩
  else do
    let metaData := metaDataOf base workflows workflowSizeScore
    let (remaining, removed) ←
      diffLoop base rules skipRules metaData (workflows.length - 1) workflows []
    return ⟨removed, remaining⟩

end

end NodeAutomation.WorkflowDiff
