import NodeAutomation.Lib.OrderedSet

/-! Which built-in variables the code of a Code node uses
(`packages/@n8n/task-runner/src/js-task-runner/built-ins-parser/`): the syntax tree as the visitors
see it, its walk, and what the visitors mark. -/

namespace NodeAutomation.BuiltIns

inductive Literal where
  | string (value : String)
  | other (text : String) (truthy : Bool)
  deriving DecidableEq

/-- The places of a tree: an identifier that is bound or assigned to stands in a pattern. -/
inductive Position where
  | expression
  | pattern
  deriving DecidableEq

/-- Nodes by the types that the visitors tell apart. All other nodes are known by the children that
the walk descends to; names of members and keys that are not computed are no children. -/
inductive Node where
  | identifier (name : String)
  | literal (value : Literal)
  | callExpression (callee : Node) (arguments : List Node)
  | memberExpression (object property : Node) (computed : Bool)
  | variableDeclarator (id : Node) (init : Option Node)
  | assignmentExpression (operator : String) (left right : Node)
  | other (children : List (Position × Node))

/-- A node with its parent, the last of its ancestors. -/
structure Visit where
  node : Node
  parent : Option Node

mutual

/-- `ancestor` of acorn-walk: all nodes in the order in which their visitors are called, children
first. An identifier in a pattern is walked as a pattern, which has no visitor. -/
def walk (parent : Option Node) (position : Position) : Node → List Visit
  | .identifier name => if position = .pattern then [] else [⟨.identifier name, parent⟩]
  | .literal value => [⟨.literal value, parent⟩]
  | .callExpression callee arguments =>
    let node := .callExpression callee arguments
    walk (some node) .expression callee ++ walkArguments (some node) arguments ++ [⟨node, parent⟩]
  | .memberExpression object property computed =>
    let node := .memberExpression object property computed
    walk (some node) .expression object ++
      (if computed then walk (some node) .expression property else []) ++ [⟨node, parent⟩]
  | .variableDeclarator id init =>
    let node := .variableDeclarator id init
    walk (some node) .pattern id ++ walkInit (some node) init ++ [⟨node, parent⟩]
  | .assignmentExpression operator left right =>
    let node := .assignmentExpression operator left right
    walk (some node) .pattern left ++ walk (some node) .expression right ++ [⟨node, parent⟩]
  | .other children => walkChildren (some (.other children)) children ++ [⟨.other children, parent⟩]
termination_by structural node => node

def walkArguments (parent : Option Node) : List Node → List Visit
  | [] => []
  | argument :: arguments => walk parent .expression argument ++ walkArguments parent arguments
termination_by structural arguments => arguments

def walkInit (parent : Option Node) : Option Node → List Visit
  | none => []
  | some init => walk parent .expression init
termination_by structural init => init

def walkChildren (parent : Option Node) : List (Position × Node) → List Visit
  | [] => []
  | child :: children => walkChild parent child ++ walkChildren parent children
termination_by structural children => children

def walkChild (parent : Option Node) : Position × Node → List Visit
  | (position, child) => walk parent position child
termination_by structural child => child

end

structure BuiltInsParserState where
  neededNodeNames : OrderedSet String := ∅
  needsAllNodes : Bool := false
  needsEnv : Bool := false
  needsInput : Bool := false
  needsExecution : Bool := false
  needsPrevNode : Bool := false
  deriving DecidableEq

inductive DataOfNodes where
  | all
  | names (names : OrderedSet String)
  deriving DecidableEq

structure InputDataChunkDefinition where
  startIndex : Nat
  count : Nat
  deriving DecidableEq

structure TaskDataRequestParams where
  dataOfNodes : DataOfNodes
  env : Bool
  includeInput : Bool
  chunk : Option InputDataChunkDefinition
  prevNode : Bool
  deriving DecidableEq

namespace BuiltInsParserState

def markNeedsAllNodes (state : BuiltInsParserState) : BuiltInsParserState :=
  { state with needsAllNodes := true, needsInput := true, neededNodeNames := ∅ }

def markNodeAsNeeded (state : BuiltInsParserState) (nodeName : String) : BuiltInsParserState :=
  if state.needsAllNodes then state
  else { state with neededNodeNames := state.neededNodeNames.add nodeName }

def markEnvAsNeeded (state : BuiltInsParserState) : BuiltInsParserState := { state with needsEnv := true }

def markInputAsNeeded (state : BuiltInsParserState) : BuiltInsParserState := { state with needsInput := true }

def markExecutionAsNeeded (state : BuiltInsParserState) : BuiltInsParserState :=
  { state with needsExecution := true }

def markPrevNodeAsNeeded (state : BuiltInsParserState) : BuiltInsParserState :=
  { state with needsPrevNode := true }

def toDataRequestParams (state : BuiltInsParserState) (chunk : Option InputDataChunkDefinition) :
    TaskDataRequestParams where
  dataOfNodes := if state.needsAllNodes then .all else .names state.neededNodeNames
  env := state.needsEnv
  includeInput := state.needsInput
  chunk := chunk
  prevNode := state.needsPrevNode

end BuiltInsParserState

def isPairedItemProperty (property : String) : Bool :=
  property = "item" ∨ property = "pairedItem" ∨ property = "itemMatching"

def handlePrevNodeCall (state : BuiltInsParserState) (parent : Option Node) : BuiltInsParserState :=
  match parent with
  | some (.memberExpression _ property true) =>
    match property with
    | .literal (.string value) => if isPairedItemProperty value then state.markNeedsAllNodes else state
    | .literal (.other _ _) => state
    | .identifier _ => state.markNeedsAllNodes
    | _ => state
  | some (.memberExpression _ property false) =>
    match property with
    | .identifier name => if isPairedItemProperty name then state.markNeedsAllNodes else state
    | _ => state
  -- Also where the call initialises a variable or is assigned to one.
  | _ => state.markNeedsAllNodes

/-- `$(...)` -/
def visitDollarCallExpression (state : BuiltInsParserState) (arguments : List Node) (parent : Option Node) :
    BuiltInsParserState :=
  match arguments with
  | [] => state
  | .literal (.string value) :: _ => handlePrevNodeCall (state.markNodeAsNeeded value) parent
  | .literal (.other _ _) :: _ => state
  | _ :: _ => state.markNeedsAllNodes

/-- `$items(...)` -/
def visitDollarItemsCallExpression (state : BuiltInsParserState) (arguments : List Node) : BuiltInsParserState :=
  match arguments with
  | [] => state.markInputAsNeeded
  | .literal (.string value) :: _ => state.markNodeAsNeeded value
  | .literal (.other _ _) :: _ => state
  | _ :: _ => state.markNeedsAllNodes

def visitCallExpression (state : BuiltInsParserState) (callee : Node) (arguments : List Node)
    (parent : Option Node) : BuiltInsParserState :=
  match callee with
  | .identifier name =>
    if name = "$" then visitDollarCallExpression state arguments parent
    else if name = "$items" then visitDollarItemsCallExpression state arguments
    else state
  | _ => state

def visitIdentifier (state : BuiltInsParserState) (name : String) : BuiltInsParserState :=
  if name = "$env" then state.markEnvAsNeeded
  else if name = "$item" then state.markNeedsAllNodes
  else if name = "$input" ∨ name = "$json" ∨ name = "items" ∨ name = "item" then state.markInputAsNeeded
  else if name = "$node" then state.markNeedsAllNodes
  else if name = "$execution" then state.markExecutionAsNeeded
  else if name = "$prevNode" then state.markPrevNodeAsNeeded
  else state

def visit (state : BuiltInsParserState) (visit : Visit) : BuiltInsParserState :=
  match visit.node with
  | .callExpression callee arguments => visitCallExpression state callee arguments visit.parent
  | .identifier name => visitIdentifier state name
  | _ => state

/-- `parseUsedBuiltIns` of a program that acorn accepts. -/
def parseUsedBuiltIns (program : Node) : BuiltInsParserState :=
  (walk none .expression program).foldl visit {}

end NodeAutomation.BuiltIns
