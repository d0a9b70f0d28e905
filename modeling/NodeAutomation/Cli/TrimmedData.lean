import Mathlib.Data.Fintype.EquivFin
import NodeAutomation.Cli.DataRequestResponseStripper

/-! Trimmed data suffices: the built-in reads of a program, the data that each needs, and where all
of it is asked for. -/

namespace NodeAutomation.BuiltIns

/-- How the result of a call is used: a member of it is read, it is a computed key, or else. -/
inductive Use where
  | object (property : Node) (computed : Bool)
  | key
  | value

/-- A call of `$` or `$items` with its first argument, or the use of an identifier as a value; an
identifier is `assigned` in a compound assignment, which reads it first. -/
inductive Read where
  | dollar (firstArg : Option Node) (use : Use)
  | items (firstArg : Option Node)
  | identifier (name : String) (assigned : Bool)

def callReads (use : Use) (callee : Node) (arguments : List Node) : List Read :=
  match callee with
  | .identifier name =>
    if name = "$" then [.dollar arguments.head? use]
    else if name = "$items" then [.items arguments.head?]
    else []
  | _ => []

def isBuiltInCall (callee : Node) : Bool :=
  match callee with
  | .identifier name => name = "$" ∨ name = "$items"
  | _ => false

def assignedReads (operator : String) (left : Node) : List Read :=
  match left with
  | .identifier name => if operator = "=" then [] else [.identifier name true]
  | _ => []

mutual

def reads (use : Use) (position : Position) : Node → List Read
  | .identifier name => if position = .pattern then [] else [.identifier name false]
  | .literal _ => []
  | .callExpression callee arguments =>
    (if isBuiltInCall callee then [] else reads .value .expression callee) ++ argumentReads arguments ++
      callReads use callee arguments
  | .memberExpression object property computed =>
    reads (.object property computed) .expression object ++
      if computed then reads .key .expression property else []
  | .variableDeclarator id init => reads .value .pattern id ++ initReads init
  | .assignmentExpression operator left right =>
    reads .value .pattern left ++ assignedReads operator left ++ reads .value .expression right
  | .other children => childReads children

def argumentReads : List Node → List Read
  | [] => []
  | argument :: arguments => reads .value .expression argument ++ argumentReads arguments

def initReads : Option Node → List Read
  | none => []
  | some init => reads .value .expression init

def childReads : List (Position × Node) → List Read
  | [] => []
  | child :: children => placedReads child ++ childReads children

def placedReads : Position × Node → List Read
  | (position, child) => reads .value position child

end

def programReads (program : Node) : List Read := reads .value .expression program

/-- The run and pin data of a node, of the node before, or of all nodes; the input items; the
environment; where the input comes from. -/
inductive Need where
  | node (name : String)
  | prevNode
  | allNodes
  | input
  | env
  | source
  deriving DecidableEq

/-- A member of `$('X')` follows paired items, or may: it is computed, or `$('X')` is passed on. -/
def Use.mayFollowPairedItems : Use → Bool
  | .object (.literal (.string name)) true => isPairedItemProperty name
  | .object (.literal (.other _ _)) true => false
  | .object _ true => true
  | .object (.identifier name) false => isPairedItemProperty name
  | .object _ false => false
  | .key => false
  | .value => true

/-- `$` takes the node before for a falsy name, and other names as strings. -/
def dollarNeeds (firstArg : Option Node) (use : Use) : List Need :=
  match firstArg with
  | none => [.prevNode]
  | some (.literal (.string value)) =>
    (if value = "" then .prevNode else .node value) :: if use.mayFollowPairedItems then [.allNodes] else []
  | some (.literal (.other text truthy)) =>
    (if truthy then .node text else .prevNode) :: if use.mayFollowPairedItems then [.allNodes] else []
  | some _ => [.allNodes]

/-- `$items` gives the input items where it is given no name. -/
def itemsNeeds (firstArg : Option Node) : List Need :=
  match firstArg with
  | none => [.input]
  | some (.literal (.string value)) => [.node value]
  | some (.literal (.other text _)) => [.node text]
  | some _ => [.allNodes, .input]

def identifierNeeds (name : String) : List Need :=
  if name = "$input" ∨ name = "$json" ∨ name = "$binary" ∨ name = "$data" ∨ name = "items" ∨ name = "item" then
    [.input]
  else if name = "$item" ∨ name = "$items" then [.allNodes, .input]
  else if name = "$node" ∨ name = "$" then [.allNodes]
  else if name = "$env" then [.env]
  else if name = "$prevNode" then [.source]
  else []

def Read.needs : Read → List Need
  | .dollar firstArg use => dollarNeeds firstArg use
  | .items firstArg => itemsNeeds firstArg
  | .identifier name _ => identifierNeeds name

def Need.SameIn (chunk : Option InputDataChunkDefinition) (need : Need) (x y : DataRequestResponse) : Prop :=
  let sameNode (name : String) := x.runExecutionData.runData.get name = y.runExecutionData.runData.get name ∧
    x.runExecutionData.pinData.bind (·.get name) = y.runExecutionData.pinData.bind (·.get name)
  match need with
  | .node name => sameNode name
  | .prevNode => determinePrevNodeName x = determinePrevNodeName y ∧ sameNode (determinePrevNodeName x)
  | .allNodes => x.runExecutionData.runData = y.runExecutionData.runData ∧
      x.runExecutionData.pinData = y.runExecutionData.pinData
  | .input => chunkedInputData chunk x.inputData = chunkedInputData chunk y.inputData
  | .env => x.envProviderState = y.envProviderState
  | .source => x.connectionInputSource = y.connectionInputSource

/-- Every built-in read gives the same on two responses that are the same once trimmed. -/
def TrimsSoundly (program : Node) (chunk : Option InputDataChunkDefinition) : Prop :=
  ∀ x y : DataRequestResponse,
    strip ((parseUsedBuiltIns program).toDataRequestParams chunk) x =
        strip ((parseUsedBuiltIns program).toDataRequestParams chunk) y →
      ∀ read ∈ programReads program, ∀ need ∈ read.needs, need.SameIn chunk x y

inductive Request where
  | node (name : String)
  | prevNode
  | allNodes
  | input
  | env
  | execution
  deriving DecidableEq

/-- All nodes are asked for with the input items. -/
def Request.Gives : Request → Need → Prop
  | .node name, .node other => name = other
  | .prevNode, .prevNode => True
  | .allNodes, .node _ | .allNodes, .prevNode | .allNodes, .allNodes | .allNodes, .input => True
  | .input, .input => True
  | .env, .env => True
  | _, _ => False

/-- Computed members are recognised where they are literals or variables. -/
def Use.asksForAllNodes : Use → Bool
  | .object (.literal (.string name)) true => isPairedItemProperty name
  | .object (.identifier _) true => true
  | .object _ true => false
  | .object (.identifier name) false => isPairedItemProperty name
  | .object _ false => false
  | .key => false
  | .value => true

def identifierRequests (name : String) : List Request :=
  if name = "$env" then [.env]
  else if name = "$item" ∨ name = "$node" then [.allNodes]
  else if name = "$input" ∨ name = "$json" ∨ name = "items" ∨ name = "item" then [.input]
  else if name = "$execution" then [.execution]
  else if name = "$prevNode" then [.prevNode]
  else []

/-- A read asks for a node that it names by a string, for all nodes where its argument is no
literal, and for what goes with the name of an identifier that is not assigned. -/
def Read.requests : Read → List Request
  | .dollar none _ => []
  | .dollar (some (.literal (.string value))) use =>
    .node value :: if use.asksForAllNodes then [.allNodes] else []
  | .dollar (some (.literal (.other _ _))) _ => []
  | .dollar (some _) _ => [.allNodes]
  | .items none => [.input]
  | .items (some (.literal (.string value))) => [.node value]
  | .items (some (.literal (.other _ _))) => []
  | .items (some _) => [.allNodes]
  | .identifier name assigned => if assigned then [] else identifierRequests name

/-- What every read needs is always sent, or some read of the program asks for it. -/
def AsksForAll (program : Node) : Prop :=
  ∀ read ∈ programReads program, ∀ need ∈ read.needs,
    need = .source ∨ ∃ asking ∈ programReads program, ∃ request ∈ asking.requests, request.Gives need

def BuiltInsParserState.mark (state : BuiltInsParserState) : Request → BuiltInsParserState
  | .node name => state.markNodeAsNeeded name
  | .prevNode => state.markPrevNodeAsNeeded
  | .allNodes => state.markNeedsAllNodes
  | .input => state.markInputAsNeeded
  | .env => state.markEnvAsNeeded
  | .execution => state.markExecutionAsNeeded

def useOf (parent : Option Node) : Use :=
  match parent with
  | some (.memberExpression _ property computed) => .object property computed
  | _ => .value

def Visit.requests (visit : Visit) : List Request :=
  match visit.node with
  | .callExpression callee arguments =>
    (callReads (useOf visit.parent) callee arguments).flatMap Read.requests
  | .identifier name => identifierRequests name
  | _ => []

section

variable (state : BuiltInsParserState)
include state

theorem handlePrevNodeCall_eq (parent : Option Node) :
    handlePrevNodeCall state parent =
      if (useOf parent).asksForAllNodes then state.markNeedsAllNodes else state := by
  cases parent with
  | none => rfl
  | some parent =>
    cases parent with
    | memberExpression object property computed =>
      cases computed <;> cases property with
      | literal value => cases value <;> rfl
      | identifier | callExpression | memberExpression | variableDeclarator | assignmentExpression
        | other => rfl
    | identifier | literal | callExpression | variableDeclarator | assignmentExpression | other => rfl

theorem visitIdentifier_eq (name : String) :
    visitIdentifier state name = (identifierRequests name).foldl BuiltInsParserState.mark state := by
  unfold visitIdentifier identifierRequests
  by_cases env : name = "$env"
  · simp [env, BuiltInsParserState.mark]
  by_cases item : name = "$item"
  · simp [item, BuiltInsParserState.mark]
  by_cases input : name = "$input" ∨ name = "$json" ∨ name = "items" ∨ name = "item"
  · have other : name ≠ "$node" := by
      rintro rfl
      simp at input
    simp [env, item, other, input, BuiltInsParserState.mark]
  by_cases node : name = "$node"
  · simp [node, BuiltInsParserState.mark]
  by_cases execution : name = "$execution"
  · simp [execution, BuiltInsParserState.mark]
  by_cases prevNode : name = "$prevNode"
  · simp [prevNode, BuiltInsParserState.mark]
  · simp [env, item, input, node, execution, prevNode]

theorem visitDollarCallExpression_eq (arguments : List Node)
    (parent : Option Node) :
    visitDollarCallExpression state arguments parent =
      (Read.requests (.dollar arguments.head? (useOf parent))).foldl BuiltInsParserState.mark state := by
  cases arguments with
  | nil => rfl
  | cons argument arguments =>
    cases argument with
    | literal value =>
      cases value with
      | other text truthy => rfl
      | string name =>
        simp only [visitDollarCallExpression, handlePrevNodeCall_eq, Read.requests, List.head?_cons,
          List.foldl_cons]
        split <;> rfl
    | identifier | callExpression | memberExpression | variableDeclarator | assignmentExpression | other => rfl

theorem visitDollarItemsCallExpression_eq (arguments : List Node) :
    visitDollarItemsCallExpression state arguments =
      (Read.requests (.items arguments.head?)).foldl BuiltInsParserState.mark state := by
  cases arguments with
  | nil => rfl
  | cons argument arguments =>
    cases argument with
    | literal value => cases value <;> rfl
    | identifier | callExpression | memberExpression | variableDeclarator | assignmentExpression | other => rfl

theorem visit_eq (visited : Visit) :
    visit state visited = visited.requests.foldl BuiltInsParserState.mark state := by
  obtain ⟨node, parent⟩ := visited
  cases node with
  | identifier name => exact visitIdentifier_eq state name
  | callExpression callee arguments =>
    cases callee with
    | identifier name =>
      simp only [visit, visitCallExpression, Visit.requests, callReads]
      split
      · rw [visitDollarCallExpression_eq, List.flatMap_singleton]
      · split
        · rw [visitDollarItemsCallExpression_eq, List.flatMap_singleton]
        · rfl
    | literal | callExpression | memberExpression | variableDeclarator | assignmentExpression | other => rfl
  | literal | memberExpression | variableDeclarator | assignmentExpression | other => rfl

end

def Fits (parent : Option Node) (use : Use) (node : Node) : Prop :=
  use = useOf parent ∨ use = .key ∧ ∃ object, parent = some (.memberExpression object node true)

theorem callReads_requests {parent : Option Node} {use : Use} {callee : Node} {arguments : List Node}
    (fits : Fits parent use (.callExpression callee arguments)) :
    (callReads (useOf parent) callee arguments).flatMap Read.requests =
      (callReads use callee arguments).flatMap Read.requests := by
  obtain rfl | ⟨rfl, object, rfl⟩ := fits
  · rfl
  · cases callee with
    | identifier name =>
      simp only [callReads]
      split
      · rw [List.flatMap_singleton, List.flatMap_singleton]
        cases arguments with
        | nil => rfl
        | cons argument arguments =>
          cases argument with
          | literal value => cases value <;> rfl
          | identifier | callExpression | memberExpression | variableDeclarator | assignmentExpression
            | other => rfl
      · rfl
    | literal | callExpression | memberExpression | variableDeclarator | assignmentExpression | other => rfl

theorem isBuiltInCall_requests {callee : Node} (parent : Option Node) (builtIn : isBuiltInCall callee = true) :
    (walk parent .expression callee).flatMap Visit.requests = [] := by
  cases callee with
  | identifier name =>
    have names : name = "$" ∨ name = "$items" := of_decide_eq_true builtIn
    rcases names with rfl | rfl <;> simp [walk, Visit.requests, identifierRequests]
  | literal | callExpression | memberExpression | variableDeclarator | assignmentExpression | other =>
    cases builtIn

theorem assignedReads_requests (operator : String) (left : Node) :
    (assignedReads operator left).flatMap Read.requests = [] := by
  cases left with
  | identifier name =>
    simp only [assignedReads]
    split <;> rfl
  | literal | callExpression | memberExpression | variableDeclarator | assignmentExpression | other => rfl

mutual

theorem walk_requests (parent : Option Node) (use : Use) (position : Position) :
    (node : Node) → Fits parent use node →
      (walk parent position node).flatMap Visit.requests = (reads use position node).flatMap Read.requests
  | .identifier name, _ => by
    simp only [walk, reads]
    split <;> rfl
  | .literal value, _ => rfl
  | .callExpression callee arguments, fits => by
    simp only [walk, reads, List.flatMap_append, List.flatMap_singleton]
    rw [argumentReads_requests callee arguments arguments]
    refine congrArg₂ (· ++ ·) (congrArg₂ (· ++ ·) ?_ rfl) (callReads_requests fits)
    split
    · rename_i builtIn
      exact isBuiltInCall_requests _ builtIn
    · exact walk_requests _ .value .expression callee (.inl rfl)
  | .memberExpression object property computed, _ => by
    simp only [walk, reads, List.flatMap_append, List.flatMap_singleton]
    rw [walk_requests _ (.object property computed) .expression object (.inl rfl)]
    cases computed with
    | false => simp [Visit.requests]
    | true =>
      simp only [if_true]
      rw [walk_requests _ .key .expression property (.inr ⟨rfl, object, rfl⟩)]
      simp [Visit.requests]
  | .variableDeclarator id init, _ => by
    simp only [walk, reads, List.flatMap_append, List.flatMap_singleton]
    rw [walk_requests _ .value .pattern id (.inl rfl), initReads_requests id init init]
    simp [Visit.requests]
  | .assignmentExpression operator left right, _ => by
    simp only [walk, reads, List.flatMap_append, List.flatMap_singleton, assignedReads_requests]
    rw [walk_requests _ .value .pattern left (.inl rfl), walk_requests _ .value .expression right (.inl rfl)]
    simp [Visit.requests]
  | .other children, _ => by
    simp only [walk, reads, List.flatMap_append, List.flatMap_singleton]
    rw [childReads_requests (.other children) children rfl]
    simp [Visit.requests]
termination_by structural node => node

theorem argumentReads_requests (callee : Node) (all : List Node) : (arguments : List Node) →
    (walkArguments (some (.callExpression callee all)) arguments).flatMap Visit.requests =
      (argumentReads arguments).flatMap Read.requests
  | [] => rfl
  | argument :: arguments => by
    simp only [walkArguments, argumentReads, List.flatMap_append]
    rw [walk_requests _ .value .expression argument (.inl rfl), argumentReads_requests callee all arguments]
termination_by structural arguments => arguments

theorem initReads_requests (id : Node) (all : Option Node) : (init : Option Node) →
    (walkInit (some (.variableDeclarator id all)) init).flatMap Visit.requests =
      (initReads init).flatMap Read.requests
  | none => rfl
  | some init => walk_requests _ .value .expression init (.inl rfl)
termination_by structural init => init

theorem childReads_requests (parent : Node) : (children : List (Position × Node)) →
    useOf (some parent) = .value →
      (walkChildren (some parent) children).flatMap Visit.requests =
        (childReads children).flatMap Read.requests
  | [], _ => rfl
  | child :: children, use => by
    simp only [walkChildren, childReads, List.flatMap_append]
    rw [placedReads_requests parent child use, childReads_requests parent children use]
termination_by structural children => children

theorem placedReads_requests (parent : Node) : (child : Position × Node) → useOf (some parent) = .value →
    (walkChild (some parent) child).flatMap Visit.requests = (placedReads child).flatMap Read.requests
  | (position, child), use => walk_requests _ .value position child (.inl use.symm)
termination_by structural child => child

end

def programRequests (program : Node) : List Request := (programReads program).flatMap Read.requests

theorem parseUsedBuiltIns_eq (program : Node) :
    parseUsedBuiltIns program = (programRequests program).foldl BuiltInsParserState.mark {} := by
  have steps : visit = fun state visited => visited.requests.foldl BuiltInsParserState.mark state :=
    funext fun state => funext fun visited => visit_eq state visited
  unfold parseUsedBuiltIns programRequests programReads
  rw [steps, ← List.foldl_flatMap, walk_requests none .value .expression program (.inl rfl)]

section

variable (requests : List Request) (state : BuiltInsParserState) (request : Request)

theorem markNodeAsNeeded_eq (name : String) :
    ∃ names, state.markNodeAsNeeded name = { state with neededNodeNames := names } := by
  unfold BuiltInsParserState.markNodeAsNeeded
  split
  · exact ⟨state.neededNodeNames, rfl⟩
  · exact ⟨_, rfl⟩

theorem mark_needsAllNodes :
    (state.mark request).needsAllNodes = true ↔ state.needsAllNodes = true ∨ request = .allNodes := by
  cases request with
  | node name =>
    obtain ⟨names, marked⟩ := markNodeAsNeeded_eq state name
    simp [BuiltInsParserState.mark, marked]
  | allNodes => simp [BuiltInsParserState.mark, BuiltInsParserState.markNeedsAllNodes]
  | prevNode | input | env | execution => exact (or_iff_left (by simp)).symm

theorem mark_needsInput :
    (state.mark request).needsInput = true ↔
      state.needsInput = true ∨ request = .input ∨ request = .allNodes := by
  cases request with
  | node name =>
    obtain ⟨names, marked⟩ := markNodeAsNeeded_eq state name
    simp [BuiltInsParserState.mark, marked]
  | allNodes => simp [BuiltInsParserState.mark, BuiltInsParserState.markNeedsAllNodes]
  | input => simp [BuiltInsParserState.mark, BuiltInsParserState.markInputAsNeeded]
  | prevNode | env | execution => exact (or_iff_left (by simp)).symm

theorem mark_needsEnv :
    (state.mark request).needsEnv = true ↔ state.needsEnv = true ∨ request = .env := by
  cases request with
  | node name =>
    obtain ⟨names, marked⟩ := markNodeAsNeeded_eq state name
    simp [BuiltInsParserState.mark, marked]
  | env => simp [BuiltInsParserState.mark, BuiltInsParserState.markEnvAsNeeded]
  | prevNode | input | allNodes | execution => exact (or_iff_left (by simp)).symm

theorem mark_needsPrevNode :
    (state.mark request).needsPrevNode = true ↔ state.needsPrevNode = true ∨ request = .prevNode := by
  cases request with
  | node name =>
    obtain ⟨names, marked⟩ := markNodeAsNeeded_eq state name
    simp [BuiltInsParserState.mark, marked]
  | prevNode => simp [BuiltInsParserState.mark, BuiltInsParserState.markPrevNodeAsNeeded]
  | env | input | allNodes | execution => exact (or_iff_left (by simp)).symm

theorem mark_neededNodeNames (name : String) (start : state.needsAllNodes = false) (some : request ≠ .allNodes) :
    name ∈ (state.mark request).neededNodeNames ↔ name ∈ state.neededNodeNames ∨ request = .node name := by
  cases request with
  | node other =>
    simp [BuiltInsParserState.mark, BuiltInsParserState.markNodeAsNeeded, start, eq_comm]
  | allNodes => exact absurd rfl some
  | prevNode | input | env | execution => exact (or_iff_left (by simp)).symm

theorem foldl_mark_iff (flag : BuiltInsParserState → Bool) (sets : Request → Prop)
    (step : ∀ state request, flag (state.mark request) = true ↔ flag state = true ∨ sets request) :
    flag (requests.foldl BuiltInsParserState.mark state) = true ↔
      flag state = true ∨ ∃ request ∈ requests, sets request := by
  induction requests generalizing state with
  | nil => simp
  | cons request requests ih => rw [List.foldl_cons, ih, step, List.exists_mem_cons_iff, or_assoc]

theorem foldl_mark_neededNodeNames (name : String) (start : state.needsAllNodes = false)
    (some : .allNodes ∉ requests) :
    name ∈ (requests.foldl BuiltInsParserState.mark state).neededNodeNames ↔
      name ∈ state.neededNodeNames ∨ .node name ∈ requests := by
  induction requests generalizing state with
  | nil => simp
  | cons request requests ih =>
    rw [List.mem_cons, not_or] at some
    have still : (state.mark request).needsAllNodes = false := by
      rw [← Bool.not_eq_true, mark_needsAllNodes, start]
      simpa using Ne.symm some.1
    rw [List.foldl_cons, ih _ still some.2, mark_neededNodeNames _ _ _ start (Ne.symm some.1), List.mem_cons,
      or_assoc, eq_comm (a := request)]

end

section

variable (program : Node) (chunk : Option InputDataChunkDefinition)

def params : TaskDataRequestParams := (parseUsedBuiltIns program).toDataRequestParams chunk

theorem params_env : (params program chunk).env = true ↔ .env ∈ programRequests program := by
  unfold params
  rw [parseUsedBuiltIns_eq]
  have marks := foldl_mark_iff (programRequests program) {} (·.needsEnv) (· = .env) mark_needsEnv
  simpa [BuiltInsParserState.toDataRequestParams] using marks

theorem params_prevNode : (params program chunk).prevNode = true ↔ .prevNode ∈ programRequests program := by
  unfold params
  rw [parseUsedBuiltIns_eq]
  have marks := foldl_mark_iff (programRequests program) {} (·.needsPrevNode) (· = .prevNode) mark_needsPrevNode
  simpa [BuiltInsParserState.toDataRequestParams] using marks

theorem params_includeInput : (params program chunk).includeInput = true ↔
    .input ∈ programRequests program ∨ .allNodes ∈ programRequests program := by
  unfold params
  rw [parseUsedBuiltIns_eq]
  have marks := foldl_mark_iff (programRequests program) {} (·.needsInput)
    (fun request => request = .input ∨ request = .allNodes) mark_needsInput
  simpa [BuiltInsParserState.toDataRequestParams, and_or_left, exists_or] using marks

theorem params_all (all : .allNodes ∈ programRequests program) : (params program chunk).dataOfNodes = .all := by
  unfold params
  rw [parseUsedBuiltIns_eq]
  have marks := foldl_mark_iff (programRequests program) {} (·.needsAllNodes) (· = .allNodes) mark_needsAllNodes
  have needed := marks.2 (.inr ⟨_, all, rfl⟩)
  simp [BuiltInsParserState.toDataRequestParams, needed]

theorem params_names (some : .allNodes ∉ programRequests program) :
    ∃ names, (params program chunk).dataOfNodes = .names names ∧
      ∀ name, name ∈ names ↔ .node name ∈ programRequests program := by
  unfold params
  rw [parseUsedBuiltIns_eq]
  have marks := foldl_mark_iff (programRequests program) {} (·.needsAllNodes) (· = .allNodes) mark_needsAllNodes
  have few : ((programRequests program).foldl BuiltInsParserState.mark {}).needsAllNodes = false := by
    rw [← Bool.not_eq_true, marks]
    simpa using some
  refine ⟨_, by simp only [BuiltInsParserState.toDataRequestParams, few]; rfl, fun name => ?_⟩
  rw [foldl_mark_neededNodeNames _ _ name rfl some]
  simp

variable {x y : DataRequestResponse}

theorem strip_allNodes (all : .allNodes ∈ programRequests program)
    (same : strip (params program chunk) x = strip (params program chunk) y) :
    x.runExecutionData = y.runExecutionData := by
  have runs := congrArg (·.runExecutionData) same
  simpa only [strip, stripRunExecutionData, params_all program chunk all] using runs

theorem strip_source {params : TaskDataRequestParams}
    (same : strip params x = strip params y) : x.connectionInputSource = y.connectionInputSource :=
  congrArg (·.connectionInputSource) same

theorem determinePrevNodeName_congr
    (same : x.connectionInputSource = y.connectionInputSource) :
    determinePrevNodeName x = determinePrevNodeName y := by
  unfold determinePrevNodeName
  rw [same]

theorem strip_requested (some : .allNodes ∉ programRequests program)
    (same : strip (params program chunk) x = strip (params program chunk) y) {name : String}
    (requested : .node name ∈ programRequests program ∨
      .prevNode ∈ programRequests program ∧ name = determinePrevNodeName x) :
    (Need.node name).SameIn chunk x y := by
  obtain ⟨names, few, known⟩ := params_names program chunk some
  have prev := determinePrevNodeName_congr (strip_source same)
  have sets : requestedNodeNames (params program chunk) names y =
      requestedNodeNames (params program chunk) names x := by
    unfold requestedNodeNames
    rw [prev]
  have member : (requestedNodeNames (params program chunk) names x).contains name = true := by
    rw [OrderedSet.contains_iff]
    unfold requestedNodeNames
    rcases requested with named | ⟨before, rfl⟩
    · split
      · exact (OrderedSet.mem_add _ _ _).2 (.inl ((known name).2 named))
      · exact (known name).2 named
    · rw [if_pos ((params_prevNode program chunk).2 before)]
      exact (OrderedSet.mem_add _ _ _).2 (.inr rfl)
  have runs := congrArg (·.runExecutionData) same
  simp only [strip, stripRunExecutionData, few, sets, RunExecutionData.mk.injEq] at runs
  constructor
  · have sent := congrArg (·.get name) runs.1
    simpa only [OrderedMap.get_filterKeys, member, if_true] using sent
  · have sent := congrArg (fun pins => pins.bind (·.get name)) runs.2.1
    simpa only [Option.bind_map, Function.comp_def, OrderedMap.get_filterKeys, member, if_true] using sent

theorem strip_input
    (included : .input ∈ programRequests program ∨ .allNodes ∈ programRequests program)
    (same : strip (params program chunk) x = strip (params program chunk) y) :
    chunkedInputData chunk x.inputData = chunkedInputData chunk y.inputData := by
  have included := (params_includeInput program chunk).2 included
  have items := congrArg (·.inputData) same
  simp only [strip, stripInputData, included, if_true] at items
  exact items

theorem strip_env (included : .env ∈ programRequests program)
    (same : strip (params program chunk) x = strip (params program chunk) y) :
    x.envProviderState = y.envProviderState := by
  have included := (params_env program chunk).2 included
  have state := congrArg (·.envProviderState) same
  simpa only [strip, stripEnvProviderState, included, if_true] using state

theorem same_of_gives
    (same : strip (params program chunk) x = strip (params program chunk) y) {request : Request} {need : Need}
    (asked : request ∈ programRequests program) (gives : request.Gives need) : need.SameIn chunk x y := by
  have prev := determinePrevNodeName_congr (strip_source same)
  by_cases all : .allNodes ∈ programRequests program
  · have runs := strip_allNodes program chunk all same
    cases need with
    | node name => exact ⟨by rw [runs], by rw [runs]⟩
    | prevNode => exact ⟨prev, by rw [runs], by rw [runs]⟩
    | allNodes => exact ⟨by rw [runs], by rw [runs]⟩
    | input => exact strip_input program chunk (.inr all) same
    | source => exact strip_source same
    | env =>
      cases request with
      | env => exact strip_env program chunk asked same
      | node | prevNode | allNodes | input | execution => cases gives
  · cases request with
    | allNodes => exact absurd asked all
    | node name =>
      cases need with
      | node other =>
        obtain rfl : name = other := gives
        exact strip_requested program chunk all same (.inl asked)
      | prevNode | allNodes | input | env | source => cases gives
    | prevNode =>
      cases need with
      | prevNode => exact ⟨prev, strip_requested program chunk all same (.inr ⟨asked, rfl⟩)⟩
      | node | allNodes | input | env | source => cases gives
    | input =>
      cases need with
      | input => exact strip_input program chunk (.inl asked) same
      | node | prevNode | allNodes | env | source => cases gives
    | env =>
      cases need with
      | env => exact strip_env program chunk asked same
      | node | prevNode | allNodes | input | source => cases gives
    | execution => cases need <;> cases gives

theorem trimsSoundly_of_asksForAll (asks : AsksForAll program) : TrimsSoundly program chunk := by
  intro x y same read member need needed
  obtain rfl | ⟨asking, among, request, asked, gives⟩ := asks read member need needed
  · exact strip_source same
  · exact same_of_gives program chunk same (List.mem_flatMap.2 ⟨asking, among, asked⟩) gives

def nodeResponse (prevNode name : String) (data : JsValue) : DataRequestResponse where
  inputData := ∅
  connectionInputSource := some (OrderedMap.empty.set "main" [some ⟨prevNode⟩])
  envProviderState := ⟨∅, false, false⟩
  runExecutionData := ⟨OrderedMap.empty.set name data, none, .null, none⟩
  other := .null

def inputResponse (input : OrderedMap String (List (Option (List JsValue))))
    (env : OrderedMap String String) : DataRequestResponse where
  inputData := input
  connectionInputSource := none
  envProviderState := ⟨env, false, false⟩
  runExecutionData := ⟨∅, none, .null, none⟩
  other := .null

theorem exists_not_mem (names : OrderedSet String) : ∃ name, name ∉ names := by
  have : Infinite String := Infinite.of_injective String.ofList fun _ _ same => String.ofList_injective same
  obtain ⟨name, fresh⟩ := Infinite.exists_notMem_finset names.elems.toFinset
  exact ⟨name, fun member => fresh (List.mem_toFinset.2 member)⟩

theorem ne_append (name : String) : name ≠ name ++ "x" := by
  intro same
  have length := congrArg String.length same
  simp at length

theorem strip_nodeResponse {prevNode name : String} (some : .allNodes ∉ programRequests program)
    (unnamed : .node name ∉ programRequests program)
    (other : .prevNode ∈ programRequests program → name ≠ prevNode) (v w : JsValue) :
    strip (params program chunk) (nodeResponse prevNode name v) =
      strip (params program chunk) (nodeResponse prevNode name w) := by
  obtain ⟨names, few, known⟩ := params_names program chunk some
  have dropped (data : JsValue) : (OrderedMap.empty.set name data).filterKeys
      (requestedNodeNames (params program chunk) names (nodeResponse prevNode name data)).contains = ∅ := by
    have missing : (requestedNodeNames (params program chunk) names (nodeResponse prevNode name data)).contains
        name = false := by
      rw [← Bool.not_eq_true, OrderedSet.contains_iff]
      unfold requestedNodeNames
      split
      · rename_i before
        rw [OrderedSet.mem_add, known]
        rintro (named | same)
        · exact unnamed named
        · exact other ((params_prevNode program chunk).1 before) same
      · rw [known]
        exact unnamed
    apply OrderedMap.ext
    simp [OrderedMap.filterKeys, OrderedMap.set, OrderedMap.insert, OrderedMap.empty, missing]
  simp only [strip, stripRunExecutionData, few]
  have first := dropped v
  have second := dropped w
  simp only [nodeResponse] at first second ⊢
  rw [first, second]
  rfl

theorem inputItems_differ : chunkedInputData chunk ∅ ≠ chunkedInputData chunk (OrderedMap.empty.set "ai_tool" []) := by
  intro same
  have entries := congrArg (·.get "ai_tool") same
  cases chunk with
  | none => simp [chunkedInputData] at entries
  | some chunk =>
    have empty : (OrderedMap.empty : OrderedMap String (List (Option (List JsValue)))).get "main" = none := rfl
    simp [chunkedInputData, stripChunkedInputData, OrderedMap.get_set, empty] at entries

/-- Two trimmed responses do not tell what is neither sent always nor asked for. -/
theorem exists_differing {need : Need} (sent : need ≠ .source)
    (unasked : ∀ request ∈ programRequests program, ¬request.Gives need) :
    ∃ x y, strip (params program chunk) x = strip (params program chunk) y ∧ ¬need.SameIn chunk x y := by
  have all : need ≠ .env → .allNodes ∉ programRequests program := fun other asked => by
    cases need with
    | env => exact other rfl
    | source => exact sent rfl
    | node | prevNode | allNodes | input => exact unasked _ asked trivial
  have differ (name : String) : (OrderedMap.empty.set name JsValue.null).get name ≠
      (OrderedMap.empty.set name JsValue.undefined).get name := by simp
  cases need with
  | source => exact absurd rfl sent
  | node name =>
    refine ⟨nodeResponse (name ++ "x") name .null, nodeResponse (name ++ "x") name .undefined, ?_, fun same => ?_⟩
    · exact strip_nodeResponse program chunk (all (by simp)) (fun asked => unasked _ asked rfl)
        (fun _ => ne_append name) _ _
    · exact differ name same.1
  | prevNode =>
    obtain ⟨names, -, known⟩ := params_names program chunk (all (by simp))
    obtain ⟨name, fresh⟩ := exists_not_mem names
    refine ⟨nodeResponse name name .null, nodeResponse name name .undefined, ?_, fun same => ?_⟩
    · exact strip_nodeResponse program chunk (all (by simp)) (fun asked => fresh ((known name).2 asked))
        (fun asked => absurd trivial (unasked _ asked)) _ _
    · exact differ name same.2.1
  | allNodes =>
    obtain ⟨names, -, known⟩ := params_names program chunk (all (by simp))
    obtain ⟨name, fresh⟩ := exists_not_mem names
    refine ⟨nodeResponse (name ++ "x") name .null, nodeResponse (name ++ "x") name .undefined, ?_, fun same => ?_⟩
    · exact strip_nodeResponse program chunk (all (by simp)) (fun asked => fresh ((known name).2 asked))
        (fun _ => ne_append name) _ _
    · exact differ name (congrArg (·.get name) same.1)
  | input =>
    refine ⟨inputResponse ∅ ∅, inputResponse (OrderedMap.empty.set "ai_tool" []) ∅, ?_, inputItems_differ chunk⟩
    have excluded : (params program chunk).includeInput = false := by
      rw [← Bool.not_eq_true, params_includeInput]
      rintro (asked | asked)
      · exact unasked _ asked trivial
      · exact unasked _ asked trivial
    simp [strip, stripInputData, excluded, inputResponse, stripRunExecutionData, requestedNodeNames,
      determinePrevNodeName]
  | env =>
    refine ⟨inputResponse ∅ ∅, inputResponse ∅ (OrderedMap.empty.set "KEY" "value"), ?_, fun same => ?_⟩
    · have excluded : (params program chunk).env = false := by
        rw [← Bool.not_eq_true, params_env]
        exact fun asked => unasked _ asked trivial
      simp [strip, stripEnvProviderState, excluded, inputResponse, stripRunExecutionData, requestedNodeNames,
        determinePrevNodeName]
    · exact absurd (congrArg (·.env.get "KEY") same) (by decide)

/-- The trimmed data is enough for a program exactly where every read finds its data asked for. -/
theorem trimsSoundly_iff : TrimsSoundly program chunk ↔ AsksForAll program := by
  refine ⟨fun sound read member need needed => ?_, trimsSoundly_of_asksForAll program chunk⟩
  by_contra unasked
  rw [not_or] at unasked
  obtain ⟨x, y, same, differ⟩ := exists_differing program chunk unasked.1 fun request asked gives => by
    obtain ⟨asking, among, asked⟩ := List.mem_flatMap.1 asked
    exact unasked.2 ⟨asking, among, request, asked, gives⟩
  exact differ (sound x y same read member need needed)

end

/-- `$('X')['it' + 'em']` follows paired items. -/
theorem not_trimsSoundly_computed :
    ¬∀ (program : Node) (chunk : Option InputDataChunkDefinition), TrimsSoundly program chunk := by
  intro sound
  let program : Node := .memberExpression
    (.callExpression (.identifier "$") [.literal (.string "X")])
    (.other [(.expression, .literal (.string "it")), (.expression, .literal (.string "em"))]) true
  have trimmed := sound program none (nodeResponse "X" "Y" .null) (nodeResponse "X" "Y" .undefined) (by decide)
    (.dollar (some (.literal (.string "X"))) (.object (.other [(.expression, .literal (.string "it")),
      (.expression, .literal (.string "em"))]) true)) (.head _) .allNodes (by decide)
  exact absurd trimmed.1 (by decide)

end NodeAutomation.BuiltIns
