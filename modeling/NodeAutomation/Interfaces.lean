import NodeAutomation.Lib.OrderedMap

/-! The data of workflows and executions, as `packages/workflow/src/interfaces.ts`
declares it. JavaScript objects are maps in insertion order. An array may have
holes: a `Slot` is an absent (or undefined) element, `null`, or a value. Node
names are not properties every object inherits (`constructor`, `__proto__`),
which renaming refuses. -/

namespace NodeAutomation

inductive NodeConnectionType where
  | aiAgent
  | aiChain
  | aiDocument
  | aiEmbedding
  | aiLanguageModel
  | aiMemory
  | aiOutputParser
  | aiRetriever
  | aiReranker
  | aiTextSplitter
  | aiTool
  | aiVectorStore
  | main
  deriving DecidableEq, Repr

namespace NodeConnectionType

def text : NodeConnectionType → String
  | aiAgent => "ai_agent"
  | aiChain => "ai_chain"
  | aiDocument => "ai_document"
  | aiEmbedding => "ai_embedding"
  | aiLanguageModel => "ai_languageModel"
  | aiMemory => "ai_memory"
  | aiOutputParser => "ai_outputParser"
  | aiRetriever => "ai_retriever"
  | aiReranker => "ai_reranker"
  | aiTextSplitter => "ai_textSplitter"
  | aiTool => "ai_tool"
  | aiVectorStore => "ai_vectorStore"
  | main => "main"

end NodeConnectionType

/-- JSON-like values: node parameters and the `json` of items. -/
inductive JsValue where
  | undefined
  | null
  | bool (value : Bool)
  | number (value : Int)
  | string (value : String)
  | array (values : List JsValue)
  | object (fields : List (String × JsValue))

namespace JsValue

mutual

def decEq : (x y : JsValue) → Decidable (x = y)
  | undefined, y => match y with
    | undefined => isTrue rfl
    | null | bool _ | number _ | string _ | array _ | object _ => isFalse nofun
  | null, y => match y with
    | null => isTrue rfl
    | undefined | bool _ | number _ | string _ | array _ | object _ => isFalse nofun
  | bool a, y => match y with
    | bool b => decidable_of_iff (a = b) (by simp)
    | undefined | null | number _ | string _ | array _ | object _ => isFalse nofun
  | number a, y => match y with
    | number b => decidable_of_iff (a = b) (by simp)
    | undefined | null | bool _ | string _ | array _ | object _ => isFalse nofun
  | string a, y => match y with
    | string b => decidable_of_iff (a = b) (by simp)
    | undefined | null | bool _ | number _ | array _ | object _ => isFalse nofun
  | array a, y => match y with
    | array b => match decEqList a b with
      | isTrue h => isTrue (congrArg array h)
      | isFalse h => isFalse (fun eq => h (array.inj eq))
    | undefined | null | bool _ | number _ | string _ | object _ => isFalse nofun
  | object a, y => match y with
    | object b => match decEqFields a b with
      | isTrue h => isTrue (congrArg object h)
      | isFalse h => isFalse (fun eq => h (object.inj eq))
    | undefined | null | bool _ | number _ | string _ | array _ => isFalse nofun

def decEqList : (xs ys : List JsValue) → Decidable (xs = ys)
  | [], [] => isTrue rfl
  | [], _ :: _ => isFalse nofun
  | _ :: _, [] => isFalse nofun
  | x :: xs, y :: ys => match decEq x y, decEqList xs ys with
    | isTrue head, isTrue tail => isTrue (by rw [head, tail])
    | isFalse head, _ => isFalse (fun eq => head (List.cons.inj eq).1)
    | _, isFalse tail => isFalse (fun eq => tail (List.cons.inj eq).2)

def decEqFields : (xs ys : List (String × JsValue)) → Decidable (xs = ys)
  | [], [] => isTrue rfl
  | [], _ :: _ => isFalse nofun
  | _ :: _, [] => isFalse nofun
  | (k, x) :: xs, (l, y) :: ys => match decEq x y, decEqFields xs ys with
    | isTrue head, isTrue tail => decidable_of_iff (k = l) (by simp [head, tail])
    | isFalse head, _ => isFalse (fun eq => head (Prod.mk.inj (List.cons.inj eq).1).2)
    | _, isFalse tail => isFalse (fun eq => tail (List.cons.inj eq).2)

end

instance : DecidableEq JsValue := decEq

def truthy : JsValue → Bool
  | undefined | null => false
  | bool value => value
  | number value => value ≠ 0
  | string value => value ≠ ""
  | array _ | object _ => true

def getField (value : JsValue) (name : String) : JsValue :=
  match value with
  | object fields => (fields.lookup name).getD undefined
  | _ => undefined

def setField (value : JsValue) (name : String) (field : JsValue) : JsValue :=
  match value with
  | object fields => object (OrderedMap.insert name field fields)
  | _ => value

end JsValue

/-- An array element: a hole (absent or undefined), `null` or a value. -/
inductive Slot (α : Type) where
  | hole
  | null
  | value (a : α)
  deriving DecidableEq, Repr

namespace Slot

def map {α β : Type} (f : α → β) : Slot α → Slot β
  | hole => hole
  | null => null
  | value a => value (f a)

/-- JavaScript truthiness of an element that holds an array or an object. -/
def isValue {α : Type} : Slot α → Bool
  | value _ => true
  | hole | null => false

def value? {α : Type} : Slot α → Option α
  | value a => some a
  | hole | null => none

/-- `array[index]`, a hole past the end. -/
def at_ {α : Type} (slots : List (Slot α)) (index : Nat) : Slot α := slots.getD index hole

/-- `array[index] = slot`, with holes up to the index where the array is shorter. -/
def assign {α : Type} : List (Slot α) → Nat → Slot α → List (Slot α)
  | [], 0, slot => [slot]
  | [], index + 1, slot => hole :: assign [] index slot
  | _ :: rest, 0, slot => slot :: rest
  | first :: rest, index + 1, slot => first :: assign rest index slot

theorem at_assign {α : Type} (slots : List (Slot α)) (index i : Nat) (slot : Slot α) :
    at_ (assign slots index slot) i = if i = index then slot else at_ slots i := by
  induction slots, index, slot using assign.induct generalizing i with
  | case1 slot => cases i <;> simp [assign, at_]
  | case2 index slot ih =>
    cases i with
    | zero => simp [assign, at_]
    | succ i => simpa [assign, at_] using ih i
  | case3 first rest slot => cases i <;> simp [assign, at_]
  | case4 first rest index slot ih =>
    cases i with
    | zero => simp [assign, at_]
    | succ i => simpa [assign, at_] using ih i

theorem length_assign {α : Type} (slots : List (Slot α)) (index : Nat) (slot : Slot α) :
    (assign slots index slot).length = max slots.length (index + 1) := by
  induction slots, index, slot using assign.induct with
  | case1 slot => rfl
  | case2 index slot ih =>
    simp only [assign, List.length_cons, ih, List.length_nil]
    omega
  | case3 first rest slot =>
    simp only [assign, List.length_cons]
    omega
  | case4 first rest index slot ih =>
    simp only [assign, List.length_cons, ih]
    omega

end Slot

inductive OnError where
  | stopWorkflow
  | continueRegularOutput
  | continueErrorOutput
  deriving DecidableEq, Repr

structure INode where
  name : String
  type : String := ""
  typeVersion : Nat := 1
  position : Int × Int := (0, 0)
  disabled : Bool := false
  alwaysOutputData : Bool := false
  onError : Option OnError := none
  continueOnFail : Bool := false
  parameters : JsValue := .object []
  deriving DecidableEq

@[ext] structure IConnection where
  node : String
  type : NodeConnectionType := .main
  index : Nat := 0
  deriving DecidableEq, Repr

/-- Outputs of one type; a missing group is `none`, as `null` and a hole read alike. -/
abbrev NodeInputConnections := List (Option (List IConnection))

abbrev INodeConnections := OrderedMap NodeConnectionType NodeInputConnections

abbrev IConnections := OrderedMap String INodeConnections

structure ISourceData where
  previousNode : String
  previousNodeOutput : Option Nat := none
  previousNodeRun : Option Nat := none
  deriving DecidableEq, Repr

structure IPairedItemData where
  item : Nat
  input : Option Nat := none
  sourceOverwrite : Option ISourceData := none
  deriving DecidableEq, Repr

inductive PairedItem where
  | index (item : Nat)
  | one (pairedItem : IPairedItemData)
  | many (pairedItems : List IPairedItemData)
  deriving DecidableEq, Repr

structure INodeExecutionData where
  json : List (String × JsValue) := []
  pairedItem : Option PairedItem := none
  deriving DecidableEq

abbrev ITaskDataConnections :=
  OrderedMap NodeConnectionType (List (Slot (List INodeExecutionData)))

abbrev ITaskDataConnectionsSource := OrderedMap NodeConnectionType (List (Slot ISourceData))

abbrev IWaitingForExecution := OrderedMap String (OrderedMap Nat ITaskDataConnections)

abbrev IWaitingForExecutionSource := OrderedMap String (OrderedMap Nat ITaskDataConnectionsSource)

/-- `{ main: slots }`. -/
def mainOnly {α : Type} (slots : List (Slot α)) : OrderedMap NodeConnectionType (List (Slot α)) :=
  OrderedMap.set ∅ .main slots

@[simp] theorem set_mainOnly {α : Type} (slots other : List (Slot α)) :
    (mainOnly slots).set .main other = mainOnly other := rfl

@[simp] theorem get_mainOnly {α : Type} (slots : List (Slot α)) :
    (mainOnly slots).get .main = some slots := rfl

structure ExecuteNodeAction where
  nodeName : String
  input : List (String × JsValue) := []
  type : NodeConnectionType := .aiTool
  id : String := ""
  parentNodeName : Option String := none
  itemIndex : Option Nat := none
  deriving DecidableEq

structure EngineRequest where
  actions : List ExecuteNodeAction
  metadata : List (String × JsValue) := []
  deriving DecidableEq

structure SubNodeExecutionDataAction where
  action : ExecuteNodeAction
  nodeName : String
  runIndex : Nat
  deriving DecidableEq

structure SubNodeExecutionData where
  actions : List SubNodeExecutionDataAction
  metadata : List (String × JsValue)
  deriving DecidableEq

structure ITaskMetadata where
  subNodeExecutionData : Option SubNodeExecutionData := none
  preserveSourceOverwrite : Bool := false
  preservedSourceOverwrite : Option ISourceData := none
  nodeWasResumed : Bool := false
  deriving DecidableEq

/-- A stack entry. `ref` is the identity of the JavaScript object. -/
structure IExecuteData where
  ref : Nat
  node : INode
  data : ITaskDataConnections
  source : Option ITaskDataConnectionsSource
  runIndex : Option Nat := none
  metadata : Option ITaskMetadata := none
  deriving DecidableEq

structure ITaskData where
  data : Option ITaskDataConnections := none
  inputOverride : Option ITaskDataConnections := none
  source : List (Slot ISourceData) := []
  error : Option String := none
  metadata : Option ITaskMetadata := none
  deriving DecidableEq

abbrev IRunData := OrderedMap String (List ITaskData)

abbrev IPinData := OrderedMap String (List INodeExecutionData)

inductive ExecutionOrder where
  | v0
  | v1
  deriving DecidableEq, Repr

/-- What a function throws: a `TypeError` for a property of `undefined`, a
`RangeError` for a recursion that does not end. -/
inductive JsError where
  | typeError
  | rangeError
  | assertionError (message : String)
  | userError (message : String) (description : Option String)
  | operationalError (message : String)
  | unexpectedError (message : String)
  deriving DecidableEq, Repr

/-- `assert.ok(value, message)`. -/
def assertOk (value : Bool) (message : String) : Except JsError Unit :=
  if value then .ok () else .error (.assertionError message)

end NodeAutomation
