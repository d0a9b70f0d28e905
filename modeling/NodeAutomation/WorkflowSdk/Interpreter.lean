import NodeAutomation.Lib.GuardedRuns
import NodeAutomation.WorkflowSdk.Validators

/-! The interpreter of SDK programs (`packages/@n8n/workflow-sdk/src/ast-interpreter/interpreter.ts`) over a
heap of objects. It logs which properties it comes to, which functions it calls and which values it finds. -/

namespace NodeAutomation.SDKInterpreter

open JsHeap GuardedRuns FreshSearch

/-- What the engine provides: the prototypes of what a program writes down, and the tables
`SAFE_JSON_METHODS` and `SAFE_STRING_METHODS`, which are objects too. -/
structure Realm where
  objectPrototype : Nat
  arrayPrototype : Nat
  regExpPrototype : Nat
  booleanPrototype : Nat
  numberPrototype : Nat
  bigintPrototype : Nat
  stringPrototype : Nat
  safeJsonMethods : Nat
  safeStringMethods : Nat

/-- `apply` is the call of a function with a value of `this` and arguments. -/
structure Setting (ν : Type) where
  primitives : Primitives ν
  realm : Realm
  sdkFunctions : OrderedMap String Nat
  apply : Heap ν → Nat → Value ν → List (Value ν) → Except (Value ν) (Value ν) × Heap ν
  sourceText : Expression ν → String

/-- How a function comes to be called: by its name, as a method of an object, through a table of safe
methods, to convert an object to a primitive, or as the accessor of a property. -/
inductive Way where
  | named (name : String)
  | method (name : String)
  | safeMethod (table : Nat) (name : String)
  | conversion (name : String)
  | accessor (key : String)
  deriving DecidableEq

/-- `reads` is a member that the program gets, `fetches` a method that is looked up to be called, and
`copies` a property that is spread. The heap is the one before. -/
inductive Event (ν : Type) where
  | reads (heap : Heap ν) (target : Value ν) (key : String)
  | fetches (key : String)
  | copies (heap : Heap ν) (source : Value ν) (key : String)
  | writes (heap : Heap ν) (target : Value ν) (key : String)
  | defines (key : String)
  | calls (heap : Heap ν) (way : Way) (function : Nat) (thisArg : Value ν)
  | gives (heap : Heap ν) (value : Value ν)
  deriving DecidableEq

structure State (ν : Type) where
  heap : Heap ν
  vars : OrderedMap String (Value ν) := ∅
  renamedVariables : OrderedMap String String := ∅
  events : List (Event ν) := []

variable {ν : Type}

abbrev Run (ν α : Type) : Type := Failable (State ν) (InterpreterError ν) α

open Failable (fail change read update)

def State.record (s : State ν) (event : Event ν) : State ν := { s with events := s.events ++ [event] }

def record (event : Heap ν → Event ν) : Run ν Unit := update fun s => s.record (event s.heap)

def ofExcept {α : Type} : Except (InterpreterError ν) α → Run ν α
  | .ok a => pure a
  | .error e => fail e

def functionOf (heap : Heap ν) : Value ν → Option Nat
  | .primitive _ => none
  | .object ref => if heap[ref]?.any (·.callable) then some ref else none

def allocate (o : Object ν) : Run ν (Value ν) :=
  change fun s => (.object s.heap.length, { s with heap := s.heap ++ [o] })

section

variable (setting : Setting ν)

def applyFunction (function : Nat) (thisArg : Value ν) (args : List (Value ν)) : Run ν (Value ν) := fun s =>
  match setting.apply s.heap function thisArg args with
  | (.ok value, heap) => (.ok value, { s with heap := heap })
  | (.error value, heap) => (.error (.thrown value), { s with heap := heap })

def callFunction (way : Way) (function : Nat) (thisArg : Value ν) (args : List (Value ν)) : Run ν (Value ν) := do
  record (.calls · way function thisArg)
  applyFunction setting function thisArg args

def holder : Value ν → Option Nat
  | .object ref => some ref
  | .primitive (.boolean _) => some setting.realm.booleanPrototype
  | .primitive (.number _) => some setting.realm.numberPrototype
  | .primitive (.bigint _) => some setting.realm.bigintPrototype
  | .primitive (.string _) => some setting.realm.stringPrototype
  | .primitive .undefined | .primitive .null => none

def ownOfString (target : Value ν) (key : String) : Option (Primitive ν) :=
  match target with
  | .primitive (.string text) => setting.primitives.ownOfString text key
  | _ => none

variable [NatCast ν]

def findProperty (heap : Heap ν) (target : Value ν) (key : String) : Option (Property ν) :=
  match ownOfString setting target key with
  | some own => some (.data (.primitive own) false true)
  | none => heap.lookup (holder setting target) key

def getProperty (target : Value ν) (key : String) : Run ν (Value ν) := do
  match ← read fun s => findProperty setting s.heap target key with
  | none => return .undefined
  | some (.data value _ _) => return value
  | some (.accessor none _ _) => return .undefined
  | some (.accessor (some get) _ _) => callFunction setting (.accessor key) get target []

def putProperty (target : Value ν) (key : String) (value : Value ν) : Run ν Unit := do
  match target with
  | .primitive _ => fail .engine
  | .object ref =>
    match ← read fun s => s.heap[ref]? with
    | none => fail .engine
    | some o =>
      if (o.own key).isSome || o.extensible then
        match o.put setting.primitives.lengthOf key value with
        | none => fail .engine
        | some o' => update fun s => { s with heap := s.heap.set ref o' }
      else fail .engine

def setProperty (target : Value ν) (key : String) (value : Value ν) : Run ν Unit := do
  match ← read fun s => findProperty setting s.heap target key with
  | some (.accessor _ (some set) _) => let _ ← callFunction setting (.accessor key) set target [value]
  | some (.accessor _ none _) => fail .engine
  | some (.data _ false _) => fail .engine
  | _ => putProperty setting target key value

inductive Hint where
  | string | number
  deriving DecidableEq

def convertBy (target : Value ν) : List String → Run ν (Primitive ν)
  | [] => fail .engine
  | name :: names => do
    let method ← getProperty setting target name
    match ← read fun s => functionOf s.heap method with
    | none => convertBy target names
    | some function =>
      match ← callFunction setting (.conversion name) function target [] with
      | .primitive value => return value
      | .object _ => convertBy target names

def toPrimitive (hint : Hint) (value : Value ν) : Run ν (Primitive ν) :=
  match value with
  | .primitive value => pure value
  | .object _ =>
    convertBy setting value (if hint = .string then ["toString", "valueOf"] else ["valueOf", "toString"])

/-- `String(value)` -/
def toText (value : Value ν) : Run ν String := do
  return setting.primitives.toText (← toPrimitive setting .string value)

def isTrue : Value ν → Bool
  | .object _ => true
  | .primitive .undefined | .primitive .null => false
  | .primitive (.boolean value) => value
  | .primitive (.number value) => setting.primitives.isTrue value
  | .primitive (.bigint value) => value ≠ 0
  | .primitive (.string value) => value ≠ ""

def typeOf (heap : Heap ν) : Value ν → String
  | .primitive .undefined => "undefined"
  | .primitive .null => "object"
  | .primitive (.boolean _) => "boolean"
  | .primitive (.number _) => "number"
  | .primitive (.bigint _) => "bigint"
  | .primitive (.string _) => "string"
  | .object ref => if heap[ref]?.any (·.callable) then "function" else "object"

def primitiveOr (result : Option (Primitive ν)) : Run ν (Value ν) :=
  match result with
  | some value => pure (.primitive value)
  | none => fail .engine

def visitUnaryExpression (operator : String) (arg : Value ν) : Run ν (Value ν) := do
  if operator = "-" ∨ operator = "+" then
    primitiveOr (setting.primitives.unary operator (← toPrimitive setting .number arg))
  else if operator = "!" then return .boolean (!isTrue setting arg)
  else if operator = "typeof" then return .string (typeOf (← read State.heap) arg)
  else if operator = "void" then return .undefined
  else fail (.unsupportedNode ("Unary operator " ++ operator))

def isString : Value ν → Bool
  | .primitive (.string _) => true
  | _ => false

/-- `===` is the operator on primitives, and on objects whether they are the same. -/
def strictEquals (left right : Value ν) : Run ν (Value ν) :=
  match left, right with
  | .primitive l, .primitive r => primitiveOr (setting.primitives.binary "===" l r)
  | .object l, .object r => pure (.boolean (l = r))
  | _, _ => pure (.boolean false)

/-- `==` converts an object that is compared with a primitive; `null` and `undefined` equal nothing else. -/
def looseEquals (left right : Value ν) : Run ν (Value ν) := do
  match left, right with
  | .object l, .object r => return .boolean (l = r)
  | left, right =>
    if left.isNullish != right.isNullish then return .boolean false
    else
      let l ← toPrimitive setting .number left
      let r ← toPrimitive setting .number right
      primitiveOr (setting.primitives.binary "==" l r)

def negate (value : Value ν) : Value ν := .boolean (!isTrue setting value)

def numericOperators : List String := ["-", "*", "/", "%", "**", "<", "<=", ">", ">="]

def visitBinaryExpression (operator : String) (left right : Value ν) : Run ν (Value ν) := do
  if operator = "+" then
    if isString left || isString right then
      let l ← toText setting left
      let r ← toText setting right
      return .string (l ++ r)
    else
      let l ← toPrimitive setting .number left
      let r ← toPrimitive setting .number right
      primitiveOr (setting.primitives.binary operator l r)
  else if operator ∈ numericOperators then
    let l ← toPrimitive setting .number left
    let r ← toPrimitive setting .number right
    primitiveOr (setting.primitives.binary operator l r)
  else if operator = "==" then looseEquals setting left right
  else if operator = "!=" then return negate setting (← looseEquals setting left right)
  else if operator = "===" then strictEquals setting left right
  else if operator = "!==" then return negate setting (← strictEquals setting left right)
  else fail (.unsupportedNode ("Binary operator " ++ operator))

def MAX_EVAL_DEPTH : Nat := 500

def namedCallee (name : String) : Run ν (Value ν) := do
  match setting.sdkFunctions.get name with
  | some function => return .object function
  | none =>
    let resolvedName ← read fun s => (s.renamedVariables.get name).getD name
    match ← read fun s => s.vars.get resolvedName with
    | some value => return value
    | none => fail (.unknownIdentifier name)

def methodNameOf : Expression ν → Except (InterpreterError ν) String
  | .identifier name => .ok name
  | .literal (.primitive (.string name)) => .ok name
  | _ => .error (.unsupportedNode "Dynamic method name")

def propertyNameOf (computed : Bool) (message : String) : Expression ν → Except (InterpreterError ν) String
  | .identifier name => if computed then .error (.unsupportedNode message) else .ok name
  | .literal value => .ok (value.text setting.primitives)
  | _ => .error (.unsupportedNode message)

def safeMethod (table : Nat) (methodName : String) : Run ν (Option (Value ν)) := do
  record fun _ => .fetches methodName
  let method ← getProperty setting (.object table) methodName
  return if isTrue setting method then some method else none

/-- `getSafeJSONMethod` -/
def getSafeJSONMethod (object : Expression ν) (methodName : String) : Run ν (Option (Value ν)) :=
  match object with
  | .identifier "JSON" => safeMethod setting setting.realm.safeJsonMethods methodName
  | _ => pure none

def getSafeStringMethod (value : Value ν) (methodName : String) : Run ν (Option (Value ν)) :=
  if isString value then safeMethod setting setting.realm.safeStringMethods methodName else pure none

/-- What an entry of a table is called with has no `this`. -/
def callSafeMethod (table : Nat) (methodName : String) (method : Value ν) (args : List (Value ν)) :
    Run ν (Value ν) := do
  match functionOf (← read State.heap) method with
  | some function => callFunction setting (.safeMethod table methodName) function .undefined args
  | none => fail .engine

def notAllowed (methodName : String) : InterpreterError ν :=
  .security methodName (some ("Method '" ++ methodName ++ "' is not an allowed SDK method. Allowed methods: " ++
    ", ".intercalate allowedMethodNames ++
    ". Native array/string methods are not available in SDK code; " ++
    "use a Code node or an n8n expression for runtime logic."))

def fetchMethod (thisArg : Value ν) (methodName : String) : Run ν (Value ν) := do
  if typeOf (← read State.heap) thisArg = "object" && isTrue setting thisArg then
    record fun _ => .fetches methodName
    getProperty setting thisArg methodName
  else return .undefined

def calledFunction (func : Value ν) : Run ν Nat := do
  match functionOf (← read State.heap) func with
  | some function => return function
  | none => fail (.interpreter "Cannot call non-function")

def nullishText : Value ν → String
  | .primitive .null => "null"
  | _ => "undefined"

def readMember (target : Value ν) (key : String) : Run ν (Value ν) := do
  record (.reads · target key)
  getProperty setting target key

def writeMember (target : Value ν) (key : String) (value : Value ν) : Run ν Unit := do
  record (.writes · target key)
  setProperty setting target key value

/-- `result[key] = value` in an object that is written down. -/
def defineMember (result : Value ν) (key : String) (value : Value ν) : Run ν Unit := do
  record fun _ => .defines key
  setProperty setting result key value

/-- `Object.assign(result, source)` -/
def copyMembers (result source : Value ν) : List String → Run ν Unit
  | [] => pure ()
  | key :: keys => do
    record (.copies · source key)
    let value ← getProperty setting source key
    defineMember setting result key value
    copyMembers result source keys

def spreadInto (result source : Value ν) : Run ν Unit := do
  match source with
  | .primitive _ => pure ()
  | .object ref =>
    match ← read fun s => s.heap[ref]? with
    | none => pure ()
    | some o => if o.callable then pure () else copyMembers setting result source o.enumerableKeys

def readElements (source : Value ν) (index : Nat) : (left : Nat) → Run ν (List (Value ν))
  | 0 => pure []
  | left + 1 => do
    let item ← readMember setting source (toString index)
    let items ← readElements source (index + 1) left
    return item :: items

def spreadItems (source : Value ν) : Run ν (List (Value ν)) := do
  match source with
  | .primitive _ => pure []
  | .object ref =>
    match ← read fun s => s.heap[ref]?.bind Object.length with
    | none => pure []
    | some length => readElements setting source 0 length

/-- The elements become properties in their order. -/
def arrayOf (items : List (Value ν)) : Object ν where
  origin := .program
  proto := some setting.realm.arrayPrototype
  properties := OrderedMap.ofList (items.zipIdx.map fun item => (toString item.2, .data item.1 true true))
  length := some items.length

def emptyObject : Object ν where
  origin := .program
  proto := some setting.realm.objectPrototype

def regExpObject : Object ν where
  origin := .program
  proto := some setting.realm.regExpPrototype
  properties := OrderedMap.ofList [("lastIndex", .data (.primitive (.number ((0 : Nat) : ν))) true false)]

def propertyKeyOf : Expression ν → Except (InterpreterError ν) String
  | .identifier name => .ok name
  | .literal (.primitive (.string name)) => .ok name
  | .literal (.primitive (.number value)) => .ok (setting.primitives.text value)
  | key => .error (.unsupportedNode ("Object key type " ++ key.type))

def constantNamed (name : String) : Option (Primitive ν) :=
  match name with
  | "undefined" => some .undefined
  | "null" => some .null
  | "true" => some (.boolean true)
  | "false" => some (.boolean false)
  | "NaN" => some (.number setting.primitives.nan)
  | "Infinity" => some (.number setting.primitives.infinity)
  | _ => none

def visitIdentifier (name : String) : Run ν (Value ν) := do
  let resolvedName ← read fun s => (s.renamedVariables.get name).getD name
  match ← read fun s => s.vars.get resolvedName with
  | some value => return value
  | none =>
    ofExcept (validateIdentifier name)
    match setting.sdkFunctions.get name with
    | some function => return .object function
    | none =>
      match constantNamed setting name with
      | some value => return .primitive value
      | none => fail (.unknownIdentifier name)

/-- Whether the right operand of `&&`, `||` or `??` counts. -/
def takesRight (operator : String) (left : Value ν) : Except (InterpreterError ν) Bool :=
  if operator = "&&" then .ok (isTrue setting left)
  else if operator = "||" then .ok (!isTrue setting left)
  else if operator = "??" then .ok left.isNullish
  else .error (.unsupportedNode ("Logical operator " ++ operator))

def tooDeep : InterpreterError ν :=
  .interpreter "Expression nesting too deep (possible cycle in method chain)"

def noSuper : InterpreterError ν := .unsupportedNode "super keyword is not supported in SDK code"

def Expression.isSuper : Expression ν → Bool
  | super => true
  | _ => false

/-- `evaluateTemplateExpression`: runtime variables are put back as text. -/
def textOf (node : Expression ν) (evaluation : Run ν (Value ν)) : Run ν String := do
  if isN8nRuntimeVariable node then
    return "$\x7b" ++ expressionToString setting.primitives setting.sourceText node ++ "\x7d"
  else toText setting (← evaluation)

/-- `depth` is `evalDepth`. -/
def visit (depth : Nat) (node : Expression ν) (evaluateNode : Run ν (Value ν)) : Run ν (Value ν) := do
  if MAX_EVAL_DEPTH ≤ depth then fail tooDeep
  else
    ofExcept (validateNodeType node.type)
    let value ← evaluateNode
    record (.gives · value)
    return value

mutual

def evaluate (depth : Nat) (node : Expression ν) : Run ν (Value ν) :=
  visit depth node <| match node with
    | .call (.identifier name) args => do
      ofExcept (validateCallExpression (.identifier name : Expression ν))
      let function ← calledFunction (← namedCallee setting name)
      callFunction setting (.named name) function .undefined (← evaluateAll (depth + 1) args)
    | .call (.member object property computed) args => do
      ofExcept (validateCallExpression (.member object property computed))
      ofExcept (validateMemberExpression property computed)
      if object.isSuper then fail noSuper
      else
        let methodName ← ofExcept (methodNameOf property)
        match ← getSafeJSONMethod setting object methodName with
        | some method =>
          callSafeMethod setting setting.realm.safeJsonMethods methodName method
            (← evaluateAll (depth + 1) args)
        | none =>
          let thisArg ← evaluate (depth + 1) object
          match ← getSafeStringMethod setting thisArg methodName with
          | some method =>
            callSafeMethod setting setting.realm.safeStringMethods methodName method
              (thisArg :: (← evaluateAll (depth + 1) args))
          | none =>
            if methodName ∈ ALLOWED_METHODS then
              let function ← calledFunction (← fetchMethod setting thisArg methodName)
              callFunction setting (.method methodName) function thisArg (← evaluateAll (depth + 1) args)
            else fail (notAllowed methodName)
    | .call callee _ => fail (.unsupportedNode ("Callee type " ++ callee.type))
    | .member object property computed => do
      ofExcept (validateMemberExpression property computed)
      if object.isSuper then fail noSuper
      else
        let obj ← evaluate (depth + 1) object
        if obj.isNullish then fail (.interpreter ("Cannot access property on " ++ nullishText obj))
        else
          let propName ← ofExcept (propertyNameOf setting computed "Dynamic property access" property)
          readMember setting obj propName
    | .object properties => do
      let result ← allocate (emptyObject setting)
      evaluateProperties (depth + 1) result properties
      return result
    | .array elements => do allocate (arrayOf setting (← evaluateElements (depth + 1) elements))
    | .identifier name => visitIdentifier setting name
    | .literal (.primitive value) => pure (.primitive value)
    | .literal (.regExp _ _) => allocate (regExpObject setting)
    | .template quasis expressions => do return .string (← evaluateTemplate (depth + 1) quasis expressions)
    | .spread argument => evaluate (depth + 1) argument
    | .unary operator argument => do visitUnaryExpression setting operator (← evaluate (depth + 1) argument)
    | .binary operator left right => do
      let l ← evaluate (depth + 1) left
      let r ← evaluate (depth + 1) right
      visitBinaryExpression setting operator l r
    | .logical operator left right => do
      let l ← evaluate (depth + 1) left
      if ← ofExcept (takesRight setting operator l) then evaluate (depth + 1) right else return l
    | .conditional test consequent alternate => do
      if isTrue setting (← evaluate (depth + 1) test) then evaluate (depth + 1) consequent
      else evaluate (depth + 1) alternate
    | .assignment operator left right => do
      if operator ≠ "=" then
        fail (.unsupportedNode
          ("Assignment operator '" ++ operator ++ "' is not allowed. Only '=' is permitted."))
      else
        match left with
        | .member object property computed => do
          ofExcept (validateMemberExpression property computed)
          if object.isSuper then fail noSuper
          else
            let obj ← evaluate (depth + 1) object
            if obj.isNullish then fail (.interpreter ("Cannot assign property on " ++ nullishText obj))
            else
              let propName ← ofExcept (propertyNameOf setting computed "Dynamic property assignment" property)
              let value ← evaluate (depth + 1) right
              writeMember setting obj propName value
              return value
        | _ => fail (.unsupportedNode ("Only property assignment (e.g., obj.prop = value) is allowed. " ++
            "Variable reassignment is not permitted."))
    | node => fail (.unsupportedNode node.type)

def evaluateAll (depth : Nat) : List (Expression ν) → Run ν (List (Value ν))
  | [] => pure []
  | node :: nodes => do
    let value ← evaluate depth node
    let values ← evaluateAll depth nodes
    return value :: values

def evaluateProperties (depth : Nat) (result : Value ν) : List (Expression ν) → Run ν Unit
  | [] => pure ()
  | .spread argument :: nodes => do
    spreadInto setting result (← evaluate depth argument)
    evaluateProperties depth result nodes
  | .property key value :: nodes => do
    let key ← ofExcept (propertyKeyOf setting key)
    defineMember setting result key (← evaluate depth value)
    evaluateProperties depth result nodes
  | _ :: nodes => evaluateProperties depth result nodes

def evaluateElements (depth : Nat) : List (Expression ν) → Run ν (List (Value ν))
  | [] => pure []
  | .hole :: nodes => do return .undefined :: (← evaluateElements depth nodes)
  | .spread argument :: nodes => do
    let items ← spreadItems setting (← evaluate depth argument)
    return items ++ (← evaluateElements depth nodes)
  | node :: nodes => do
    let value ← evaluate depth node
    return value :: (← evaluateElements depth nodes)

def evaluateTemplate (depth : Nat) : List String → List (Expression ν) → Run ν String
  | quasis, [] => pure (String.join quasis)
  | [], _ :: _ => pure ""
  | quasi :: quasis, node :: nodes => do
    let text ← textOf setting node (evaluate depth node)
    return quasi ++ text ++ (← evaluateTemplate depth quasis nodes)

end

/-- The first of `myName`, `myName1`, `myName2` and so on that is no variable and no SDK function. -/
def generateSafeName (s : State ν) (name : String) : String :=
  let candidate (counter : Nat) := "my" ++ name.capitalize ++ if counter = 0 then "" else toString counter
  let taken (counter : Nat) := s.vars.contains (candidate counter) || setting.sdkFunctions.contains (candidate counter)
  candidate (skipTaken taken (· + 1) (s.vars.size + setting.sdkFunctions.size) 0)

def reservedName (name : String) : InterpreterError ν :=
  .security name (some ("'" ++ name ++ "' is a reserved SDK function name and cannot be used as a variable name. " ++
    "Use a different name like 'my" ++ name.capitalize ++ "'."))

def evaluateInit (init : Option (Expression ν)) : Run ν (Value ν) :=
  match init with
  | some node => evaluate setting 0 node
  | none => pure .undefined

def visitDeclarator (declarator : Declarator ν) : Run ν Unit := do
  match declarator.id with
  | none => fail (.unsupportedNode "Destructuring in variable declaration")
  | some name =>
    if name ∈ ALLOWED_SDK_FUNCTIONS then
      if name ∈ AUTO_RENAMEABLE_SDK_FUNCTIONS then
        let safeName ← read fun s => generateSafeName setting s name
        let value ← evaluateInit setting declarator.init
        update fun s => { s with
          renamedVariables := s.renamedVariables.set name safeName
          vars := s.vars.set safeName value }
      else fail (reservedName name)
    else
      let value ← evaluateInit setting declarator.init
      update fun s => { s with vars := s.vars.set name value }

def visitVariableDeclaration (kind : String) (declarations : List (Declarator ν)) : Run ν Unit := do
  if kind ≠ "const" then
    fail (.security kind (some ("'" ++ kind ++ "' declarations are not allowed. Use 'const' only.")))
  else declarations.forM (visitDeclarator setting)

/-- `result` is the value of the last expression that stood alone. -/
def interpretFrom (result : Value ν) : List (Statement ν) → Run ν (Value ν)
  | [] => pure result
  | statement :: body => do
    ofExcept (validateNodeType statement.type)
    match statement with
    | .declaration kind declarations => do
      visitVariableDeclaration setting kind declarations
      interpretFrom result body
    | .expression expression => do interpretFrom (← evaluate setting 0 expression) body
    | .exportDefault declaration => evaluate setting 0 declaration
    | .other type => fail (.unsupportedNode type)

def interpret (body : List (Statement ν)) : Run ν (Value ν) := interpretFrom setting .undefined body

end

end NodeAutomation.SDKInterpreter
