import NodeAutomation.Lib.JsHeap
import NodeAutomation.Workflow.ExtractReferences

/-! Programs of the workflow SDK, as syntax trees, and the checks that their interpreter makes
(`packages/@n8n/workflow-sdk/src/ast-interpreter/validators.ts`). -/

namespace NodeAutomation.SDKInterpreter

open JsHeap

inductive Literal (ν : Type) where
  | primitive (value : Primitive ν)
  | regExp (pattern flags : String)

/-- The nodes that the interpreter comes to where it evaluates. A `hole` is an element that is left out, a
`property` stands in an object, and any other node is known by its type. -/
inductive Expression (ν : Type) where
  | call (callee : Expression ν) (arguments : List (Expression ν))
  | member (object property : Expression ν) (computed : Bool)
  | object (properties : List (Expression ν))
  | property (key value : Expression ν)
  | array (elements : List (Expression ν))
  | hole
  | identifier (name : String)
  | literal (value : Literal ν)
  | template (quasis : List String) (expressions : List (Expression ν))
  | spread (argument : Expression ν)
  | unary (operator : String) (argument : Expression ν)
  | binary (operator : String) (left right : Expression ν)
  | logical (operator : String) (left right : Expression ν)
  | conditional (test consequent alternate : Expression ν)
  | assignment (operator : String) (left right : Expression ν)
  | super
  | other (type : String)

structure Declarator (ν : Type) where
  id : Option String
  init : Option (Expression ν) := none

inductive Statement (ν : Type) where
  | declaration (kind : String) (declarations : List (Declarator ν))
  | expression (expression : Expression ν)
  | exportDefault (declaration : Expression ν)
  | other (type : String)

variable {ν : Type}

def Expression.type : Expression ν → String
  | call .. => "CallExpression"
  | member .. => "MemberExpression"
  | object .. => "ObjectExpression"
  | property .. => "Property"
  | array .. => "ArrayExpression"
  | hole => "null"
  | identifier .. => "Identifier"
  | literal .. => "Literal"
  | template .. => "TemplateLiteral"
  | spread .. => "SpreadElement"
  | unary .. => "UnaryExpression"
  | binary .. => "BinaryExpression"
  | logical .. => "LogicalExpression"
  | conditional .. => "ConditionalExpression"
  | assignment .. => "AssignmentExpression"
  | super => "Super"
  | other type => type

def Statement.type : Statement ν → String
  | declaration .. => "VariableDeclaration"
  | expression .. => "ExpressionStatement"
  | exportDefault .. => "ExportDefaultDeclaration"
  | other type => type

/-- What is thrown, by the interpreter, by the engine or by a function that is called. The message of a
`SecurityError` is its detail, where it has one. -/
inductive InterpreterError (ν : Type) where
  | interpreter (message : String)
  | unsupportedNode (nodeType : String)
  | security (pattern : String) (detail : Option String := none)
  | unknownIdentifier (identifier : String)
  | engine
  | thrown (value : Value ν)

/-- Allowlist of SDK functions that can be called at the top level. -/
def ALLOWED_SDK_FUNCTIONS : List String :=
  ["workflow", "node", "trigger", "sticky", "placeholder", "newCredential", "ifElse", "switchCase", "merge",
    "splitInBatches", "nextBatch", "languageModel", "memory", "tool", "outputParser", "embedding", "embeddings",
    "vectorStore", "retriever", "documentLoader", "textSplitter", "reranker", "fromAi", "nodeJson"]

def AUTO_RENAMEABLE_SDK_FUNCTIONS : List String :=
  ["languageModel", "memory", "tool", "outputParser", "embedding", "embeddings", "vectorStore", "retriever",
    "documentLoader", "textSplitter", "reranker"]

inductive SdkMethodGroup where
  | workflow | node | controlFlow | connection | internal

structure SdkMethodSpec where
  name : String
  group : SdkMethodGroup
  isPublic : Bool := true

def SDK_METHODS : List SdkMethodSpec :=
  [⟨"add", .workflow, true⟩, ⟨"to", .workflow, true⟩, ⟨"group", .workflow, true⟩, ⟨"input", .node, true⟩,
    ⟨"output", .node, true⟩, ⟨"onError", .node, true⟩, ⟨"onTrue", .controlFlow, true⟩,
    ⟨"onFalse", .controlFlow, true⟩, ⟨"onCase", .controlFlow, true⟩, ⟨"onEachBatch", .controlFlow, true⟩,
    ⟨"onDone", .controlFlow, true⟩, ⟨"connect", .connection, true⟩, ⟨"toJSON", .internal, false⟩,
    ⟨"validate", .internal, false⟩]

def ALLOWED_METHODS : List String := SDK_METHODS.map SdkMethodSpec.name

def allowedMethodNames : List String := (SDK_METHODS.filter SdkMethodSpec.isPublic).map SdkMethodSpec.name

/-- The names of `BUILDER_BLOCKED_GLOBALS`. -/
def DANGEROUS_GLOBALS : List String :=
  ["eval", "Function", "require", "import", "process", "global", "globalThis", "window", "document", "setTimeout",
    "setInterval", "setImmediate", "clearTimeout", "clearInterval", "clearImmediate", "__dirname", "__filename",
    "module", "exports", "Buffer", "Reflect", "Proxy", "Object", "Array", "String", "Number", "Boolean", "Symbol",
    "BigInt", "JSON", "Math", "Date", "RegExp", "Promise", "WeakRef", "WeakMap", "WeakSet", "Map", "Set",
    "ArrayBuffer", "SharedArrayBuffer", "DataView", "Atomics", "WebAssembly", "fetch", "XMLHttpRequest",
    "queueMicrotask", "structuredClone", "Error", "TypeError", "RangeError", "console"]

def ALLOWED_NODE_TYPES : List String :=
  ["Program", "VariableDeclaration", "VariableDeclarator", "ExpressionStatement", "ExportDefaultDeclaration",
    "CallExpression", "MemberExpression", "ObjectExpression", "ArrayExpression", "Identifier", "Literal",
    "TemplateLiteral", "TemplateElement", "SpreadElement", "Property", "AssignmentExpression", "UnaryExpression",
    "BinaryExpression", "LogicalExpression", "ConditionalExpression"]

def FORBIDDEN_NODE_TYPES : List (String × String) :=
  [("ArrowFunctionExpression",
      "Arrow functions are not allowed. Use fromAi() directly instead of ($) => $.fromAi()"),
    ("FunctionExpression", "Function expressions are not allowed in SDK code"),
    ("FunctionDeclaration", "Function declarations are not allowed in SDK code"),
    ("ClassDeclaration", "Class declarations are not allowed in SDK code"),
    ("ClassExpression", "Class expressions are not allowed in SDK code"),
    ("ForStatement", "For loops are not allowed in SDK code"),
    ("ForInStatement", "For-in loops are not allowed in SDK code"),
    ("ForOfStatement", "For-of loops are not allowed in SDK code"),
    ("WhileStatement", "While loops are not allowed in SDK code"),
    ("DoWhileStatement", "Do-while loops are not allowed in SDK code"),
    ("TryStatement", "Try-catch is not allowed in SDK code"),
    ("ThrowStatement", "Throw statements are not allowed in SDK code"),
    ("WithStatement", "With statements are not allowed in SDK code"),
    ("UpdateExpression", "Update expressions (++, --) are not allowed in SDK code"),
    ("NewExpression", "new expressions are not allowed. Use SDK factory functions instead."),
    ("ImportDeclaration", "Import declarations are not allowed in SDK code"),
    ("ImportExpression", "Dynamic imports are not allowed in SDK code"),
    ("ExportNamedDeclaration", "Named exports are not allowed. Use export default only."),
    ("ExportAllDeclaration", "Re-exports are not allowed in SDK code"),
    ("AwaitExpression", "Await expressions are not allowed in SDK code"),
    ("YieldExpression", "Yield expressions are not allowed in SDK code")]

def validateNodeType (type : String) : Except (InterpreterError ν) Unit :=
  match FORBIDDEN_NODE_TYPES.lookup type with
  | some remediation => .error (.unsupportedNode (type ++ ": " ++ remediation))
  | none => if type ∈ ALLOWED_NODE_TYPES then .ok () else .error (.unsupportedNode type)

def validateIdentifier (name : String) : Except (InterpreterError ν) Unit :=
  if name ∈ DANGEROUS_GLOBALS then .error (.security name) else .ok ()

def validateCallExpression (callee : Expression ν) : Except (InterpreterError ν) Unit :=
  match callee with
  | .identifier name =>
    if name = "eval" then .error (.security "eval()")
    else if name = "Function" then .error (.security "Function()")
    else if name = "require" then .error (.security "require()")
    else .ok ()
  | .member _ (.identifier "constructor") _ => .error (.security "constructor access")
  | _ => .ok ()

def dangerousNames : List String := ["__proto__", "prototype", "constructor"]

def validatePropertyName (name : String) : Except (InterpreterError ν) Unit :=
  if name ∈ dangerousNames then .error (.security name) else .ok ()

def validateMemberExpression (property : Expression ν) (computed : Bool) : Except (InterpreterError ν) Unit :=
  match property with
  | .literal (.primitive (.string name)) => validatePropertyName name
  | .literal _ => .ok ()
  | .identifier name =>
    if computed then
      .error (.security "computed-member-access"
        (some "Dynamic property access is not allowed. Use static property names."))
    else validatePropertyName name
  | _ =>
    if computed then
      .error (.security "computed-member-access"
        (some "Dynamic property access is not allowed. Use static property names."))
    else .ok ()

def isN8nRuntimeVariable : Expression ν → Bool
  | .identifier name => name.startsWith "$"
  | .member object _ _ => isN8nRuntimeVariable object
  | .call (.identifier name) _ => name.startsWith "$"
  | .call (.member object _ _) _ => isN8nRuntimeVariable object
  | _ => false

/-- What the engine makes of primitives: the texts of numbers, the operators (`none` where they throw), what
a string has itself, and which lengths an array takes. No number has a text that leads to a prototype. -/
structure Primitives (ν : Type) where
  nan : ν
  infinity : ν
  isTrue : ν → Bool
  text : ν → String
  unary : String → Primitive ν → Option (Primitive ν)
  binary : String → Primitive ν → Primitive ν → Option (Primitive ν)
  ownOfString : String → String → Option (Primitive ν)
  lengthOf : Primitive ν → Option Nat
  text_harmless : ∀ n, text n ∉ dangerousNames

def Primitives.toText (primitives : Primitives ν) : Primitive ν → String
  | .undefined => "undefined"
  | .null => "null"
  | .boolean value => if value then "true" else "false"
  | .number value => primitives.text value
  | .bigint value => toString value
  | .string value => value

def Literal.text (primitives : Primitives ν) : Literal ν → String
  | .primitive value => primitives.toText value
  | .regExp pattern flags => "/" ++ pattern ++ "/" ++ flags

/-- `JSON.stringify` of a key; undefined, where the value is, is a text too. -/
def Literal.quoted (primitives : Primitives ν) : Literal ν → String
  | .primitive (.string value) => JsValue.quote value
  | .regExp _ _ => "\x7b\x7d"
  | value => value.text primitives

section

variable (primitives : Primitives ν) (sourceText : Expression ν → String)

mutual

/-- `sourceText` is what the source has at the place of a node that stands on one line. -/
def expressionToString : Expression ν → String
  | .identifier name => name
  | .member object property computed =>
    let text := expressionToString object
    if computed then
      match property with
      | .literal value => text ++ "[" ++ value.quoted primitives ++ "]"
      | property => text ++ "[" ++ expressionToString property ++ "]"
    else
      match property with
      | .identifier name => text ++ "." ++ name
      | _ => text ++ "."
  | .call callee arguments =>
    expressionToString callee ++ "(" ++ ", ".intercalate (expressionsToString arguments) ++ ")"
  | .literal (.primitive (.string value)) => JsValue.quote value
  | .literal value => value.text primitives
  | .binary operator left right | .logical operator left right =>
    expressionToString left ++ " " ++ operator ++ " " ++ expressionToString right
  | .conditional test consequent alternate =>
    expressionToString test ++ " ? " ++ expressionToString consequent ++ " : " ++ expressionToString alternate
  | .unary operator argument => operator ++ expressionToString argument
  | node => sourceText node

def expressionsToString : List (Expression ν) → List String
  | [] => []
  | .spread argument :: rest => ("..." ++ expressionToString argument) :: expressionsToString rest
  | argument :: rest => expressionToString argument :: expressionsToString rest

end

end

theorem toString_safe (n : Nat) : toString n ∉ dangerousNames := by
  have letters : ∀ name ∈ dangerousNames, name.toList.any fun c => !c.isDigit := by decide
  intro member
  obtain ⟨c, inside, letter⟩ := List.any_eq_true.1 (letters _ member)
  have digit : c.isDigit = true := by
    rw [Nat.toString_eq_repr, Nat.toList_repr] at inside
    exact Nat.isDigit_of_mem_toDigits (by decide) (by decide) inside
  simp [digit] at letter

theorem safe_of_first {text : String} {c : Char} {rest : List Char} (first : text.toList = c :: rest)
    (other : c ∉ ['_', 'p', 'c']) : text ∉ dangerousNames := by
  have starts : ∀ name ∈ dangerousNames, name.toList.head? ∈ ['_', 'p', 'c'].map some := by decide
  intro member
  obtain ⟨d, allowed, same⟩ := List.mem_map.1 (starts text member)
  rw [first] at same
  exact other (Option.some.inj same ▸ allowed)

theorem toString_int_safe (n : Int) : toString n ∉ dangerousNames := by
  cases n with
  | ofNat n => exact toString_safe n
  | negSucc n =>
    have text : (toString (Int.negSucc n)).toList = '-' :: (toString (n + 1)).toList := by
      simp [Int.repr]
    exact safe_of_first text (by decide)

theorem Literal.text_safe {value : Literal ν} (primitives : Primitives ν)
    (notString : ∀ name, value ≠ .primitive (.string name)) : value.text primitives ∉ dangerousNames := by
  match value with
  | .primitive .undefined => exact (by decide : "undefined" ∉ dangerousNames)
  | .primitive .null => exact (by decide : "null" ∉ dangerousNames)
  | .primitive (.boolean true) => exact (by decide : "true" ∉ dangerousNames)
  | .primitive (.boolean false) => exact (by decide : "false" ∉ dangerousNames)
  | .primitive (.number n) => exact primitives.text_harmless n
  | .primitive (.bigint n) => exact toString_int_safe n
  | .primitive (.string name) => exact absurd rfl (notString name)
  | .regExp pattern flags =>
    have text : (Literal.text primitives (.regExp pattern flags)).toList =
        '/' :: (pattern ++ "/" ++ flags).toList := by
      simp [Literal.text]
    exact safe_of_first text (by decide)

theorem validatePropertyName_safe {name : String}
    (valid : validatePropertyName name = (.ok () : Except (InterpreterError ν) Unit)) : name ∉ dangerousNames := by
  unfold validatePropertyName at valid
  split at valid
  · cases valid
  · assumption

theorem safe_of_validateMemberExpression {property : Expression ν} {computed : Bool} {name : String}
    (valid : validateMemberExpression property computed = .ok ())
    (named : property = .identifier name ∨ property = .literal (.primitive (.string name))) :
    name ∉ dangerousNames := by
  obtain rfl | rfl := named
  · rw [validateMemberExpression] at valid
    split at valid
    · cases valid
    · exact validatePropertyName_safe valid
  · exact validatePropertyName_safe valid

end NodeAutomation.SDKInterpreter
