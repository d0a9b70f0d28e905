import Mathlib.Data.Rat.Init
import NodeAutomation.Lib.OrderedMap

/-! Lazy proxies (`packages/@n8n/expression-runtime/src/runtime/lazy-proxy.ts`): views of host data
inside an isolate, which ask the host for one value at a time (`getValueAtPath` and
`getArrayElement` of `bridge/isolated-vm-bridge.ts`) and keep the answers. -/

namespace NodeAutomation.ExpressionRuntime

/-- JSON data of the host. The fields of an object stand in the order of `Object.keys`. -/
inductive Json where
  | null
  | bool (value : Bool)
  | number (value : ℚ)
  | string (value : String)
  | array (values : List Json)
  | object (fields : List (String × Json))

/-- The names of the members of `Object.prototype`, in host and isolate. -/
def objectPrototype : List String :=
  ["constructor", "__defineGetter__", "__defineSetter__", "hasOwnProperty", "__lookupGetter__",
    "__lookupSetter__", "isPrototypeOf", "propertyIsEnumerable", "toString", "valueOf", "__proto__",
    "toLocaleString"]

def arrayPrototype : List String :=
  ["length", "constructor", "at", "concat", "copyWithin", "fill", "find", "findIndex", "findLast",
    "findLastIndex", "lastIndexOf", "pop", "push", "reverse", "shift", "unshift", "slice", "sort",
    "splice", "includes", "indexOf", "join", "keys", "entries", "values", "forEach", "filter", "flat",
    "flatMap", "map", "every", "some", "reduce", "reduceRight", "toReversed", "toSorted", "toSpliced",
    "toLocaleString", "toString", "with"]

def inheritedNames (isArray : Bool) : List String :=
  if isArray then arrayPrototype ++ objectPrototype else objectPrototype

/-- The index of an array that a property name spells: `'00'` and `'1.0'` spell none. -/
def arrayIndex (length : Nat) (prop : String) : Option Nat :=
  (List.range length).find? fun idx => toString idx = prop

/-- What reading a property gives: views are those of `γ`, members of a prototype are known by name. -/
inductive Value (γ : Type*) where
  | undefined
  | data (value : Json)
  | view (shown : γ)
  | inherited (name : String)

structure PropertyDescriptor (γ : Type*) where
  configurable : Bool
  enumerable : Bool
  writable : Bool
  value : Value γ

namespace Json

def keys (fields : List (String × Json)) : List String := fields.map Prod.fst

def isArray : Json → Bool
  | array _ => true
  | _ => false

/-- Arrays and objects. -/
def composite : Json → Bool
  | array _ | object _ => true
  | _ => false

def own : Json → String → Option Json
  | array values, key =>
    if key = "length" then some (number values.length) else (arrayIndex values.length key).bind (values[·]?)
  | object fields, key => OrderedMap.lookup key fields
  | _, _ => none

def inherits (value : Json) (key : String) : Bool := (inheritedNames value.isArray).contains key

def read (value : Json) : Value Json := if value.composite then .view value else .data value

/-- `value[key]` -/
def get (value : Json) (key : String) : Value Json :=
  match value.own key with
  | some member => member.read
  | none => if value.inherits key then .inherited key else .undefined

/-- `key in value` -/
def has (value : Json) (key : String) : Bool := (value.own key).isSome || value.inherits key

/-- `Reflect.ownKeys` -/
def ownKeys : Json → List String
  | array values => (List.range values.length).map toString ++ ["length"]
  | object fields => keys fields
  | _ => []

def getOwnPropertyDescriptor (value : Json) (key : String) : Option (PropertyDescriptor Json) :=
  (value.own key).map fun member =>
    if value.isArray ∧ key = "length" then ⟨false, false, true, member.read⟩ else ⟨true, true, true, member.read⟩

end Json

/-- The value that a path leads to. A path takes own properties only: the traps do not ask the host
for a name that they find on the prototype of their own target. -/
def navigate : Json → List String → Option Json
  | value, [] => some value
  | value, key :: path =>
    match value.own key with
    | none => none
    | some .null => some .null
    | some member => navigate member path

/-- What crosses to the isolate: arrays and objects are announced by markers. -/
def metadata : Json → Json
  | .array values =>
    .object [("__isArray", .bool true), ("__length", .number values.length), ("__data", .null)]
  | .object fields =>
    .object [("__isObject", .bool true), ("__keys", .array ((Json.keys fields).map .string))]
  | value => value

/-- `createGetValueAtPathRef`: nothing is `undefined`. There are no functions in the data, so that
`$item` and `$` are names like others. -/
def getValueAtPath (data : Json) (path : List String) : Option Json := (navigate data path).map metadata

/-- `createGetArrayElementRef` -/
def getArrayElement (data : Json) (path : List String) (index : Nat) : Option Json :=
  match navigate data path with
  | some (.array values) => values[index]?.map metadata
  | _ => none

namespace Json

def field (value : Json) (key : String) : Option Json :=
  match value with
  | object fields => OrderedMap.lookup key fields
  | _ => none

def isMarked (value : Json) (marker : String) : Bool :=
  match value.field marker with
  | some (bool true) => true
  | _ => false

def isObjectMetadata (value : Json) : Bool := value.isMarked "__isObject"

def isArrayMetadata (value : Json) : Bool := value.isMarked "__isArray"

def isErrorSentinel (value : Json) : Bool := value.isMarked "__isError"

def throwIfErrorSentinel (value : Json) : Except Json Unit :=
  if value.isErrorSentinel then .error value else .ok ()

/-- `value.__keys` -/
def metadataKeys (value : Json) : List String :=
  match value.field "__keys" with
  | some (array keys) => keys.filterMap fun
    | string key => some key
    | _ => none
  | _ => []

/-- `value.__length` -/
def metadataLength (value : Json) : Nat :=
  match value.field "__length" with
  | some (number length) => length.num.toNat
  | _ => 0

end Json

inductive ProxyMeta where
  | object (keys : Option (List String))
  | array (length : Nat)
  deriving DecidableEq

/-- A proxy with what its closure holds and the own properties of its target; proxies that the
target holds are known by their numbers. -/
structure Proxy where
  basePath : List String
  shape : ProxyMeta
  fetchedKeys : Option (List String) := none
  target : OrderedMap String (Value Nat) := ∅

/-- All proxies of a tree, the root first. -/
structure State where
  proxies : List Proxy

def createDeepLazyProxy (basePath : List String) (shape : ProxyMeta) : Proxy := { basePath, shape }

def createRoot (basePath : List String) (shape : Option ProxyMeta) : State :=
  ⟨[createDeepLazyProxy basePath (shape.getD (.object none))]⟩

namespace Proxy

def isArray (proxy : Proxy) : Bool :=
  match proxy.shape with
  | .array _ => true
  | .object _ => false

def arrayLength (proxy : Proxy) : Nat :=
  match proxy.shape with
  | .array length => length
  | .object _ => 0

def objectKeys (proxy : Proxy) : Option (List String) :=
  match proxy.shape with
  | .array _ => none
  | .object keys => keys

def isInArrayBounds (proxy : Proxy) (prop : String) : Option Nat := arrayIndex proxy.arrayLength prop

/-- `prop in targetObj`, with `targetObj[prop]` -/
def inTarget (proxy : Proxy) (prop : String) : Option (Value Nat) :=
  match proxy.target.get prop with
  | some value => some value
  | none => if (inheritedNames proxy.isArray).contains prop then some (.inherited prop) else none

end Proxy

def materializeChild (basePath : List String) (propOrIdx : String) (value : Option Json) :
    Except Json (Value Proxy) := do
  match value with
  | none => pure .undefined
  | some .null => pure (.data .null)
  | some value =>
    value.throwIfErrorSentinel
    if value.isArrayMetadata then
      pure (.view (createDeepLazyProxy (basePath ++ [propOrIdx]) (.array value.metadataLength)))
    else if value.isObjectMetadata then
      pure (.view (createDeepLazyProxy (basePath ++ [propOrIdx]) (.object (some value.metadataKeys))))
    else pure (.data value)

namespace State

/-- A proxy made by `materializeChild` takes the next number. -/
def allocate (s : State) : Value Proxy → Value Nat × State
  | .undefined => (.undefined, s)
  | .data value => (.data value, s)
  | .view proxy => (.view s.proxies.length, ⟨s.proxies ++ [proxy]⟩)
  | .inherited name => (.inherited name, s)

def setTarget (s : State) (number : Nat) (prop : String) (value : Value Nat) : State :=
  ⟨s.proxies.modify number fun proxy => { proxy with target := proxy.target.set prop value }⟩

/-- `targetObj[prop] = child` -/
def keep (s : State) (number : Nat) (prop : String) (child : Value Proxy) : Value Nat × State :=
  let (value, s) := s.allocate child
  (value, s.setTarget number prop value)

def resolveObjectKeys (data : Json) (s : State) (number : Nat) (proxy : Proxy) :
    Except Json (List String × State) := do
  match proxy.objectKeys, proxy.fetchedKeys with
  | some keys, _ => pure (keys, s)
  | none, some keys => pure (keys, s)
  | none, none =>
    match getValueAtPath data proxy.basePath with
    | none => pure ([], s)
    | some value =>
      value.throwIfErrorSentinel
      if value.isObjectMetadata then
        pure (value.metadataKeys,
          ⟨s.proxies.modify number fun proxy => { proxy with fetchedKeys := some value.metadataKeys }⟩)
      else pure ([], s)

def get (data : Json) (s : State) (number : Nat) (proxy : Proxy) (prop : String) :
    Except Json (Value Nat × State) := do
  if proxy.isArray ∧ prop = "length" then return (.data (.number proxy.arrayLength), s)
  match proxy.inTarget prop with
  | some value => pure (value, s)
  | none =>
    if proxy.isArray then
      match proxy.isInArrayBounds prop with
      | none => pure (.undefined, s)
      | some idx =>
        -- primitives skip `materializeChild`, which gives them back
        let child ← materializeChild proxy.basePath (toString idx) (getArrayElement data proxy.basePath idx)
        pure (s.keep number prop child)
    else
      let child ← materializeChild proxy.basePath prop (getValueAtPath data (proxy.basePath ++ [prop]))
      pure (s.keep number prop child)

def has (data : Json) (proxy : Proxy) (prop : String) : Except Json Bool := do
  if proxy.isArray then
    if prop = "length" then return true
    if (proxy.inTarget prop).isSome then return true
    return (proxy.isInArrayBounds prop).isSome
  if (proxy.inTarget prop).isSome then return true
  match getValueAtPath data (proxy.basePath ++ [prop]) with
  | none => pure false
  | some value =>
    value.throwIfErrorSentinel
    pure true

def ownKeys (data : Json) (s : State) (number : Nat) (proxy : Proxy) :
    Except Json (List String × State) :=
  if proxy.isArray then .ok ((List.range proxy.arrayLength).map toString ++ ["length"], s)
  else s.resolveObjectKeys data number proxy

/-- A descriptor without a value has `undefined` as its value. -/
def getOwnPropertyDescriptor (data : Json) (s : State) (number : Nat) (proxy : Proxy) (prop : String) :
    Except Json (Option (PropertyDescriptor Nat) × State) := do
  if proxy.isArray then
    if prop = "length" then return (some ⟨false, false, true, .data (.number proxy.arrayLength)⟩, s)
    if (proxy.isInArrayBounds prop).isSome then
      let (value, s) ← s.get data number proxy prop
      return (some ⟨true, true, false, value⟩, s)
    return (none, s)
  let (keys, s) ← s.resolveObjectKeys data number proxy
  if keys.contains prop then return (some ⟨true, true, false, .undefined⟩, s)
  return (none, s)

end State

inductive Operation where
  | get (prop : String)
  | has (prop : String)
  | ownKeys
  | getOwnPropertyDescriptor (prop : String)
  deriving DecidableEq

inductive Answer (γ : Type*) where
  | value (value : Value γ)
  | has (there : Bool)
  | keys (keys : List String)
  | descriptor (descriptor : Option (PropertyDescriptor γ))

def Json.answer (value : Json) : Operation → Answer Json
  | .get prop => .value (value.get prop)
  | .has prop => .has (value.has prop)
  | .ownKeys => .keys value.ownKeys
  | .getOwnPropertyDescriptor prop => .descriptor (value.getOwnPropertyDescriptor prop)

def State.answer (data : Json) (s : State) (number : Nat) (proxy : Proxy) :
    Operation → Except Json (Answer Nat × State)
  | .get prop => (s.get data number proxy prop).map fun result => (.value result.1, result.2)
  | .has prop => (State.has data proxy prop).map fun there => (.has there, s)
  | .ownKeys => (s.ownKeys data number proxy).map fun result => (.keys result.1, result.2)
  | .getOwnPropertyDescriptor prop =>
    (s.getOwnPropertyDescriptor data number proxy prop).map fun result => (.descriptor result.1, result.2)

/-- An operation on the proxy with a number. -/
structure Action where
  number : Nat
  operation : Operation
  deriving DecidableEq

def State.next (data : Json) (s : State) (action : Action) : State :=
  match s.proxies[action.number]? with
  | none => s
  | some proxy =>
    match s.answer data action.number proxy action.operation with
    | .ok (_, s) => s
    | .error _ => s

end NodeAutomation.ExpressionRuntime
