import NodeAutomation.Interfaces

/-! The values of a filter, and how they are parsed to the type of an operator
(`parseSingleFilterValue` with the part of `validateFieldType` it gets to). The numbers and
dates, and what the host does with them and with texts, are parameters. -/

namespace NodeAutomation.FilterParameter

inductive FilterOperatorType where
  | string
  | number
  | boolean
  | array
  | object
  | dateTime
  | any
  deriving DecidableEq, Repr

def FilterOperatorType.text : FilterOperatorType → String
  | string => "string"
  | number => "number"
  | boolean => "boolean"
  | array => "array"
  | object => "object"
  | dateTime => "dateTime"
  | any => "any"

/-- A side of a condition, over the numbers `ν` and luxon's dates `δ`. -/
inductive Operand (ν δ : Type) where
  | undefined
  | null
  | boolean (value : Bool)
  | number (value : ν)
  | string (value : String)
  | array (values : List (Operand ν δ))
  | object (fields : List (String × Operand ν δ))
  | dateTime (value : δ)

/-- What the host brings along. The readers of dates give the valid ones only. -/
structure Host (ν δ : Type) where
  isNaN : ν → Bool
  nan : ν
  ofNat : Nat → ν
  equal : ν → ν → Bool
  less : ν → ν → Bool
  lessOrEqual : ν → ν → Bool
  parseNumber : String → ν
  numberText : ν → String
  trim : String → String
  toLowerCase : String → String
  toLocaleLowerCase : String → String
  stringify : Operand ν δ → String
  parseJson : String → Option (Operand ν δ)
  parseJSObject : String → Option (Operand ν δ)
  isValid : δ → Bool
  toMillis : δ → ν
  dateText : δ → String
  fromISO : String → Option δ
  fromHTTP : String → Option δ
  fromRFC2822 : String → Option δ
  fromSQL : String → Option δ
  fromDateParse : String → Option δ
  regexTest : String → String → String → Except JsError Bool

variable {ν δ : Type}

inductive ValidationResult (ν δ : Type) where
  | valid (newValue : Operand ν δ)
  | invalid (errorMessage : String)

def ValidationResult.isValid : ValidationResult ν δ → Bool
  | valid _ => true
  | invalid _ => false

namespace Operand

def typeof : Operand ν δ → String
  | undefined => "undefined"
  | boolean _ => "boolean"
  | number _ => "number"
  | string _ => "string"
  | null | array _ | object _ | dateTime _ => "object"

def isNullish : Operand ν δ → Bool
  | undefined | null => true
  | _ => false

def isString : Operand ν δ → Bool
  | string _ => true
  | _ => false

def isBoolean : Operand ν δ → Bool
  | boolean _ => true
  | _ => false

def isNumber : Operand ν δ → Bool
  | number _ => true
  | _ => false

def isArray : Operand ν δ → Bool
  | array _ => true
  | _ => false

/-- lodash's `isObject`, which arrays are too. -/
def isObject : Operand ν δ → Bool
  | array _ | object _ | dateTime _ => true
  | _ => false

variable (host : Host ν δ)

def isNaN : Operand ν δ → Bool
  | number value => host.isNaN value
  | _ => false

def isBlank : Operand ν δ → Bool
  | string value => host.trim value = ""
  | _ => false

def isEmptyArray : Operand ν δ → Bool
  | array values => values.isEmpty
  | _ => false

/-- `Boolean(value)`. -/
def truthy : Operand ν δ → Bool
  | undefined | null => false
  | boolean value => value
  | number value => !(host.isNaN value || host.equal value (host.ofNat 0))
  | string value => value ≠ ""
  | array _ | object _ | dateTime _ => true

mutual

/-- `String(value)`. A field `toString` of an object is none that can be called. -/
def toText : Operand ν δ → Except JsError String
  | undefined => .ok "undefined"
  | null => .ok "null"
  | boolean value => .ok (if value then "true" else "false")
  | number value => .ok (host.numberText value)
  | string value => .ok value
  | array values => (joinedTexts values).map (",".intercalate ·)
  | object fields => if (fields.map (·.1)).contains "toString" then .error .typeError else .ok "[object Object]"
  | dateTime value => .ok (host.dateText value)

def joinedTexts : List (Operand ν δ) → Except JsError (List String)
  | [] => .ok []
  | value :: values => do
    let text ← if value.isNullish then .ok "" else toText value
    let texts ← joinedTexts values
    return text :: texts

end

/-- `Number(value)`. -/
def toNumber : Operand ν δ → Except JsError ν
  | undefined => .ok host.nan
  | null => .ok (host.ofNat 0)
  | boolean value => .ok (host.ofNat (if value then 1 else 0))
  | number value => .ok value
  | string value => .ok (host.parseNumber value)
  | array values => (toText host (array values)).map host.parseNumber
  | object fields => (toText host (object fields)).map host.parseNumber
  | dateTime value => .ok (host.toMillis value)

end Operand

section

variable (host : Host ν δ)

def tryToParseNumber (value : Operand ν δ) : Except JsError ν := do
  let number ← value.toNumber host
  if host.isNaN number then .error (.userError "Failed to parse value to number" none)
  else return number

def tryToParseString : Operand ν δ → String
  | .undefined => ""
  | .string value => value
  | .boolean value => if value then "true" else "false"
  | .number value => host.numberText value
  | value => host.stringify value

def booleanText : Operand ν δ → Option Bool
  | .string value =>
    if host.toLowerCase value = "true" then some true
    else if host.toLowerCase value = "false" then some false
    else none
  | _ => none

def notBoolean : JsError := .userError "Failed to parse value as boolean" none

def tryToParseBoolean (value : Operand ν δ) : Except JsError Bool :=
  match value, booleanText host value with
  | .boolean value, _ => .ok value
  | _, some value => .ok value
  | value, none =>
    if value.isBlank host then .error notBoolean
    else do
      let num ← value.toNumber host
      if host.equal num (host.ofNat 0) then .ok false
      else if host.equal num (host.ofNat 1) then .ok true
      else .error notBoolean

def parseDateTimeText (value : Operand ν δ) : Except JsError δ := do
  let text ← value.toText host
  let dateString := host.trim text
  match host.fromISO dateString <|> host.fromHTTP dateString <|> host.fromRFC2822 dateString <|>
      host.fromSQL dateString <|> host.fromDateParse dateString with
  | some date => .ok date
  | none => .error (.userError "Value is not a valid date" none)

def tryToParseDateTime : Operand ν δ → Except JsError δ
  | .dateTime date => if host.isValid date then .ok date else parseDateTimeText host (.dateTime date)
  | value => parseDateTimeText host value

/-- `text.replace(/'/g, '"')`. -/
def doubleQuoted (text : String) : String :=
  text.map fun c => if c = Char.ofNat 39 then Char.ofNat 34 else c

def notArray : JsError := .userError "Value is not a valid array" none

def tryToParseArray : Operand ν δ → Except JsError (List (Operand ν δ))
  | .array values => .ok values
  | value => match value.toText host with
    | .error _ => .error notArray
    | .ok text => match host.parseJson text <|> host.parseJson (doubleQuoted text) with
      | some (.array values) => .ok values
      | _ => .error notArray

def notObject : JsError := .userError "Value is not a valid object" none

/-- `null` is an object too when it comes from a text. -/
def tryToParseObject : Operand ν δ → Except JsError (Operand ν δ)
  | .object fields => .ok (.object fields)
  | .dateTime date => .ok (.dateTime date)
  | value => match value.toText host with
    | .error _ => .error notObject
    | .ok text => match host.parseJson text <|> host.parseJSObject text with
      | some o => if o.typeof ≠ "object" ∨ o.isArray then .error notObject else .ok o
      | none => .error notObject

def getValueDescription : Operand ν δ → String
  | .null => "'null'"
  | .array _ => "array"
  | .object _ | .dateTime _ => "object"
  | .undefined => "'undefined'"
  | .boolean value => if value then "'true'" else "'false'"
  | .number value => "'" ++ host.numberText value ++ "'"
  | .string value => "'" ++ value ++ "'"

/-- `try { return { valid: true, newValue } } catch { return { valid: false, errorMessage } }`. -/
def attempt (errorMessage : String) (newValue : Except JsError (Operand ν δ)) : ValidationResult ν δ :=
  match newValue with
  | .ok newValue => .valid newValue
  | .error _ => .invalid errorMessage

def validateFieldType (fieldName : String) (value : Operand ν δ) (type : FilterOperatorType)
    (strict parseStrings : Bool) : ValidationResult ν δ :=
  if value.isNullish then .valid .undefined
  else
    let defaultErrorMessage :=
      "'" ++ fieldName ++ "' expects a " ++ type.text ++ " but we got " ++ getValueDescription host value
    match type with
    | .string =>
      if !parseStrings then .valid value
      else if strict && !value.isString then .invalid defaultErrorMessage
      else .valid (.string (tryToParseString host value))
    | .number =>
      if strict && !value.isNumber then .invalid defaultErrorMessage
      else attempt defaultErrorMessage ((tryToParseNumber host value).map .number)
    | .boolean =>
      if strict && !value.isBoolean then .invalid defaultErrorMessage
      else attempt defaultErrorMessage ((tryToParseBoolean host value).map .boolean)
    | .dateTime =>
      attempt (defaultErrorMessage ++ " <br/><br/> Consider using <a href=\"" ++
          "https://moment.github.io/luxon/api-docs/index.html#datetimefromformat" ++
          "\" target=\"_blank\"><code>DateTime.fromFormat</code></a> to work with custom date formats.")
        ((tryToParseDateTime host value).map .dateTime)
    | .object =>
      if strict && !value.isObject then .invalid defaultErrorMessage
      else attempt defaultErrorMessage (tryToParseObject host value)
    | .array =>
      if strict && !value.isArray then .invalid defaultErrorMessage
      else attempt defaultErrorMessage ((tryToParseArray host value).map .array)
    | .any => .valid value

def parseSingleFilterValue (value : Operand ν δ) (type : FilterOperatorType) (strict : Bool)
    (version : Nat) : ValidationResult ν δ :=
  if type = .any ∨ value.isNullish then .valid value
  else if type = .boolean ∧ strict = false then
    if 2 ≤ version then
      match validateFieldType host "filter" value type false false with
      | .valid newValue => .valid newValue
      | .invalid _ => .valid (.boolean (value.truthy host))
    else .valid (.boolean (value.truthy host))
  else if type = .number ∧ value.isNaN host then .valid value
  else if type = .number ∧ (value.isBlank host ∨ value.isEmptyArray) ∧ 3 ≤ version then .valid .null
  else validateFieldType host "filter" value type strict true

def Fits (type : FilterOperatorType) (strict : Bool) (version : Nat) (value : Operand ν δ) : Prop :=
  value.isNullish ∨ match type with
    | .any => True
    | .string => strict → value.isString
    | .boolean => strict → value.isBoolean
    | .number => value.isNumber ∨ (value.isBlank host ∨ value.isEmptyArray) ∧ 3 ≤ version ∨
        strict = false ∧ ∃ number, value.toNumber host = .ok number ∧ host.isNaN number = false
    | .dateTime => ∃ date, tryToParseDateTime host value = .ok date
    | .object => (strict → value.isObject) ∧ ∃ o, tryToParseObject host value = .ok o
    | .array => value.isArray ∨ strict = false ∧ ∃ values, tryToParseArray host value = .ok values

variable {host}

@[simp] theorem attempt_isValid (errorMessage : String) (newValue : Except JsError (Operand ν δ)) :
    (attempt errorMessage newValue).isValid ↔ ∃ parsed, newValue = .ok parsed := by
  cases newValue <;> simp [attempt, ValidationResult.isValid]

@[simp] theorem exists_map_eq_ok {α β : Type} (f : α → β) (result : Except JsError α) :
    (∃ b, result.map f = .ok b) ↔ ∃ a, result = .ok a := by
  cases result <;> simp [Except.map]

theorem tryToParseNumber_ok_iff {value : Operand ν δ} : (∃ number, tryToParseNumber host value = .ok number) ↔
    ∃ number, value.toNumber host = .ok number ∧ host.isNaN number = false := by
  cases read : value.toNumber host with
  | error e => simp [tryToParseNumber, read, bind, Except.bind]
  | ok number =>
    cases nan : host.isNaN number <;>
      simp [tryToParseNumber, read, nan, bind, Except.bind, pure, Except.pure]

@[simp] theorem refused_isValid (refused : Bool) (errorMessage : String) (result : ValidationResult ν δ) :
    (if refused then .invalid errorMessage else result).isValid ↔ refused = false ∧ result.isValid := by
  cases refused <;> simp [ValidationResult.isValid]

@[simp] theorem valid_isValid (newValue : Operand ν δ) :
    (ValidationResult.valid newValue).isValid = true := rfl

theorem guard_iff (strict typed : Bool) : (strict && !typed) = false ↔ (strict → typed) := by
  cases strict <;> cases typed <;> simp

variable (value : Operand ν δ)

section

variable (there : value.isNullish = false)
include there

theorem number_valid_iff (strict : Bool) :
    (validateFieldType host "filter" value .number strict true).isValid ↔
      (strict → value.isNumber) ∧ ∃ number, value.toNumber host = .ok number ∧ host.isNaN number = false := by
  rw [← tryToParseNumber_ok_iff, validateFieldType]
  simp only [there, Bool.false_eq_true, if_false, refused_isValid, guard_iff, attempt_isValid, exists_map_eq_ok]

theorem boolean_valid_of_strict :
    (validateFieldType host "filter" value .boolean true true).isValid ↔ value.isBoolean := by
  rw [validateFieldType]
  simp only [there, Bool.false_eq_true, if_false, refused_isValid, guard_iff, attempt_isValid, exists_map_eq_ok,
    forall_const]
  constructor
  · exact fun h => h.1
  · intro truth
    cases value with
    | boolean value => exact ⟨truth, value, by rw [tryToParseBoolean]⟩
    | _ => cases truth

theorem array_valid_iff (strict : Bool) :
    (validateFieldType host "filter" value .array strict true).isValid ↔
      value.isArray ∨ strict = false ∧ ∃ values, tryToParseArray host value = .ok values := by
  rw [validateFieldType]
  simp only [there, Bool.false_eq_true, if_false, refused_isValid, guard_iff, attempt_isValid, exists_map_eq_ok]
  cases value with
  | array values => simp [Operand.isArray, tryToParseArray]
  | _ => cases strict <;> simp [Operand.isArray]

theorem string_valid_iff (strict : Bool) :
    (validateFieldType host "filter" value .string strict true).isValid ↔ (strict → value.isString) := by
  rw [validateFieldType]
  simp only [there, Bool.false_eq_true, if_false, Bool.not_true, refused_isValid, guard_iff, valid_isValid,
    and_true]

theorem dateTime_valid_iff (strict : Bool) :
    (validateFieldType host "filter" value .dateTime strict true).isValid ↔
      ∃ date, tryToParseDateTime host value = .ok date := by
  rw [validateFieldType]
  simp only [there, Bool.false_eq_true, if_false, attempt_isValid, exists_map_eq_ok]

theorem object_valid_iff (strict : Bool) :
    (validateFieldType host "filter" value .object strict true).isValid ↔
      (strict → value.isObject) ∧ ∃ o, tryToParseObject host value = .ok o := by
  rw [validateFieldType]
  simp only [there, Bool.false_eq_true, if_false, refused_isValid, guard_iff, attempt_isValid]

end

/-- The parser takes the values that fit, and no others. -/
theorem parseSingleFilterValue_valid_iff (type : FilterOperatorType) (strict : Bool) (version : Nat) :
    (parseSingleFilterValue host value type strict version).isValid ↔ Fits host type strict version value := by
  unfold parseSingleFilterValue Fits
  by_cases nullish : value.isNullish
  · simp only [nullish, or_true, if_true, valid_isValid, true_or]
  rw [Bool.not_eq_true] at nullish
  simp only [nullish, Bool.false_eq_true, or_false, false_or]
  cases type with
  | any => simp only [if_true, valid_isValid]
  | string => simp only [reduceCtorEq, false_and, if_false, string_valid_iff value nullish]
  | dateTime => simp only [reduceCtorEq, false_and, if_false, dateTime_valid_iff value nullish]
  | object => simp only [reduceCtorEq, false_and, if_false, object_valid_iff value nullish]
  | array => simp only [reduceCtorEq, false_and, if_false, array_valid_iff value nullish]
  | boolean =>
    cases strict with
    | true => simp only [reduceCtorEq, Bool.true_eq_false, and_false, false_and, if_false,
        boolean_valid_of_strict value nullish, forall_const]
    | false =>
      simp only [reduceCtorEq, and_self, if_true, if_false, Bool.false_eq_true, false_implies, iff_true]
      split
      · split <;> rfl
      · rfl
  | number =>
    simp only [reduceCtorEq, false_and, if_false, true_and]
    by_cases nan : value.isNaN host
    · have number : value.isNumber := by
        cases value <;> first | rfl | cases nan
      simp only [nan, if_true, valid_isValid, number, true_or]
    by_cases empty : (value.isBlank host ∨ value.isEmptyArray) ∧ 3 ≤ version
    · rw [if_neg nan, if_pos empty]
      exact iff_of_true rfl (.inr (.inl empty))
    rw [if_neg nan, if_neg empty, number_valid_iff value nullish]
    simp only [empty, false_or]
    constructor
    · rintro ⟨typed, read⟩
      cases strict with
      | true => exact .inl (typed rfl)
      | false => exact .inr ⟨rfl, read⟩
    · rintro (number | ⟨loose, read⟩)
      · refine ⟨fun _ => number, ?_⟩
        cases value with
        | number value => exact ⟨value, rfl, by simpa [Operand.isNaN] using nan⟩
        | _ => cases number
      · exact ⟨fun typed => absurd typed (by rw [loose]; exact Bool.false_ne_true), read⟩

end

end NodeAutomation.FilterParameter
