import NodeAutomation.Workflow.FilterValues
import Mathlib.Data.List.Infix

/-! What the validation of a filter reports, beside what its execution rejects
(`validateFilterParameter`, `executeFilterCondition`). The parser of a condition gives its
failure back, and the validation waits for it to be thrown. -/

namespace NodeAutomation.FilterParameter

structure FilterError where
  message : String
  description : String

inductive Thrown where
  | filterError (error : FilterError)
  | other (error : JsError)

structure FilterOperatorValue where
  type : FilterOperatorType
  operation : String
  rightType : Option FilterOperatorType := none
  singleValue : Option Bool := none

structure FilterConditionValue (ν δ : Type) where
  leftValue : Operand ν δ
  operator : FilterOperatorValue
  rightValue : Operand ν δ

inductive TypeValidation where
  | strict
  | loose
  deriving DecidableEq, Repr

structure FilterOptionsValue where
  caseSensitive : Bool
  typeValidation : TypeValidation
  version : Option Nat

structure FilterValue (ν δ : Type) where
  options : FilterOptionsValue
  conditions : List (FilterConditionValue ν δ)

inductive ErrorFormat where
  | full
  | inline
  deriving DecidableEq, Repr

/-- `Partial<FilterConditionMetadata>`. -/
structure FilterConditionMetadata where
  index : Option Nat := none
  unresolvedExpressions : Option Bool := none
  itemIndex : Option Nat := none
  errorFormat : Option ErrorFormat := none

def withIndefiniteArticle (noun : String) : String :=
  let article := if (noun.toList.head?.map fun c => decide (c ∈ ['a', 'e', 'i', 'o', 'u'])).getD true
    then "an" else "a"
  article ++ " " ++ noun

section

variable (strict : Bool)

def composeInvalidTypeMessage (suffix type fromType value : String) : String :=
  if strict then
    "Wrong type: '" ++ value ++ "' is " ++ withIndefiniteArticle fromType ++ " but was expecting " ++
      withIndefiniteArticle type ++ " " ++ suffix
  else
    "Conversion error: the " ++ fromType ++ " '" ++ value ++ "' can't be converted to " ++
      withIndefiniteArticle type ++ " " ++ suffix

def getTypeDescription : String :=
  if strict then
    "Try changing the type of comparison. Alternatively you can enable 'Convert types where required'."
  else "Try changing the type of the comparison."

def convertionFunction : FilterOperatorType → String
  | .string => ".toString()"
  | .number => ".toNumber()"
  | .boolean => ".toBoolean()"
  | _ => ""

def composeInvalidTypeDescription (type : FilterOperatorType) (valuePosition : String) : String :=
  if strict ∧ convertionFunction type ≠ "" then
    "\n<p>Try either:</p>\n<ol>\n  <li>Enabling 'Convert types where required'</li>\n  <li>Converting the " ++
      valuePosition ++ " field to " ++ withIndefiniteArticle type.text ++ " by adding <code>" ++
      convertionFunction type ++ "</code></li>\n</ol>\n\t\t\t"
  else getTypeDescription strict

end

section

variable {ν δ : Type} (host : Host ν δ)

def isExpression : Operand ν δ → Bool
  | .string text => text.toList.head? = some '='
  | _ => false

def isUnresolved (metadata : FilterConditionMetadata) (value : Operand ν δ) : Bool :=
  metadata.unresolvedExpressions.getD false && isExpression value

def isStrict (options : FilterOptionsValue) : Bool := options.typeValidation = .strict

def rightType (condition : FilterConditionValue ν δ) : FilterOperatorType :=
  condition.operator.rightType.getD condition.operator.type

def parsedLeftValue (condition : FilterConditionValue ν δ) (options : FilterOptionsValue) : ValidationResult ν δ :=
  parseSingleFilterValue host condition.leftValue condition.operator.type (isStrict options)
    (options.version.getD 1)

def parsedRightValue (condition : FilterConditionValue ν δ) (options : FilterOptionsValue) : ValidationResult ν δ :=
  parseSingleFilterValue host condition.rightValue (rightType condition) (isStrict options)
    (options.version.getD 1)

def leftValid (condition : FilterConditionValue ν δ) (options : FilterOptionsValue)
    (metadata : FilterConditionMetadata) : Bool :=
  (parsedLeftValue host condition options).isValid || isUnresolved metadata condition.leftValue

def rightValid (condition : FilterConditionValue ν δ) (options : FilterOptionsValue)
    (metadata : FilterConditionMetadata) : Bool :=
  (parsedRightValue host condition options).isValid || condition.operator.singleValue.getD false ||
    isUnresolved metadata condition.rightValue

def ValidationResult.newValue : ValidationResult ν δ → Operand ν δ
  | valid newValue => newValue
  | invalid _ => .undefined

/-- The outer exception is thrown, the inner one is given back. -/
def parseFilterConditionValues (condition : FilterConditionValue ν δ) (options : FilterOptionsValue)
    (metadata : FilterConditionMetadata) :
    Except Thrown (Except FilterError (Operand ν δ × Operand ν δ)) := do
  let leftOk := leftValid host condition options metadata
  let rightOk := rightValid host condition options metadata
  let leftValueString ← (condition.leftValue.toText host).mapError .other
  let rightValueString ← (condition.rightValue.toText host).mapError .other
  let type := condition.operator.type
  let strict := isStrict options
  let item := (metadata.itemIndex.getD 0).repr
  let suffix := match metadata.errorFormat.getD .full with
    | .full => "[condition " ++ (metadata.index.getD 0).repr ++ ", item " ++ item ++ "]"
    | .inline => "[item " ++ item ++ "]"
  if !leftOk && !rightOk && condition.leftValue.typeof = condition.rightValue.typeof then
    return .error ⟨"Comparison type expects " ++ withIndefiniteArticle type.text ++
      " but both fields are " ++ withIndefiniteArticle condition.leftValue.typeof, getTypeDescription strict⟩
  else if !leftOk then
    return .error ⟨composeInvalidTypeMessage strict suffix type.text
        (host.toLocaleLowerCase condition.leftValue.typeof) leftValueString,
      composeInvalidTypeDescription strict type "first"⟩
  else if !rightOk then
    return .error ⟨composeInvalidTypeMessage strict suffix (rightType condition).text
        (host.toLocaleLowerCase condition.rightValue.typeof) rightValueString,
      composeInvalidTypeDescription strict (rightType condition) "second"⟩
  else
    return .ok ((parsedLeftValue host condition options).newValue,
      (parsedRightValue host condition options).newValue)

end

section

variable {ν δ : Type} (host : Host ν δ)

/-- `===`; two objects that were parsed on their own are never the same. -/
def strictEquals : Operand ν δ → Operand ν δ → Bool
  | .undefined, .undefined | .null, .null => true
  | .boolean a, .boolean b => a = b
  | .number a, .number b => host.equal a b
  | .string a, .string b => a = b
  | _, _ => false

def arrayContainsValue (array : List (Operand ν δ)) (value : Operand ν δ) (ignoreCase : Bool) : Bool :=
  match ignoreCase, value with
  | true, .string text => array.any fun
    | .string item => host.toLocaleLowerCase item = host.toLocaleLowerCase text
    | _ => false
  | _, value => array.any fun item => strictEquals host item value || item.isNaN host && value.isNaN host

/-- The parts of `/source/flags`, or the whole text with no flags. -/
def regexParts (pattern : String) : String × String :=
  match pattern.toList with
  | '/' :: rest =>
    let flags := (rest.reverse.takeWhile (· ≠ '/')).reverse
    match rest.reverse.dropWhile (· ≠ '/') with
    | _ :: source =>
      if flags.all (· ∈ ['g', 'i', 'm', 'u', 's', 'y']) ∧
          source.all (· ∉ ['\n', '\r', Char.ofNat 0x2028, Char.ofNat 0x2029]) then
        (String.ofList source.reverse, String.ofList flags)
      else (pattern, "")
    | [] => (pattern, "")
  | _ => (pattern, "")

/-- A pattern that is no text has no `match`. -/
def testPattern (pattern : Operand ν δ) (text : String) : Except Thrown Bool :=
  if !pattern.truthy host then (host.regexTest "" "" text).mapError .other
  else match pattern with
    | .string pattern =>
      (host.regexTest (regexParts pattern).1 (regexParts pattern).2 text).mapError .other
    | _ => .error (.other .typeError)

def compareNumbers (test : ν → ν → Bool) (left right : Operand ν δ) : Except Thrown Bool := do
  let left ← (left.toNumber host).mapError .other
  let right ← (right.toNumber host).mapError .other
  return test left right

def millis : Operand ν δ → Except Thrown ν
  | .dateTime date => .ok (host.toMillis date)
  | _ => .error (.other .typeError)

def compareMillis (test : ν → ν → Bool) (left right : Operand ν δ) : Except Thrown Bool := do
  let left ← millis host left
  let right ← millis host right
  return test left right

variable (operation : String) (ignoreCase there : Bool) (leftValue rightValue : Operand ν δ)

def lowered : Operand ν δ → Operand ν δ
  | .string text => .string (host.toLocaleLowerCase text)
  | value => value

def testText (test : List Char → List Char → Bool) (left : String) (right : Operand ν δ) : Except Thrown Bool := do
  let text ← (right.toText host).mapError .other
  return test text.toList left.toList

def compareTexts (left : String) (right : Operand ν δ) : Except Thrown Bool :=
  match operation with
  | "empty" => return left.toList.isEmpty
  | "notEmpty" => return !left.toList.isEmpty
  | "equals" => return strictEquals host (.string left) right
  | "notEquals" => return !strictEquals host (.string left) right
  | "contains" => testText host (fun part whole => part <:+: whole) left right
  | "notContains" => testText host (fun part whole => ¬ part <:+: whole) left right
  | "startsWith" => testText host (fun part whole => part <+: whole) left right
  | "notStartsWith" => testText host (fun part whole => ¬ part <+: whole) left right
  | "endsWith" => testText host (fun part whole => part <:+ whole) left right
  | "notEndsWith" => testText host (fun part whole => ¬ part <:+ whole) left right
  | "regex" => testPattern host right left
  | "notRegex" => (testPattern host right left).map (!·)
  | _ => return false

/-- What the parser made of the left value is a text or nothing. -/
def executeStrings : Except Thrown Bool :=
  let leftValue := if ignoreCase then lowered host leftValue else leftValue
  let rightValue :=
    if ignoreCase ∧ operation ≠ "regex" ∧ operation ≠ "notRegex" then lowered host rightValue else rightValue
  let left := match leftValue with
    | .string text => text
    | _ => ""
  compareTexts host operation left (if rightValue.isNullish then .string "" else rightValue)

def executeNumbers : Except Thrown Bool :=
  match operation with
  | "empty" => return !there
  | "notEmpty" => return there
  | "equals" => return strictEquals host leftValue rightValue
  | "notEquals" => return !strictEquals host leftValue rightValue
  | "gt" => compareNumbers host (fun left right => host.less right left) leftValue rightValue
  | "lt" => compareNumbers host host.less leftValue rightValue
  | "gte" => compareNumbers host (fun left right => host.lessOrEqual right left) leftValue rightValue
  | "lte" => compareNumbers host host.lessOrEqual leftValue rightValue
  | _ => return false

def executeDateTimes : Except Thrown Bool :=
  if operation = "empty" then return !there
  else if operation = "notEmpty" then return there
  else if !leftValue.truthy host || !rightValue.truthy host then return false
  else match operation with
    | "equals" => compareMillis host host.equal leftValue rightValue
    | "notEquals" => compareMillis host (fun left right => !host.equal left right) leftValue rightValue
    | "after" => compareMillis host (fun left right => host.less right left) leftValue rightValue
    | "before" => compareMillis host host.less leftValue rightValue
    | "afterOrEquals" => compareMillis host (fun left right => host.lessOrEqual right left) leftValue rightValue
    | "beforeOrEquals" => compareMillis host host.lessOrEqual leftValue rightValue
    | _ => return false

/-- What is given back for `true` is the left value itself, which is looked at as a boolean. -/
def executeBooleans : Bool :=
  match operation with
  | "empty" => !there
  | "notEmpty" => there
  | "true" => leftValue.truthy host
  | "false" => !leftValue.truthy host
  | "equals" => strictEquals host leftValue rightValue
  | "notEquals" => !strictEquals host leftValue rightValue
  | _ => false

def compareArrays (left : List (Operand ν δ)) (length : Operand ν δ) : Except Thrown Bool :=
  match operation with
  | "contains" => return arrayContainsValue host left rightValue ignoreCase
  | "notContains" => return !arrayContainsValue host left rightValue ignoreCase
  | "lengthEquals" => return strictEquals host length rightValue
  | "lengthNotEquals" => return !strictEquals host length rightValue
  | "lengthGt" => compareNumbers host (fun left right => host.less right left) length rightValue
  | "lengthLt" => compareNumbers host host.less length rightValue
  | "lengthGte" => compareNumbers host (fun left right => host.lessOrEqual right left) length rightValue
  | "lengthLte" => compareNumbers host host.lessOrEqual length rightValue
  | "empty" => return left.isEmpty
  | "notEmpty" => return !left.isEmpty
  | _ => return false

def executeArrays : Except Thrown Bool :=
  let left := match leftValue with
    | .array values => values
    | _ => []
  compareArrays host operation ignoreCase rightValue left (.number (host.ofNat left.length))

def executeObjects : Bool :=
  let empty := match leftValue with
    | .object fields => fields.isEmpty
    | value => !value.truthy host
  match operation with
  | "empty" => empty
  | "notEmpty" => !empty
  | _ => false

end

section

variable {ν δ : Type} (host : Host ν δ)

/-- Where no operation is found the source warns and gives `false`. -/
def executeParsed (operator : FilterOperatorValue) (ignoreCase : Bool) (leftValue rightValue : Operand ν δ) :
    Except Thrown Bool :=
  let there := !leftValue.isNullish && !leftValue.isNaN host
  let operation := operator.operation
  if operation = "exists" then return there
  else if operation = "notExists" then return !there
  else match operator.type with
    | .string => executeStrings host operation ignoreCase leftValue rightValue
    | .number => executeNumbers host operation there leftValue rightValue
    | .dateTime => executeDateTimes host operation there leftValue rightValue
    | .boolean => return executeBooleans host operation there leftValue rightValue
    | .array => executeArrays host operation ignoreCase leftValue rightValue
    | .object => return executeObjects host operation leftValue
    | .any => return false

def executeFilterCondition (condition : FilterConditionValue ν δ) (filterOptions : FilterOptionsValue)
    (metadata : FilterConditionMetadata) : Except Thrown Bool :=
  match parseFilterConditionValues host condition filterOptions metadata with
  | .error thrown => .error thrown
  | .ok (.error error) => .error (.filterError error)
  | .ok (.ok (leftValue, rightValue)) =>
    executeParsed host condition.operator (!filterOptions.caseSensitive) leftValue rightValue

abbrev Issues := OrderedMap String (List String)

/-- What an iteration makes of the issues: the parser's own exceptions are caught, and those that
are no `FilterError` are dropped. -/
def addIssues (name : String) (options : FilterOptionsValue) (issues : Issues)
    (condition : FilterConditionValue ν δ) (index : Nat) : Except JsError Issues :=
  let key := name ++ "." ++ index.repr
  match parseFilterConditionValues host condition options
      { index := some index, unresolvedExpressions := some true, errorFormat := some .inline } with
  | .ok _ => .ok issues
  | .error (.other _) => .ok issues
  | .error (.filterError error) => match issues.get key with
    | none => .error .typeError
    | some messages => .ok (issues.set key (messages ++ [error.message]))

def validateFilterParameter (name : String) (value : FilterValue ν δ) : Except JsError Issues :=
  value.conditions.zipIdx.foldlM
    (fun issues entry => addIssues host name value.options issues entry.1 entry.2) ∅

end

section

variable {α β : Type}

def NeverFilterError (result : Except Thrown α) : Prop := ∀ error, result ≠ .error (.filterError error)

theorem NeverFilterError.ok (a : α) : NeverFilterError (.ok a) := fun _ => nofun

theorem NeverFilterError.other (error : JsError) : NeverFilterError (.error (.other error) : Except Thrown α) :=
  fun _ => nofun

theorem NeverFilterError.mapError (result : Except JsError α) : NeverFilterError (result.mapError .other) := by
  cases result with
  | error error => exact .other error
  | ok a => exact .ok a

theorem NeverFilterError.bind {result : Except Thrown α} {next : α → Except Thrown β}
    (h : NeverFilterError result) (hnext : ∀ a, NeverFilterError (next a)) :
    NeverFilterError (result >>= next) := by
  cases result with
  | error thrown =>
    cases thrown with
    | filterError error => exact absurd rfl (h error)
    | other error => exact .other error
  | ok a => exact hnext a

theorem NeverFilterError.map {result : Except Thrown α} (h : NeverFilterError result) (f : α → β) :
    NeverFilterError (result.map f) := by
  cases result with
  | error thrown =>
    cases thrown with
    | filterError error => exact absurd rfl (h error)
    | other error => exact .other error
  | ok a => exact .ok (f a)

end

section

variable {ν δ : Type} (host : Host ν δ)

theorem testPattern_never (pattern : Operand ν δ) (text : String) :
    NeverFilterError (testPattern host pattern text) := by
  unfold testPattern
  split
  · exact .mapError _
  · cases pattern <;> first | exact .mapError _ | exact .other _

theorem compareNumbers_never (test : ν → ν → Bool) (left right : Operand ν δ) :
    NeverFilterError (compareNumbers host test left right) :=
  .bind (.mapError _) fun _ => .bind (.mapError _) fun _ => .ok _

theorem millis_never (value : Operand ν δ) : NeverFilterError (millis host value) := by
  cases value <;> first | exact .ok _ | exact .other _

theorem compareMillis_never (test : ν → ν → Bool) (left right : Operand ν δ) :
    NeverFilterError (compareMillis host test left right) :=
  .bind (millis_never host left) fun _ => .bind (millis_never host right) fun _ => .ok _

variable (operation : String) (ignoreCase there : Bool) (leftValue rightValue : Operand ν δ)

theorem testText_never (test : List Char → List Char → Bool) (left : String) (right : Operand ν δ) :
    NeverFilterError (testText host test left right) :=
  .bind (.mapError _) fun _ => .ok _

theorem compareTexts_never (left : String) (right : Operand ν δ) :
    NeverFilterError (compareTexts host operation left right) := by
  unfold compareTexts
  split <;> first
    | exact .ok _
    | exact testText_never host _ _ _
    | exact testPattern_never host _ _
    | exact (testPattern_never host _ _).map _

theorem executeNumbers_never : NeverFilterError (executeNumbers host operation there leftValue rightValue) := by
  unfold executeNumbers
  split <;> first
    | exact .ok _
    | exact compareNumbers_never host _ _ _

theorem executeDateTimes_never : NeverFilterError (executeDateTimes host operation there leftValue rightValue) := by
  unfold executeDateTimes
  split
  · exact .ok _
  split
  · exact .ok _
  split
  · exact .ok _
  split <;> first
    | exact .ok _
    | exact compareMillis_never host _ _ _

theorem compareArrays_never (left : List (Operand ν δ)) (length : Operand ν δ) :
    NeverFilterError (compareArrays host operation ignoreCase rightValue left length) := by
  unfold compareArrays
  split <;> first
    | exact .ok _
    | exact compareNumbers_never host _ _ _

theorem executeParsed_never (operator : FilterOperatorValue) :
    NeverFilterError (executeParsed host operator ignoreCase leftValue rightValue) := by
  unfold executeParsed
  dsimp only
  split
  · exact .ok _
  split
  · exact .ok _
  cases operator.type with
  | string => exact compareTexts_never host _ _ _
  | number => exact executeNumbers_never host _ _ _ _
  | dateTime => exact executeDateTimes_never host _ _ _ _
  | array => exact compareArrays_never host _ _ _ _ _
  | boolean | object | any => exact .ok _

end

section

variable {ν δ : Type} (host : Host ν δ)
variable (condition : FilterConditionValue ν δ) (options : FilterOptionsValue) (metadata : FilterConditionMetadata)

theorem parseFilterConditionValues_never :
    NeverFilterError (parseFilterConditionValues host condition options metadata) := by
  refine .bind (.mapError _) fun _ => .bind (.mapError _) fun _ => ?_
  dsimp only
  split
  · exact .ok _
  split
  · exact .ok _
  split
  · exact .ok _
  · exact .ok _

/-- The parser gives a failure back. -/
def Unparsable : Prop :=
  ∃ error, parseFilterConditionValues host condition options metadata = .ok (.error error)

def HasTexts : Prop :=
  (∃ text, condition.leftValue.toText host = .ok text) ∧ ∃ text, condition.rightValue.toText host = .ok text

theorem unparsable_iff : Unparsable host condition options metadata ↔
    HasTexts host condition ∧
      ¬ (leftValid host condition options metadata ∧ rightValid host condition options metadata) := by
  rw [Unparsable, HasTexts, parseFilterConditionValues]
  cases left : condition.leftValue.toText host with
  | error error => simp [Except.mapError, bind, Except.bind]
  | ok leftText =>
    cases right : condition.rightValue.toText host with
    | error error => simp [Except.mapError, bind, Except.bind]
    | ok rightText =>
      simp only [Except.mapError, bind, Except.bind]
      cases leftOk : leftValid host condition options metadata with
      | false => split <;> simp [pure, Except.pure]
      | true => cases rightOk : rightValid host condition options metadata <;> simp [pure, Except.pure]

theorem executeFilterCondition_throws_iff :
    (∃ error, executeFilterCondition host condition options metadata = .error (.filterError error)) ↔
      Unparsable host condition options metadata := by
  rw [Unparsable, executeFilterCondition]
  have never := parseFilterConditionValues_never host condition options metadata
  cases parsed : parseFilterConditionValues host condition options metadata with
  | error thrown =>
    refine iff_of_false ?_ (by simp)
    rintro ⟨error, same⟩
    cases same
    exact never error parsed
  | ok result =>
    cases result with
    | error error => simp
    | ok values =>
      refine iff_of_false ?_ (by simp)
      rintro ⟨error, same⟩
      exact executeParsed_never host _ _ _ _ error same

theorem addIssues_eq (name : String) (issues : Issues) (index : Nat) :
    addIssues host name options issues condition index = .ok issues := by
  rw [addIssues]
  have never := parseFilterConditionValues_never host condition options
    { index := some index, unresolvedExpressions := some true, errorFormat := some .inline }
  split
  · rfl
  · rfl
  case h_3 error thrown => exact absurd thrown (never error)

theorem validateFilterParameter_eq (name : String) (value : FilterValue ν δ) :
    validateFilterParameter host name value = .ok ∅ := by
  rw [validateFilterParameter]
  induction value.conditions.zipIdx with
  | nil => rfl
  | cons entry entries ih =>
    rw [List.foldlM_cons, addIssues_eq]
    exact ih

end

section

variable {ν δ : Type} (host : Host ν δ)

/-- The list under the condition's key is there, and not empty. -/
def Reported (name : String) (issues : Issues) (index : Nat) : Prop :=
  ∃ messages, issues.get (name ++ "." ++ index.repr) = some messages ∧ messages ≠ []

/-- Neither side is an expression. -/
def Literal (condition : FilterConditionValue ν δ) : Prop :=
  isExpression condition.leftValue = false ∧ isExpression condition.rightValue = false

/-- The validation ends, and reports the conditions that cannot be parsed once expressions are allowed,
which of those without expressions are the ones that an execution rejects. -/
def ReportsRejected (name : String) (value : FilterValue ν δ) : Prop :=
  ∃ issues, validateFilterParameter host name value = .ok issues ∧
    ∀ index condition, value.conditions[index]? = some condition →
      (Reported name issues index ↔
        Unparsable host condition value.options { unresolvedExpressions := some true }) ∧
      (Literal condition → ∀ itemIndex, Reported name issues index ↔
        ∃ error, executeFilterCondition host condition value.options { index := some index, itemIndex } =
          .error (.filterError error))

/-- Each side fits its type, or is an expression, or is not looked at. -/
def Accepted (options : FilterOptionsValue) (condition : FilterConditionValue ν δ) : Prop :=
  (Fits host condition.operator.type (isStrict options) (options.version.getD 1) condition.leftValue ∨
      isExpression condition.leftValue) ∧
    (Fits host (rightType condition) (isStrict options) (options.version.getD 1) condition.rightValue ∨
      condition.operator.singleValue = some true ∨ isExpression condition.rightValue)

theorem valid_iff_accepted (options : FilterOptionsValue) (condition : FilterConditionValue ν δ) :
    leftValid host condition options { unresolvedExpressions := some true } ∧
        rightValid host condition options { unresolvedExpressions := some true } ↔
      Accepted host options condition := by
  have single : condition.operator.singleValue.getD false = true ↔ condition.operator.singleValue = some true := by
    cases condition.operator.singleValue <;> simp
  simp only [leftValid, rightValid, Bool.or_eq_true, parsedLeftValue, parsedRightValue,
    parseSingleFilterValue_valid_iff, isUnresolved, Option.getD_some, Bool.true_and, single, or_assoc, Accepted]

theorem unparsable_of_literal {options : FilterOptionsValue} {condition : FilterConditionValue ν δ}
    (literal : Literal condition) (metadata metadata' : FilterConditionMetadata) :
    Unparsable host condition options metadata ↔ Unparsable host condition options metadata' := by
  simp only [unparsable_iff, leftValid, rightValid, isUnresolved, literal.1, literal.2, Bool.and_false]

/-- The validation reports what an execution would reject exactly when there is no such condition. -/
theorem validateFilterParameter_reports_iff (name : String) (value : FilterValue ν δ) :
    ReportsRejected host name value ↔
      ∀ condition ∈ value.conditions, Accepted host value.options condition ∨ ¬ HasTexts host condition := by
  have parses (condition : FilterConditionValue ν δ) :
      Accepted host value.options condition ∨ ¬ HasTexts host condition ↔
        ¬ Unparsable host condition value.options { unresolvedExpressions := some true } := by
    rw [unparsable_iff, valid_iff_accepted]
    tauto
  have unreported (index : Nat) : ¬ Reported name ∅ index := by
    rintro ⟨messages, found, -⟩
    cases found
  simp only [parses, ReportsRejected, validateFilterParameter_eq]
  constructor
  · rintro ⟨issues, same, reports⟩ condition member unparsable
    cases same
    obtain ⟨index, at_⟩ := List.mem_iff_getElem?.1 member
    exact unreported index ((reports index condition at_).1.2 unparsable)
  · intro accepted
    refine ⟨∅, rfl, fun index condition at_ => ?_⟩
    have fine := accepted condition (List.mem_of_getElem? at_)
    refine ⟨iff_of_false (unreported index) fine, fun literal itemIndex => ?_⟩
    rw [executeFilterCondition_throws_iff, unparsable_of_literal host literal _ { unresolvedExpressions := some true }]
    exact iff_of_false (unreported index) fine

end

def wholeNumbers : Host (Option Int) Empty where
  isNaN := Option.isNone
  nan := none
  ofNat n := some n
  equal a b := a.isSome && a = b
  less a b := (a.bind fun a => b.map fun b => decide (a < b)).getD false
  lessOrEqual a b := (a.bind fun a => b.map fun b => decide (a ≤ b)).getD false
  parseNumber text := text.toInt?
  numberText a := (a.map toString).getD "NaN"
  trim text := String.ofList
    ((text.toList.dropWhile Char.isWhitespace).reverse.dropWhile Char.isWhitespace).reverse
  toLowerCase := String.toLower
  toLocaleLowerCase := String.toLower
  stringify _ := ""
  parseJson _ := none
  parseJSObject _ := none
  isValid := nofun
  toMillis := nofun
  dateText := nofun
  fromISO _ := none
  fromHTTP _ := none
  fromRFC2822 _ := none
  fromSQL _ := none
  fromDateParse _ := none
  regexTest _ _ _ := .ok false

def textForNumber : FilterConditionValue (Option Int) Empty where
  leftValue := .string "abc"
  operator := { type := .number, operation := "equals" }
  rightValue := .number (some 5)

def strictFilter : FilterValue (Option Int) Empty where
  options := { caseSensitive := true, typeValidation := .strict, version := some 2 }
  conditions := [textForNumber]

/-- The execution rejects it, and nothing is reported. -/
theorem textForNumber_not_reported : ¬ ReportsRejected wholeNumbers "conditions" strictFilter := by
  rintro ⟨issues, same, reports⟩
  rw [validateFilterParameter_eq] at same
  cases same
  have texts : HasTexts wholeNumbers textForNumber := by
    simp [HasTexts, textForNumber, Operand.toText]
  have unparsable := (unparsable_iff wholeNumbers textForNumber strictFilter.options
    { unresolvedExpressions := some true }).2 ⟨texts, by decide⟩
  obtain ⟨messages, found, -⟩ := (reports 0 textForNumber rfl).1.2 unparsable
  cases found

end NodeAutomation.FilterParameter
