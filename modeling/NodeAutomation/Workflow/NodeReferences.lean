import NodeAutomation.Interfaces
import NodeAutomation.Lib.FreshSearch
import NodeAutomation.Workflow.AccessPatterns

/-! The references that an expression makes to nodes, and the variable each of
them stands for in a sub-workflow
(`packages/workflow/src/node-reference-parser-utils.ts`). -/

namespace NodeAutomation.NodeReferences
open AccessPatterns FreshSearch

structure ExpressionMapping where
  nodeNameInExpression : Option Text
  originalExpression : Text
  replacementPrefix : Text
  replacementName : Text
  deriving DecidableEq

/-- `\w` of a regular expression. -/
def isWord (c : Char) : Bool := c.isAlphanum || c = '_'

def DOT_REFERENCEABLE_JS_VARIABLE (part : Text) : Bool := part.any isWord

def INVALID_JS_DOT_PATH (c : Char) : Bool := !(c = '.' || isWord c || c = '$')

def INVALID_JS_DOT_NAME (c : Char) : Bool := !(isWord c || c = '$')

def literalAccessor (word text : Text) : Option Nat :=
  (startsWith? word text).map fun _ => word.length

def itemMatchingAccessor (text : Text) : Option Nat :=
  (startsWith? "itemMatching(".toList text).bind fun digits =>
    if (digits.takeWhile Char.isDigit).isEmpty then none
    else (startsWith? [')'] (digits.dropWhile Char.isDigit)).map fun rest =>
      text.length - rest.length

def ITEM_TO_DATA_ACCESSORS : List (Text → Option Nat) :=
  [literalAccessor "first()".toList, literalAccessor "last()".toList,
    literalAccessor "all()".toList, itemMatchingAccessor, literalAccessor "item".toList]

def ITEM_ACCESSORS : List Text := ["params".toList, "isExecuted".toList]

def DATA_ACCESSORS : List Text := ["json".toList, "binary".toList]

def decimal (number : Nat) : Text := (toString number).toList

def convertToUniqueJsDotName (nodeName : Text) (allNodeNames : List Text) : Text :=
  let jsLegal := (nodeName.map fun c => if c = ' ' then '_' else c).filter
    fun c => !INVALID_JS_DOT_NAME c
  if nodeName = jsLegal then jsLegal
  else
    let index := match allNodeNames.idxOf? nodeName with
      | some index => decimal index
      | none => ['-', '1']
    skipTaken (allNodeNames.contains ·) (· ++ '_' :: index) allNodeNames.length jsLegal

def convertDataAccessorName (name : Text) : Text :=
  let fnName := (name.splitOn '(').headD []
  let maybeDigits := (name.splitOn '(')[1]?
  let lower := fnName.map Char.toLower
  if lower = "item".toList then fnName
  else if lower = "first".toList ∨ lower = "last".toList then fnName ++ "Item".toList
  else if lower = "all".toList then fnName ++ "Items".toList
  else fnName ++ '_' :: (maybeDigits.map List.dropLast).getD "unknown".toList

def join (separator : Char) (parts : List Text) : Text := [separator].intercalate parts

section

variable (nodeNameInExpression nodeNamePlainJs : Option Text) (startNodeName exprStart : Text)

/-- `$json.valid.until`, up to the first part that is no dot access. -/
def jsonMapping (parts : List Text) : ExpressionMapping :=
  let valid := parts.takeWhile DOT_REFERENCEABLE_JS_VARIABLE
  { nodeNameInExpression := none
    originalExpression := exprStart ++ '.' :: join '.' (parts.take (valid.length + 1))
    replacementPrefix := exprStart
    replacementName := join '_' valid }

def accessorPrefix (accessor : Text) : Text :=
  if accessor = "all()".toList then "first()".toList else accessor

def startReference (accessor data : Text) : Text :=
  "$('".toList ++ startNodeName ++ "').".toList ++ accessor ++ '.' :: data

/-- The value of an accessor itself: `nodeName_firstItem` for `first()`. -/
def itemMapping (accessor : Text) : ExpressionMapping where
  nodeNameInExpression := nodeNameInExpression
  originalExpression := exprStart ++ '.' :: accessor
  replacementPrefix := startReference startNodeName (accessorPrefix accessor) "json".toList
  replacementName := nodeNamePlainJs.getD "null".toList ++ '_' :: convertDataAccessorName accessor

/-- A path into the data of an item, `path` being what follows `json` or `binary`. -/
def dataMapping (accessor data : Text) (path : List Text) : ExpressionMapping :=
  let valid := path.takeWhile DOT_REFERENCEABLE_JS_VARIABLE
  let replacementPostfix :=
    if accessor = "item".toList then [] else '_' :: convertDataAccessorName accessor
  { nodeNameInExpression := nodeNameInExpression
    originalExpression :=
      exprStart ++ '.' :: join '.' (accessor :: data :: path.take (valid.length + 1))
    replacementPrefix := startReference startNodeName (accessorPrefix accessor) data
    replacementName := join '_' valid ++ replacementPostfix }

/-- `params` and `isExecuted`. -/
def metadataMapping (accessor : Text) : ExpressionMapping where
  nodeNameInExpression := nodeNameInExpression
  originalExpression := exprStart ++ '.' :: accessor
  replacementPrefix := startReference startNodeName "first()".toList "json".toList
  replacementName := nodeNamePlainJs.getD "null".toList ++ '_' :: accessor

def parseParts (parts : List Text) : Option ExpressionMapping :=
  if exprStart = "$json".toList then some (jsonMapping exprStart parts)
  else match parts with
    | [] => none
    | accessor :: rest =>
      if ITEM_TO_DATA_ACCESSORS.any fun pattern => (pattern accessor).isSome then
        match rest with
        | [] => some (itemMapping nodeNameInExpression nodeNamePlainJs startNodeName exprStart accessor)
        | data :: path =>
          if DATA_ACCESSORS.contains data then
            some (dataMapping nodeNameInExpression startNodeName exprStart accessor data path)
          else
            some (itemMapping nodeNameInExpression nodeNamePlainJs startNodeName exprStart accessor)
      else if ITEM_ACCESSORS.contains accessor then
        some (metadataMapping nodeNameInExpression nodeNamePlainJs startNodeName exprStart accessor)
      else none

end

/-- A dot in the node's name does not end the name, nor does that of `$node.`. -/
def parseExpressionMapping (isolatedExpression : Text)
    (nodeNameInExpression nodeNamePlainJs : Option Text) (startNodeName : Text) :
    Option ExpressionMapping :=
  let splitExpr := isolatedExpression.splitOn '.'
  let dotsInName := (nodeNameInExpression.getD []).count '.'
  let dotInAccessorsOffset :=
    if (startsWith? "$node.".toList isolatedExpression).isSome then 1 else 0
  let start := dotInAccessorsOffset + dotsInName + 1
  parseParts nodeNameInExpression nodeNamePlainJs startNodeName
    (join '.' (splitExpr.take start)) (splitExpr.drop start)

/-- `endIndex` is one past the character after the reference to the node. -/
def extractExpressionCandidate (expression : Text) (startIndex endIndex : Nat) : Option Text :=
  let afterAccessor := match ITEM_TO_DATA_ACCESSORS.findSome? (· (expression.drop endIndex)) with
    | some length => endIndex + length
    | none => endIndex - 1
  -- a character that is no part of a path is passed over when a dot follows it
  let afterAccessor :=
    if expression[afterAccessor + 1]? = some '.' then afterAccessor + 1 else afterAccessor
  ((expression.drop afterAccessor).findIdx? INVALID_JS_DOT_PATH).map fun index =>
    (expression.take (afterAccessor + index)).drop startIndex

/-- `text.matchAll(regexp)`: the matches with their places. `skip` characters of
the last match are still to be passed over. -/
def matchAll {α : Type} (exec : Text → Option α) (length : α → Nat) :
    (index skip : Nat) → Text → List (Nat × α)
  | _, _, [] => []
  | index, skip + 1, _ :: text => matchAll exec length (index + 1) skip text
  | index, 0, c :: text => match exec (c :: text) with
    | none => matchAll exec length (index + 1) 0 text
    | some found => (index, found) :: matchAll exec length (index + 1) (length found - 1) text

section

variable (nodeNames : List Text) (startNodeName expression : Text)

def parseCandidateMatch (index : Nat) (found : AccessMatch) : Option ExpressionMapping :=
  if nodeNames.contains found.name then
    (extractExpressionCandidate expression index (index + found.text.length + 1)).bind
      fun candidate => parseExpressionMapping candidate (some found.name)
        (some (convertToUniqueJsDotName found.name nodeNames)) startNodeName
  else none

def parseJsonMatch (index length : Nat) : Option ExpressionMapping :=
  (extractExpressionCandidate expression index (index + length + 1)).bind
    fun candidate => parseExpressionMapping candidate none none startNodeName

def namesAt (text : Text) : List (Text × Text) :=
  nodeNames.filterMap fun name => (startsWith? name text).map (name, ·)

/-- `/\$json/i`. -/
def jsonReference (text : Text) : Option Nat :=
  if (text.take 5).map Char.toLower = "$json".toList then some 5 else none

def parseReferencingExpressions (parseJson : Bool) : List ExpressionMapping :=
  (ACCESS_PATTERNS.flatMap fun pattern =>
    if includes expression pattern.checkPattern then
      (matchAll (pattern.exec (namesAt nodeNames)) (·.text.length) 0 0 expression).filterMap
        fun (index, found) => parseCandidateMatch nodeNames startNodeName expression index found
    else []) ++
  if parseJson && includes expression "$json".toList then
    (matchAll jsonReference id 0 0 expression).filterMap
      fun (index, length) => parseJsonMatch startNodeName expression index length
  else []

end

/-! A variable's name has no dot, so the last dot of `prefix.name` parts the two. -/

theorem mem_of_mem_splitOn {separator c : Char} {text part : Text}
    (member : part ∈ text.splitOn separator) (inside : c ∈ part) : c ∈ text ∧ c ≠ separator := by
  induction text generalizing part with
  | nil =>
    rw [List.splitOn_nil, List.mem_singleton] at member
    simp [member] at inside
  | cons d text ih =>
    rw [List.splitOn_cons_eq_if_modifyHead] at member
    split at member
    · cases List.mem_cons.1 member with
      | inl first =>
        simp [first] at inside
      | inr later => exact (ih later inside).imp_left (List.mem_cons_of_mem d)
    · rename_i other
      cases pieces : text.splitOn separator with
      | nil => exact absurd pieces (List.splitOn_ne_nil separator text)
      | cons piece rest =>
        rw [pieces] at member ih
        rw [List.modifyHead_cons] at member
        cases List.mem_cons.1 member with
        | inl first =>
          rw [first] at inside
          cases List.mem_cons.1 inside with
          | inl here =>
            rw [here]
            exact ⟨List.mem_cons_self, fun same => other (by rw [same, beq_self_eq_true])⟩
          | inr after =>
            exact (ih List.mem_cons_self after).imp_left (List.mem_cons_of_mem d)
        | inr later =>
          exact (ih (List.mem_cons_of_mem piece later) inside).imp_left (List.mem_cons_of_mem d)

theorem not_mem_join {separator c : Char} {parts : List Text} (other : c ≠ separator)
    (absent : ∀ part ∈ parts, c ∉ part) : c ∉ join separator parts := by
  induction parts with
  | nil => exact List.not_mem_nil
  | cons part rest ih =>
    have here := absent part List.mem_cons_self
    have later := ih fun part member => absent part (List.mem_cons_of_mem _ member)
    cases rest with
    | nil => rwa [join, List.intercalate_singleton]
    | cons next rest =>
      rw [join, List.intercalate_cons_cons, List.mem_append, List.mem_append, List.mem_singleton]
      exact fun h => h.elim (fun h => h.elim here other) later

theorem not_mem_append {c : Char} {first second : Text} (h : c ∉ first) (h' : c ∉ second) :
    c ∉ first ++ second := fun member => (List.mem_append.1 member).elim h h'

theorem not_mem_underscore {text : Text} (h : '.' ∉ text) : '.' ∉ '_' :: text :=
  fun member => (List.mem_cons.1 member).elim (by decide) h

theorem dot_not_mem_decimal (number : Nat) : '.' ∉ decimal number := by
  intro member
  rw [decimal, Nat.toString_eq_repr, Nat.toList_repr] at member
  have digit := Nat.isDigit_of_mem_toDigits (by decide) (by decide) member
  exact absurd digit (by decide)

theorem dot_not_mem_convertToUniqueJsDotName (nodeName : Text) (allNodeNames : List Text) :
    '.' ∉ convertToUniqueJsDotName nodeName allNodeNames := by
  have legal : '.' ∉ (nodeName.map fun c => if c = ' ' then '_' else c).filter
      fun c => !INVALID_JS_DOT_NAME c := by
    intro member
    exact absurd (List.mem_filter.1 member).2 (by decide)
  rw [convertToUniqueJsDotName]
  split
  · exact legal
  · refine skipTaken_keeps (P := fun x => '.' ∉ x)
      (fun x undotted => not_mem_append undotted (not_mem_underscore ?_)) legal _
    split
    · exact dot_not_mem_decimal _
    · decide

theorem dot_not_mem_convertDataAccessorName {name : Text} (h : '.' ∉ name) :
    '.' ∉ convertDataAccessorName name := by
  have pieces : ∀ piece ∈ name.splitOn '(', '.' ∉ piece :=
    fun piece member inside => h (mem_of_mem_splitOn member inside).1
  have fnName : '.' ∉ (name.splitOn '(').headD [] := by
    cases split : name.splitOn '(' with
    | nil => exact List.not_mem_nil
    | cons piece rest => exact pieces piece (split ▸ List.mem_cons_self)
  have digits : '.' ∉ ((name.splitOn '(')[1]?.map List.dropLast).getD "unknown".toList := by
    cases second : (name.splitOn '(')[1]? with
    | none => decide
    | some piece =>
      exact fun member => pieces piece (List.mem_of_getElem? second) (List.dropLast_subset _ member)
  simp only [convertDataAccessorName]
  split
  · exact fnName
  split
  · exact not_mem_append fnName (by decide)
  split
  · exact not_mem_append fnName (by decide)
  · exact not_mem_append fnName (not_mem_underscore digits)

/-- What a parse gives: a name without a dot and an expression that is not empty. -/
structure ExpressionMapping.Readable (mapping : ExpressionMapping) : Prop where
  undotted : '.' ∉ mapping.replacementName
  nonempty : mapping.originalExpression ≠ []

section

variable {nodeNameInExpression nodeNamePlainJs : Option Text} {startNodeName exprStart : Text}
  {parts : List Text} {mapping : ExpressionMapping}

theorem readable_jsonMapping (undotted : ∀ part ∈ parts, '.' ∉ part) :
    (jsonMapping exprStart parts).Readable where
  undotted := not_mem_join (by decide) fun part member =>
    undotted part (List.takeWhile_subset _ member)
  nonempty := List.append_ne_nil_of_right_ne_nil _ (List.cons_ne_nil _ _)

theorem readable_itemMapping {accessor : Text} (plain : '.' ∉ nodeNamePlainJs.getD "null".toList)
    (undotted : '.' ∉ accessor) : (itemMapping nodeNameInExpression nodeNamePlainJs startNodeName
      exprStart accessor).Readable where
  undotted := not_mem_append plain
    (not_mem_underscore (dot_not_mem_convertDataAccessorName undotted))
  nonempty := List.append_ne_nil_of_right_ne_nil _ (List.cons_ne_nil _ _)

theorem readable_dataMapping {accessor data : Text} {path : List Text}
    (undotted : '.' ∉ accessor) (valid : ∀ part ∈ path, '.' ∉ part) :
    (dataMapping nodeNameInExpression startNodeName exprStart accessor data path).Readable where
  undotted := by
    refine not_mem_append (not_mem_join (by decide) fun part member =>
      valid part (List.takeWhile_subset _ member)) ?_
    split
    · exact List.not_mem_nil
    · exact not_mem_underscore (dot_not_mem_convertDataAccessorName undotted)
  nonempty := List.append_ne_nil_of_right_ne_nil _ (List.cons_ne_nil _ _)

section

variable (plain : '.' ∉ nodeNamePlainJs.getD "null".toList)
include plain

theorem readable_metadataMapping {accessor : Text} (undotted : '.' ∉ accessor) :
    (metadataMapping nodeNameInExpression nodeNamePlainJs startNodeName exprStart accessor).Readable
    where
  undotted := not_mem_append plain (not_mem_underscore undotted)
  nonempty := List.append_ne_nil_of_right_ne_nil _ (List.cons_ne_nil _ _)

theorem readable_parseParts
    (undotted : ∀ part ∈ parts, '.' ∉ part)
    (parsed : parseParts nodeNameInExpression nodeNamePlainJs startNodeName exprStart parts =
      some mapping) : mapping.Readable := by
  unfold parseParts at parsed
  split at parsed
  · exact Option.some.inj parsed ▸ readable_jsonMapping undotted
  split at parsed
  · cases parsed
  rename_i accessor rest
  obtain ⟨here, later⟩ := List.forall_mem_cons.1 undotted
  split at parsed
  · split at parsed
    · exact Option.some.inj parsed ▸ readable_itemMapping plain here
    · split at parsed
      · exact Option.some.inj parsed ▸ readable_dataMapping here (List.forall_mem_cons.1 later).2
      · exact Option.some.inj parsed ▸ readable_itemMapping plain here
  · split at parsed
    · exact Option.some.inj parsed ▸ readable_metadataMapping plain here
    · cases parsed

theorem readable_parseExpressionMapping {isolatedExpression : Text}
    (parsed : parseExpressionMapping isolatedExpression nodeNameInExpression nodeNamePlainJs
      startNodeName = some mapping) : mapping.Readable :=
  readable_parseParts plain (fun _ member inside =>
    (mem_of_mem_splitOn (List.mem_of_mem_drop member) inside).2 rfl) parsed

end

theorem readable_of_mem_parse {nodeNames : List Text} {expression : Text} {parseJson : Bool}
    (member : mapping ∈ parseReferencingExpressions nodeNames startNodeName expression parseJson) :
    mapping.Readable := by
  rw [parseReferencingExpressions, List.mem_append] at member
  cases member with
  | inl named =>
    obtain ⟨pattern, _, among⟩ := List.mem_flatMap.1 named
    split at among
    · obtain ⟨⟨index, found⟩, _, parsed⟩ := List.mem_filterMap.1 among
      simp only [parseCandidateMatch] at parsed
      split at parsed
      · obtain ⟨candidate, _, mapped⟩ := Option.bind_eq_some_iff.1 parsed
        have plain : '.' ∉ (some (convertToUniqueJsDotName found.name nodeNames)).getD
            "null".toList := dot_not_mem_convertToUniqueJsDotName found.name nodeNames
        exact readable_parseExpressionMapping plain mapped
      · cases parsed
    · cases among
  | inr direct =>
    split at direct
    · obtain ⟨⟨index, length⟩, _, parsed⟩ := List.mem_filterMap.1 direct
      obtain ⟨candidate, _, mapped⟩ := Option.bind_eq_some_iff.1 parsed
      exact readable_parseExpressionMapping (by decide) mapped
    · cases direct

end

example : (parseReferencingExpressions ["A".toList] "Start".toList
    "=\x7b\x7b $('A').first().json.a.b[0] + $json.c \x7d\x7d".toList true).map (·.replacementName) =
    ["a_b_firstItem".toList, "c".toList] := by decide

end NodeAutomation.NodeReferences
