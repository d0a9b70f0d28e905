import Mathlib.Data.List.Sort
import NodeAutomation.Workflow.NodeReferences

/-! `extractReferencesInNodeExpressions`
(`packages/workflow/src/node-reference-parser-utils.ts`): the references of a
subgraph to nodes outside it become variables of a sub-workflow. -/

namespace NodeAutomation.ExtractReferences
open AccessPatterns FreshSearch NodeReferences

inductive ParameterExtractMapping where
  | undefined
  | list (mappings : List ExpressionMapping)
  | object (fields : List (String × ParameterExtractMapping))

namespace ParameterExtractMapping

def getField (mapping : ParameterExtractMapping) (key : String) : ParameterExtractMapping :=
  match mapping with
  | object fields => (fields.lookup key).getD undefined
  | _ => undefined

end ParameterExtractMapping

section

variable (mapper : Text → List ExpressionMapping)

mutual

def applyParameterMapping (keyOfValue : String) :
    JsValue → ParameterExtractMapping × List ExpressionMapping
  | .string text =>
    if text.toList.head? = some '=' ∨ keyOfValue = "jsCode" then
      (.list (mapper text.toList), mapper text.toList)
    else (.undefined, [])
  | .array values =>
    (.object (applyParameterMappingToArray 0 values).1, (applyParameterMappingToArray 0 values).2)
  | .object fields =>
    (.object (applyParameterMappingToObject fields).1, (applyParameterMappingToObject fields).2)
  | .undefined => (.undefined, [])
  | .null => (.undefined, [])
  | .bool _ => (.undefined, [])
  | .number _ => (.undefined, [])

def applyParameterMappingToArray (index : Nat) :
    List JsValue → List (String × ParameterExtractMapping) × List ExpressionMapping
  | [] => ([], [])
  | value :: values =>
    ((toString index, (applyParameterMapping (toString index) value).1) ::
        (applyParameterMappingToArray (index + 1) values).1,
      (applyParameterMapping (toString index) value).2 ++
        (applyParameterMappingToArray (index + 1) values).2)

def applyParameterMappingToObject :
    List (String × JsValue) → List (String × ParameterExtractMapping) × List ExpressionMapping
  | [] => ([], [])
  | (key, value) :: fields =>
    ((key, (applyParameterMapping key value).1) :: (applyParameterMappingToObject fields).1,
      (applyParameterMapping key value).2 ++ (applyParameterMappingToObject fields).2)

end

end

/-- The key of `triggerArgumentMap`, which is also what replaces the expression. -/
def key (replacementPrefix replacementName : Text) : Text :=
  replacementPrefix ++ '.' :: replacementName

structure Resolved where
  triggerArgumentMap : OrderedMap Text ExpressionMapping
  originalExpressionMap : OrderedMap Text Text

def hasKeyAndCollides (triggerArgumentMap : OrderedMap Text ExpressionMapping)
    (mapping : ExpressionMapping) (name : Text) : Bool :=
  match triggerArgumentMap.get (key mapping.replacementPrefix name) with
  | none => false
  | some value => value ≠ mapping

def nameWithNode (allNodeNames : List Text)
    (triggerArgumentMap : OrderedMap Text ExpressionMapping) (mapping : ExpressionMapping) : Text :=
  match mapping.nodeNameInExpression with
  | none => mapping.replacementName
  | some nodeName =>
    if hasKeyAndCollides triggerArgumentMap mapping mapping.replacementName ∧ nodeName ≠ [] then
      convertToUniqueJsDotName nodeName allNodeNames ++ '_' :: mapping.replacementName
    else mapping.replacementName

def resolvedName (allNodeNames : List Text)
    (triggerArgumentMap : OrderedMap Text ExpressionMapping) (mapping : ExpressionMapping) : Text :=
  skipTaken (hasKeyAndCollides triggerArgumentMap mapping) (· ++ "_1".toList)
    triggerArgumentMap.size (nameWithNode allNodeNames triggerArgumentMap mapping)

def resolve (allNodeNames : List Text) (resolved : Resolved) (mapping : ExpressionMapping) :
    Resolved :=
  let name := resolvedName allNodeNames resolved.triggerArgumentMap mapping
  { triggerArgumentMap := resolved.triggerArgumentMap.set (key mapping.replacementPrefix name)
      { mapping with replacementName := name }
    originalExpressionMap := resolved.originalExpressionMap.set mapping.originalExpression
      (key mapping.replacementPrefix name) }

def resolveDuplicates (data : List ExpressionMapping) (allNodeNames : List Text) : Resolved :=
  data.foldl (resolve allNodeNames) ⟨∅, ∅⟩

def getCanonicalData (resolved : Resolved) (expression : Text) : Option ExpressionMapping :=
  (resolved.originalExpressionMap.get expression).bind resolved.triggerArgumentMap.get

/-- `length` of a string, in units of UTF-16. -/
def utf16Length (text : Text) : Nat :=
  (text.map fun c => if c.val < 0x10000 then 1 else 2).sum

section

variable (resolved : Resolved)

def sortByLength (mappings : List ExpressionMapping) : List ExpressionMapping :=
  mappings.insertionSort fun a b =>
    utf16Length b.originalExpression ≤ utf16Length a.originalExpression

mutual

def applyCanonicalMapping : ParameterExtractMapping → ParameterExtractMapping
  | .undefined => .undefined
  | .list mappings =>
    .list (sortByLength (mappings.filterMap fun e => getCanonicalData resolved e.originalExpression))
  | .object fields => .object (applyCanonicalMappingToFields fields)

def applyCanonicalMappingToFields :
    List (String × ParameterExtractMapping) → List (String × ParameterExtractMapping)
  | [] => []
  | (name, mapping) :: fields =>
    (name, applyCanonicalMapping mapping) :: applyCanonicalMappingToFields fields

end

end

/-- What `replaceAll` makes of the dollar signs in the text it is to write, for a
match with what stands before and after it. -/
def getSubstitution (matched before after : Text) : Text → Text
  | '$' :: '$' :: rest => '$' :: getSubstitution matched before after rest
  | '$' :: '&' :: rest => matched ++ getSubstitution matched before after rest
  | '$' :: '`' :: rest => before ++ getSubstitution matched before after rest
  | '$' :: '\'' :: rest => after ++ getSubstitution matched before after rest
  | c :: rest => c :: getSubstitution matched before after rest
  | [] => []

def places (text pattern : Text) : List (Nat × Text) :=
  matchAll (startsWith? pattern) (fun _ => pattern.length) 0 0 text

def replaceAt (text pattern replacement : Text) : (endOfLastMatch : Nat) → List (Nat × Text) → Text
  | endOfLastMatch, [] => text.drop endOfLastMatch
  | endOfLastMatch, (index, after) :: rest =>
    (text.take index).drop endOfLastMatch ++
      getSubstitution pattern (text.take index) after replacement ++
        replaceAt text pattern replacement (index + pattern.length) rest

def replaceAll (text pattern replacement : Text) : Text :=
  replaceAt text pattern replacement 0 (places text pattern)

structure Replacement where
  text : Text
  mapper : ExpressionMapping
  deriving DecidableEq

/-- The text afterwards and, for `usedMappings`, what was replaced. -/
def applyMappers : List ExpressionMapping → Text → Text × List Replacement
  | [], text => (text, [])
  | mapper :: mappers, text =>
    if includes text mapper.originalExpression then
      let replaced := replaceAll text mapper.originalExpression
        (key mapper.replacementPrefix mapper.replacementName)
      ((applyMappers mappers replaced).1, ⟨text, mapper⟩ :: (applyMappers mappers replaced).2)
    else applyMappers mappers text

mutual

def applyMapping (mapping : ParameterExtractMapping) : JsValue → JsValue × List Replacement
  | .string text => match mapping with
    | .list mappers =>
      (.string (String.ofList (applyMappers mappers text.toList).1),
        (applyMappers mappers text.toList).2)
    | _ => (.string text, [])
  | .array values => match mapping with
    | .object _ =>
      (.array (applyMappingToArray mapping 0 values).1, (applyMappingToArray mapping 0 values).2)
    | _ => (.array values, [])
  | .object fields => match mapping with
    | .object _ =>
      (.object (applyMappingToObject mapping fields).1, (applyMappingToObject mapping fields).2)
    | _ => (.object fields, [])
  | .undefined => (.undefined, [])
  | .null => (.null, [])
  | .bool value => (.bool value, [])
  | .number value => (.number value, [])

def applyMappingToArray (mapping : ParameterExtractMapping) (index : Nat) :
    List JsValue → List JsValue × List Replacement
  | [] => ([], [])
  | value :: values =>
    ((applyMapping (mapping.getField (toString index)) value).1 ::
        (applyMappingToArray mapping (index + 1) values).1,
      (applyMapping (mapping.getField (toString index)) value).2 ++
        (applyMappingToArray mapping (index + 1) values).2)

def applyMappingToObject (mapping : ParameterExtractMapping) :
    List (String × JsValue) → List (String × JsValue) × List Replacement
  | [] => ([], [])
  | (name, value) :: fields =>
    ((name, (applyMapping (mapping.getField name) value).1) ::
        (applyMappingToObject mapping fields).1,
      (applyMapping (mapping.getField name) value).2 ++ (applyMappingToObject mapping fields).2)

end

def applyExtractMappingToNode (node : INode) (mapping : ParameterExtractMapping) :
    INode × List Replacement :=
  ({ node with parameters := (applyMapping mapping node.parameters).1 },
    (applyMapping mapping node.parameters).2)

def SPLIT_OUT_NODE_TYPE : String := "n8n-nodes-base.splitOut"

/-- The characters that `trim` takes away. -/
def isSpace (c : Char) : Bool :=
  c ∈ ['\t', '\n', '\x0b', '\x0c', '\r', ' ', '\u00a0', '\u1680', '\u2028', '\u2029', '\u202f',
    '\u205f', '\u3000', '\ufeff'] || ('\u2000' ≤ c && c ≤ '\u200a')

def trim (text : Text) : Text := ((text.dropWhile isSpace).reverse.dropWhile isSpace).reverse

def hexDigit (number : Nat) : Char := "0123456789abcdef".toList.getD number '0'

/-- A character of a string as `JSON.stringify` writes it. -/
def jsonCharacter (c : Char) : Text :=
  if c = '"' ∨ c = '\\' then ['\\', c]
  else if c = '\x08' then ['\\', 'b']
  else if c = '\t' then ['\\', 't']
  else if c = '\n' then ['\\', 'n']
  else if c = '\x0c' then ['\\', 'f']
  else if c = '\r' then ['\\', 'r']
  else if c < ' ' then "\\u00".toList ++ [hexDigit (c.toNat / 16), hexDigit (c.toNat % 16)]
  else [c]

def stringify (names : List String) : String :=
  "[" ++ ",".intercalate (names.map fun name =>
    "\"" ++ String.ofList (name.toList.flatMap jsonCharacter) ++ "\"") ++ "]"

structure References where
  parameterTreeMappingByNode : OrderedMap String ParameterExtractMapping
  allData : List ExpressionMapping
  extraVariableCandidates : List ExpressionMapping

section

variable (subGraph : List INode) (nodeNames : List String) (insertedStartName : String)
  (graphInputNodeNames : List String)

def subGraphNames : List String := subGraph.map INode.name

def validateInputs : Except JsError Unit :=
  if (subGraphNames subGraph).contains insertedStartName then
    .error (.operationalError ("StartNodeName " ++ insertedStartName ++
      " already exists in nodeNames: " ++ stringify (subGraphNames subGraph)))
  else if (subGraphNames subGraph).any fun name => !nodeNames.contains name then
    .error (.operationalError
      ("extractReferencesInNodeExpressions called with node in subGraph " ++
        stringify (subGraphNames subGraph) ++ " whose name is not in provided 'nodeNames' list " ++
        stringify nodeNames ++ "."))
  else .ok ()

/-- Direct accesses with `$json` count in the input nodes of the graph only. -/
def parseOf (node : INode) (expression : Text) : List ExpressionMapping :=
  parseReferencingExpressions (nodeNames.map String.toList) insertedStartName.toList expression
    (graphInputNodeNames.contains node.name)

/-- The fields that a Split Out node at the start splits, as `$json` expressions. -/
def splitOutCandidates (node : INode) : Except JsError (List ExpressionMapping) :=
  if graphInputNodeNames.head? = some node.name ∧ node.type = SPLIT_OUT_NODE_TYPE then
    match node.parameters.getField "fieldToSplitOut" with
    | .string raw =>
      if trim raw.toList = [] then .ok []
      else if (trim raw.toList).head? = some '=' then
        .error (.operationalError
          ("Extracting sub-workflow from Split Out node with 'fieldToSplitOut' parameter having expression \"" ++
            String.ofList (trim raw.toList) ++ "\" is not supported."))
      else
        .ok (((trim raw.toList).splitOn ',').flatMap fun field =>
          parseOf nodeNames insertedStartName graphInputNodeNames node
            ("=\x7b\x7b$json.".toList ++ trim field ++ "\x7d\x7d".toList))
    | _ => .ok []
  else .ok []

def readNode (references : References) (node : INode) : Except JsError References :=
  let mapping := applyParameterMapping
    (parseOf nodeNames insertedStartName graphInputNodeNames node) "" node.parameters
  (splitOutCandidates nodeNames insertedStartName graphInputNodeNames node).map fun candidates =>
    { parameterTreeMappingByNode :=
        references.parameterTreeMappingByNode.set node.name mapping.1
      allData := references.allData ++ mapping.2
      extraVariableCandidates := references.extraVariableCandidates ++ candidates }

def readReferences : Except JsError References :=
  subGraph.foldlM (readNode nodeNames insertedStartName graphInputNodeNames) ⟨∅, [], []⟩

def dataFromOutsideSubgraph (references : References) : List ExpressionMapping :=
  (references.allData ++ references.extraVariableCandidates).filter fun mapping =>
    match mapping.nodeNameInExpression with
    | none => true
    | some name => name = [] || !((subGraphNames subGraph).map String.toList).contains name

def resolveReferences (references : References) : Resolved :=
  resolveDuplicates (dataFromOutsideSubgraph subGraph references) (nodeNames.map String.toList)

def addCandidate (resolved : Resolved) (used : List ExpressionMapping)
    (candidate : ExpressionMapping) : List ExpressionMapping :=
  match getCanonicalData resolved candidate.originalExpression with
  | none => used
  | some canonical =>
    if used.any fun mapping => mapping.replacementName = canonical.replacementName then used
    else used ++ [canonical]

/-- The function returns `nodes` and `variables`; `replacements` are those it
made in the nodes. -/
structure Extraction where
  nodes : List INode
  variableMap : OrderedMap Text Text
  replacements : List Replacement

def extract (references : References) : Extraction :=
  let resolved := resolveReferences subGraph nodeNames references
  let results := subGraph.map fun node => applyExtractMappingToNode node
    (applyCanonicalMapping resolved
      ((references.parameterTreeMappingByNode.get node.name).getD .undefined))
  let replacements := results.flatMap Prod.snd
  { nodes := results.map Prod.fst
    variableMap := .ofList ((references.extraVariableCandidates.foldl (addCandidate resolved)
      (replacements.map Replacement.mapper)).map
        fun mapping => (mapping.replacementName, mapping.originalExpression))
    replacements := replacements }

def extractReferencesInNodeExpressions : Except JsError Extraction :=
  (validateInputs subGraph nodeNames insertedStartName).bind fun _ =>
    (readReferences subGraph nodeNames insertedStartName graphInputNodeNames).map
      (extract subGraph nodeNames)

end

end NodeAutomation.ExtractReferences

/-- A string as `JSON.stringify` writes it. -/
def NodeAutomation.JsValue.quote (text : String) : String :=
  "\"" ++ String.ofList (text.toList.flatMap ExtractReferences.jsonCharacter) ++ "\""
