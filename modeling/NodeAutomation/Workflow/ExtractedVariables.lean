import NodeAutomation.Lib.Fallible
import NodeAutomation.Workflow.ResolvedNames

/-! The variables of an extracted sub-workflow: the names are made distinct for
each prefix, the variables are kept by name alone. -/

namespace NodeAutomation.ExtractReferences
open AccessPatterns NodeReferences

section

variable {mapper : Text → List ExpressionMapping} {P : ExpressionMapping → Prop}

mutual

theorem mem_applyParameterMapping (parsed : ∀ expression, ∀ m ∈ mapper expression, P m)
    (keyOfValue : String) : ∀ (value : JsValue),
      ∀ m ∈ (applyParameterMapping mapper keyOfValue value).2, P m
  | .string text => by
    rw [applyParameterMapping]
    split
    · exact parsed text.toList
    · exact fun _ member => nomatch member
  | .array values => mem_applyParameterMappingToArray parsed 0 values
  | .object fields => mem_applyParameterMappingToObject parsed fields
  | .undefined => fun _ member => nomatch member
  | .null => fun _ member => nomatch member
  | .bool _ => fun _ member => nomatch member
  | .number _ => fun _ member => nomatch member

theorem mem_applyParameterMappingToArray (parsed : ∀ expression, ∀ m ∈ mapper expression, P m)
    (index : Nat) : ∀ (values : List JsValue),
      ∀ m ∈ (applyParameterMappingToArray mapper index values).2, P m
  | [] => fun _ member => nomatch member
  | value :: values => fun m member => (List.mem_append.1 member).elim
      (mem_applyParameterMapping parsed (toString index) value m)
      (mem_applyParameterMappingToArray parsed (index + 1) values m)

theorem mem_applyParameterMappingToObject (parsed : ∀ expression, ∀ m ∈ mapper expression, P m) :
    ∀ (fields : List (String × JsValue)),
      ∀ m ∈ (applyParameterMappingToObject mapper fields).2, P m
  | [] => fun _ member => nomatch member
  | (name, value) :: fields => fun m member => (List.mem_append.1 member).elim
      (mem_applyParameterMapping parsed name value m)
      (mem_applyParameterMappingToObject parsed fields m)

end

end

section

variable {subGraph : List INode} {nodeNames : List String} {insertedStartName : String}
  {graphInputNodeNames : List String} {references : References}

theorem readable_splitOutCandidates {node : INode} {candidates : List ExpressionMapping}
    (found : splitOutCandidates nodeNames insertedStartName graphInputNodeNames node =
      .ok candidates) : ∀ mapping ∈ candidates, mapping.Readable := by
  unfold splitOutCandidates at found
  split at found
  · split at found
    · split at found
      · cases found
        exact fun _ member => nomatch member
      split at found
      · cases found
      · cases found
        intro mapping member
        obtain ⟨field, _, among⟩ := List.mem_flatMap.1 member
        exact readable_of_mem_parse among
    · cases found
      exact fun _ member => nomatch member
  · cases found
    exact fun _ member => nomatch member

theorem readable_readReferences
    (read : readReferences subGraph nodeNames insertedStartName graphInputNodeNames =
      .ok references) :
    ∀ mapping ∈ references.allData ++ references.extraVariableCandidates, mapping.Readable := by
  refine Fallible.foldlM_kept (P := fun _ (references : References) =>
    ∀ mapping ∈ references.allData ++ references.extraVariableCandidates, mapping.Readable)
    read (fun _ member => nomatch member) ?_
  intro _ node before after _ kept went
  simp only [readNode] at went
  cases split : splitOutCandidates nodeNames insertedStartName graphInputNodeNames node with
  | error e =>
    rw [split] at went
    cases went
  | ok candidates =>
    rw [split] at went
    cases went
    intro mapping member
    cases List.mem_append.1 member with
    | inl data =>
      cases List.mem_append.1 data with
      | inl old => exact kept mapping (List.mem_append_left _ old)
      | inr new =>
        exact mem_applyParameterMapping (fun _ _ parsed => readable_of_mem_parse parsed) "" _ _ new
    | inr extra =>
      cases List.mem_append.1 extra with
      | inl old => exact kept mapping (List.mem_append_right _ old)
      | inr new => exact readable_splitOutCandidates split mapping new

theorem readable_dataFromOutsideSubgraph
    (read : readReferences subGraph nodeNames insertedStartName graphInputNodeNames =
      .ok references) :
    ∀ mapping ∈ dataFromOutsideSubgraph subGraph references, mapping.Readable :=
  fun mapping member => readable_readReferences read mapping (List.mem_filter.1 member).1

end

namespace ParameterExtractMapping

mutual

def All (P : ExpressionMapping → Prop) : ParameterExtractMapping → Prop
  | undefined => True
  | list mappings => ∀ mapping ∈ mappings, P mapping
  | object fields => AllFields P fields

def AllFields (P : ExpressionMapping → Prop) : List (String × ParameterExtractMapping) → Prop
  | [] => True
  | (_, mapping) :: fields => All P mapping ∧ AllFields P fields

end

theorem all_getField {P : ExpressionMapping → Prop} {mapping : ParameterExtractMapping}
    (all : mapping.All P) (name : String) : (mapping.getField name).All P := by
  cases mapping with
  | undefined => exact trivial
  | list mappings => exact trivial
  | object fields =>
    have among : AllFields P fields := all
    simp only [getField]
    induction fields with
    | nil => exact trivial
    | cons field fields ih =>
      rw [List.lookup_cons]
      split
      · exact among.1
      · exact ih among.2 among.2

end ParameterExtractMapping

mutual

theorem all_applyCanonicalMapping {resolved : Resolved} (keyed : Keyed resolved) :
    ∀ (mapping : ParameterExtractMapping), (applyCanonicalMapping resolved mapping).All
      fun m => getCanonicalData resolved m.originalExpression = some m
  | .undefined => trivial
  | .list mappings => by
    intro m member
    have among := (List.mem_insertionSort _).1 member
    obtain ⟨e, _, canonical⟩ := List.mem_filterMap.1 among
    rw [(getCanonicalData_eq_some keyed canonical).1]
    exact canonical
  | .object fields => all_applyCanonicalMappingToFields keyed fields

theorem all_applyCanonicalMappingToFields {resolved : Resolved} (keyed : Keyed resolved) :
    ∀ (fields : List (String × ParameterExtractMapping)),
      ParameterExtractMapping.AllFields
        (fun m => getCanonicalData resolved m.originalExpression = some m)
        (applyCanonicalMappingToFields resolved fields)
  | [] => trivial
  | (_, mapping) :: fields =>
    ⟨all_applyCanonicalMapping keyed mapping, all_applyCanonicalMappingToFields keyed fields⟩

end

section

variable {P : ExpressionMapping → Prop}

theorem mem_applyMappers {mappers : List ExpressionMapping} (all : ∀ m ∈ mappers, P m) (text : Text) :
    ∀ r ∈ (applyMappers mappers text).2,
      P r.mapper ∧ includes r.text r.mapper.originalExpression = true := by
  induction mappers generalizing text with
  | nil => exact fun _ member => nomatch member
  | cons mapper mappers ih =>
    obtain ⟨here, later⟩ := List.forall_mem_cons.1 all
    rw [applyMappers]
    split
    · rename_i found
      exact List.forall_mem_cons.2 ⟨⟨here, found⟩, ih later _⟩
    · exact ih later text

mutual

theorem mem_applyMapping {mapping : ParameterExtractMapping} (all : mapping.All P) :
    ∀ (value : JsValue), ∀ r ∈ (applyMapping mapping value).2,
      P r.mapper ∧ includes r.text r.mapper.originalExpression = true
  | .string text => by
    cases mapping with
    | list mappers => exact mem_applyMappers all text.toList
    | undefined => exact fun _ member => nomatch member
    | object _ => exact fun _ member => nomatch member
  | .array values => by
    cases mapping with
    | object _ => exact mem_applyMappingToArray all 0 values
    | undefined => exact fun _ member => nomatch member
    | list _ => exact fun _ member => nomatch member
  | .object fields => by
    cases mapping with
    | object _ => exact mem_applyMappingToObject all fields
    | undefined => exact fun _ member => nomatch member
    | list _ => exact fun _ member => nomatch member
  | .undefined => fun _ member => nomatch member
  | .null => fun _ member => nomatch member
  | .bool _ => fun _ member => nomatch member
  | .number _ => fun _ member => nomatch member

theorem mem_applyMappingToArray {mapping : ParameterExtractMapping} (all : mapping.All P)
    (index : Nat) : ∀ (values : List JsValue), ∀ r ∈ (applyMappingToArray mapping index values).2,
      P r.mapper ∧ includes r.text r.mapper.originalExpression = true
  | [] => fun _ member => nomatch member
  | value :: values => fun r member => (List.mem_append.1 member).elim
      (mem_applyMapping (mapping.all_getField all (toString index)) value r)
      (mem_applyMappingToArray all (index + 1) values r)

theorem mem_applyMappingToObject {mapping : ParameterExtractMapping} (all : mapping.All P) :
    ∀ (fields : List (String × JsValue)), ∀ r ∈ (applyMappingToObject mapping fields).2,
      P r.mapper ∧ includes r.text r.mapper.originalExpression = true
  | [] => fun _ member => nomatch member
  | (name, value) :: fields => fun r member => (List.mem_append.1 member).elim
      (mem_applyMapping (mapping.all_getField all name) value r)
      (mem_applyMappingToObject all fields r)

end

end

theorem includes_cons (c : Char) (text word : Text) :
    includes (c :: text) word = ((startsWith? word (c :: text)).isSome || includes text word) := by
  rw [includes, List.tails, List.any_cons, includes]

theorem matchAll_ne_nil {text pattern : Text} (found : includes text pattern = true)
    (nonempty : pattern ≠ []) (length : Text → Nat) (index : Nat) :
    matchAll (startsWith? pattern) length index 0 text ≠ [] := by
  induction text generalizing index with
  | nil =>
    cases pattern with
    | nil => exact absurd rfl nonempty
    | cons c pattern => cases found
  | cons c text ih =>
    rw [matchAll]
    split
    · rename_i absent
      rw [includes_cons, absent] at found
      exact ih found (index + 1)
    · exact List.cons_ne_nil _ _

def Replacement.writtenNames (replacement : Replacement) : List Text :=
  (places replacement.text replacement.mapper.originalExpression).map fun place =>
    getSubstitution replacement.mapper.originalExpression (replacement.text.take place.1) place.2
      replacement.mapper.replacementName

def NamesItsExpression (extraction : Extraction) : Prop :=
  ∀ replacement ∈ extraction.replacements, ∀ name ∈ replacement.writtenNames,
    extraction.variableMap.get name = some replacement.mapper.originalExpression

instance (extraction : Extraction) : Decidable (NamesItsExpression extraction) :=
  inferInstanceAs (Decidable (∀ replacement ∈ extraction.replacements,
    ∀ name ∈ replacement.writtenNames,
      extraction.variableMap.get name = some replacement.mapper.originalExpression))

def Replacement.nameAlone (data : List ExpressionMapping) (allNodeNames : List Text)
    (replacement : Replacement) : Option Text :=
  nameAmong replacement.mapper.replacementPrefix data allNodeNames
    replacement.mapper.originalExpression

/-- The names under two prefixes differ, and `replaceAll` reads no pattern into
them. -/
structure NamesApart (data : List ExpressionMapping) (allNodeNames : List Text)
    (replacements : List Replacement) : Prop where
  apart : ∀ r ∈ replacements, ∀ s ∈ replacements,
    r.mapper.replacementPrefix ≠ s.mapper.replacementPrefix →
      r.nameAlone data allNodeNames ≠ s.nameAlone data allNodeNames
  verbatim : ∀ r ∈ replacements, ∀ place ∈ places r.text r.mapper.originalExpression,
    (r.nameAlone data allNodeNames).map
      (getSubstitution r.mapper.originalExpression (r.text.take place.1) place.2) =
        r.nameAlone data allNodeNames

section

variable {resolved : Resolved} {used candidates : List ExpressionMapping}

theorem mem_addCandidate (keyed : Keyed resolved) {candidate mapping : ExpressionMapping}
    (member : mapping ∈ addCandidate resolved used candidate) :
    mapping ∈ used ∨ getCanonicalData resolved mapping.originalExpression = some mapping ∧
      ∀ m ∈ used, m.replacementName ≠ mapping.replacementName := by
  rw [addCandidate] at member
  split at member
  · exact Or.inl member
  rename_i canonical found
  split at member
  · exact Or.inl member
  rename_i unused
  cases List.mem_append.1 member with
  | inl old => exact Or.inl old
  | inr new =>
    rw [List.mem_singleton] at new
    rw [new, (getCanonicalData_eq_some keyed found).1]
    refine Or.inr ⟨found, fun m before same => unused ?_⟩
    exact List.any_eq_true.2 ⟨m, before, decide_eq_true same⟩

theorem subset_addCandidate (candidate : ExpressionMapping) :
    used ⊆ addCandidate resolved used candidate := by
  rw [addCandidate]
  split
  · exact List.Subset.refl used
  split
  · exact List.Subset.refl used
  · exact List.subset_append_left _ _

theorem mem_addCandidates (keyed : Keyed resolved) {mapping : ExpressionMapping}
    (member : mapping ∈ candidates.foldl (addCandidate resolved) used) :
    mapping ∈ used ∨ getCanonicalData resolved mapping.originalExpression = some mapping ∧
      ∀ m ∈ used, m.replacementName ≠ mapping.replacementName := by
  induction candidates generalizing used with
  | nil => exact Or.inl member
  | cons candidate candidates ih =>
    cases ih member with
    | inl early => exact mem_addCandidate keyed early
    | inr late => exact Or.inr ⟨late.1, fun m before => late.2 m (subset_addCandidate candidate before)⟩

theorem subset_addCandidates : used ⊆ candidates.foldl (addCandidate resolved) used := by
  induction candidates generalizing used with
  | nil => exact List.Subset.refl used
  | cons candidate candidates ih => exact List.Subset.trans (subset_addCandidate candidate) ih

end

section

variable {subGraph : List INode} {nodeNames : List String} {insertedStartName : String}
  {graphInputNodeNames : List String} {references : References} {r : Replacement}

theorem keyed_resolveReferences
    (read : readReferences subGraph nodeNames insertedStartName graphInputNodeNames =
      .ok references) : Keyed (resolveReferences subGraph nodeNames references) :=
  keyed_resolveDuplicates (readable_dataFromOutsideSubgraph read)

theorem mem_replacements (keyed : Keyed (resolveReferences subGraph nodeNames references))
    (member : r ∈ (extract subGraph nodeNames references).replacements) :
    getCanonicalData (resolveReferences subGraph nodeNames references)
        r.mapper.originalExpression = some r.mapper ∧
      places r.text r.mapper.originalExpression ≠ [] := by
  obtain ⟨result, among, inside⟩ := List.mem_flatMap.1 member
  obtain ⟨node, _, eq⟩ := List.mem_map.1 among
  rw [← eq] at inside
  obtain ⟨canonical, found⟩ := mem_applyMapping (all_applyCanonicalMapping keyed _) _ r inside
  obtain ⟨_, readable, _⟩ := getCanonicalData_eq_some keyed canonical
  exact ⟨canonical, matchAll_ne_nil found readable.nonempty _ _⟩

theorem eq_name_of_get (keyed : Keyed (resolveReferences subGraph nodeNames references))
    (member : r ∈ (extract subGraph nodeNames references).replacements) {name : Text}
    (found : (extract subGraph nodeNames references).variableMap.get name =
      some r.mapper.originalExpression) : name = r.mapper.replacementName := by
  obtain ⟨mapping, used, eq⟩ := List.mem_map.1 (OrderedMap.mem_of_get_ofList found)
  obtain ⟨sameName, sameExpression⟩ := Prod.mk.inj eq
  have canonical : getCanonicalData (resolveReferences subGraph nodeNames references)
      mapping.originalExpression = some mapping := by
    cases mem_addCandidates keyed used with
    | inl replaced =>
      obtain ⟨s, inside, same⟩ := List.mem_map.1 replaced
      exact same ▸ (mem_replacements keyed inside).1
    | inr candidate => exact candidate.1
  rw [sameExpression, (mem_replacements keyed member).1] at canonical
  rw [← sameName, Option.some.inj canonical]

theorem get_of_onePrefix (keyed : Keyed (resolveReferences subGraph nodeNames references))
    (member : r ∈ (extract subGraph nodeNames references).replacements)
    (onePrefix : ∀ s ∈ (extract subGraph nodeNames references).replacements,
      s.mapper.replacementName = r.mapper.replacementName →
        s.mapper.replacementPrefix = r.mapper.replacementPrefix) :
    (extract subGraph nodeNames references).variableMap.get r.mapper.replacementName =
      some r.mapper.originalExpression := by
  have used := List.mem_map_of_mem (f := Replacement.mapper) member
  refine OrderedMap.get_ofList_of_mem
    (List.mem_map.2 ⟨r.mapper, subset_addCandidates used, rfl⟩) fun e other => ?_
  obtain ⟨mapping, among, eq⟩ := List.mem_map.1 other
  obtain ⟨sameName, sameExpression⟩ := Prod.mk.inj eq
  cases mem_addCandidates keyed among with
  | inl replaced =>
    obtain ⟨s, inside, same⟩ := List.mem_map.1 replaced
    rw [← same] at sameName sameExpression
    rw [← sameExpression, getCanonicalData_inj keyed (mem_replacements keyed inside).1
      (mem_replacements keyed member).1 (onePrefix s inside sameName) sameName]
  | inr candidate => exact absurd sameName.symm (candidate.2 r.mapper used)

theorem written_eq_name (keyed : Keyed (resolveReferences subGraph nodeNames references))
    (named : NamesItsExpression (extract subGraph nodeNames references))
    (member : r ∈ (extract subGraph nodeNames references).replacements) {place : Nat × Text}
    (inside : place ∈ places r.text r.mapper.originalExpression) :
    getSubstitution r.mapper.originalExpression (r.text.take place.1) place.2
      r.mapper.replacementName = r.mapper.replacementName :=
  eq_name_of_get keyed member (named r member _ (List.mem_map_of_mem inside))

theorem get_name_of_named (keyed : Keyed (resolveReferences subGraph nodeNames references))
    (named : NamesItsExpression (extract subGraph nodeNames references))
    (member : r ∈ (extract subGraph nodeNames references).replacements) :
    (extract subGraph nodeNames references).variableMap.get r.mapper.replacementName =
      some r.mapper.originalExpression := by
  obtain ⟨place, inside⟩ := List.exists_mem_of_ne_nil _ (mem_replacements keyed member).2
  rw [← written_eq_name keyed named member inside]
  exact named r member _ (List.mem_map_of_mem inside)

theorem nameAlone_eq
    (read : readReferences subGraph nodeNames insertedStartName graphInputNodeNames =
      .ok references) (member : r ∈ (extract subGraph nodeNames references).replacements) :
    r.nameAlone (dataFromOutsideSubgraph subGraph references) (nodeNames.map String.toList) =
      some r.mapper.replacementName :=
  nameAmong_eq (readable_dataFromOutsideSubgraph read)
    (mem_replacements (keyed_resolveReferences read) member).1

theorem extract_of_accepted {extraction : Extraction}
    (read : readReferences subGraph nodeNames insertedStartName graphInputNodeNames =
      .ok references)
    (accepted : extractReferencesInNodeExpressions subGraph nodeNames insertedStartName
      graphInputNodeNames = .ok extraction) :
    extract subGraph nodeNames references = extraction := by
  rw [extractReferencesInNodeExpressions, read] at accepted
  cases valid : validateInputs subGraph nodeNames insertedStartName with
  | error e =>
    rw [valid] at accepted
    cases accepted
  | ok _ =>
    rw [valid] at accepted
    exact Except.ok.inj accepted

end

def expressionNode (name expression : String) : INode where
  name := name
  parameters := .object [("p0", .string expression)]

def fieldsOfTwoNodes : List INode :=
  [expressionNode "B" "=\x7b\x7b $('A').item.json.id \x7d\x7d",
    expressionNode "C" "=\x7b\x7b $('D').item.json.id \x7d\x7d"]

def fieldsOfInputAndNode : List INode :=
  [expressionNode "B" "=\x7b\x7b $json.id + $('A').item.json.id \x7d\x7d"]

end NodeAutomation.ExtractReferences
