import Mathlib.Data.List.Induction
import Mathlib.Data.List.FinRange
import NodeAutomation.Workflow.WorkflowDiff
import NodeAutomation.Lib.Fallible

/-! What the pruning of a workflow's history loses. A version that is merged into
the next one is compared with that one only, and in some of its properties only. -/

namespace NodeAutomation.WorkflowDiff

section

variable {α : Type} [DecidableEq α] {s substr : List α}

theorem cons_sublist_cons_iff {x c : α} {parts rest : List α} :
    (x :: parts).Sublist (c :: rest) ↔
      if x = c then parts.Sublist rest else (x :: parts).Sublist rest := by
  split
  case isTrue same => rw [same, List.cons_sublist_cons]
  case isFalse differ =>
    refine ⟨fun sub => ?_, fun sub => sub.cons c⟩
    cases sub with
    | cons _ sub => exact sub
    | cons_cons _ sub => exact absurd rfl differ

theorem drop_marker_sublist_iff (c : α) (rest : List α) {marker : Nat} (marked : marker ≤ substr.length) :
    ∃ marker', (if substr[marker]? = some c then marker + 1 else marker) = marker' ∧
      marker' ≤ substr.length ∧
      ((substr.drop marker).Sublist (c :: rest) ↔ (substr.drop marker').Sublist rest) := by
  refine ⟨_, rfl, ?_⟩
  by_cases ended : marker = substr.length
  · have past : substr[marker]? = none := List.getElem?_eq_none (Nat.le_of_eq ended.symm)
    rw [past, if_neg (by simp), ended, List.drop_length]
    simp
  · have inside : marker < substr.length := Nat.lt_of_le_of_ne marked ended
    rw [List.drop_eq_getElem_cons inside, cons_sublist_cons_iff, List.getElem?_eq_getElem inside]
    by_cases found : substr[marker] = c
    · simp only [found, if_true]
      exact ⟨inside, trivial⟩
    · simp only [Option.some.injEq, found, if_false]
      exact ⟨marked, by rw [List.drop_eq_getElem_cons inside]⟩

theorem containsPartsFrom_iff (rest : List α) (i marker : Nat)
    (length : i + rest.length = s.length) (fits : substr.length ≤ s.length)
    (marked : marker ≤ substr.length) :
    containsPartsFrom substr (s.length - substr.length) i marker rest = true ↔
      (substr.drop marker).Sublist rest := by
  induction rest generalizing i marker with
  | nil => simp [containsPartsFrom]
  | cons c rest ih =>
    rw [List.length_cons] at length
    rw [containsPartsFrom]
    obtain ⟨marker', here, bounded, sub⟩ := drop_marker_sublist_iff c rest marked
    simp only [here]
    rw [sub]
    split
    case isTrue late =>
      refine ⟨fun never => (nomatch never), fun sub => ?_⟩
      have short := sub.length_le
      rw [List.length_drop] at short
      omega
    case isFalse => exact ih (i + 1) marker' (by omega) bounded

theorem stringContainsParts_iff (s substr : List α) :
    stringContainsParts s substr = true ↔ substr.Sublist s := by
  rw [stringContainsParts]
  split
  case isTrue longer =>
    refine ⟨fun never => (nomatch never), fun sub => ?_⟩
    exact absurd sub.length_le (by omega)
  case isFalse fits =>
    exact containsPartsFrom_iff s 0 0 (Nat.zero_add _) (by omega) (Nat.zero_le _)

def markerAfter (substr : List α) : (marker : Nat) → List α → Nat
  | marker, [] => marker
  | marker, c :: rest => markerAfter substr (if substr[marker]? = some c then marker + 1 else marker) rest

theorem length_le_markerAfter_iff (rest : List α) {marker : Nat} (marked : marker ≤ substr.length) :
    substr.length ≤ markerAfter substr marker rest ↔ (substr.drop marker).Sublist rest := by
  induction rest generalizing marker with
  | nil => simp [markerAfter]
  | cons c rest ih =>
    obtain ⟨marker', here, bounded, sub⟩ := drop_marker_sublist_iff c rest marked
    rw [markerAfter, here, sub]
    exact ih bounded

/-- The substring is what is left of the text when characters are deleted, and the loop
answers as it would without its early exit. -/
theorem stringContainsParts_decides (s substr : List α) :
    (stringContainsParts s substr = true ↔ substr.Sublist s) ∧
      stringContainsParts s substr = decide (markerAfter substr 0 s ≥ substr.length) := by
  have contains := stringContainsParts_iff s substr
  refine ⟨contains, ?_⟩
  have whole : substr.length ≤ markerAfter substr 0 s ↔ substr.Sublist s :=
    length_le_markerAfter_iff s (Nat.zero_le _)
  rw [Bool.eq_iff_iff, decide_eq_true_iff, contains]
  exact whole.symm

end

mutual

/-- Each string of the value is a subsequence of the string there, every other value
is the same there. -/
def Keeps : JsValue → JsValue → Prop
  | .string prev, next => ∃ text, next = .string text ∧ (codeUnits prev).Sublist (codeUnits text)
  | .array prev, next => ∃ values, next = .array values ∧ KeepsValues prev values
  | .object prev, next => ∃ fields, next = .object fields ∧ KeepsFields prev fields
  | prev, next => next = prev

def KeepsValues : List JsValue → List JsValue → Prop
  | [], _ => True
  | _ :: _, [] => False
  | x :: prev, y :: next => Keeps x y ∧ KeepsValues prev next

def KeepsFields : List (String × JsValue) → List (String × JsValue) → Prop
  | [], _ => True
  | (key, x) :: prev, next => (∃ y, next.lookup key = some y ∧ Keeps x y) ∧ KeepsFields prev next

end

mutual

def objectsStay : JsValue → JsValue → Bool
  | .array prev, .array next => objectsStayInValues prev next
  | .object prev, .object next => objectsStayInFields prev next
  | .object _, .array _ => false
  | _, _ => true

def objectsStayInValues : List JsValue → List JsValue → Bool
  | x :: prev, y :: next => objectsStay x y && objectsStayInValues prev next
  | _, _ => true

def objectsStayInFields : List (String × JsValue) → List (String × JsValue) → Bool
  | [], _ => true
  | (key, x) :: prev, next =>
    (match next.lookup key with
      | none => true
      | some y => objectsStay x y) &&
    objectsStayInFields prev next

end

theorem superset_object (prev next : List (String × JsValue)) :
    parametersAreSuperset (.object prev) (.object next) =
      (decide (prev.length = next.length) && fieldsAreSuperset prev (.object next)) := by
  rw [parametersAreSuperset]
  rfl

mutual

theorem superset_of_isEqual : (prev next : JsValue) → isEqual prev next = true →
    parametersAreSuperset prev next = true
  | .string prev, next, equal => by
    cases next <;> simp only [isEqual, Bool.false_eq_true, decide_eq_true_iff] at equal
    rw [equal, parametersAreSuperset]
    exact (stringContainsParts_iff ..).2 (List.Sublist.refl _)
  | .array prev, next, equal => by
    cases next <;> simp only [isEqual, Bool.false_eq_true] at equal
    rw [parametersAreSuperset, Bool.and_eq_true, decide_eq_true_iff]
    exact valuesSuperset_of_isEqual _ _ equal
  | .object prev, next, equal => by
    cases next <;> simp only [isEqual, Bool.false_eq_true, Bool.and_eq_true, decide_eq_true_iff] at equal
    rw [superset_object, Bool.and_eq_true, decide_eq_true_iff]
    exact ⟨equal.1, fieldsSuperset_of_isEqual _ _ equal.2⟩
  | .undefined, next, equal | .null, next, equal => by
    cases next <;> simp only [isEqual, Bool.false_eq_true] at equal
    simp [parametersAreSuperset]
  | .bool x, next, equal | .number x, next, equal => by
    cases next <;> simp only [isEqual, Bool.false_eq_true, decide_eq_true_iff] at equal
    simp [parametersAreSuperset, equal]

theorem valuesSuperset_of_isEqual : (prev next : List JsValue) → isEqualValues prev next = true →
    prev.length = next.length ∧ valuesAreSuperset prev next = true
  | [], [], _ => ⟨rfl, rfl⟩
  | [], _ :: _, equal | _ :: _, [], equal => by simp [isEqualValues] at equal
  | x :: prev, y :: next, equal => by
    rw [isEqualValues, Bool.and_eq_true] at equal
    obtain ⟨length, rest⟩ := valuesSuperset_of_isEqual prev next equal.2
    rw [valuesAreSuperset, Bool.and_eq_true]
    exact ⟨congrArg Nat.succ length, superset_of_isEqual x y equal.1, rest⟩

theorem fieldsSuperset_of_isEqual : (prev next : List (String × JsValue)) →
    isEqualFields prev next = true → fieldsAreSuperset prev (.object next) = true
  | [], _, _ => rfl
  | (key, x) :: prev, next, equal => by
    rw [isEqualFields, Bool.and_eq_true] at equal
    rw [fieldsAreSuperset, Bool.and_eq_true]
    refine ⟨?_, fieldsSuperset_of_isEqual prev next equal.2⟩
    have here := equal.1
    rw [ownProperty]
    split at here
    case h_1 => cases here
    case h_2 y found => simpa [found] using superset_of_isEqual x y here

end

mutual

theorem keeps_iff : (prev next : JsValue) → parametersAreSuperset prev next = true →
    (Keeps prev next ↔ objectsStay prev next = true)
  | .string prev, next, superset => by
    cases next <;> simp only [parametersAreSuperset, Bool.false_eq_true] at superset
    rw [stringContainsParts_iff] at superset
    simp [Keeps, objectsStay, superset]
  | .array prev, next, superset => by
    cases next <;> simp only [parametersAreSuperset, Bool.false_eq_true, Bool.and_eq_true] at superset
    simpa [Keeps, objectsStay] using valuesKeep_iff _ _ superset.2
  | .object prev, next, superset => by
    cases next with
    | object next =>
      rw [superset_object, Bool.and_eq_true] at superset
      simpa [Keeps, objectsStay] using fieldsKeep_iff _ _ superset.2
    | array next => simp [Keeps, objectsStay]
    | _ => simp [parametersAreSuperset, typeof] at superset
  | .undefined, next, superset | .null, next, superset => by
    simp only [parametersAreSuperset, decide_eq_true_iff] at superset
    rw [← superset]
    simp [Keeps, objectsStay]
  | .bool x, next, superset | .number x, next, superset => by
    simp only [parametersAreSuperset, decide_eq_true_iff] at superset
    rw [← superset]
    simp [Keeps, objectsStay]

theorem valuesKeep_iff : (prev next : List JsValue) → valuesAreSuperset prev next = true →
    (KeepsValues prev next ↔ objectsStayInValues prev next = true)
  | [], _, _ => by simp [KeepsValues, objectsStayInValues]
  | _ :: _, [], superset => by simp [valuesAreSuperset] at superset
  | x :: prev, y :: next, superset => by
    rw [valuesAreSuperset, Bool.and_eq_true] at superset
    rw [KeepsValues, objectsStayInValues, Bool.and_eq_true, keeps_iff x y superset.1,
      valuesKeep_iff prev next superset.2]

theorem fieldsKeep_iff : (prev next : List (String × JsValue)) →
    fieldsAreSuperset prev (.object next) = true →
    (KeepsFields prev next ↔ objectsStayInFields prev next = true)
  | [], _, _ => by simp [KeepsFields, objectsStayInFields]
  | (key, x) :: prev, next, superset => by
    rw [fieldsAreSuperset, Bool.and_eq_true, ownProperty] at superset
    rw [KeepsFields, objectsStayInFields, Bool.and_eq_true, fieldsKeep_iff prev next superset.2]
    have here := superset.1
    refine and_congr_left fun _ => ?_
    cases found : next.lookup key with
    | none => rw [found] at here; cases here
    | some y =>
      rw [found] at here
      simpa using keeps_iff x y here

end

/-- The settings are the same but for the position, and the parameters are kept. -/
structure KeepsNode (prevNode nextNode : DiffableNode) : Prop where
  id_eq : nextNode.id = prevNode.id
  settings : ∀ property, property ≠ "position" → sameProperty prevNode nextNode property = true
  parameters : Keeps prevNode.parameters nextNode.parameters

/-- What no comparison looks at has not changed: the properties that are not listed,
and whether a parameter is an object or an array. -/
def UncheckedSame (prevNode nextNode : DiffableNode) : Prop :=
  (∀ property, property ≠ "position" → property ∉ propsToCompare →
    sameProperty prevNode nextNode property = true) ∧
  objectsStay prevNode.parameters nextNode.parameters = true

/-- The node a node has been compared with; one that shares its id with a later node
has not been compared. -/
def comparedWith (prev next : DiffableWorkflow) (node : DiffableNode) : Option DiffableNode :=
  if (byId prev.nodes).get node.id = some node then
    match (byId next.nodes).get node.id with
    | none => none
    | some target =>
      if compareNodes node target then some target else next.nodes.find? fun x => x.id = node.id
  else none

structure Compared (prevNode nextNode : DiffableNode) : Prop where
  id_eq : nextNode.id = prevNode.id
  listed : ∀ property ∈ propsToCompare, sameProperty prevNode nextNode property = true
  superset : parametersAreSuperset prevNode.parameters nextNode.parameters = true

theorem Compared.keepsNode_iff {prevNode nextNode : DiffableNode}
    (compared : Compared prevNode nextNode) :
    KeepsNode prevNode nextNode ↔ UncheckedSame prevNode nextNode := by
  have parameters := keeps_iff _ _ compared.superset
  refine ⟨fun kept => ⟨fun property differ _ => kept.settings property differ,
    parameters.1 kept.parameters⟩, fun same => ⟨compared.id_eq, fun property differ => ?_,
    parameters.2 same.2⟩⟩
  by_cases listed : property ∈ propsToCompare
  · exact compared.listed property listed
  · exact same.1 property differ listed

theorem mem_of_byId {nodes : List DiffableNode} {id : String} {node : DiffableNode}
    (found : (byId nodes).get id = some node) : node ∈ nodes ∧ node.id = id := by
  obtain ⟨other, member, same⟩ := List.mem_map.1 (OrderedMap.mem_of_get_ofList found)
  obtain ⟨ids, nodesAre⟩ := Prod.mk.inj same
  exact ⟨nodesAre ▸ member, nodesAre ▸ ids⟩

theorem compareWorkflowsNodes_get {base target : List DiffableNode} {id : String}
    {node : DiffableNode} (found : (byId base).get id = some node) :
    (compareWorkflowsNodes base target).get id = some ⟨baseStatus (byId target) id node, node⟩ := by
  refine OrderedMap.get_ofList_of_mem (List.mem_append_left _ (List.mem_map.2
    ⟨(id, node), ((byId base).get_eq_some_iff id node).1 found, rfl⟩)) fun diff member => ?_
  cases List.mem_append.1 member with
  | inl ofBase =>
    obtain ⟨entry, inBase, same⟩ := List.mem_map.1 ofBase
    obtain ⟨ids, diffs⟩ := Prod.mk.inj same
    have here : (byId base).get id = some entry.2 :=
      ((byId base).get_eq_some_iff id entry.2).2 (ids ▸ inBase)
    rw [found, Option.some.injEq] at here
    rw [← diffs, ids, here]
  | inr ofTarget =>
    obtain ⟨⟨otherId, other⟩, kept, same⟩ := List.mem_map.1 ofTarget
    have onlyThere := (List.mem_filter.1 kept).2
    dsimp only at onlyThere
    simp [(Prod.mk.inj same).1, OrderedMap.contains, found] at onlyThere

theorem compareWorkflowsNodes_get_added {base target : List DiffableNode} {id : String}
    {node : DiffableNode} (missing : (byId base).get id = none) (found : (byId target).get id = some node) :
    (compareWorkflowsNodes base target).get id = some ⟨.added, node⟩ := by
  refine OrderedMap.get_ofList_of_mem (List.mem_append_right _ (List.mem_map.2
    ⟨(id, node), List.mem_filter.2 ⟨((byId target).get_eq_some_iff id node).1 found, ?_⟩, rfl⟩)) fun diff member => ?_
  · simp only [OrderedMap.contains, missing, Option.isSome_none, Bool.not_false]
  · cases List.mem_append.1 member with
    | inl ofBase =>
      obtain ⟨entry, inBase, same⟩ := List.mem_map.1 ofBase
      have here : (byId base).get id = some entry.2 :=
        ((byId base).get_eq_some_iff id entry.2).2 ((Prod.mk.inj same).1 ▸ inBase)
      simp [missing] at here
    | inr ofTarget =>
      obtain ⟨entry, kept, same⟩ := List.mem_map.1 ofTarget
      obtain ⟨ids, diffs⟩ := Prod.mk.inj same
      have here : (byId target).get id = some entry.2 :=
        ((byId target).get_eq_some_iff id entry.2).2 (ids ▸ (List.mem_filter.1 kept).1)
      rw [found, Option.some.injEq] at here
      rw [← diffs, here]

theorem compareWorkflowsNodes_values {base target : List DiffableNode} {diff : NodeDiff}
    (member : diff ∈ (compareWorkflowsNodes base target).values) :
    (∃ id, (byId base).get id = some diff.node ∧
        diff.status = baseStatus (byId target) id diff.node) ∨
      diff.status = .added ∧
        ∃ id, (byId base).get id = none ∧ (byId target).get id = some diff.node := by
  obtain ⟨id, found⟩ := (OrderedMap.mem_values_iff _ _).1 member
  cases List.mem_append.1 (OrderedMap.mem_of_get_ofList found) with
  | inl ofBase =>
    obtain ⟨entry, inBase, same⟩ := List.mem_map.1 ofBase
    obtain ⟨ids, diffs⟩ := Prod.mk.inj same
    rw [← diffs]
    exact .inl ⟨entry.1, ((byId base).get_eq_some_iff _ _).2 inBase, rfl⟩
  | inr ofTarget =>
    obtain ⟨entry, kept, same⟩ := List.mem_map.1 ofTarget
    obtain ⟨inTarget, onlyThere⟩ := List.mem_filter.1 kept
    rw [← (Prod.mk.inj same).2]
    refine .inr ⟨rfl, entry.1, ?_, ((byId target).get_eq_some_iff _ _).2 inTarget⟩
    simpa [OrderedMap.contains] using onlyThere

theorem nodesAreKept_spec {next : DiffableWorkflow} (diffs : List NodeDiff)
    (there : ∀ d ∈ diffs, d.status = .eq ∨ d.status = .modified →
      (next.nodes.find? fun x => x.id = d.node.id).isSome = true) :
    ∃ kept, nodesAreKept next diffs = .ok kept ∧ (kept = true → ∀ d ∈ diffs,
      d.status ≠ .deleted ∧ (d.status = .modified → ∀ nextNode,
        (next.nodes.find? fun x => x.id = d.node.id) = some nextNode →
          nodeIsSuperset d.node nextNode = true)) := by
  induction diffs with
  | nil => exact ⟨true, rfl, fun _ _ member => nomatch member⟩
  | cons d diffs ih =>
    obtain ⟨kept, rest, later⟩ := ih fun e member => there e (List.mem_cons_of_mem d member)
    have here := there d List.mem_cons_self
    rw [nodesAreKept]
    cases status : d.status with
    | deleted => exact ⟨false, rfl, fun never => nomatch never⟩
    | added =>
      refine ⟨kept, rest, fun isKept e member => ?_⟩
      cases List.mem_cons.1 member with
      | inl same => rw [same, status]; exact ⟨nofun, nofun⟩
      | inr member => exact later isKept e member
    | eq =>
      obtain ⟨nextNode, found⟩ := Option.isSome_iff_exists.1 (here (.inl status))
      simp only [found]
      refine ⟨kept, rest, fun isKept e member => ?_⟩
      cases List.mem_cons.1 member with
      | inl same => rw [same, status]; exact ⟨nofun, nofun⟩
      | inr member => exact later isKept e member
    | modified =>
      obtain ⟨nextNode, found⟩ := Option.isSome_iff_exists.1 (here (.inr status))
      simp only [found]
      cases superset : nodeIsSuperset d.node nextNode with
      | false => exact ⟨false, rfl, fun never => nomatch never⟩
      | true =>
        refine ⟨kept, rest, fun isKept e member => ?_⟩
        cases List.mem_cons.1 member with
        | inl same =>
          rw [same, status]
          refine ⟨nofun, fun _ other found' => ?_⟩
          rw [found, Option.some.injEq] at found'
          rwa [← found']
        | inr member => exact later isKept e member

theorem contains_positions (connections : List IConnection) (connection : IConnection) :
    (positions connections).contains connection = true ↔ connection ∈ connections := by
  rw [OrderedMap.contains]
  cases OrderedMap.get_foldl_set connections.zipIdx ∅ connection with
  | inl given =>
    obtain ⟨index, member, found⟩ := given
    have isThere := (List.mem_zipIdx' member).2
    rw [positions, OrderedMap.ofList, found, isThere]
    exact iff_of_true rfl (List.getElem_mem _)
  | inr absent =>
    rw [positions, OrderedMap.ofList, absent.2]
    refine iff_of_false (by simp) fun member => ?_
    obtain ⟨index, here⟩ := List.mem_iff_getElem?.1 member
    exact absent.1 index (List.mk_mem_zipIdx_iff_getElem?.2 here)

theorem mem_outputs {prev next : IConnections} {nodeName : String} {inputName : NodeConnectionType}
    {sourceIndex : Nat} {connection : IConnection}
    (member : connection ∈ connectionsAt prev nodeName inputName sourceIndex) :
    (nodeName, inputName, sourceIndex) ∈ outputs prev next := by
  rw [connectionsAt] at member
  have hasNode : nodeName ∈ prev.keys := by
    cases found : prev.get nodeName with
    | none => rw [found] at member; cases member
    | some ofNode => exact (prev.mem_keys_iff nodeName).2 ⟨ofNode, found⟩
  have hasInput : inputName ∈ ((prev.get nodeName).getD ∅).keys := by
    cases found : ((prev.get nodeName).getD ∅).get inputName with
    | none => rw [found] at member; cases member
    | some groups => exact (OrderedMap.mem_keys_iff _ inputName).2 ⟨groups, found⟩
  have inside : sourceIndex < (((prev.get nodeName).getD ∅).get inputName |>.getD []).length := by
    refine Nat.lt_of_not_le fun past => ?_
    simp [List.getElem?_eq_none past] at member
  refine List.mem_flatMap.2 ⟨nodeName, (OrderedSet.mem_ofList ..).2 (List.mem_append_left _ hasNode), ?_⟩
  refine List.mem_flatMap.2 ⟨inputName, (OrderedSet.mem_ofList ..).2 (List.mem_append_left _ hasInput), ?_⟩
  exact List.mem_map.2 ⟨sourceIndex, List.mem_range.2 (Nat.lt_of_lt_of_le inside (Nat.le_max_left _ _)), rfl⟩

theorem mem_keys_foldl_record (nodeName : String) (inputName : NodeConnectionType)
    (entries : List ConnectionEntry) (diff : OrderedMap String INodeConnectionsDiff) (name : String) :
    name ∈ (entries.foldl (fun diff entry => record diff nodeName inputName entry) diff).keys ↔
      name ∈ diff.keys ∨ name = nodeName ∧ entries ≠ [] := by
  induction entries generalizing diff with
  | nil => simp
  | cons entry entries ih =>
    rw [List.foldl_cons, ih, record, OrderedMap.mem_keys_set]
    by_cases same : name = nodeName <;> simp [same]

theorem mem_keys_foldl_recordOutput (source other : IConnections)
    (places : List (String × NodeConnectionType × Nat))
    (diff : OrderedMap String INodeConnectionsDiff) (name : String) :
    name ∈ (places.foldl (recordOutput source other) diff).keys ↔
      name ∈ diff.keys ∨ ∃ inputName sourceIndex, (name, inputName, sourceIndex) ∈ places ∧
        missingAt (connectionsAt source name inputName sourceIndex)
          (connectionsAt other name inputName sourceIndex) sourceIndex ≠ [] := by
  induction places generalizing diff with
  | nil => simp
  | cons place places ih =>
    obtain ⟨nodeName, inputName, sourceIndex⟩ := place
    rw [List.foldl_cons, ih, recordOutput, mem_keys_foldl_record]
    refine ⟨fun given => ?_, fun given => ?_⟩
    · cases given with
      | inl before =>
        refine before.imp_right fun ⟨same, missing⟩ => ?_
        rw [same]
        exact ⟨inputName, sourceIndex, List.mem_cons_self, missing⟩
      | inr later =>
        obtain ⟨input, index, member, missing⟩ := later
        exact .inr ⟨input, index, List.mem_cons_of_mem _ member, missing⟩
    · cases given with
      | inl before => exact .inl (.inl before)
      | inr given =>
        obtain ⟨input, index, member, missing⟩ := given
        cases List.mem_cons.1 member with
        | inl here =>
          cases here
          exact .inl (.inr ⟨rfl, missing⟩)
        | inr later => exact .inr ⟨input, index, later, missing⟩

theorem connections_kept {prev next : IConnections}
    (noneRemoved : (compareConnections prev next).removed.size = 0) (nodeName : String)
    (inputName : NodeConnectionType) (sourceIndex : Nat) (connection : IConnection)
    (member : connection ∈ connectionsAt prev nodeName inputName sourceIndex) :
    connection ∈ connectionsAt next nodeName inputName sourceIndex := by
  refine not_not.1 fun lost => ?_
  have isThere := (contains_positions _ connection).2 member
  obtain ⟨index, found⟩ := Option.isSome_iff_exists.1 isThere
  have missing : (⟨sourceIndex, index, connection⟩ : ConnectionEntry) ∈
      missingAt (connectionsAt prev nodeName inputName sourceIndex)
        (connectionsAt next nodeName inputName sourceIndex) sourceIndex := by
    refine List.mem_filterMap.2 ⟨(connection, index), (OrderedMap.get_eq_some_iff _ _ _).1 found, ?_⟩
    dsimp only
    rw [if_pos (by rw [Bool.not_eq_true', ← Bool.not_eq_true, contains_positions]; exact lost)]
  have recorded := (mem_keys_foldl_recordOutput prev next (outputs prev next) ∅ nodeName).2
    (.inr ⟨inputName, sourceIndex, mem_outputs member, List.ne_nil_of_mem missing⟩)
  have empty : (outputs prev next).foldl (recordOutput prev next) ∅ = ∅ :=
    (OrderedMap.size_eq_zero_iff _).1 noneRemoved
  rw [empty] at recorded
  cases recorded

def KeepsConnections (prev next : DiffableWorkflow) : Prop :=
  ∀ nodeName inputName sourceIndex,
    ∀ connection ∈ connectionsAt prev.connections nodeName inputName sourceIndex,
      connection ∈ connectionsAt next.connections nodeName inputName sourceIndex

def KeepsGroups (prev next : DiffableWorkflow) : Prop :=
  ∀ prevGroup ∈ prev.nodeGroups.getD [], ∃ nextGroup ∈ next.nodeGroups.getD [],
    nextGroup.id = prevGroup.id ∧ nextGroup.name = prevGroup.name ∧
      ∀ id ∈ prevGroup.nodeIds, id ∈ nextGroup.nodeIds

theorem groups_kept {prev next : DiffableWorkflow}
    (additive : nodeGroupChangesAreAdditive prev next = true) : KeepsGroups prev next := by
  intro prevGroup member
  have here := List.all_eq_true.1 additive prevGroup member
  split at here
  case h_1 => cases here
  case h_2 nextGroup found =>
    obtain ⟨group, inNext, same⟩ := List.mem_map.1 (OrderedMap.mem_of_get_ofList found)
    obtain ⟨ids, groupsAre⟩ := Prod.mk.inj same
    rw [Bool.and_eq_true, decide_eq_true_iff, List.all_eq_true] at here
    exact ⟨nextGroup, groupsAre ▸ inNext, groupsAre ▸ ids, here.1,
      fun id member => List.contains_iff_mem.1 (here.2 id member)⟩

/-- Everything of a version is in another one, but positions and what strings gain. -/
structure KeepsVersion (prev next : DiffableWorkflow) : Prop where
  nodes : ∀ node ∈ prev.nodes, ∃ nextNode ∈ next.nodes, KeepsNode node nextNode
  connections : KeepsConnections prev next
  groups : KeepsGroups prev next

/-- Each node has been compared with one in which the rest is the same, or another one
happens to keep it. -/
def UncheckedKept (prev next : DiffableWorkflow) : Prop :=
  ∀ node ∈ prev.nodes,
    (∃ nextNode, comparedWith prev next node = some nextNode ∧ UncheckedSame node nextNode) ∨
    ∃ nextNode ∈ next.nodes, comparedWith prev next node ≠ some nextNode ∧ KeepsNode node nextNode

structure Merged (prev next : DiffableWorkflow) : Prop where
  nodes : ∀ node, (byId prev.nodes).get node.id = some node →
    ∃ nextNode ∈ next.nodes, comparedWith prev next node = some nextNode ∧ Compared node nextNode
  connections : KeepsConnections prev next
  groups : KeepsGroups prev next

theorem Merged.keepsVersion_iff {prev next : DiffableWorkflow} (merged : Merged prev next) :
    KeepsVersion prev next ↔ UncheckedKept prev next := by
  have found {node nextNode : DiffableNode} (here : comparedWith prev next node = some nextNode) :
      nextNode ∈ next.nodes ∧ Compared node nextNode := by
    have isLast : (byId prev.nodes).get node.id = some node := by
      rw [comparedWith] at here
      split at here
      case isTrue last => exact last
      case isFalse => cases here
    obtain ⟨other, member, same, compared⟩ := merged.nodes node isLast
    rw [here, Option.some.injEq] at same
    exact ⟨same ▸ member, same ▸ compared⟩
  refine ⟨fun kept node member => ?_, fun kept => ⟨fun node member => ?_, merged.connections, merged.groups⟩⟩
  · obtain ⟨nextNode, inNext, keeps⟩ := kept.nodes node member
    by_cases here : comparedWith prev next node = some nextNode
    · exact .inl ⟨nextNode, here, (found here).2.keepsNode_iff.1 keeps⟩
    · exact .inr ⟨nextNode, inNext, here, keeps⟩
  · cases kept node member with
    | inl same =>
      obtain ⟨nextNode, here, unchecked⟩ := same
      exact ⟨nextNode, (found here).1, (found here).2.keepsNode_iff.2 unchecked⟩
    | inr other =>
      obtain ⟨nextNode, inNext, _, keeps⟩ := other
      exact ⟨nextNode, inNext, keeps⟩

theorem compared_of_equal {node target : DiffableNode} (ids : target.id = node.id)
    (equal : compareNodes node target = true) : Compared node target := by
  rw [compareNodes, Bool.and_eq_true, List.all_eq_true] at equal
  exact ⟨ids, equal.1, superset_of_isEqual _ _ equal.2⟩

theorem compared_of_superset {node nextNode : DiffableNode} (ids : nextNode.id = node.id)
    (superset : nodeIsSuperset node nextNode = true) : Compared node nextNode := by
  rw [nodeIsSuperset] at superset
  split at superset
  case isTrue => cases superset
  case isFalse equal =>
    rw [Bool.not_eq_true', Bool.not_eq_false, compareNodes, Bool.and_eq_true,
      List.all_eq_true] at equal
    exact ⟨ids, equal.1, superset⟩

theorem find?_of_byId {nodes : List DiffableNode} {id : String} {target : DiffableNode}
    (found : (byId nodes).get id = some target) :
    ∃ node ∈ nodes, (nodes.find? fun x => x.id = id) = some node ∧ node.id = id := by
  obtain ⟨member, ids⟩ := mem_of_byId found
  have isThere : (nodes.find? fun x => x.id = id).isSome = true :=
    List.find?_isSome.2 ⟨target, member, decide_eq_true ids⟩
  obtain ⟨node, here⟩ := Option.isSome_iff_exists.1 isThere
  exact ⟨node, List.mem_of_find?_eq_some here, here, by simpa using List.find?_some here⟩

/-- The rule does not throw, and what it accepts it has compared. -/
theorem mergeAdditiveChanges_spec (prev next : DiffableWorkflow) :
    ∃ accepted, mergeAdditiveChanges prev next (.new prev next) = .ok accepted ∧
      (accepted = true → Merged prev next) := by
  have there : ∀ d ∈ (WorkflowChangeSet.new prev next).nodes.values,
      d.status = .eq ∨ d.status = .modified →
        (next.nodes.find? fun x => x.id = d.node.id).isSome = true := by
    intro d member status
    cases compareWorkflowsNodes_values member with
    | inr added => rw [added.1] at status; simp at status
    | inl ofBase =>
      obtain ⟨id, found, status'⟩ := ofBase
      rw [baseStatus] at status'
      split at status'
      case h_1 => rw [status'] at status; simp at status
      case h_2 target foundNext =>
        obtain ⟨node, _, here, _⟩ := find?_of_byId foundNext
        rw [(mem_of_byId found).2, here]
        rfl
  obtain ⟨kept, ran, nodes⟩ := nodesAreKept_spec _ there
  rw [mergeAdditiveChanges, ran, Fallible.ok_bind]
  cases kept with
  | false => exact ⟨false, rfl, fun never => nomatch never⟩
  | true =>
    by_cases removed : (WorkflowChangeSet.new prev next).connections.removed.size > 0
    · exact ⟨false, by simp [removed, pure, Except.pure], fun never => nomatch never⟩
    · refine ⟨nodeGroupChangesAreAdditive prev next, by simp [removed, pure, Except.pure],
        fun additive => ⟨fun node isLast => ?_, connections_kept (Nat.eq_zero_of_not_pos removed),
          groups_kept additive⟩⟩
      obtain ⟨notDeleted, superset⟩ := nodes rfl ⟨baseStatus (byId next.nodes) node.id node, node⟩
        ((OrderedMap.mem_values_iff _ _).2 ⟨node.id, compareWorkflowsNodes_get isLast⟩)
      rw [comparedWith, if_pos isLast]
      cases foundNext : (byId next.nodes).get node.id with
      | none => exact absurd (by rw [baseStatus, foundNext]) notDeleted
      | some target =>
        obtain ⟨member, ids⟩ := mem_of_byId foundNext
        cases equal : compareNodes node target with
        | true => exact ⟨target, member, if_pos equal, compared_of_equal ids equal⟩
        | false =>
          obtain ⟨nextNode, inNext, here, nextIds⟩ := find?_of_byId foundNext
          have modified : baseStatus (byId next.nodes) node.id node = .modified := by
            simp [baseStatus, foundNext, equal]
          exact ⟨nextNode, inNext, by simpa [equal] using here,
            compared_of_superset nextIds (superset modified nextNode here)⟩

section

open NeighbourMerge

variable {W : Type} (base : W → DiffableWorkflow)

abbrev SkipRule (W : Type) := W → W → WorkflowChangeSet → DiffMetaData → Bool

def SkipRule.rule (skip : SkipRule W) : DiffRule W := fun prev next diff metaData =>
  .ok (skip prev next diff metaData)

def additiveRule : DiffRule W := fun prev next diff _ =>
  mergeAdditiveChanges (base prev) (base next) diff

/-- Whether the loop takes the first of two versions out. -/
def merges (skipRules : List (SkipRule W)) (metaData : DiffMetaData) (prev next : W) : Bool :=
  !(skipRules.any fun skip => skip prev next (.new (base prev) (base next)) metaData) &&
  match mergeAdditiveChanges (base prev) (base next) (.new (base prev) (base next)) with
  | .ok accepted => accepted
  | .error _ => false

variable {base} {skipRules : List (SkipRule W)} {metaData : DiffMetaData}

theorem merged_of_merges {prev next : W} (merged : merges base skipRules metaData prev next = true) :
    Merged (base prev) (base next) := by
  obtain ⟨accepted, ran, compared⟩ := mergeAdditiveChanges_spec (base prev) (base next)
  rw [merges, ran, Bool.and_eq_true] at merged
  exact compared merged.2

theorem someRule_skip (prev next : W) (diff : WorkflowChangeSet) :
    someRule (skipRules.map SkipRule.rule) prev next diff metaData =
      .ok (skipRules.any fun skip => skip prev next diff metaData) := by
  induction skipRules with
  | nil => rfl
  | cons skip skipRules ih =>
    rw [List.map_cons, someRule, SkipRule.rule, Fallible.ok_bind, ih]
    cases yes : skip prev next diff metaData <;> simp [yes, pure, Except.pure]

/-- The loop from an index down takes the versions before it in, one by one. -/
theorem diffLoop_eq (before : List W) (next : W) (later removed : List W) :
    diffLoop base [additiveRule base] (skipRules.map SkipRule.rule) metaData before.length
        (before ++ next :: later) removed =
      .ok (before.foldr (thinnedBy (merges base skipRules metaData)) (next :: later, removed)) := by
  induction before using List.reverseRecOn generalizing next later removed with
  | nil => rfl
  | append_singleton before prev ih =>
    obtain ⟨accepted, ran, _⟩ := mergeAdditiveChanges_spec (base prev) (base next)
    have first : (before ++ prev :: next :: later)[before.length]? = some prev := by simp
    have second : (before ++ prev :: next :: later)[before.length + 1]? = some next := by
      rw [List.getElem?_append_right (Nat.le_succ _)]
      simp
    have erased : (before ++ prev :: next :: later).eraseIdx before.length = before ++ next :: later := by
      rw [List.eraseIdx_append_of_length_le (Nat.le_refl _)]
      simp
    have rule : someRule [additiveRule base] prev next (.new (base prev) (base next)) metaData =
        .ok accepted := by
      rw [someRule, additiveRule, ran, Fallible.ok_bind]
      cases accepted <;> rfl
    rw [List.length_append, List.length_singleton, List.append_assoc, List.singleton_append, diffLoop,
      first, second, List.foldr_append, List.foldr_cons, List.foldr_nil, thinnedBy, merges, ran]
    simp only [someRule_skip, Fallible.ok_bind, rule]
    cases skipRules.any fun skip => skip prev next (.new (base prev) (base next)) metaData with
    | true => exact ih prev (next :: later) removed
    | false =>
      cases accepted with
      | true =>
        simp only [erased]
        exact ih next later (removed ++ [prev])
      | false => exact ih prev (next :: later) removed

theorem thin_eq_foldr (merge : W → W → Bool) (versions : List W) :
    thin merge versions = versions.foldr (thinnedBy merge) ([], []) := by
  induction versions with
  | nil => rfl
  | cons version versions ih => rw [thin, ih, List.foldr_cons]

theorem groupWorkflows_eq (versions : List W) (workflowSizeScore : Bool) :
    groupWorkflows base versions [additiveRule base] (skipRules.map SkipRule.rule) workflowSizeScore =
      .ok ⟨(thin (merges base skipRules (metaDataOf base versions workflowSizeScore)) versions).2,
        (thin (merges base skipRules (metaDataOf base versions workflowSizeScore)) versions).1⟩ := by
  rw [groupWorkflows]
  split
  case isTrue empty => rw [List.eq_nil_of_length_eq_zero empty]; rfl
  case isFalse nonempty =>
    split
    case isTrue single =>
      obtain ⟨version, same⟩ := List.length_eq_one_iff.1 single
      rw [same]
      rfl
    case isFalse =>
      obtain ⟨before, last, same⟩ := (List.eq_nil_or_concat versions).resolve_left
        fun empty => nonempty (by rw [empty]; rfl)
      rw [List.concat_eq_append] at same
      have size : versions.length - 1 = before.length := by rw [same]; simp
      have looped := @diffLoop_eq W base skipRules (metaDataOf base versions workflowSizeScore)
        before last [] []
      rw [← same, ← size] at looped
      have thinned : thin (merges base skipRules (metaDataOf base versions workflowSizeScore)) versions =
          before.foldr (thinnedBy (merges base skipRules (metaDataOf base versions workflowSizeScore)))
            ([last], []) := by
        rw [thin_eq_foldr]
        generalize metaDataOf base versions workflowSizeScore = metaData
        rw [same, List.foldr_append]
        rfl
      simp only [looped, Fallible.ok_bind, ← thinned]
      rfl

/-- The versions are objects, told apart by their places in the list: none is lost or
there twice, those that remain keep their order, the last one among them, and every
removed one is kept by one that remains behind it. -/
structure LosesNothing (versions : List DiffableWorkflow)
    (grouped : GroupedWorkflows (Fin versions.length)) : Prop where
  whole : (grouped.remaining ++ grouped.removed).Perm (List.finRange versions.length)
  ordered : grouped.remaining.Sublist (List.finRange versions.length)
  last : grouped.remaining.getLast? = (List.finRange versions.length).getLast?
  kept : ∀ i ∈ grouped.removed, ∃ j ∈ grouped.remaining, i < j ∧
    KeepsVersion (versions.get i) (versions.get j)

/-- Pruning loses nothing exactly where, whenever the loop takes a version out, the
version behind it has not changed in what is not compared, or a version that remains
further back happens to keep the whole of it. -/
theorem groupWorkflows_losesNothing_iff (versions : List DiffableWorkflow)
    (skipRules : List (SkipRule (Fin versions.length))) (workflowSizeScore : Bool) :
    (∃ grouped, groupWorkflows versions.get (List.finRange versions.length)
        [additiveRule versions.get] (skipRules.map SkipRule.rule) workflowSizeScore = .ok grouped ∧
      LosesNothing versions grouped) ↔
    WheneverMerged
      (merges versions.get skipRules
        (metaDataOf versions.get (List.finRange versions.length) workflowSizeScore))
      (fun i j later => UncheckedKept (versions.get i) (versions.get j) ∨
        ∃ k ∈ later, KeepsVersion (versions.get i) (versions.get k))
      (List.finRange versions.length) := by
  rw [groupWorkflows_eq]
  have atMerge : ∀ i j later, merges versions.get skipRules
      (metaDataOf versions.get (List.finRange versions.length) workflowSizeScore) i j = true →
      ((∃ k ∈ j :: later, KeepsVersion (versions.get i) (versions.get k)) ↔
        UncheckedKept (versions.get i) (versions.get j) ∨
          ∃ k ∈ later, KeepsVersion (versions.get i) (versions.get k)) := by
    intro i j later merged
    rw [List.exists_mem_cons_iff, (merged_of_merges merged).keepsVersion_iff]
  have steps := @removed_iff _ (merges versions.get skipRules
      (metaDataOf versions.get (List.finRange versions.length) workflowSizeScore)) _ _
    (fun i j => KeepsVersion (versions.get i) (versions.get j))
    (List.pairwise_lt_finRange versions.length)
  refine ⟨fun ⟨grouped, ran, nothing⟩ => ?_, fun held => ⟨_, rfl, ?_⟩⟩
  · rw [← Except.ok.inj ran] at nothing
    exact (steps.1 nothing.kept).mono fun i j later merged => (atMerge i j later merged).1
  · exact ⟨thin_perm _, thin_sublist _, thin_getLast? _,
      steps.2 (held.mono fun i j later merged => (atMerge i j later merged).2)⟩

/-- The node of the first version is disabled, that of the second is not. -/
def enabledLater : List DiffableWorkflow :=
  let node := fun disabled : Bool => ({
    id := "1"
    parameters := .object []
    properties := .ofList [("name", .string "A"), ("disabled", .bool disabled)] } : DiffableNode)
  [{ nodes := [node true] }, { nodes := [node false] }]

theorem disabled_lost : ¬ ∃ grouped, groupWorkflows enabledLater.get (List.finRange enabledLater.length)
    [additiveRule enabledLater.get] [] false = .ok grouped ∧ LosesNothing enabledLater grouped := by
  intro ⟨grouped, ran, nothing⟩
  have removed : groupWorkflows enabledLater.get (List.finRange enabledLater.length)
      [additiveRule enabledLater.get] [] false = .ok ⟨[⟨0, by decide⟩], [⟨1, by decide⟩]⟩ := by rfl
  rw [removed] at ran
  rw [← Except.ok.inj ran] at nothing
  obtain ⟨j, remains, _, kept⟩ := nothing.kept ⟨0, by decide⟩ List.mem_cons_self
  rw [List.mem_singleton.1 remains] at kept
  obtain ⟨nextNode, member, keeps⟩ := kept.nodes _ List.mem_cons_self
  rw [List.mem_singleton.1 member] at keeps
  exact absurd (keeps.settings "disabled" (by decide)) (by decide)

end

end NodeAutomation.WorkflowDiff
