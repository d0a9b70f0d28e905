import NodeAutomation.Workflow.AccessPatterns
import NodeAutomation.Workflow.Workflow

/-! `Workflow.renameNode`: the node map, the expressions of every node and the
index by source node follow the new name. The index by destination node is left
as it was, which shows as soon as the renamed node has a connection. -/

namespace NodeAutomation

namespace Rename
open JsValue AccessPatterns

section

variable (currentName newName : String)

def renameInText (text : String) : String :=
  String.ofList (applyAccessPatterns text.toList currentName.toList newName.toList)

mutual

/-- `null` has no keys to visit and comes back as an empty object; the elements
of an array are visited without `hasRenamableContent`. -/
def renameNodeInParameterValue (hasRenamableContent : Bool) : JsValue → JsValue
  | .string text =>
    if text.toList.head? = some '=' ∨ hasRenamableContent then
      .string (renameInText currentName newName text)
    else .string text
  | .null => .object []
  | .array values => .array (renameNodeInArray values)
  | .object fields => .object (renameNodeInObject hasRenamableContent fields)
  | .undefined => .undefined
  | .bool value => .bool value
  | .number value => .number value

def renameNodeInArray : List JsValue → List JsValue
  | [] => []
  | value :: values => renameNodeInParameterValue false value :: renameNodeInArray values

def renameNodeInObject (hasRenamableContent : Bool) :
    List (String × JsValue) → List (String × JsValue)
  | [] => []
  | (name, value) :: fields =>
    (name, renameNodeInParameterValue hasRenamableContent value) ::
      renameNodeInObject hasRenamableContent fields

end

def NODES_WITH_RENAMABLE_CONTENT : List String :=
  ["n8n-nodes-base.code", "n8n-nodes-base.function", "n8n-nodes-base.functionItem",
    "n8n-nodes-base.aiTransform"]

def NODES_WITH_RENAMABLE_FORM_HTML_CONTENT : List String := ["n8n-nodes-base.form"]

def NODES_WITH_RENAMEABLE_TOPLEVEL_HTML_CONTENT : List String :=
  ["n8n-nodes-base.mailgun", "n8n-nodes-base.html"]

def renameFormField (renameField : JsValue → JsValue) (formFieldValue : JsValue) : JsValue :=
  match formFieldValue with
  | .object fields =>
    if fields.lookup "fieldType" = some (.string "html") ∧ (fields.lookup "html").isSome then
      formFieldValue.setField "html" (renameField (formFieldValue.getField "html"))
    else formFieldValue
  | _ => formFieldValue

def renameFormFields (renameField : JsValue → JsValue) (parameters : JsValue) : JsValue :=
  match (parameters.getField "formFields").getField "values" with
  | .array values =>
    parameters.setField "formFields" ((parameters.getField "formFields").setField "values"
      (.array (values.map (renameFormField renameField))))
  | _ => parameters

def renameField (name : String) (parameters : JsValue) : JsValue :=
  parameters.setField name
    (renameNodeInParameterValue currentName newName true (parameters.getField name))

/-- The part of `renameNode`'s loop that one node goes through. -/
def renameInParametersOf (node : INode) : INode :=
  let parameters := renameNodeInParameterValue currentName newName false node.parameters
  let parameters := if node.type ∈ NODES_WITH_RENAMABLE_CONTENT then
    renameField currentName newName "jsCode" parameters else parameters
  let parameters := if node.type ∈ NODES_WITH_RENAMEABLE_TOPLEVEL_HTML_CONTENT then
    renameField currentName newName "html" parameters else parameters
  let parameters := if node.type ∈ NODES_WITH_RENAMABLE_FORM_HTML_CONTENT then
    renameFormFields (renameNodeInParameterValue currentName newName true) parameters else parameters
  { node with parameters := parameters }

end

end Rename

namespace Workflow
open Connections ConnectedNodes Rename

def restrictedKeys : List String :=
  ["hasOwnProperty", "isPrototypeOf", "propertyIsEnumerable", "toLocaleString", "toString",
    "valueOf", "constructor", "prototype", "__proto__", "__defineGetter__", "__defineSetter__",
    "__lookupGetter__", "__lookupSetter__"]

/-- Lower case as far as a comparison with the restricted names can tell: the
Kelvin sign is the only other character whose lower case is a Latin letter. -/
def toLowerCase (name : String) : List Char :=
  name.toList.map fun c => if c = '\u212a' then 'k' else c.toLower

def isRestricted (newName : String) : Bool :=
  (restrictedKeys.map toLowerCase).contains (toLowerCase newName)

/-- `map[newName] = map[currentName]; delete map[currentName]`. -/
def moveKey {ν : Type} (map : OrderedMap String ν) (currentName newName : String) :
    OrderedMap String ν :=
  match map.get currentName with
  | some value => (map.set newName value).delete currentName
  | none => map

def renameTarget (currentName newName : String) (target : IConnection) : IConnection :=
  { target with node := if target.node = currentName then newName else target.node }

def renameTargets (currentName newName : String) (byType : INodeConnections) : INodeConnections :=
  byType.mapValues (List.map (Option.map (List.map (renameTarget currentName newName))))

def renameConnections (connections : IConnections) (currentName newName : String) : IConnections :=
  (moveKey connections currentName newName).mapValues (renameTargets currentName newName)

def renameNodes (nodes : OrderedMap String INode) (currentName newName : String) :
    OrderedMap String INode :=
  (match nodes.get currentName with
    | some node => (nodes.set newName { node with name := newName }).delete currentName
    | none => nodes).mapValues (renameInParametersOf currentName newName)

theorem renameNodes_named {nodes : OrderedMap String INode}
    (named : ∀ name node, nodes.get name = some node → node.name = name)
    (currentName newName name : String) (node : INode)
    (h : (renameNodes nodes currentName newName).get name = some node) : node.name = name := by
  simp only [renameNodes, OrderedMap.get_mapValues, Option.map_eq_some_iff] at h
  obtain ⟨before, found, eq⟩ := h
  have kept : node.name = before.name := by
    rw [← eq]
    rfl
  rw [kept]
  split at found
  · rw [OrderedMap.get_delete] at found
    split at found
    · cases found
    · rw [OrderedMap.get_set] at found
      split at found
      · rename_i here
        rw [← Option.some.inj found, here]
      · exact named name before found
  · exact named name before found

def renameNode (workflow : Workflow) (currentName newName : String) : Except JsError Workflow :=
  if isRestricted newName then
    .error (.userError ("Node name \"" ++ newName ++ "\" is a restricted name.")
      (some ("Node names cannot be any of the following: " ++
        ", ".intercalate restrictedKeys)))
  else
    .ok { workflow with
      nodes := renameNodes workflow.nodes currentName newName
      named := renameNodes_named workflow.named currentName newName
      connectionsBySourceNode :=
        renameConnections workflow.connectionsBySourceNode currentName newName }

/-! What the rename does to the index by source node. -/

def renamed (currentName newName name : String) : String :=
  if name = currentName then newName else name

def renameLink (currentName newName : String) (link : Link) : Link :=
  { link with
    source := renamed currentName newName link.source
    target := renameTarget currentName newName link.target }

theorem renamed_ne {currentName newName name : String} (fresh : newName ≠ currentName) :
    renamed currentName newName name ≠ currentName := by
  unfold renamed
  split
  · exact fresh
  · assumption

theorem get_moveKey {ν : Type} (map : OrderedMap String ν) (currentName newName name : String)
    (unused : newName ∉ map.keys) :
    (moveKey map currentName newName).get name =
      if name = currentName then none
      else if name = newName then map.get currentName else map.get name := by
  have absent : map.get newName = none := (map.get_eq_none_iff newName).2 unused
  cases stored : map.get currentName with
  | some value => simp only [moveKey, stored, OrderedMap.get_delete, OrderedMap.get_set]
  | none =>
    simp only [moveKey, stored]
    split
    · rename_i here
      rw [here, stored]
    · split
      · rename_i here
        rw [here, absent]
      · rfl

section

variable {currentName newName : String}

theorem get_renameConnections {connections : IConnections} (unused : newName ∉ connections.keys)
    (fresh : newName ≠ currentName) {name : String} {byType : INodeConnections}
    (stored : connections.get name = some byType) :
    (renameConnections connections currentName newName).get (renamed currentName newName name) =
      some (renameTargets currentName newName byType) := by
  have key : name ∈ connections.keys := (connections.mem_keys_iff name).2 ⟨byType, stored⟩
  have other : name ≠ newName := fun same => unused (same ▸ key)
  rw [renameConnections, OrderedMap.get_mapValues, get_moveKey _ _ _ _ unused]
  unfold renamed
  split
  · rename_i here
    rw [if_pos rfl, ← here, stored]
    rfl
  · rename_i away
    rw [stored]
    rfl

theorem of_get_renameConnections {connections : IConnections}
    (unused : newName ∉ connections.keys) {name : String} {byType : INodeConnections}
    (stored : (renameConnections connections currentName newName).get name = some byType) :
    ∃ before byTypeBefore, connections.get before = some byTypeBefore ∧
      renamed currentName newName before = name ∧
      renameTargets currentName newName byTypeBefore = byType := by
  rw [renameConnections, OrderedMap.get_mapValues, get_moveKey _ _ _ _ unused,
    Option.map_eq_some_iff] at stored
  obtain ⟨byTypeBefore, found, eq⟩ := stored
  split at found
  · cases found
  · rename_i away
    split at found
    · rename_i here
      exact ⟨currentName, byTypeBefore, found, by rw [renamed, if_pos rfl, here], eq⟩
    · exact ⟨name, byTypeBefore, found, by rw [renamed, if_neg away], eq⟩

/-- The connections afterwards are those before, with the name replaced. -/
theorem mem_links_renameConnections (connections : IConnections)
    (unused : newName ∉ connections.keys) (fresh : newName ≠ currentName) (link : Link) :
    link ∈ links (renameConnections connections currentName newName) ↔
      ∃ before ∈ links connections, renameLink currentName newName before = link := by
  simp only [mem_links_iff]
  constructor
  · intro h
    obtain ⟨byType, stored, outputs, storedType, group, found, member⟩ := h
    obtain ⟨source, byTypeBefore, storedBefore, sourceEq, byTypeEq⟩ :=
      of_get_renameConnections unused stored
    rw [← byTypeEq, renameTargets, OrderedMap.get_mapValues, Option.map_eq_some_iff] at storedType
    obtain ⟨outputsBefore, typeBefore, outputsEq⟩ := storedType
    rw [← outputsEq, List.getElem?_map, Option.map_eq_some_iff] at found
    obtain ⟨groupBefore, foundBefore, groupEq⟩ := found
    obtain ⟨inner, innerEq, mapEq⟩ := Option.map_eq_some_iff.1 groupEq
    rw [← mapEq, List.mem_map] at member
    obtain ⟨target, inside, targetEq⟩ := member
    refine ⟨⟨source, link.type, link.outputIndex, target⟩,
      ⟨byTypeBefore, storedBefore, outputsBefore, typeBefore, inner, ?_, inside⟩, ?_⟩
    · rw [foundBefore, innerEq]
    · rw [renameLink, sourceEq, targetEq]
  · intro h
    obtain ⟨before, ⟨byType, stored, outputs, storedType, group, found, inside⟩, eq⟩ := h
    refine ⟨renameTargets currentName newName byType, ?_,
      outputs.map (Option.map (List.map (renameTarget currentName newName))), ?_,
      group.map (renameTarget currentName newName), ?_, ?_⟩
    · rw [← eq]
      exact get_renameConnections unused fresh stored
    · rw [← eq, renameTargets, OrderedMap.get_mapValues]
      change Option.map _ (byType.get before.type) = _
      rw [storedType]
      rfl
    · rw [← eq, List.getElem?_map]
      change Option.map _ outputs[before.outputIndex]? = _
      rw [found]
      rfl
    · rw [← eq]
      exact List.mem_map_of_mem inside

/-- The node has no connection, in either direction. -/
def Unconnected (connections : IConnections) (name : String) : Prop :=
  ∀ link ∈ links connections, link.source ≠ name ∧ link.target.node ≠ name

theorem linksOfNode_renameTargets (source : String) (byType : INodeConnections)
    (untouched : ∀ link ∈ linksOfNode source byType, link.target.node ≠ currentName) :
    linksOfNode source (renameTargets currentName newName byType) = linksOfNode source byType := by
  have outputsSame : ∀ entry ∈ byType.entries,
      linksOfOutputs source entry.1
        (entry.2.map (Option.map (List.map (renameTarget currentName newName)))) =
      linksOfOutputs source entry.1 entry.2 := by
    intro entry member
    simp only [linksOfOutputs, List.zipIdx_map, List.flatMap_map]
    apply List.flatMap_congr
    intro group inside
    have kept : (group.1.getD []).map (renameTarget currentName newName) = group.1.getD [] := by
      refine (List.map_congr_left fun target stored => ?_).trans (List.map_id _)
      have away := untouched ⟨source, entry.1, group.2, target⟩
        (List.mem_flatMap.2 ⟨entry, member, List.mem_flatMap.2
          ⟨group, inside, List.mem_map_of_mem stored⟩⟩)
      simp only [renameTarget, if_neg away]
      rfl
    cases present : group.1 with
    | none => simp [present]
    | some targets =>
      rw [present, Option.getD_some] at kept
      simp [present, kept]
  simp only [linksOfNode, renameTargets, OrderedMap.mapValues, List.flatMap_map]
  exact List.flatMap_congr outputsSame

theorem linksOfNode_eq_nil_iff (source other : String) (byType : INodeConnections) :
    linksOfNode source byType = [] ↔ linksOfNode other byType = [] := by
  simp only [linksOfNode, linksOfOutputs, List.flatMap_eq_nil_iff, List.map_eq_nil_iff]

theorem links_moveKey (connections : IConnections) (unused : newName ∉ connections.keys)
    (silent : ∀ byType, connections.get currentName = some byType →
      linksOfNode currentName byType = []) :
    links (moveKey connections currentName newName) = links connections := by
  cases stored : connections.get currentName with
  | none => simp only [moveKey, stored]
  | some byType =>
    have none_ := silent byType stored
    have moved : linksOfNode newName byType = [] := (linksOfNode_eq_nil_iff _ _ _).1 none_
    have dropped : ∀ entries : List (String × INodeConnections),
        (∀ entry ∈ entries, entry.1 = currentName → linksOfNode entry.1 entry.2 = []) →
        (entries.filter fun entry => entry.1 ≠ currentName).flatMap
          (fun entry => linksOfNode entry.1 entry.2) =
        entries.flatMap fun entry => linksOfNode entry.1 entry.2 := by
      intro entries quiet
      induction entries with
      | nil => rfl
      | cons entry entries ih =>
        have rest := ih fun e member => quiet e (List.mem_cons_of_mem entry member)
        rw [List.filter_cons]
        split
        · rw [List.flatMap_cons, List.flatMap_cons, rest]
        · rename_i here
          have same : entry.1 = currentName := by simpa using here
          rw [rest, List.flatMap_cons, quiet entry List.mem_cons_self same, List.nil_append]
    have entries : (moveKey connections currentName newName).entries =
        (connections.entries ++ [(newName, byType)]).filter fun entry => entry.1 ≠ currentName := by
      rw [← OrderedMap.entries_set_of_not_mem connections byType unused]
      simp only [moveKey, stored]
      rfl
    unfold links
    rw [entries]
    rw [dropped, List.flatMap_append]
    · simp [moved]
    · intro entry member same
      cases List.mem_append.1 member with
      | inl old =>
        have found := (connections.get_eq_some_iff entry.1 entry.2).2 old
        rw [same] at found ⊢
        exact silent entry.2 found
      | inr added =>
        have eq := List.mem_singleton.1 added
        rw [eq]
        exact moved

theorem links_renameConnections (connections : IConnections)
    (unused : newName ∉ connections.keys) (alone : Unconnected connections currentName) :
    links (renameConnections connections currentName newName) = links connections := by
  have silent : ∀ byType, connections.get currentName = some byType →
      linksOfNode currentName byType = [] := by
    intro byType stored
    apply List.eq_nil_iff_forall_not_mem.2
    intro link member
    have listed : link ∈ links connections := List.mem_flatMap.2
      ⟨(currentName, byType), (connections.get_eq_some_iff _ _).1 stored, member⟩
    obtain ⟨type, inside⟩ := List.mem_flatMap.1 member
    exact (alone link listed).1 (mem_linksOfOutputs.1 inside.2).1
  have moved := links_moveKey connections unused silent
  rw [← moved]
  simp only [links, renameConnections, OrderedMap.mapValues, List.flatMap_map]
  apply List.flatMap_congr
  intro entry member
  apply linksOfNode_renameTargets
  intro link inside
  have listed : link ∈ links (moveKey connections currentName newName) :=
    List.mem_flatMap.2 ⟨entry, member, inside⟩
  rw [moved] at listed
  exact (alone link listed).2

end

inductive Operation where
  | setConnections (connections : IConnections)
  | renameNode (currentName newName : String)

def perform (workflow : Workflow) : Operation → Except JsError Workflow
  | .setConnections connections => .ok (workflow.setConnections connections)
  | .renameNode currentName newName => workflow.renameNode currentName newName

/-- A rename that throws does so before it changes anything. -/
def after (workflow : Workflow) (operation : Operation) : Workflow :=
  match workflow.perform operation with
  | .ok next => next
  | .error _ => workflow

def AlongRun (P : Workflow → Operation → Prop) : Workflow → List Operation → Prop
  | _, [] => True
  | workflow, operation :: operations =>
    P workflow operation ∧ AlongRun P (workflow.after operation) operations

/-- Neither a node nor an end of a connection. -/
def Unused (workflow : Workflow) (name : String) : Prop :=
  name ∉ workflow.nodes.keys ∧ name ∉ workflow.connectionsBySourceNode.keys ∧
    Unconnected workflow.connectionsBySourceNode name

def RenamesToUnused (workflow : Workflow) : Operation → Prop
  | .setConnections _ => True
  | .renameNode currentName newName => newName ≠ currentName ∧ workflow.Unused newName

/-- What an operation that went through must have kept: the two indexes in
step, the ends of connections among the nodes, and the relatives of a renamed
node, up to the new name. -/
structure Kept (before : Workflow) (operation : Operation) (next : Workflow) : Prop where
  inStep : next.InStep
  endpoints : ∀ currentName newName, operation = .renameNode currentName newName →
    before.EndpointsExist → next.EndpointsExist
  parents : ∀ currentName newName, operation = .renameNode currentName newName →
    ∀ type depth, next.getParentNodes newName type depth =
      (before.getParentNodes currentName type depth).map (renamed currentName newName)
  children : ∀ currentName newName, operation = .renameNode currentName newName →
    ∀ type depth, next.getChildNodes newName type depth =
      (before.getChildNodes currentName type depth).map (renamed currentName newName)

def KeepsIndexes (workflow : Workflow) (operation : Operation) : Prop :=
  ∀ next, workflow.perform operation = .ok next → Kept workflow operation next

def RenamesUnconnected (workflow : Workflow) : Operation → Prop
  | .setConnections _ => True
  | .renameNode currentName newName =>
    isRestricted newName = false → Unconnected workflow.connectionsBySourceNode currentName

theorem mem_keys_renameNodes (nodes : OrderedMap String INode) {currentName newName name : String}
    (fresh : newName ≠ currentName) (member : name ∈ nodes.keys) :
    renamed currentName newName name ∈ (renameNodes nodes currentName newName).keys := by
  rw [renameNodes, OrderedMap.keys_mapValues]
  cases stored : nodes.get currentName with
  | none =>
    have away : name ≠ currentName := fun same =>
      (nodes.get_eq_none_iff currentName).1 stored (same ▸ member)
    simpa only [renamed, if_neg away] using member
  | some node =>
    rw [OrderedMap.mem_keys_delete, OrderedMap.mem_keys_set]
    refine ⟨renamed_ne fresh, ?_⟩
    unfold renamed
    split
    · exact .inl rfl
    · exact .inr member

theorem renameNode_eq_ok_iff (workflow next : Workflow) (currentName newName : String) :
    workflow.renameNode currentName newName = .ok next ↔ isRestricted newName = false ∧
      next = { workflow with
        nodes := renameNodes workflow.nodes currentName newName
        named := renameNodes_named workflow.named currentName newName
        connectionsBySourceNode :=
          renameConnections workflow.connectionsBySourceNode currentName newName } := by
  unfold renameNode
  cases isRestricted newName with
  | true => simp
  | false => simp [eq_comm]

section

variable {workflow next : Workflow} {currentName newName : String}

theorem renameNode_endpointsExist (unused : workflow.Unused newName)
    (fresh : newName ≠ currentName) (went : workflow.renameNode currentName newName = .ok next)
    (exist : workflow.EndpointsExist) : next.EndpointsExist := by
  rw [((renameNode_eq_ok_iff _ _ _ _).1 went).2]
  intro link member
  obtain ⟨before, listed, eq⟩ :=
    (mem_links_renameConnections _ unused.2.1 fresh link).1 member
  have ends := exist before listed
  rw [← eq]
  exact ⟨mem_keys_renameNodes _ fresh ends.1, mem_keys_renameNodes _ fresh ends.2⟩

theorem no_next_of_unconnected {connections : IConnections} {name : String}
    (alone : Unconnected connections name) (filter : ConnectionFilter) (target : String) :
    ¬ Next connections filter name target := by
  intro edge
  obtain ⟨link, member, source, _⟩ := (next_iff _ _ _ _).1 edge
  exact (alone link member).1 source

theorem no_next_of_inStep (inStep : workflow.InStep) {name : String}
    (alone : Unconnected workflow.connectionsBySourceNode name) (filter : ConnectionFilter)
    (target : String) : ¬ Next workflow.connectionsByDestinationNode filter name target := by
  intro edge
  obtain ⟨byType, stored, _⟩ := edge
  have key := (OrderedMap.mem_keys_iff _ _).2 ⟨byType, stored⟩
  rw [inStep.1, mem_keys_mapConnectionsByDestination] at key
  obtain ⟨link, member, reach⟩ := key
  exact (alone link member).2 reach

theorem unconnected_of_inStep (inStep : workflow.InStep) (unused : workflow.Unused newName)
    (fresh : newName ≠ currentName) (went : workflow.renameNode currentName newName = .ok next)
    (still : next.InStep) : Unconnected workflow.connectionsBySourceNode currentName := by
  have eq := ((renameNode_eq_ok_iff _ _ _ _).1 went).2
  have carried : ∀ link ∈ links next.connectionsBySourceNode,
      link ∈ links workflow.connectionsBySourceNode := by
    intro link member
    have ours : link.origin ∈ bucket (mapConnectionsByDestination next.connectionsBySourceNode)
        link.target := (mem_bucket_iff _ _ _).2 member
    have shared : next.connectionsByDestinationNode = workflow.connectionsByDestinationNode := by
      rw [eq]
    have old := (inStep.bucket_perm link.target).subset
      (shared ▸ (still.bucket_perm link.target).symm.subset ours)
    exact (mem_bucket_iff _ _ _).1 old
  intro link member
  have moved : renameLink currentName newName link ∈ links next.connectionsBySourceNode := by
    rw [eq]
    exact (mem_links_renameConnections _ unused.2.1 fresh _).2 ⟨link, member, rfl⟩
  have absent := unused.2.2 _ (carried _ moved)
  constructor
  · intro same
    apply absent.1
    simp only [renameLink, renamed, if_pos same]
  · intro same
    apply absent.2
    simp only [renameLink, renameTarget, if_pos same]

theorem kept_of_unconnected (inStep : workflow.InStep) (unused : workflow.Unused newName)
    (fresh : newName ≠ currentName) (went : workflow.renameNode currentName newName = .ok next)
    (alone : Unconnected workflow.connectionsBySourceNode currentName) :
    Kept workflow (.renameNode currentName newName) next := by
  have eq := ((renameNode_eq_ok_iff _ _ _ _).1 went).2
  have same : links next.connectionsBySourceNode = links workflow.connectionsBySourceNode := by
    rw [eq]
    exact links_renameConnections _ unused.2.1 alone
  have shared : next.connectionsByDestinationNode = workflow.connectionsByDestinationNode := by
    rw [eq]
  have still : next.InStep := by
    rw [InStep, mapConnectionsByDestination, same, shared]
    exact inStep
  have unusedAfter : Unconnected next.connectionsBySourceNode newName := by
    rw [Unconnected, same]
    exact unused.2.2
  refine ⟨still, fun current new eq exist => ?_, fun current new eq type depth => ?_,
    fun current new eq type depth => ?_⟩
  · cases eq
    exact renameNode_endpointsExist unused fresh went exist
  · cases eq
    rw [getParentNodes, getParentNodes,
      getConnectedNodes_eq_nil _ _ _ _ (no_next_of_inStep still unusedAfter type),
      getConnectedNodes_eq_nil _ _ _ _ (no_next_of_inStep inStep alone type), List.map_nil]
  · cases eq
    rw [getChildNodes, getChildNodes,
      getConnectedNodes_eq_nil _ _ _ _ (no_next_of_unconnected unusedAfter type),
      getConnectedNodes_eq_nil _ _ _ _ (no_next_of_unconnected alone type), List.map_nil]

end

theorem keepsIndexes_iff {workflow : Workflow} (inStep : workflow.InStep) (operation : Operation)
    (unused : workflow.RenamesToUnused operation) :
    workflow.KeepsIndexes operation ↔ workflow.RenamesUnconnected operation := by
  cases operation with
  | setConnections connections =>
    refine ⟨fun _ => trivial, fun _ next went => ?_⟩
    cases went
    exact ⟨setConnections_inStep _ _, nofun, nofun, nofun⟩
  | renameNode currentName newName =>
    constructor
    · intro keeps unrestricted
      have went := (renameNode_eq_ok_iff workflow _ currentName newName).2 ⟨unrestricted, rfl⟩
      exact unconnected_of_inStep inStep unused.2 unused.1 went (keeps _ went).inStep
    · intro condition next went
      have unrestricted := ((renameNode_eq_ok_iff _ _ _ _).1 went).1
      exact kept_of_unconnected inStep unused.2 unused.1 went (condition unrestricted)

theorem after_inStep {workflow : Workflow} (inStep : workflow.InStep) {operation : Operation}
    (keeps : workflow.KeepsIndexes operation) : (workflow.after operation).InStep := by
  unfold after
  cases went : workflow.perform operation with
  | ok next => exact (keeps next went).inStep
  | error _ => exact inStep

theorem alongRun_keepsIndexes_iff {workflow : Workflow} (inStep : workflow.InStep)
    (operations : List Operation) (unused : AlongRun RenamesToUnused workflow operations) :
    AlongRun KeepsIndexes workflow operations ↔ AlongRun RenamesUnconnected workflow operations := by
  induction operations generalizing workflow with
  | nil => exact Iff.rfl
  | cons operation operations ih =>
    have step := keepsIndexes_iff inStep operation unused.1
    constructor
    · intro h
      exact ⟨step.1 h.1, (ih (after_inStep inStep h.1) unused.2).1 h.2⟩
    · intro h
      have keeps := step.2 h.1
      exact ⟨keeps, (ih (after_inStep inStep keeps) unused.2).2 h.2⟩

/-- From the constructor on, whatever is renamed and reconnected. -/
theorem new_keepsIndexes_iff (getNodeParameters : INode → Option JsValue)
    (parameters : WorkflowParameters) (operations : List Operation)
    (unused : AlongRun RenamesToUnused (new getNodeParameters parameters) operations) :
    AlongRun KeepsIndexes (new getNodeParameters parameters) operations ↔
      AlongRun RenamesUnconnected (new getNodeParameters parameters) operations :=
  alongRun_keepsIndexes_iff (new_inStep getNodeParameters parameters) operations unused

/-- `A` is connected to `B`; `D` stands alone. -/
def pair : Workflow :=
  new (fun _ => none)
    { nodes := [⟨"A", "", 1, (0, 0), false, false, none, false, .object []⟩,
        ⟨"B", "", 1, (0, 0), false, false, none, false, .object []⟩,
        ⟨"D", "", 1, (0, 0), false, false, none, false, .object []⟩]
      connections := .ofList [("A", .ofList [(.main, [some [⟨"B", .main, 0⟩]])])] }

instance (connections : IConnections) (name : String) : Decidable (Unconnected connections name) :=
  inferInstanceAs (Decidable (∀ link ∈ links connections, link.source ≠ name ∧ link.target.node ≠ name))

instance (workflow : Workflow) (operation : Operation) :
    Decidable (workflow.RenamesToUnused operation) :=
  match operation with
  | .setConnections _ => isTrue trivial
  | .renameNode currentName newName =>
    inferInstanceAs (Decidable (newName ≠ currentName ∧ newName ∉ workflow.nodes.keys ∧
      newName ∉ workflow.connectionsBySourceNode.keys ∧
      Unconnected workflow.connectionsBySourceNode newName))

/-- After `A` becomes `C`, the destination index still says `A` leads to `B`. -/
theorem pair_renamed_out_of_step :
    AlongRun RenamesToUnused pair [.renameNode "A" "C"] ∧
      ¬ AlongRun KeepsIndexes pair [.renameNode "A" "C"] := by
  refine ⟨⟨by decide, trivial⟩, fun keeps => ?_⟩
  have went := (renameNode_eq_ok_iff pair _ "A" "C").2 ⟨by decide, rfl⟩
  have same := (keeps.1 _ went).inStep.bucket_perm ⟨"B", .main, 0⟩
  have stale := same.subset (show (⟨"A", .main, 0⟩ : IConnection) ∈ _ by decide)
  exact absurd stale (by decide)

/-- `D` may become `C`. -/
theorem pair_renamed_in_step :
    AlongRun KeepsIndexes pair [.renameNode "D" "C"] ↔
      AlongRun RenamesUnconnected pair [.renameNode "D" "C"] :=
  new_keepsIndexes_iff _ _ _ ⟨by decide, trivial⟩

end Workflow
end NodeAutomation
