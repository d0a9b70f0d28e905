import NodeAutomation.Interfaces
import Mathlib.Data.List.GetD
import Mathlib.Data.List.Forall2
import Mathlib.Tactic.SplitIfs

/-! The two indexes of a workflow's connections: by source node, as they are
stored, and by destination node, as `mapConnectionsByDestination` rebuilds them
(`packages/workflow/src/common/map-connections-by-destination.ts`). -/

namespace NodeAutomation.Connections

/-- A connection with both its ends. -/
structure Link where
  source : String
  type : NodeConnectionType
  outputIndex : Nat
  target : IConnection
  deriving DecidableEq, Repr

def Link.origin (link : Link) : IConnection := ⟨link.source, link.type, link.outputIndex⟩

def linksOfOutputs (source : String) (type : NodeConnectionType)
    (outputs : NodeInputConnections) : List Link :=
  outputs.zipIdx.flatMap fun (group, outputIndex) =>
    (group.getD []).map fun target => ⟨source, type, outputIndex, target⟩

def linksOfNode (source : String) (byType : INodeConnections) : List Link :=
  byType.entries.flatMap fun (type, outputs) => linksOfOutputs source type outputs

def links (connections : IConnections) : List Link :=
  connections.entries.flatMap fun (source, byType) => linksOfNode source byType

theorem mem_linksOfOutputs {source : String} {type : NodeConnectionType}
    {outputs : NodeInputConnections} {link : Link} :
    link ∈ linksOfOutputs source type outputs ↔ link.source = source ∧ link.type = type ∧
      ∃ group, outputs[link.outputIndex]? = some (some group) ∧ link.target ∈ group := by
  simp only [linksOfOutputs, List.mem_flatMap, List.mem_map, Prod.exists, List.mk_mem_zipIdx_iff_getElem?]
  constructor
  · intro h
    obtain ⟨group, outputIndex, found, target, member, eq⟩ := h
    subst eq
    cases group with
    | none => simp at member
    | some group => exact ⟨rfl, rfl, group, found, member⟩
  · intro h
    obtain ⟨sourceEq, typeEq, group, found, member⟩ := h
    subst sourceEq typeEq
    exact ⟨some group, link.outputIndex, found, link.target, member, rfl⟩

variable (connections : IConnections)

theorem mem_links_iff (link : Link) :
    link ∈ links connections ↔ ∃ byType, connections.get link.source = some byType ∧
      ∃ outputs, byType.get link.type = some outputs ∧
      ∃ group, outputs[link.outputIndex]? = some (some group) ∧ link.target ∈ group := by
  simp only [links, linksOfNode, List.mem_flatMap, mem_linksOfOutputs, OrderedMap.get_eq_some_iff,
    Prod.exists]
  constructor
  · intro h
    obtain ⟨source, byType, stored, type, outputs, storedType, sourceEq, typeEq, found⟩ := h
    subst sourceEq typeEq
    exact ⟨byType, stored, outputs, storedType, found⟩
  · intro h
    obtain ⟨byType, stored, outputs, storedType, found⟩ := h
    exact ⟨_, byType, stored, _, outputs, storedType, rfl, rfl, found⟩

/-- One connection of `mapConnectionsByDestination`'s inner loop: the target's
inputs are padded with empty buckets up to the connected index. -/
def addByDestination (returnConnection : IConnections) (link : Link) : IConnections :=
  let byType := (returnConnection.get link.target.node).getD ∅
  let inputs := (byType.get link.target.type).getD []
  let padded := inputs ++ List.replicate (link.target.index + 1 - inputs.length) (some [])
  returnConnection.set link.target.node
    (byType.set link.target.type
      (padded.modify link.target.index (Option.map (· ++ [link.origin]))))

def mapConnectionsByDestination (connections : IConnections) : IConnections :=
  (links connections).foldl addByDestination ∅

def outputsOf (index : IConnections) (node : String) (type : NodeConnectionType) :
    Option NodeInputConnections :=
  (index.get node).bind (·.get type)

/-- The inputs stored under a node and a type; `null` groups read as empty. -/
def inputsOf (index : IConnections) (node : String) (type : NodeConnectionType) :
    Option (List (List IConnection)) :=
  (outputsOf index node type).map (List.map (·.getD []))

def bucket (index : IConnections) (target : IConnection) : List IConnection :=
  ((inputsOf index target.node target.type).getD []).getD target.index []

/-- Equal but for the order inside a bucket. -/
def SameUpToBuckets (a b : IConnections) : Prop :=
  (∀ node, node ∈ a.keys ↔ node ∈ b.keys) ∧
  ∀ node type, Option.Rel (List.Forall₂ List.Perm) (inputsOf a node type) (inputsOf b node type)

theorem SameUpToBuckets.refl (a : IConnections) : SameUpToBuckets a a := by
  refine ⟨fun _ => Iff.rfl, fun node type => ?_⟩
  cases inputsOf a node type with
  | none => exact .none
  | some inputs => exact .some (List.forall₂_same.2 fun group _ => List.Perm.refl group)

theorem SameUpToBuckets.bucket_perm {a b : IConnections} (same : SameUpToBuckets a b)
    (target : IConnection) : (bucket a target).Perm (bucket b target) := by
  have related := same.2 target.node target.type
  unfold bucket
  revert related
  generalize inputsOf a target.node target.type = x
  generalize inputsOf b target.node target.type = y
  intro related
  cases related with
  | none => rfl
  | @some xs ys groups =>
    simp only [Option.getD_some]
    have lengths := groups.length_eq
    rw [List.forall₂_iff_get] at groups
    by_cases inside : target.index < xs.length
    · rw [List.getD_eq_getElem _ _ inside, List.getD_eq_getElem _ _ (lengths ▸ inside)]
      exact groups.2 target.index inside (lengths ▸ inside)
    · rw [List.getD_eq_default _ _ (by omega), List.getD_eq_default _ _ (by omega)]

variable (index : IConnections)

theorem mem_keys_addByDestination (link : Link) (node : String) :
    node ∈ (addByDestination index link).keys ↔ node = link.target.node ∨ node ∈ index.keys :=
  OrderedMap.mem_keys_set _ _ _ _

def padded (index : IConnections) (target : IConnection) : NodeInputConnections :=
  (outputsOf index target.node target.type).getD [] ++
    List.replicate (target.index + 1 - ((outputsOf index target.node target.type).getD []).length)
      (some [])

theorem outputsOf_addByDestination (link : Link) (node type) :
    outputsOf (addByDestination index link) node type =
      if node = link.target.node ∧ type = link.target.type then
        some ((padded index link.target).modify link.target.index
          (Option.map (· ++ [link.origin])))
      else outputsOf index node type := by
  have unfolded : ((index.get link.target.node).getD ∅).get link.target.type =
      outputsOf index link.target.node link.target.type := by
    unfold outputsOf
    cases index.get link.target.node <;> rfl
  simp only [outputsOf, addByDestination, OrderedMap.get_set, unfolded]
  by_cases sameNode : node = link.target.node
  · subst sameNode
    by_cases sameType : type = link.target.type
    · subst sameType
      rw [if_pos rfl, if_pos ⟨rfl, rfl⟩, Option.bind_some, OrderedMap.get_set_self, padded]
      rfl
    · simp only [if_true, Option.bind_some, OrderedMap.get_set, sameType, if_false, and_false]
      cases index.get link.target.node <;> rfl
  · simp [sameNode]

theorem lt_length_padded (target : IConnection) :
    target.index < (padded index target).length := by
  simp only [padded, List.length_append, List.length_replicate]
  omega

/-- Buckets are never `null` in an index that is built connection by connection. -/
def Filled (index : IConnections) : Prop :=
  ∀ node type inputs, outputsOf index node type = some inputs → none ∉ inputs

theorem filled_empty : Filled ∅ := by
  intro node type inputs h
  simp [outputsOf] at h

theorem Filled.padded {index : IConnections} (filled : Filled index) (target : IConnection) :
    none ∉ padded index target := by
  simp only [Connections.padded, List.mem_append, List.mem_replicate, not_or]
  refine ⟨?_, by simp⟩
  cases stored : outputsOf index target.node target.type with
  | none => simp
  | some inputs => exact filled _ _ _ stored

theorem Filled.addByDestination {index : IConnections} (filled : Filled index) (link : Link) :
    Filled (addByDestination index link) := by
  intro node type inputs stored missing
  rw [outputsOf_addByDestination] at stored
  split_ifs at stored with here
  · have eq := Option.some.inj stored
    rw [← eq, List.mem_iff_getElem?] at missing
    obtain ⟨i, found⟩ := missing
    rw [List.getElem?_modify] at found
    apply filled.padded link.target
    rw [List.mem_iff_getElem?]
    refine ⟨i, ?_⟩
    cases value : (Connections.padded index link.target)[i]? with
    | none => simp [value] at found
    | some group =>
      cases group with
      | none => rfl
      | some connections => by_cases hit : link.target.index = i <;> simp [value, hit] at found
  · exact filled _ _ _ stored missing

theorem bucket_eq (target : IConnection) :
    bucket index target =
      (((outputsOf index target.node target.type).getD [])[target.index]?.join).getD [] := by
  unfold bucket inputsOf
  cases outputsOf index target.node target.type with
  | none => simp
  | some outputs =>
    simp only [Option.map_some, Option.getD_some, List.getD_eq_getElem?_getD, List.getElem?_map]
    cases outputs[target.index]? <;> rfl

theorem mem_links_iff_mem_bucket (link : Link) :
    link ∈ links connections ↔ link.target ∈ bucket connections link.origin := by
  rw [mem_links_iff, bucket_eq]
  constructor
  · intro h
    obtain ⟨byType, stored, outputs, storedType, group, found, member⟩ := h
    have reached : outputsOf connections link.origin.node link.origin.type = some outputs := by
      change (connections.get link.source).bind (·.get link.type) = _
      rw [stored]
      exact storedType
    rw [reached]
    change link.target ∈ (outputs[link.outputIndex]?.join).getD []
    rw [found]
    exact member
  · intro h
    cases reached : outputsOf connections link.origin.node link.origin.type with
    | none => simp [reached] at h
    | some outputs =>
      obtain ⟨byType, stored, storedType⟩ := Option.bind_eq_some_iff.1 reached
      rw [reached, Option.getD_some] at h
      cases found : outputs[link.origin.index]? with
      | none => simp [found] at h
      | some group =>
        cases group with
        | none => simp [found] at h
        | some group =>
          refine ⟨byType, stored, outputs, storedType, group, found, ?_⟩
          simpa [found] using h

theorem bucket_addByDestination {index : IConnections} (filled : Filled index) (link : Link)
    (target : IConnection) :
    bucket (addByDestination index link) target =
      bucket index target ++ if link.target = target then [link.origin] else [] := by
  rw [bucket_eq, bucket_eq, outputsOf_addByDestination]
  by_cases here : target.node = link.target.node ∧ target.type = link.target.type
  · rw [if_pos here, here.1, here.2, Option.getD_some, List.getElem?_modify]
    have unpad : ((padded index link.target)[target.index]?.join).getD [] =
        (((outputsOf index link.target.node link.target.type).getD [])[target.index]?.join).getD
          [] := by
      rw [padded, List.getElem?_append]
      split_ifs with inside
      · rfl
      · rw [List.getElem?_replicate, @List.getElem?_eq_none _ _ target.index (by omega)]
        split_ifs <;> rfl
    rw [← unpad]
    by_cases hit : link.target.index = target.index
    · have whole : link.target = target := IConnection.ext here.1.symm here.2.symm hit
      have inside := lt_length_padded index link.target
      have present := filled.padded link.target
      simp only [whole, if_true] at inside present ⊢
      cases value : (padded index target)[target.index]? with
      | none => simp at value; omega
      | some group =>
        cases group with
        | none => exact absurd (List.mem_of_getElem? value) present
        | some connections => rfl
    · rw [if_neg (fun whole => hit (congrArg IConnection.index whole)), List.append_nil]
      simp only [hit, if_false]
      cases (padded index link.target)[target.index]? <;> rfl
  · rw [if_neg here, if_neg, List.append_nil]
    intro whole
    exact here ⟨congrArg IConnection.node whole.symm, congrArg IConnection.type whole.symm⟩

/-! What the index holds once every connection is in. -/

theorem foldl_addByDestination {index : IConnections} (filled : Filled index) (more : List Link)
    (target : IConnection) :
    bucket (more.foldl addByDestination index) target =
      bucket index target ++ (more.filter (·.target = target)).map Link.origin := by
  induction more generalizing index with
  | nil => simp
  | cons link more ih =>
    rw [List.foldl_cons, ih (filled.addByDestination link), bucket_addByDestination filled,
      List.append_assoc]
    by_cases hit : link.target = target <;> simp [hit]

theorem bucket_mapConnectionsByDestination (target : IConnection) :
    bucket (mapConnectionsByDestination connections) target =
      ((links connections).filter (·.target = target)).map Link.origin := by
  rw [mapConnectionsByDestination, foldl_addByDestination filled_empty, bucket_eq]
  rfl

theorem mem_bucket_iff (target origin : IConnection) :
    origin ∈ bucket (mapConnectionsByDestination connections) target ↔
      ⟨origin.node, origin.type, origin.index, target⟩ ∈ links connections := by
  rw [bucket_mapConnectionsByDestination]
  simp only [List.mem_map, List.mem_filter, decide_eq_true_eq]
  constructor
  · intro h
    obtain ⟨link, ⟨member, hit⟩, eq⟩ := h
    rw [← eq, ← hit]
    exact member
  · exact fun member => ⟨_, ⟨member, rfl⟩, rfl⟩

theorem mem_keys_foldl (more : List Link) (node : String) :
    node ∈ (more.foldl addByDestination index).keys ↔
      node ∈ index.keys ∨ ∃ link ∈ more, link.target.node = node := by
  induction more generalizing index with
  | nil => simp
  | cons link more ih =>
    rw [List.foldl_cons, ih, mem_keys_addByDestination]
    simp only [List.mem_cons, exists_eq_or_imp, @eq_comm _ node]
    tauto

theorem mem_keys_mapConnectionsByDestination (node : String) :
    node ∈ (mapConnectionsByDestination connections).keys ↔
      ∃ link ∈ links connections, link.target.node = node := by
  rw [mapConnectionsByDestination, mem_keys_foldl]
  simp [OrderedMap.keys]

end NodeAutomation.Connections
