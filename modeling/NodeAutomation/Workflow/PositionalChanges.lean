import NodeAutomation.Workflow.AdditiveMerge
import NodeAutomation.Workflow.Connections
import Mathlib.Data.List.Perm.Subperm

/-! Whether two versions of a workflow differ in more than the positions of their
nodes (`packages/workflow/src/workflow-diff.ts`). The connections are read from
JSON, where an array has no holes. -/

namespace NodeAutomation.WorkflowDiff

/-- `isEqual` of two objects, their values compared by `eq`. -/
def isEqualObjects {κ ν : Type} [DecidableEq κ] (eq : ν → ν → Bool) (a b : OrderedMap κ ν) : Bool :=
  a.size = b.size && a.entries.all fun (key, x) =>
    match b.get key with
    | none => false
    | some y => eq x y

def isEqualConnections (oldConnections newConnections : IConnections) : Bool :=
  isEqualObjects (isEqualObjects fun x y => decide (x = y)) oldConnections newConnections

def hasNonPositionalChanges (oldNodes newNodes : List DiffableNode)
    (oldConnections newConnections : IConnections) : Bool :=
  let nodesDiff := compareWorkflowsNodes oldNodes newNodes
  if nodesDiff.values.any fun diff => diff.status ≠ .eq then true
  else if !isEqualConnections oldConnections newConnections then true
  else false

theorem isEqualObjects_iff {κ ν : Type} [DecidableEq κ] (eq : ν → ν → Bool) (a b : OrderedMap κ ν) :
    isEqualObjects eq a b = true ↔
      ∀ key, Option.Rel (fun x y => eq x y = true) (a.get key) (b.get key) := by
  simp only [isEqualObjects, Bool.and_eq_true, decide_eq_true_eq, List.all_eq_true, Prod.forall,
    ← a.get_eq_some_iff]
  have paired : (∀ key x, a.get key = some x →
      (match b.get key with | none => false | some y => eq x y) = true) ↔
      ∀ key x, a.get key = some x → ∃ y, b.get key = some y ∧ eq x y = true := by
    refine forall_congr' fun key => forall_congr' fun x => imp_congr_right fun _ => ?_
    cases b.get key <;> simp
  rw [paired]
  constructor
  · intro h key
    obtain ⟨sizes, values⟩ := h
    have within : a.keys ⊆ b.keys := by
      intro key member
      obtain ⟨x, stored⟩ := (a.mem_keys_iff key).1 member
      obtain ⟨y, stored', -⟩ := values key x stored
      exact (b.mem_keys_iff key).2 ⟨y, stored'⟩
    have keys : a.keys.Perm b.keys := by
      refine (a.nodup.subperm within).perm_of_length_le ?_
      simp only [OrderedMap.keys, List.length_map]
      exact sizes.ge
    cases stored : a.get key with
    | none =>
      have missing : b.get key = none := by
        rw [OrderedMap.get_eq_none_iff] at stored ⊢
        exact fun member => stored (keys.mem_iff.2 member)
      rw [missing]
      exact .none
    | some x =>
      obtain ⟨y, stored', same⟩ := values key x stored
      rw [stored']
      exact .some same
  · intro h
    have present (key : κ) : key ∈ a.keys ↔ key ∈ b.keys := by
      rw [a.mem_keys_iff, b.mem_keys_iff]
      have related := h key
      generalize a.get key = x at related ⊢
      generalize b.get key = y at related ⊢
      cases related <;> simp
    refine ⟨?_, fun key x stored => ?_⟩
    · have keys := ((List.perm_ext_iff_of_nodup a.nodup b.nodup).2 present).length_eq
      simpa [OrderedMap.size] using keys
    · have related := h key
      rw [stored] at related
      generalize b.get key = found at related
      cases related with
      | some same => exact ⟨_, rfl, same⟩

def SameIds (oldNodes newNodes : List DiffableNode) : Prop :=
  ∀ id, id ∈ oldNodes.map (·.id) ↔ id ∈ newNodes.map (·.id)

/-- What holds of the two nodes of every id that both versions have. -/
def Matched (R : DiffableNode → DiffableNode → Prop) (oldNodes newNodes : List DiffableNode) : Prop :=
  ∀ a ∈ oldNodes, ∀ b ∈ newNodes, a.id = b.id → R a b

/-- The same fields with the same values, in any order and with any position. -/
def EqualButPosition (a b : DiffableNode) : Prop :=
  (∀ property, property ≠ "position" → sameProperty a b property = true) ∧
    isEqual a.parameters b.parameters = true

/-- The fields that are compared have the same values. -/
def EqualWhereCompared (a b : DiffableNode) : Prop :=
  (∀ property ∈ propsToCompare, sameProperty a b property = true) ∧
    isEqual a.parameters b.parameters = true

/-- Another field than the compared ones and the position has another value. -/
def DifferElsewhere (a b : DiffableNode) : Prop :=
  ∃ property, property ≠ "position" ∧ property ∉ propsToCompare ∧ sameProperty a b property = false

def SameConnections (oldConnections newConnections : IConnections) : Prop :=
  ∀ node, Option.Rel (fun a b => ∀ type, a.get type = b.get type) (oldConnections.get node)
    (newConnections.get node)

theorem isEqualConnections_iff (oldConnections newConnections : IConnections) :
    isEqualConnections oldConnections newConnections = true ↔
      SameConnections oldConnections newConnections := by
  have ofNode (a b : INodeConnections) :
      isEqualObjects (fun x y => decide (x = y)) a b = true ↔ ∀ type, a.get type = b.get type := by
    rw [isEqualObjects_iff]
    refine forall_congr' fun type => ?_
    cases a.get type <;> cases b.get type <;> simp
  rw [isEqualConnections, isEqualObjects_iff]
  simp only [ofNode, SameConnections]

theorem compareNodes_iff (a b : DiffableNode) :
    compareNodes a b = true ↔ EqualWhereCompared a b := by
  simp [compareNodes, EqualWhereCompared]

theorem equalButPosition_iff (a b : DiffableNode) :
    EqualButPosition a b ↔ EqualWhereCompared a b ∧ ¬ DifferElsewhere a b := by
  constructor
  · intro h
    refine ⟨⟨fun property member => h.1 property ?_, h.2⟩, ?_⟩
    · rintro rfl
      simp [propsToCompare] at member
    · rintro ⟨property, other, -, differ⟩
      simp [h.1 property other] at differ
  · rintro ⟨compared, elsewhere⟩
    refine ⟨fun property other => ?_, compared.2⟩
    by_cases member : property ∈ propsToCompare
    · exact compared.1 property member
    · by_contra differ
      exact elsewhere ⟨property, other, member, by simpa using differ⟩

theorem byId_eq_some_iff {nodes : List DiffableNode} (unique : (nodes.map (·.id)).Nodup)
    (id : String) (node : DiffableNode) :
    (byId nodes).get id = some node ↔ node ∈ nodes ∧ node.id = id := by
  refine ⟨mem_of_byId, fun h => ?_⟩
  obtain ⟨member, rfl⟩ := h
  refine OrderedMap.get_ofList_of_mem (List.mem_map_of_mem member) fun other stored => ?_
  obtain ⟨node', member', same⟩ := List.mem_map.1 stored
  obtain ⟨ids, rfl⟩ := Prod.mk.inj same
  exact List.inj_on_of_nodup_map unique member' member ids

section

variable {oldNodes newNodes : List DiffableNode}

theorem baseStatus_eq_iff (newUnique : (newNodes.map (·.id)).Nodup) (node : DiffableNode) :
    baseStatus (byId newNodes) node.id node = .eq ↔
      ∃ b ∈ newNodes, b.id = node.id ∧ compareNodes node b = true := by
  rw [baseStatus]
  cases found : (byId newNodes).get node.id with
  | none =>
    constructor
    · intro status
      cases status
    rintro ⟨b, there, ids, -⟩
    simp [(byId_eq_some_iff newUnique node.id b).2 ⟨there, ids⟩] at found
  | some b =>
    obtain ⟨there, ids⟩ := (byId_eq_some_iff newUnique node.id b).1 found
    constructor
    · intro status
      refine ⟨b, there, ids, ?_⟩
      by_contra differ
      simp [differ] at status
    · intro h
      obtain ⟨c, there', ids', same⟩ := h
      rw [← List.inj_on_of_nodup_map newUnique there there' (ids.trans ids'.symm)] at same
      simp [same]

/-- No node is reported: both versions have the same ids, and the fields that are
compared are the same. -/
theorem nodesDiff_eq_iff (oldUnique : (oldNodes.map (·.id)).Nodup)
    (newUnique : (newNodes.map (·.id)).Nodup) :
    (∀ diff ∈ (compareWorkflowsNodes oldNodes newNodes).values, diff.status = .eq) ↔
      SameIds oldNodes newNodes ∧ Matched EqualWhereCompared oldNodes newNodes := by
  constructor
  · intro unchanged
    have kept : ∀ a ∈ oldNodes, ∃ b ∈ newNodes, b.id = a.id ∧ compareNodes a b = true := by
      intro a member
      have found := @compareWorkflowsNodes_get _ newNodes _ _
        ((byId_eq_some_iff oldUnique a.id a).2 ⟨member, rfl⟩)
      rw [← baseStatus_eq_iff newUnique a]
      exact unchanged _ ((OrderedMap.mem_values_iff _ _).2 ⟨a.id, found⟩)
    refine ⟨fun id => ⟨fun member => ?_, fun member => ?_⟩, fun a ha b hb ids => ?_⟩
    · obtain ⟨a, ha, rfl⟩ := List.mem_map.1 member
      obtain ⟨b, hb, ids, -⟩ := kept a ha
      exact List.mem_map.2 ⟨b, hb, ids⟩
    · obtain ⟨b, hb, rfl⟩ := List.mem_map.1 member
      cases found : (byId oldNodes).get b.id with
      | some a =>
        obtain ⟨ha, ids⟩ := mem_of_byId found
        exact List.mem_map.2 ⟨a, ha, ids⟩
      | none =>
        have added := compareWorkflowsNodes_get_added found
          ((byId_eq_some_iff newUnique b.id b).2 ⟨hb, rfl⟩)
        cases unchanged _ ((OrderedMap.mem_values_iff _ _).2 ⟨b.id, added⟩)
    · obtain ⟨c, hc, ids', same⟩ := kept a ha
      rw [List.inj_on_of_nodup_map newUnique hb hc (ids.symm.trans ids'.symm)]
      exact (compareNodes_iff a c).1 same
  · rintro ⟨sameIds, matched⟩ diff member
    rcases compareWorkflowsNodes_values member with ⟨id, found, status⟩ | ⟨-, id, missing, found⟩
    · obtain ⟨inOld, rfl⟩ := mem_of_byId found
      obtain ⟨b, hb, ids⟩ := List.mem_map.1 ((sameIds _).1 (List.mem_map_of_mem inOld))
      rw [status, baseStatus_eq_iff newUnique]
      exact ⟨b, hb, ids, (compareNodes_iff _ b).2 (matched _ inOld b hb ids.symm)⟩
    · obtain ⟨inNew, rfl⟩ := mem_of_byId found
      obtain ⟨a, ha, ids⟩ := List.mem_map.1 ((sameIds _).2 (List.mem_map_of_mem inNew))
      simp [(byId_eq_some_iff oldUnique _ a).2 ⟨ha, ids⟩] at missing

theorem hasNonPositionalChanges_eq_false_iff (oldUnique : (oldNodes.map (·.id)).Nodup)
    (newUnique : (newNodes.map (·.id)).Nodup) (oldConnections newConnections : IConnections) :
    hasNonPositionalChanges oldNodes newNodes oldConnections newConnections = false ↔
      SameIds oldNodes newNodes ∧ Matched EqualWhereCompared oldNodes newNodes ∧
        SameConnections oldConnections newConnections := by
  have reported : ((compareWorkflowsNodes oldNodes newNodes).values.any
      fun diff => diff.status ≠ .eq) = false ↔
      SameIds oldNodes newNodes ∧ Matched EqualWhereCompared oldNodes newNodes := by
    rw [← nodesDiff_eq_iff oldUnique newUnique]
    simp
  rw [← and_assoc, ← reported, ← isEqualConnections_iff, hasNonPositionalChanges]
  cases (compareWorkflowsNodes oldNodes newNodes).values.any fun diff => diff.status ≠ .eq <;>
    cases isEqualConnections oldConnections newConnections <;> simp

/-- The answer leaves out the position and nothing else exactly when no change is
confined to fields that are neither compared nor the position. -/
theorem hasNonPositionalChanges_ignores_position_iff (oldUnique : (oldNodes.map (·.id)).Nodup)
    (newUnique : (newNodes.map (·.id)).Nodup) (oldConnections newConnections : IConnections) :
    (hasNonPositionalChanges oldNodes newNodes oldConnections newConnections = false ↔
        SameIds oldNodes newNodes ∧ Matched EqualButPosition oldNodes newNodes ∧
          SameConnections oldConnections newConnections) ↔
      ¬ (SameIds oldNodes newNodes ∧ Matched EqualWhereCompared oldNodes newNodes ∧
        SameConnections oldConnections newConnections ∧
        ∃ a ∈ oldNodes, ∃ b ∈ newNodes, a.id = b.id ∧ DifferElsewhere a b) := by
  have matched : Matched EqualButPosition oldNodes newNodes ↔
      Matched EqualWhereCompared oldNodes newNodes ∧
        ¬ ∃ a ∈ oldNodes, ∃ b ∈ newNodes, a.id = b.id ∧ DifferElsewhere a b := by
    simp only [Matched, equalButPosition_iff]
    constructor
    · intro h
      refine ⟨fun a ha b hb ids => (h a ha b hb ids).1, ?_⟩
      rintro ⟨a, ha, b, hb, ids, differ⟩
      exact (h a ha b hb ids).2 differ
    · rintro ⟨compared, elsewhere⟩ a ha b hb ids
      exact ⟨compared a ha b hb ids, fun differ => elsewhere ⟨a, ha, b, hb, ids, differ⟩⟩
  rw [hasNonPositionalChanges_eq_false_iff oldUnique newUnique, matched]
  constructor
  · rintro agree ⟨ids, compared, connections, differ⟩
    exact (agree.1 ⟨ids, compared, connections⟩).2.1.2 differ
  · intro confined
    constructor
    · rintro ⟨ids, compared, connections⟩
      exact ⟨ids, ⟨compared, fun differ => confined ⟨ids, compared, connections, differ⟩⟩, connections⟩
    · rintro ⟨ids, ⟨compared, -⟩, connections⟩
      exact ⟨ids, compared, connections⟩

end

def placed (x : Int) (disabled : Bool) : DiffableNode :=
  ⟨"1", .object [], .ofList [("name", .string "A"), ("type", .string "n8n-nodes-base.set"),
    ("typeVersion", .number 1), ("position", .array [.number x, .number 0]), ("disabled", .bool disabled)]⟩

theorem hasNonPositionalChanges_ignores_position_iff_moved :
    (hasNonPositionalChanges [placed 0 false] [placed 100 false] ∅ ∅ = false ↔
        SameIds [placed 0 false] [placed 100 false] ∧
          Matched EqualButPosition [placed 0 false] [placed 100 false] ∧ SameConnections ∅ ∅) ↔
      ¬ (SameIds [placed 0 false] [placed 100 false] ∧
        Matched EqualWhereCompared [placed 0 false] [placed 100 false] ∧ SameConnections ∅ ∅ ∧
        ∃ a ∈ [placed 0 false], ∃ b ∈ [placed 100 false], a.id = b.id ∧ DifferElsewhere a b) :=
  hasNonPositionalChanges_ignores_position_iff (by decide) (by decide) ∅ ∅

/-- Switching a node off is no change, though the nodes are not equal. -/
theorem disabling_overlooked :
    ¬ (hasNonPositionalChanges [placed 0 false] [placed 0 true] ∅ ∅ = false ↔
      SameIds [placed 0 false] [placed 0 true] ∧
        Matched EqualButPosition [placed 0 false] [placed 0 true] ∧ SameConnections ∅ ∅) := by
  intro agree
  have unchanged : hasNonPositionalChanges [placed 0 false] [placed 0 true] ∅ ∅ = false := by
    decide +kernel
  have same := ((agree.1 unchanged).2.1 _ List.mem_cons_self _ List.mem_cons_self rfl).1
    "disabled" (by decide)
  revert same
  decide +kernel

end NodeAutomation.WorkflowDiff
