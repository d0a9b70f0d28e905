import Mathlib.Data.String.Basic
import NodeAutomation.Core.RecreatedRows
import NodeAutomation.Lib.StableSort

/-! Which connections the groups of `getSourceDataGroups` are made of. Group by group, every input
gives its next connection; a group ends at the first input that has none left. -/

namespace NodeAutomation.SourceGroups

open RecreateStack

def left (withData withoutData : List GraphConnection) (input : Nat) : List GraphConnection :=
  withData.filter (·.inputIndex = input) ++ withoutData.filter (·.inputIndex = input)

section

variable {α : Type} {p q : α → Bool} {xs : List α} {a : α}

theorem filter_of_find? (found : xs.find? p = some a) : xs.filter p = a :: (xs.eraseP p).filter p := by
  induction xs with
  | nil => cases found
  | cons x xs ih =>
    rw [List.find?_cons] at found
    split at found
    case h_1 here =>
      cases found
      rw [List.filter_cons_of_pos here, List.eraseP_cons_of_pos here]
    case h_2 other =>
      have other' : ¬p x = true := Bool.eq_false_iff.1 other
      rw [List.filter_cons_of_neg other', List.eraseP_cons_of_neg other', List.filter_cons_of_neg other', ih found]

theorem filter_eraseP (apart : ∀ a, p a = true → q a = false) : (xs.eraseP p).filter q = xs.filter q := by
  induction xs with
  | nil => rfl
  | cons x xs ih =>
    by_cases here : p x = true
    · rw [List.eraseP_cons_of_pos here, List.filter_cons_of_neg (Bool.eq_false_iff.1 (apart x here))]
    · rw [List.eraseP_cons_of_neg here, List.filter_cons, List.filter_cons, ih]

theorem length_eraseP_of_find? (found : xs.find? p = some a) : (xs.eraseP p).length + 1 = xs.length := by
  have member := List.mem_of_find?_eq_some found
  have positive := List.length_pos_of_mem member
  rw [List.length_eraseP_of_mem member (List.find?_some found)]
  omega

end

variable {withData withoutData : List GraphConnection} {input other : Nat} {connection : GraphConnection}

theorem apart_of_ne (different : other ≠ input) (c : GraphConnection) (here : decide (c.inputIndex = input) = true) :
    decide (c.inputIndex = other) = false :=
  decide_eq_false fun there => different (there.symm.trans (of_decide_eq_true here))

theorem left_withData (found : withData.find? (·.inputIndex = input) = some connection) :
    left withData withoutData input =
      connection :: left (withData.eraseP (·.inputIndex = input)) withoutData input := by
  rw [left, filter_of_find? found]
  rfl

theorem left_withData_of_ne (different : other ≠ input) :
    left (withData.eraseP (·.inputIndex = input)) withoutData other = left withData withoutData other := by
  rw [left, filter_eraseP (apart_of_ne different)]
  rfl

theorem filter_eq_nil_of_find? (nothing : withData.find? (·.inputIndex = input) = none) :
    withData.filter (·.inputIndex = input) = [] := by
  rw [List.filter_eq_nil_iff]
  exact List.find?_eq_none.1 nothing

theorem left_withoutData (nothing : withData.find? (·.inputIndex = input) = none)
    (found : withoutData.find? (·.inputIndex = input) = some connection) :
    left withData withoutData input =
      connection :: left withData (withoutData.eraseP (·.inputIndex = input)) input := by
  rw [left, left, filter_eq_nil_of_find? nothing, filter_of_find? found]
  rfl

theorem left_withoutData_of_ne (different : other ≠ input) :
    left withData (withoutData.eraseP (·.inputIndex = input)) other = left withData withoutData other := by
  rw [left, filter_eraseP (apart_of_ne different)]
  rfl

theorem left_eq_nil (nothing : withData.find? (·.inputIndex = input) = none)
    (nothing' : withoutData.find? (·.inputIndex = input) = none) : left withData withoutData input = [] := by
  rw [left, filter_eq_nil_of_find? nothing, filter_eq_nil_of_find? nothing']
  rfl

theorem mem_left : connection ∈ left withData withoutData input ↔
    (connection ∈ withData ∨ connection ∈ withoutData) ∧ connection.inputIndex = input := by
  simp [left, or_and_right]

theorem collectGroups_take {fuel : Nat} {currentGroup : SourceConnectionGroup} {rest : List GraphConnection}
    (next : left withData withoutData input = connection :: rest) :
    ∃ withData' withoutData' complete, collectGroups (fuel + 1) withData withoutData input currentGroup =
        collectGroups fuel withData' withoutData' (input + 1)
          { complete := complete, connections := currentGroup.connections ++ [connection] } ∧
      left withData' withoutData' input = rest ∧
      (∀ other, other ≠ input → left withData' withoutData' other = left withData withoutData other) ∧
      withData'.length + withoutData'.length + 1 = withData.length + withoutData.length ∧
      connection.inputIndex = input := by
  have here : connection.inputIndex = input := by
    have member : connection ∈ left withData withoutData input := by
      rw [next]
      exact List.mem_cons_self
    exact (mem_left.1 member).2
  have some : ¬(withData.isEmpty = true ∧ withoutData.isEmpty = true) := by
    intro empty
    rw [List.isEmpty_iff.1 empty.1, List.isEmpty_iff.1 empty.2] at next
    cases next
  rw [collectGroups, if_neg some]
  cases found : withData.find? (·.inputIndex = input) with
  | some c =>
    rw [left_withData found] at next
    obtain ⟨same, tail⟩ := List.cons.inj next
    rw [same]
    exact ⟨_, _, _, rfl, tail, fun _ different => left_withData_of_ne different,
      by have shorter := length_eraseP_of_find? found; omega, here⟩
  | none =>
    cases found' : withoutData.find? (·.inputIndex = input) with
    | some c =>
      rw [left_withoutData found found'] at next
      obtain ⟨same, tail⟩ := List.cons.inj next
      rw [same]
      exact ⟨_, _, _, rfl, tail, fun _ different => left_withoutData_of_ne different,
        by have shorter := length_eraseP_of_find? found'; omega, here⟩
    | none =>
      simp [left_eq_nil found found'] at next

theorem collectGroups_close {fuel : Nat} {currentGroup : SourceConnectionGroup}
    (nothing : left withData withoutData input = []) (some : ¬(withData = [] ∧ withoutData = [])) :
    collectGroups (fuel + 1) withData withoutData input currentGroup =
      currentGroup :: collectGroups fuel withData withoutData (minInputIndex (withData ++ withoutData)) {} := by
  obtain ⟨nothing, nothing'⟩ := List.append_eq_nil_iff.1 nothing
  have found : withData.find? (·.inputIndex = input) = none :=
    List.find?_eq_none.2 (List.filter_eq_nil_iff.1 nothing)
  have found' : withoutData.find? (·.inputIndex = input) = none :=
    List.find?_eq_none.2 (List.filter_eq_nil_iff.1 nothing')
  have some' : ¬(withData.isEmpty = true ∧ withoutData.isEmpty = true) := by
    simpa only [List.isEmpty_iff] using some
  rw [collectGroups, if_neg some', found, found']

theorem minInputIndex_spec {connections : List GraphConnection} (some : connections ≠ []) :
    (∃ c ∈ connections, c.inputIndex = minInputIndex connections) ∧
      ∀ c ∈ connections, minInputIndex connections ≤ c.inputIndex := by
  have some' : connections.map (·.inputIndex) ≠ [] := fun empty => some (List.map_eq_nil_iff.1 empty)
  obtain ⟨least, found⟩ := Option.isSome_iff_exists.1 (List.isSome_min?_of_ne_nil some')
  have spec := List.min?_eq_some_iff.1 found
  have eq : minInputIndex connections = least := by rw [minInputIndex, found]; rfl
  rw [eq]
  refine ⟨List.mem_map.1 spec.1, fun c member => ?_⟩
  exact spec.2 _ (List.mem_map_of_mem member)

/-- Groups from the round `k` on: one connection for every input that still has one. -/
structure Rounds (queue : Nat → List GraphConnection) (k : Nat) (groups : List SourceConnectionGroup) : Prop where
  most : ∀ input, (queue input).length ≤ k + groups.length
  reached : ∃ input, (queue input).length = k + groups.length
  ascending : ∀ group ∈ groups, group.connections.Pairwise fun a b => a.inputIndex < b.inputIndex
  members : ∀ m group, groups[m]? = some group →
    ∀ c, c ∈ group.connections ↔ (queue c.inputIndex)[k + m]? = some c

/-- Between two inputs none has fewer connections than both. -/
def NoDip (count : Nat → Nat) : Prop := ∀ i j l, i < j → j < l → count i ≤ count j ∨ count l ≤ count j

structure Grouping (queue : Nat → List GraphConnection) (k : Nat) (withData withoutData : List GraphConnection)
    (input : Nat) (group : SourceConnectionGroup) : Prop where
  left : ∀ j, left withData withoutData j = (queue j).drop (if j < input then k + 1 else k)
  ascending : group.connections.Pairwise fun a b => a.inputIndex < b.inputIndex
  members : ∀ c, c ∈ group.connections ↔ c.inputIndex < input ∧ (queue c.inputIndex)[k]? = some c
  started : (∃ j < input, k < (queue j).length) ∨ k < (queue input).length

variable {queue : Nat → List GraphConnection} {k : Nat} {group : SourceConnectionGroup}
variable {withData' withoutData' : List GraphConnection}

theorem Rounds.cons {groups : List SourceConnectionGroup} (rounds : Rounds queue (k + 1) groups)
    (ascending : group.connections.Pairwise fun a b => a.inputIndex < b.inputIndex)
    (members : ∀ c, c ∈ group.connections ↔ (queue c.inputIndex)[k]? = some c) : Rounds queue k (group :: groups) where
  most input := by
    have bound := rounds.most input
    rw [List.length_cons]
    omega
  reached := by
    obtain ⟨input, same⟩ := rounds.reached
    refine ⟨input, ?_⟩
    rw [List.length_cons]
    omega
  ascending other member := by
    cases List.mem_cons.1 member with
    | inl same => exact same ▸ ascending
    | inr later => exact rounds.ascending other later
  members m other found := by
    cases m with
    | zero =>
      cases found
      exact members
    | succ m =>
      have later := rounds.members m other found
      rwa [Nat.add_right_comm] at later

section

variable (grouping : Grouping queue k withData withoutData input group)
include grouping

theorem Grouping.take {complete : Bool}
    (next : (queue input)[k]? = some connection) (here : connection.inputIndex = input)
    (same : SourceGroups.left withData' withoutData' input = (queue input).drop (k + 1))
    (others : ∀ other, other ≠ input →
      SourceGroups.left withData' withoutData' other = SourceGroups.left withData withoutData other) :
    Grouping queue k withData' withoutData' (input + 1)
      { complete := complete, connections := group.connections ++ [connection] } where
  left j := by
    by_cases at_ : j = input
    · rw [at_, same, if_pos (Nat.lt_succ_self input)]
    · rw [others j at_, grouping.left]
      by_cases before : j < input
      · rw [if_pos before, if_pos (by omega)]
      · rw [if_neg before, if_neg (by omega)]
  ascending := by
    refine List.pairwise_append.2 ⟨grouping.ascending, List.pairwise_singleton _ _, fun a member b last => ?_⟩
    rw [List.mem_singleton.1 last, here]
    exact ((grouping.members a).1 member).1
  members c := by
    rw [List.mem_append, grouping.members, List.mem_singleton]
    constructor
    · intro member
      cases member with
      | inl earlier => exact ⟨by omega, earlier.2⟩
      | inr last =>
        rw [last, here]
        exact ⟨Nat.lt_succ_self input, next⟩
    · intro listed
      obtain ⟨bound, found⟩ := listed
      by_cases at_ : c.inputIndex = input
      · rw [at_, next] at found
        exact .inr (Option.some.inj found).symm
      · exact .inl ⟨by omega, found⟩
  started := .inl ⟨input, Nat.lt_succ_self input, (List.getElem?_eq_some_iff.1 next).1⟩

theorem Grouping.behind
    (dip : NoDip fun input => (queue input).length) (gap : ¬k < (queue input).length) :
    (∃ j < input, k < (queue j).length) ∧ ∀ j, input ≤ j → (queue j).length ≤ k := by
  obtain ⟨first, before, has⟩ := grouping.started.resolve_right gap
  refine ⟨⟨first, before, has⟩, fun j later => ?_⟩
  cases Nat.eq_or_lt_of_le later with
  | inl same => exact same ▸ Nat.not_lt.1 gap
  | inr behind =>
    have between : (queue first).length ≤ (queue input).length ∨ (queue j).length ≤ (queue input).length :=
      dip first input j before behind
    omega

theorem Grouping.all
    (past : ∀ j, input ≤ j → (queue j).length ≤ k) (c : GraphConnection) :
    c ∈ group.connections ↔ (queue c.inputIndex)[k]? = some c := by
  rw [grouping.members]
  refine and_iff_right_of_imp fun found => ?_
  have has := (List.getElem?_eq_some_iff.1 found).1
  by_contra later
  have bound := past c.inputIndex (by omega)
  omega

/-- A new group starts with the lowest input that has a connection left. -/
theorem Grouping.next
    (past : ∀ j, input ≤ j → (queue j).length ≤ k) (some : ¬(withData = [] ∧ withoutData = [])) :
    Grouping queue (k + 1) withData withoutData (minInputIndex (withData ++ withoutData)) {} ∧
      k + 1 < (queue (minInputIndex (withData ++ withoutData))).length := by
  have rest : ∀ j, SourceGroups.left withData withoutData j = (queue j).drop (k + 1) := by
    intro j
    rw [grouping.left]
    by_cases before : j < input
    · rw [if_pos before]
    · have bound := past j (by omega)
      rw [if_neg before, List.drop_eq_nil_of_le bound, List.drop_eq_nil_of_le (by omega)]
  have some' : withData ++ withoutData ≠ [] := fun empty => some (List.append_eq_nil_iff.1 empty)
  obtain ⟨⟨first, member, here⟩, least⟩ := minInputIndex_spec some'
  have has : ∀ j, k + 1 < (queue j).length → minInputIndex (withData ++ withoutData) ≤ j := by
    intro j more
    have nonempty : SourceGroups.left withData withoutData j ≠ [] := by
      rw [rest]
      exact fun empty => Nat.not_le.2 more (List.drop_eq_nil_iff.1 empty)
    obtain ⟨c, inside⟩ := List.exists_mem_of_ne_nil _ nonempty
    obtain ⟨listed, same⟩ := mem_left.1 inside
    exact same ▸ least c (List.mem_append.2 listed)
  have started : k + 1 < (queue (minInputIndex (withData ++ withoutData))).length := by
    have inside : first ∈ SourceGroups.left withData withoutData (minInputIndex (withData ++ withoutData)) :=
      mem_left.2 ⟨List.mem_append.1 member, here⟩
    rw [rest] at inside
    by_contra more
    simp [List.drop_eq_nil_of_le (Nat.not_lt.1 more)] at inside
  refine ⟨⟨fun j => ?_, List.Pairwise.nil, fun c => ?_, .inr started⟩, started⟩
  · rw [rest]
    by_cases before : j < minInputIndex (withData ++ withoutData)
    · have bound : (queue j).length ≤ k + 1 := by
        by_contra more
        have low := has j (by omega)
        omega
      rw [if_pos before, List.drop_eq_nil_of_le bound, List.drop_eq_nil_of_le (by omega)]
    · rw [if_neg before]
  · refine iff_of_false List.not_mem_nil fun listed => ?_
    have low := has c.inputIndex (List.getElem?_eq_some_iff.1 listed.2).1
    omega

end

/-- Where no input dips below its neighbours, every round takes from all inputs that have a
connection left. -/
theorem collectGroups_rounds (dip : NoDip fun input => (queue input).length) {fuel : Nat}
    (grouping : Grouping queue k withData withoutData input group)
    (enough : 2 * (withData.length + withoutData.length) + 2 ≤
      fuel + if k < (queue input).length then 1 else 0) :
    Rounds queue k (collectGroups fuel withData withoutData input group) := by
  induction fuel generalizing k withData withoutData input group with
  | zero => split at enough <;> omega
  | succ fuel ih =>
    by_cases more : k < (queue input).length
    · have next : SourceGroups.left withData withoutData input = (queue input)[k] :: (queue input).drop (k + 1) := by
        rw [grouping.left, if_neg (Nat.lt_irrefl input), List.drop_eq_getElem_cons more]
      obtain ⟨withData', withoutData', complete, step, same, others, fewer, here⟩ :=
        @collectGroups_take _ _ _ _ fuel group _ next
      rw [if_pos more] at enough
      rw [step]
      refine ih (grouping.take (List.getElem?_eq_getElem more) here same others) ?_
      split <;> omega
    · obtain ⟨⟨first, before, has⟩, past⟩ := grouping.behind dip more
      rw [if_neg more] at enough
      by_cases empty : withData = [] ∧ withoutData = []
      · rw [collectGroups, if_pos (by rw [empty.1, empty.2]; exact ⟨rfl, rfl⟩)]
        have bound : ∀ j, (queue j).length ≤ k + 1 := by
          intro j
          by_cases later : j < input
          · have nothing := grouping.left j
            rw [if_pos later, empty.1, empty.2] at nothing
            exact List.drop_eq_nil_iff.1 nothing.symm
          · have small := past j (by omega)
            omega
        refine ⟨bound, ⟨first, Nat.le_antisymm (bound first) has⟩, fun other member => ?_, fun m other found => ?_⟩
        · rw [List.mem_singleton.1 member]
          exact grouping.ascending
        · cases m with
          | zero =>
            cases found
            exact grouping.all past
          | succ m => cases found
      · have nothing : SourceGroups.left withData withoutData input = [] := by
          rw [grouping.left, if_neg (Nat.lt_irrefl input)]
          exact List.drop_eq_nil_of_le (Nat.not_lt.1 more)
        rw [collectGroups_close nothing empty]
        obtain ⟨next, started⟩ := grouping.next past empty
        refine (ih next ?_).cons grouping.ascending (grouping.all past)
        rw [if_pos started]
        omega

/-- The inputs of a group follow each other without a gap. -/
def Consecutive (connections : List GraphConnection) : Prop :=
  ∃ start, connections.map (·.inputIndex) = List.range' start connections.length

theorem collectGroups_consecutive {fuel : Nat} {start : Nat}
    (group_ : group.connections.map (·.inputIndex) = List.range' start group.connections.length)
    (last : start + group.connections.length = input) :
    ∀ listed ∈ collectGroups fuel withData withoutData input group, Consecutive listed.connections := by
  induction fuel generalizing withData withoutData input group start with
  | zero =>
    intro listed member
    rw [List.mem_singleton.1 member]
    exact ⟨start, group_⟩
  | succ fuel ih =>
    intro listed member
    by_cases empty : withData = [] ∧ withoutData = []
    · rw [collectGroups, if_pos (by rw [empty.1, empty.2]; exact ⟨rfl, rfl⟩)] at member
      rw [List.mem_singleton.1 member]
      exact ⟨start, group_⟩
    · cases next : left withData withoutData input with
      | nil =>
        rw [collectGroups_close next empty] at member
        cases List.mem_cons.1 member with
        | inl same => exact same ▸ ⟨start, group_⟩
        | inr later =>
          have none : minInputIndex (withData ++ withoutData) + ([] : List GraphConnection).length = _ := Nat.add_zero _
          exact @ih withData withoutData _ {} _ rfl none listed later
      | cons connection rest =>
        obtain ⟨withData', withoutData', complete, step, _, _, _, here⟩ :=
          @collectGroups_take _ _ _ _ fuel group _ next
        rw [step] at member
        refine @ih withData' withoutData' (input + 1) { complete := complete, connections := group.connections ++ [connection] }
          start ?_ ?_ listed member
        · simp only [List.map_append, List.map_cons, List.map_nil, List.length_append, List.length_cons, List.length_nil,
            List.range'_concat, group_, here, last, Nat.one_mul, Nat.zero_add]
        · simp only [List.length_append, List.length_cons, List.length_nil]
          omega

theorem Consecutive.between {connections : List GraphConnection} (consecutive : Consecutive connections)
    {i j l : Nat} (low : i ∈ connections.map (·.inputIndex)) (high : l ∈ connections.map (·.inputIndex))
    (after : i ≤ j) (before : j ≤ l) : j ∈ connections.map (·.inputIndex) := by
  obtain ⟨start, all⟩ := consecutive
  rw [all, List.mem_range'_1] at low high ⊢
  omega

section

variable (localeBefore : String → String → Bool) (graph : DirectedGraph) (node : INode) (runData : IRunData)
  (pinnedData : IPinData)

/-- `localeCompare` compares consistently: names that are not before each other count as equal. -/
structure Collates : Prop where
  asymm : ∀ a b, localeBefore a b = true → localeBefore b a = false
  trans : ∀ a b c, localeBefore b a = false → localeBefore c b = false → localeBefore c a = false

def sourcesOf (input : Nat) : List GraphConnection :=
  (graph.getConnections.filter (·.toNode = node)).filter (·.inputIndex = input)

def hasSourceData (connection : GraphConnection) : Bool :=
  runData.contains connection.fromNode.name || pinnedData.contains connection.fromNode.name

def sortByName (connections : List GraphConnection) : List GraphConnection :=
  connections.insertionSort fun a b => localeBefore b.fromNode.name a.fromNode.name = false

def inOrder (input : Nat) : List GraphConnection :=
  sortByName localeBefore ((sourcesOf graph node input).filter (hasSourceData runData pinnedData)) ++
    sortByName localeBefore ((sourcesOf graph node input).filter fun c => !hasSourceData runData pinnedData c)

def sortedWithData : List GraphConnection :=
  sortConnections localeBefore ((graph.getConnections.filter (·.toNode = node)).filter (hasSourceData runData pinnedData))

def sortedWithoutData : List GraphConnection :=
  sortConnections localeBefore ((graph.getConnections.filter (·.toNode = node)).filter fun c =>
    !hasSourceData runData pinnedData c && c.type = .main)

/-- The k-th group has one connection for every input with more than k connections, the k-th of its
connections, and there are as many groups as connections on one input at most. -/
def GroupsMaximally : Prop :=
  Rounds (inOrder localeBefore graph node runData pinnedData) 0
    (getSourceDataGroups localeBefore graph node runData pinnedData)

end

variable {localeBefore : String → String → Bool} {graph : DirectedGraph} {node : INode} {runData : IRunData}
  {pinnedData : IPinData}

theorem mem_inOrder {c : GraphConnection} (member : c ∈ inOrder localeBefore graph node runData pinnedData input) :
    c.inputIndex = input := by
  have sorted (p : GraphConnection → Bool)
      (member : c ∈ sortByName localeBefore ((sourcesOf graph node input).filter p)) : c.inputIndex = input := by
    have listed := (List.mem_filter.1 ((List.mem_insertionSort _).1 member)).1
    exact of_decide_eq_true (List.mem_filter.1 listed).2
  cases List.mem_append.1 member with
  | inl data => exact sorted _ data
  | inr without => exact sorted _ without

theorem length_inOrder : (inOrder localeBefore graph node runData pinnedData input).length =
    (sourcesOf graph node input).length := by
  rw [inOrder, List.length_append, sortByName, List.length_insertionSort, sortByName, List.length_insertionSort]
  exact (List.length_eq_length_filter_add _).symm

theorem sortsBefore_eq_false_iff (a b : GraphConnection) : sortsBefore localeBefore a b = false ↔
    b.inputIndex < a.inputIndex ∨
      a.inputIndex = b.inputIndex ∧ localeBefore a.fromNode.name b.fromNode.name = false := by
  unfold sortsBefore
  split
  case isTrue same => simp [same]
  case isFalse different =>
    rw [decide_eq_false_iff_not]
    omega

theorem filter_sortConnections (collates : Collates localeBefore) (connections : List GraphConnection) (input : Nat) :
    (sortConnections localeBefore connections).filter (·.inputIndex = input) =
      sortByName localeBefore (connections.filter (·.inputIndex = input)) := by
  have total : Std.Total fun a b : GraphConnection => sortsBefore localeBefore b a = false := by
    refine ⟨fun a b => ?_⟩
    rw [sortsBefore_eq_false_iff, sortsBefore_eq_false_iff]
    rcases Nat.lt_trichotomy a.inputIndex b.inputIndex with less | same | more
    · exact .inl (.inl less)
    · cases first : localeBefore b.fromNode.name a.fromNode.name with
      | false => exact .inl (.inr ⟨same.symm, rfl⟩)
      | true => exact .inr (.inr ⟨same, collates.asymm _ _ first⟩)
    · exact .inr (.inl more)
  have trans : IsTrans GraphConnection fun a b => sortsBefore localeBefore b a = false := by
    refine ⟨fun a b c first second => ?_⟩
    rw [sortsBefore_eq_false_iff] at first second ⊢
    rcases first with less | ⟨same, before⟩
    · exact .inl (by omega)
    · rcases second with less | ⟨same', before'⟩
      · exact .inl (by omega)
      · exact .inr ⟨same'.trans same, collates.trans _ _ _ before before'⟩
  rw [sortConnections, StableSort.filter_insertionSort]
  refine StableSort.insertionSort_congr fun a member b member' => ?_
  have here := of_decide_eq_true (List.mem_filter.1 member).2
  have here' := of_decide_eq_true (List.mem_filter.1 member').2
  rw [sortsBefore, if_pos (here'.trans here.symm)]

theorem left_sorted (collates : Collates localeBefore)
    (types : ∀ c ∈ graph.getConnections, c.toNode = node → c.type = .main) (input : Nat) :
    left (sortedWithData localeBefore graph node runData pinnedData)
      (sortedWithoutData localeBefore graph node runData pinnedData) input =
      inOrder localeBefore graph node runData pinnedData input := by
  rw [left, sortedWithData, sortedWithoutData, filter_sortConnections collates, filter_sortConnections collates,
    inOrder, sourcesOf]
  have into : ∀ c ∈ graph.getConnections.filter (·.toNode = node), c.type = .main := fun c member =>
    types c (List.mem_filter.1 member).1 (of_decide_eq_true (List.mem_filter.1 member).2)
  generalize graph.getConnections.filter (·.toNode = node) = connections at into
  congr 2
  · rw [List.filter_filter, List.filter_filter]
    exact List.filter_congr fun c _ => Bool.and_comm _ _
  · rw [List.filter_filter, List.filter_filter]
    refine List.filter_congr fun c member => ?_
    simp [into c member, Bool.and_comm]

theorem getSourceDataGroups_eq (withData withoutData : List GraphConnection)
    (data : sortedWithData localeBefore graph node runData pinnedData = withData)
    (without : sortedWithoutData localeBefore graph node runData pinnedData = withoutData) :
    getSourceDataGroups localeBefore graph node runData pinnedData =
      if withData.isEmpty ∧ withoutData.isEmpty then []
      else collectGroups (2 * (withData.length + withoutData.length) + 1) withData withoutData
        (minInputIndex (withData ++ withoutData)) {} := by
  rw [← data, ← without]
  rfl

theorem getSourceDataGroups_consecutive :
    ∀ group ∈ getSourceDataGroups localeBefore graph node runData pinnedData, Consecutive group.connections := by
  intro group listed
  rw [getSourceDataGroups_eq _ _ rfl rfl] at listed
  split at listed
  case isTrue => cases listed
  case isFalse => exact @collectGroups_consecutive _ _ _ {} _ _ rfl (Nat.add_zero _) group listed

theorem grouping_initial {withData withoutData : List GraphConnection} (some : withData ++ withoutData ≠ []) :
    Grouping (left withData withoutData) 0 withData withoutData (minInputIndex (withData ++ withoutData)) {} ∧
      0 < (left withData withoutData (minInputIndex (withData ++ withoutData))).length := by
  obtain ⟨⟨first, member, here⟩, least⟩ := minInputIndex_spec some
  have below : ∀ j < minInputIndex (withData ++ withoutData), left withData withoutData j = [] := by
    intro j low
    refine List.eq_nil_iff_forall_not_mem.2 fun c inside => ?_
    obtain ⟨listed, same⟩ := mem_left.1 inside
    have bound := least c (List.mem_append.2 listed)
    omega
  have started : 0 < (left withData withoutData (minInputIndex (withData ++ withoutData))).length :=
    List.length_pos_of_mem (mem_left.2 ⟨List.mem_append.1 member, here⟩)
  refine ⟨⟨fun j => ?_, List.Pairwise.nil, fun c => iff_of_false List.not_mem_nil fun listed => ?_, .inr started⟩, started⟩
  · split
    case isTrue low => rw [below j low, List.drop_nil]
    case isFalse => rfl
  · rw [below _ listed.1] at listed
    cases listed.2

/-- Grouping is maximal if and only if no input between two others has fewer connections than both. -/
theorem getSourceDataGroups_maximal_iff (collates : Collates localeBefore)
    (types : ∀ c ∈ graph.getConnections, c.toNode = node → c.type = .main) :
    GroupsMaximally localeBefore graph node runData pinnedData ↔
      NoDip fun input => (sourcesOf graph node input).length := by
  have lengths : (fun input => (inOrder localeBefore graph node runData pinnedData input).length) =
      fun input => (sourcesOf graph node input).length := funext fun _ => length_inOrder
  rw [GroupsMaximally, ← lengths]
  constructor
  · intro rounds i j l before after
    by_contra dips
    have low : (inOrder localeBefore graph node runData pinnedData j).length <
        (inOrder localeBefore graph node runData pinnedData i).length := Nat.not_le.1 fun less => dips (.inl less)
    have high : (inOrder localeBefore graph node runData pinnedData j).length <
        (inOrder localeBefore graph node runData pinnedData l).length := Nat.not_le.1 fun less => dips (.inr less)
    -- The group behind all of the input in the middle has the inputs on both sides.
    have inside : (inOrder localeBefore graph node runData pinnedData j).length <
        (getSourceDataGroups localeBefore graph node runData pinnedData).length := by
      have most := rounds.most i
      omega
    have members := rounds.members _ _ (List.getElem?_eq_getElem inside)
    have has (m : Nat) (more : (inOrder localeBefore graph node runData pinnedData j).length <
        (inOrder localeBefore graph node runData pinnedData m).length) :
        m ∈ ((getSourceDataGroups localeBefore graph node runData pinnedData)[
          (inOrder localeBefore graph node runData pinnedData j).length]).connections.map (·.inputIndex) := by
      have here := mem_inOrder (List.getElem_mem more)
      refine List.mem_map.2 ⟨_, (members _).2 ?_, here⟩
      rw [here, Nat.zero_add]
      exact List.getElem?_eq_getElem more
    have between := (getSourceDataGroups_consecutive _ (List.getElem_mem inside)).between (has i low) (has l high)
      (Nat.le_of_lt before) (Nat.le_of_lt after)
    obtain ⟨c, member, here⟩ := List.mem_map.1 between
    have found := (members c).1 member
    rw [here, Nat.zero_add] at found
    exact Nat.lt_irrefl _ (List.getElem?_eq_some_iff.1 found).1
  · intro dip
    have sorted : left (sortedWithData localeBefore graph node runData pinnedData)
        (sortedWithoutData localeBefore graph node runData pinnedData) =
        inOrder localeBefore graph node runData pinnedData := funext (left_sorted collates types)
    rw [getSourceDataGroups_eq _ _ rfl rfl]
    rw [← sorted] at dip ⊢
    generalize sortedWithData localeBefore graph node runData pinnedData = withData at dip
    generalize sortedWithoutData localeBefore graph node runData pinnedData = withoutData at dip
    split
    case isTrue empty =>
      rw [List.isEmpty_iff.1 empty.1, List.isEmpty_iff.1 empty.2]
      exact ⟨fun _ => Nat.le_refl 0, ⟨0, rfl⟩, (by simp), (by simp)⟩
    case isFalse some =>
      have some' : withData ++ withoutData ≠ [] := by simpa [List.isEmpty_iff] using some
      obtain ⟨grouping, started⟩ := grouping_initial some'
      refine collectGroups_rounds dip grouping ?_
      rw [if_pos started]

def inAlphabet (a b : String) : Bool := decide (a < b)

theorem inAlphabet_collates : Collates inAlphabet where
  asymm a b before := decide_eq_false (lt_asymm (of_decide_eq_true before))
  trans a b c first second := by
    have first' : ¬b < a := of_decide_eq_false first
    have second' : ¬c < b := of_decide_eq_false second
    exact decide_eq_false (not_lt.2 (le_trans (not_lt.1 first') (not_lt.1 second')))

def sink : INode := { name := "Sink" }

/-- One source for each of the given inputs of `Sink`. -/
def sourcesGraph (inputs : List (String × Nat)) : DirectedGraph :=
  inputs.foldl (fun graph source => (graph.addNode { name := source.1 }).setConnection
    ⟨{ name := source.1 }, sink, .main, 0, source.2⟩) (DirectedGraph.addNode {} sink)

theorem twoInputs_maximal :
    GroupsMaximally inAlphabet (sourcesGraph [("First", 0), ("Second", 0), ("Third", 1)]) sink ∅ ∅ := by
  refine (getSourceDataGroups_maximal_iff inAlphabet_collates (by decide)).2 fun i j l before after => .inr ?_
  have bound : ∀ c ∈ (sourcesGraph [("First", 0), ("Second", 0), ("Third", 1)]).getConnections, c.inputIndex < 2 := by
    decide
  have none : sourcesOf (sourcesGraph [("First", 0), ("Second", 0), ("Third", 1)]) sink l = [] := by
    refine List.filter_eq_nil_iff.2 fun c member here => ?_
    have small := bound c (List.mem_filter.1 member).1
    have same : c.inputIndex = l := of_decide_eq_true here
    omega
  exact Nat.le_trans (Nat.le_of_eq (congrArg List.length none)) (Nat.zero_le _)

/-- Nothing is connected to input 1, so the source at input 2 gets a group of its own. -/
theorem gap_not_maximal : ¬GroupsMaximally inAlphabet (sourcesGraph [("First", 0), ("Second", 2)]) sink ∅ ∅ := by
  intro rounds
  have two : (getSourceDataGroups inAlphabet (sourcesGraph [("First", 0), ("Second", 2)]) sink ∅ ∅)[1]? =
      some { complete := false, connections := [⟨{ name := "Second" }, sink, .main, 0, 2⟩] } := by decide
  have found := (rounds.members 1 _ two ⟨{ name := "Second" }, sink, .main, 0, 2⟩).1 List.mem_cons_self
  exact absurd found (by decide)

end NodeAutomation.SourceGroups
