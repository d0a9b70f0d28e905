import NodeAutomation.Core.RecreatedRows
import NodeAutomation.Core.WaitingExecution
import NodeAutomation.Lib.Runs

/-! Waiting entries rebuilt for a partial execution, and what later deliveries
make of them. The engine takes an entry for complete once it finds no `null`; a
rebuilt entry has holes where nothing came in, and ends at its last input with
data. -/

namespace NodeAutomation.RebuiltWaiting
open WorkflowExecute RecreateStack RecreatedRows Runs

section

variable {α : Type} (k : Nat) (slots : List (Slot α))

/-- All `k` inputs hold data. -/
def Whole : Prop := slots.length = k ∧ ∀ j < k, (Slot.at_ slots j).isValue = true

/-- An entry as a live run builds it: `null` where nothing came in. -/
def Padded : Prop := slots.length = k ∧ ∀ j < k, Slot.at_ slots j ≠ .hole

/-- An entry with data at all inputs but one, which is a hole. -/
def MissesOne : Prop :=
  slots.length ≤ k ∧ ∃ i < k, Slot.at_ slots i = .hole ∧
    ∀ j < k, j ≠ i → (Slot.at_ slots j).isValue = true

/-- An entry with data at all of its inputs, which takes no more. -/
def Covered : Prop := ∀ j < k, (Slot.at_ slots j).isValue = true

/-- An entry that a delivery completes only by making it whole. -/
def Sound : Prop := Padded k slots ∨ MissesOne k slots ∨ Covered k slots

variable {k slots}

theorem lt_length_of_isValue {j : Nat} (value : (Slot.at_ slots j).isValue = true) :
    j < slots.length := by
  refine Nat.lt_of_not_le fun past => ?_
  rw [Slot.at_, List.getD_eq_default _ _ past] at value
  cases value

theorem padded_replicate : Padded k (List.replicate k (.null : Slot α)) := by
  refine ⟨List.length_replicate, fun j inside => ?_⟩
  rw [Slot.at_, List.getD_eq_getElem _ _ (by rwa [List.length_replicate]), List.getElem_replicate]
  intro hole
  cases hole

theorem Sound.padded_assign (sound : Sound k slots) {index : Nat} (inside : index < k)
    (missing : (Slot.at_ slots index).isValue = false) {slot : Slot α} (given : slot ≠ .hole) :
    Padded k (Slot.assign slots index slot) := by
  cases sound with
  | inl padded =>
    refine ⟨?_, fun j bound => ?_⟩
    · rw [Slot.length_assign, padded.1]
      omega
    · rw [Slot.at_assign]
      split
      · exact given
      · exact padded.2 j bound
  | inr rest =>
    have misses : MissesOne k slots := rest.resolve_right fun covered => by
      rw [covered index inside] at missing
      cases missing
    obtain ⟨short, i, bound, _, values⟩ := misses
    have here : index = i := by
      refine Classical.byContradiction fun elsewhere => ?_
      rw [values index inside elsewhere] at missing
      cases missing
    refine ⟨?_, fun j within => ?_⟩
    · rw [Slot.length_assign]
      by_cases last : index = k - 1
      · omega
      · have reach := lt_length_of_isValue (values (k - 1) (by omega) (by omega))
        omega
    · rw [Slot.at_assign]
      split
      · exact given
      · rename_i other
        intro hole
        have value := values j within (by rw [← here]; exact other)
        rw [hole] at value
        cases value

end

theorem whole_of_allDataFound {k : Nat} {main : List (Slot (List INodeExecutionData))}
    (padded : Padded k main) (complete : NodeWaiting.allDataFound main = true) : Whole k main := by
  refine ⟨padded.1, fun j bound => ?_⟩
  have present := padded.2 j bound
  have inside : j < main.length := by rw [padded.1]; exact bound
  have member : Slot.at_ main j ∈ main := by
    rw [Slot.at_, List.getD_eq_getElem _ _ inside]
    exact List.getElem_mem inside
  cases slot : Slot.at_ main j with
  | hole => exact absurd slot present
  | null =>
    rw [slot] at member
    simp [NodeWaiting.allDataFound, member] at complete
  | value items => rfl

/-- Every entry that has a `main` is sound. -/
def AllSound (k : Nat) (rows : OrderedMap Nat ITaskDataConnections) : Prop :=
  ∀ index row main, rows.get index = some row → row.get .main = some main → Sound k main

/-- The call brings data, or `null`, to one of the `k` inputs of the node. -/
structure Delivers (nodeName : String) (k : Nat) (call : NodeToBeExecuted) : Prop where
  node : call.connectionData.node = nodeName
  inside : call.connectionData.index < k
  given : call.batch ≠ .hole

section

variable {k : Nat} {waiting filled : NodeWaiting} {call : NodeToBeExecuted} {index : Nat}

theorem mainOf_eq_ok_iff {rows : OrderedMap Nat ITaskDataConnections}
    {main : List (Slot (List INodeExecutionData))} :
    NodeWaiting.mainOf rows index = .ok main ↔
      ∃ row, rows.get index = some row ∧ row.get .main = some main := by
  unfold NodeWaiting.mainOf
  cases stored : rows.get index with
  | none => simp
  | some row =>
    cases held : row.get .main with
    | none => simp [held]
    | some slots => simp [held]

theorem findMissing_some {inputIndex : Nat} {indexes : List Nat}
    (found : waiting.findMissing inputIndex indexes = .ok (some index)) :
    ∃ main, NodeWaiting.mainOf waiting.data index = .ok main ∧
      (Slot.at_ main inputIndex).isValue = false := by
  induction indexes with
  | nil => cases found
  | cons first indexes ih =>
    unfold NodeWaiting.findMissing at found
    cases held : NodeWaiting.mainOf waiting.data first with
    | error error => simp [held] at found
    | ok main =>
      simp only [held] at found
      split at found
      · exact ih found
      · rename_i missing
        have same : first = index := Option.some.inj (Except.ok.inj found)
        rw [← same]
        exact ⟨main, held, Bool.eq_false_of_not_eq_true missing⟩

theorem writeMain_ok {rows after : OrderedMap Nat ITaskDataConnections} {inputIndex : Nat}
    {slot : Slot (List INodeExecutionData)}
    (wrote : NodeWaiting.writeMain rows index inputIndex slot = .ok after) :
    ∃ row main, rows.get index = some row ∧ row.get .main = some main ∧
      after = rows.set index (row.set .main (Slot.assign main inputIndex slot)) := by
  unfold NodeWaiting.writeMain at wrote
  split at wrote
  · cases wrote
  · rename_i row stored
    split at wrote
    · cases wrote
    · rename_i main held
      exact ⟨row, main, stored, held, (Except.ok.inj wrote).symm⟩

theorem fill_padded (sound : AllSound k waiting.data) (inside : call.connectionData.index < k)
    (given : call.batch ≠ .hole) (went : waiting.fill k call = .ok (filled, index)) :
    ∃ row main, filled.data.get index = some row ∧ row.get .main = some main ∧ Padded k main ∧
      ∀ other, other ≠ index → filled.data.get other = waiting.data.get other := by
  simp only [NodeWaiting.fill, Fallible.bind_eq_ok_iff] at went
  obtain ⟨found, searched, data, wrote, source, _, done⟩ := went
  have parts := Prod.mk.inj (Except.ok.inj done)
  obtain ⟨row, main, stored, held, after⟩ := writeMain_ok wrote
  have result : filled.data = data := by rw [← parts.1]
  rw [parts.2] at stored after
  refine ⟨row.set .main (Slot.assign main call.connectionData.index call.batch),
    Slot.assign main call.connectionData.index call.batch, ?_, OrderedMap.get_set_self _ _ _, ?_,
    fun other elsewhere => ?_⟩
  · rw [result, after, OrderedMap.get_set_self]
  · cases found with
    | none =>
      rw [show (none : Option Nat).getD waiting.data.size = waiting.data.size from rfl] at parts
      rw [← parts.2] at stored
      simp only [NodeWaiting.createNewWaitingEntry, NodeWaiting.prepareWaitingToExecution,
        OrderedMap.get_set_self, Option.some.injEq] at stored
      rw [← stored, get_mainOnly] at held
      rw [← Option.some.inj held]
      refine Sound.padded_assign (.inl padded_replicate) inside ?_ given
      rw [Slot.at_, List.getD_eq_getElem _ _ (by rwa [List.length_replicate]),
        List.getElem_replicate]
      rfl
    | some chosen =>
      have same : chosen = index := parts.2
      obtain ⟨slots, read, missing⟩ := findMissing_some searched
      obtain ⟨row', stored', held'⟩ := mainOf_eq_ok_iff.1 read
      rw [same] at stored'
      simp only [NodeWaiting.createNewWaitingEntry] at stored
      rw [stored'] at stored
      rw [← Option.some.inj stored, held'] at held
      rw [← Option.some.inj held]
      exact (sound index row' slots stored' held').padded_assign inside missing given
  · rw [result, after, OrderedMap.get_set_of_ne _ _ elsewhere]
    cases found with
    | some chosen => rfl
    | none => exact OrderedMap.get_set_of_ne _ _ elsewhere

end

theorem data_nodeWaiting_storeWaiting (state : IRunExecutionData) (nodeName : String)
    (waiting : NodeWaiting) :
    (nodeWaiting (storeWaiting state nodeName waiting) nodeName).data = waiting.data := by
  unfold storeWaiting
  split
  · rename_i empty
    rw [(OrderedMap.size_eq_zero_iff _).1 empty]
    simp only [nodeWaiting, OrderedMap.get_delete_self]
  · simp only [nodeWaiting, OrderedMap.get_set_self]

section

variable {workflow : Workflow} {nodeName : String} {k : Nat} {state next : IRunExecutionData}
  {call : NodeToBeExecuted}

theorem addWaitingNode_cases (went : addWaitingNode workflow state call = .ok next) :
    ∃ filled index main,
      (nodeWaiting state call.connectionData.node).fill
        (numberOfInputs workflow call.connectionData.node) call = .ok (filled, index) ∧
      NodeWaiting.mainOf filled.data index = .ok main ∧
      (NodeWaiting.allDataFound main = true ∧ (∃ entry,
          next.nodeExecutionStack = (enqueue state workflow entry).nodeExecutionStack ∧
          entry.node.name = call.connectionData.node ∧
          filled.data.get index = some entry.data) ∧
          (nodeWaiting next call.connectionData.node).data = filled.data.delete index ∨
        (nodeWaiting next call.connectionData.node).data = filled.data.set index
          (mainOnly (Slot.assign main call.connectionData.index call.batch))) := by
  simp only [addWaitingNode, Fallible.bind_eq_ok_iff] at went
  obtain ⟨result, fills, main, held, mainSource, _, rest⟩ := went
  obtain ⟨filled, index⟩ := result
  refine ⟨filled, index, main, fills, held, ?_⟩
  simp only at rest
  split at rest
  · rename_i complete
    split at rest
    · rename_i node data named stored
      rw [← Except.ok.inj rest]
      refine .inl ⟨complete, ⟨⟨0, node, data, filled.source.get index, none, none⟩, ?_,
        workflow.named _ _ named, stored⟩, data_nodeWaiting_storeWaiting _ _ _⟩
      exact nodeExecutionStack_storeWaiting _ _ _
    · cases rest
  · obtain ⟨parents, _, stored⟩ := (Fallible.bind_eq_ok_iff _ _ _).1 rest
    rw [← Except.ok.inj stored]
    exact .inr (data_nodeWaiting_storeWaiting _ _ _)

/-- What leaves `waitingExecution` is put on the stack with data at all `k` inputs. -/
def MovesWhole (workflow : Workflow) (nodeName : String) (k : Nat)
    (state next : IRunExecutionData) : Prop :=
  ∀ index ∈ (nodeWaiting state nodeName).data.keys,
    index ∉ (nodeWaiting next nodeName).data.keys →
      ∃ entry main, next.nodeExecutionStack = (enqueue state workflow entry).nodeExecutionStack ∧
        entry.node.name = nodeName ∧ entry.data.get .main = some main ∧ Whole k main

def LeavesWhole (workflow : Workflow) (nodeName : String) (k : Nat) (state : IRunExecutionData)
    (call : NodeToBeExecuted) : Prop :=
  ∀ next, addNodeToBeExecuted workflow state call = .ok next →
    MovesWhole workflow nodeName k state next

theorem movesWhole_step (several : 1 < k) (inputs : numberOfInputs workflow nodeName = k)
    (sound : AllSound k (nodeWaiting state nodeName).data) (delivers : Delivers nodeName k call)
    (went : addNodeToBeExecuted workflow state call = .ok next) :
    MovesWhole workflow nodeName k state next ∧ AllSound k (nodeWaiting next nodeName).data := by
  have node := delivers.node
  rw [addNodeToBeExecuted, if_pos (by rw [node, inputs]; exact several)] at went
  obtain ⟨filled, place, main, fills, held, outcome⟩ := addWaitingNode_cases went
  rw [node] at fills outcome
  rw [inputs] at fills
  obtain ⟨row, slots, stored, read, padded, others⟩ :=
    fill_padded sound delivers.inside delivers.given fills
  obtain ⟨row', stored', held'⟩ := mainOf_eq_ok_iff.1 held
  rw [stored] at stored'
  rw [← Option.some.inj stored', read] at held'
  rw [← Option.some.inj held'] at outcome
  cases outcome with
  | inl leaves =>
    obtain ⟨complete, ⟨entry, stack, named, data⟩, rest⟩ := leaves
    refine ⟨fun _ _ _ => ⟨entry, slots, stack, named, ?_, whole_of_allDataFound padded complete⟩,
      fun index row main there mains => ?_⟩
    · rw [stored] at data
      rw [← Option.some.inj data]
      exact read
    · rw [rest, OrderedMap.get_delete] at there
      split at there
      · cases there
      · rename_i elsewhere
        rw [others index elsewhere] at there
        exact sound index row main there mains
  | inr stays =>
    refine ⟨fun index before gone => ?_, fun index row main there mains => ?_⟩
    · rw [stays, OrderedMap.mem_keys_set, not_or] at gone
      obtain ⟨row, present⟩ := (OrderedMap.mem_keys_iff _ _).1 before
      rw [← others index gone.1] at present
      exact absurd ((OrderedMap.mem_keys_iff _ _).2 ⟨row, present⟩) gone.2
    · rw [stays, OrderedMap.get_set] at there
      split at there
      · rw [← Option.some.inj there, get_mainOnly] at mains
        rw [← Option.some.inj mains]
        refine .inl ⟨?_, fun j bound => ?_⟩
        · rw [Slot.length_assign, padded.1]
          have inside := delivers.inside
          omega
        · rw [Slot.at_assign]
          split
          · exact delivers.given
          · exact padded.2 j bound
      · rename_i elsewhere
        rw [others index elsewhere] at there
        exact sound index row main there mains

def afterCall (workflow : Workflow) (state : IRunExecutionData) (call : NodeToBeExecuted) :
    IRunExecutionData :=
  match addNodeToBeExecuted workflow state call with
  | .ok next => next
  | .error _ => state

theorem along_leavesWhole (several : 1 < k) (inputs : numberOfInputs workflow nodeName = k)
    (sound : AllSound k (nodeWaiting state nodeName).data) (calls : List NodeToBeExecuted)
    (delivers : Along (afterCall workflow) (fun _ call => Delivers nodeName k call) state calls) :
    Along (afterCall workflow) (LeavesWhole workflow nodeName k) state calls := by
  refine along_of_invariant (I := fun s => AllSound k (nodeWaiting s nodeName).data)
    (fun s call held delivers => ⟨fun next went => ?_, ?_⟩) sound delivers
  · exact (movesWhole_step several inputs held delivers went).1
  · unfold afterCall
    split
    · rename_i next went
      exact (movesWhole_step several inputs held delivers went).2
    · exact held

end

/-! Entries rebuilt by `recreateNodeExecutionStack`. -/

section

/-- A group with items for no main input, for all of the `k` inputs, or for all
but one of them and no other. -/
def AlmostFilled (k : Nat) (filled : List Nat) : Prop :=
  filled = [] ∨ (∀ i < k, i ∈ filled) ∨
    (∀ i ∈ filled, i < k) ∧ ∃ j < k, ∀ i < k, i ≠ j → i ∈ filled

theorem sound_of_holds {k : Nat} {filled : List Nat} {slots : List (Slot (List INodeExecutionData))}
    (holds : Holds filled slots) (almost : AlmostFilled k filled) : Sound k slots := by
  cases almost.resolve_left holds.some_ with
  | inl all => exact .inr (.inr fun i bound => (holds.value i).2 (all i bound))
  | inr one =>
    obtain ⟨bounded, j, inside, others⟩ := one
    by_cases present : j ∈ filled
    · refine .inr (.inr fun i bound => (holds.value i).2 ?_)
      by_cases here : i = j
      · rw [here]
        exact present
      · exact others i bound here
    · refine .inr (.inl ⟨holds.short k bounded, j, inside, ?_, fun i bound other =>
        (holds.value i).2 (others i bound other)⟩)
      have empty := mt (holds.value j).1 present
      cases slot : Slot.at_ slots j with
      | hole => rfl
      | null => exact absurd slot (holds.noNull j)
      | value items =>
        rw [slot] at empty
        exact absurd rfl empty

/-- The incomplete groups of the node bring items for all of its inputs, for all
but one, or for none. -/
def GroupsAlmostFilled (localeBefore : String → String → Bool) (graph : DirectedGraph)
    (runData : IRunData) (pinData : IPinData) (startNodes : List INode) (nodeName : String)
    (k : Nat) : Prop :=
  ∀ group ∈ groupsOf localeBefore graph runData pinData startNodes nodeName,
    group.complete = false → AlmostFilled k (filledInputs runData group.connections)

end

/-! The converse: an entry that misses more is started without data. -/

section

def oneItem (nodeName : String) (inputIndex : Nat) : NodeToBeExecuted where
  connectionData := ⟨nodeName, .main, inputIndex⟩
  outputIndex := 0
  parentNodeName := ""
  nodeSuccessData := some [.value [{}]]
  runIndex := 0

theorem oneItem_delivers {nodeName : String} {k inputIndex : Nat} (inside : inputIndex < k) :
    Delivers nodeName k (oneItem nodeName inputIndex) :=
  ⟨rfl, inside, nofun⟩

/-- Rows as they are rebuilt: holes where nothing came in, and sources next to them. -/
structure Sparse (waiting : NodeWaiting) : Prop where
  rows : ∀ index row, waiting.data.get index = some row →
    ∃ slots filled, row.get .main = some slots ∧ Holds filled slots
  sources : ∀ index row, waiting.data.get index = some row →
    ∃ sources slots, waiting.source.get index = some sources ∧ sources.get .main = some slots

structure Fails (k inputIndex : Nat) (rows : OrderedMap Nat ITaskDataConnections) (index : Nat) :
    Prop where
  lacks : ∃ slots, mainAt rows index = some slots ∧ (Slot.at_ slots inputIndex).isValue = false
  unfit : ∀ slots, mainAt rows index = some slots →
    ¬ Whole k (Slot.assign slots inputIndex (.value [({} : INodeExecutionData)]))

theorem fails_of_not_almostFilled {k : Nat} {filled : List Nat}
    {slots : List (Slot (List INodeExecutionData))} (holds : Holds filled slots)
    (short : ¬ AlmostFilled k filled) {rows : OrderedMap Nat ITaskDataConnections} {index : Nat}
    (stored : mainAt rows index = some slots) : ∃ inputIndex < k, Fails k inputIndex rows index := by
  simp only [AlmostFilled, not_or, not_forall, not_and, not_exists] at short
  obtain ⟨_, ⟨i, inside, absent⟩, others⟩ := short
  refine ⟨i, inside, ⟨slots, stored, ?_⟩, fun main same whole => ?_⟩
  · exact Bool.eq_false_of_not_eq_true (mt (holds.value i).1 absent)
  · rw [stored] at same
    rw [← Option.some.inj same] at whole
    by_cases bounded : ∀ j ∈ filled, j < k
    · obtain ⟨j, within, elsewhere, missing⟩ := others bounded i inside
      have value := whole.2 j within
      rw [Slot.at_assign, if_neg elsewhere, holds.value j] at value
      exact missing value
    · simp only [not_forall] at bounded
      obtain ⟨j, member, far⟩ := bounded
      have reach := lt_length_of_isValue ((holds.value j).2 member)
      have length := whole.1
      rw [Slot.length_assign] at length
      omega

variable {workflow : Workflow} {nodeName : String} {k inputIndex : Nat}
  {state : IRunExecutionData} {node : INode} {waiting : NodeWaiting}

theorem findMissing_lacking (sparse : Sparse waiting) {indexes : List Nat}
    (known : ∀ index ∈ indexes, index ∈ waiting.data.keys)
    (lacking : ∃ index ∈ indexes, ∃ slots, mainAt waiting.data index = some slots ∧
      (Slot.at_ slots inputIndex).isValue = false) :
    ∃ index, waiting.findMissing inputIndex indexes = .ok (some index) := by
  induction indexes with
  | nil => simp at lacking
  | cons first indexes ih =>
    obtain ⟨row, stored⟩ := (OrderedMap.mem_keys_iff _ _).1 (known first List.mem_cons_self)
    obtain ⟨slots, filled, held, holds⟩ := sparse.rows first row stored
    have read := mainOf_eq_ok_iff.2 ⟨row, stored, held⟩
    unfold NodeWaiting.findMissing
    rw [read]
    simp only
    split
    · rename_i value
      refine ih (fun index member => known index (List.mem_cons_of_mem first member)) ?_
      obtain ⟨index, member, main, there, missing⟩ := lacking
      cases List.mem_cons.1 member with
      | inl here =>
        rw [here, mainAt, stored, Option.bind_some, held] at there
        simp [← Option.some.inj there, value] at missing
      | inr later => exact ⟨index, later, main, there, missing⟩
    · exact ⟨first, rfl⟩

theorem allDataFound_of_noNull {main : List (Slot (List INodeExecutionData))}
    (noNull : ∀ j, Slot.at_ main j ≠ .null) : NodeWaiting.allDataFound main = true := by
  simp only [NodeWaiting.allDataFound, List.contains_eq_mem, Bool.not_eq_true',
    decide_eq_false_iff_not]
  intro member
  obtain ⟨j, inside, here⟩ := List.getElem_of_mem member
  refine noNull j ?_
  rw [Slot.at_, List.getD_eq_getElem _ _ inside, here]

/-- A row that lacks the input is started with the delivery, whatever it holds. -/
theorem addWaitingNode_releases (named : workflow.nodes.get nodeName = some node)
    (sparse : Sparse (nodeWaiting state nodeName))
    (lacking : ∃ index slots, mainAt (nodeWaiting state nodeName).data index = some slots ∧
      (Slot.at_ slots inputIndex).isValue = false) :
    ∃ index slots entry, mainAt (nodeWaiting state nodeName).data index = some slots ∧
      entry.data.get .main = some (Slot.assign slots inputIndex (.value [{}])) ∧
      addWaitingNode workflow state (oneItem nodeName inputIndex) =
        .ok (storeWaiting (enqueue state workflow entry) nodeName
          ((nodeWaiting state nodeName).remove index)) := by
  obtain ⟨index, found⟩ : ∃ index, (nodeWaiting state nodeName).findMissing inputIndex
      (nodeWaiting state nodeName).runIndexes = .ok (some index) := by
    have sorted : ∀ index, index ∈ (nodeWaiting state nodeName).runIndexes ↔
        index ∈ (nodeWaiting state nodeName).data.keys :=
      fun index => (List.perm_insertionSort _ _).mem_iff
    refine findMissing_lacking sparse (fun index member => (sorted index).1 member) ?_
    obtain ⟨index, slots, there, missing⟩ := lacking
    refine ⟨index, (sorted index).2 ((OrderedMap.mem_keys_iff _ _).2 ?_), slots, there, missing⟩
    obtain ⟨row, stored, _⟩ := Option.bind_eq_some_iff.1 there
    exact ⟨row, stored⟩
  obtain ⟨slots, read, missing⟩ := findMissing_some found
  obtain ⟨row, stored, held⟩ := mainOf_eq_ok_iff.1 read
  obtain ⟨main, filled, held', holds⟩ := sparse.rows index row stored
  obtain ⟨sources, origins, stored', from_⟩ := sparse.sources index row stored
  rw [held] at held'
  rw [← Option.some.inj held'] at holds
  have complete := allDataFound_of_noNull (Holds.assign (.inl holds) inputIndex [{}]).noNull
  have data : NodeWaiting.writeMain (nodeWaiting state nodeName).data index inputIndex
      (.value [{}]) = .ok ((nodeWaiting state nodeName).data.set index
        (row.set .main (Slot.assign slots inputIndex (.value [{}])))) := by
    simp only [NodeWaiting.writeMain, stored, held]
  have source : NodeWaiting.writeMain (nodeWaiting state nodeName).source index inputIndex
      (oneItem nodeName inputIndex).source = .ok ((nodeWaiting state nodeName).source.set index
        (sources.set .main (Slot.assign origins inputIndex
          (oneItem nodeName inputIndex).source))) := by
    simp only [NodeWaiting.writeMain, stored', from_]
  have fills : (nodeWaiting state nodeName).fill (numberOfInputs workflow nodeName)
      (oneItem nodeName inputIndex) = .ok (⟨(nodeWaiting state nodeName).data.set index
        (row.set .main (Slot.assign slots inputIndex (.value [{}]))),
        (nodeWaiting state nodeName).source.set index (sources.set .main
          (Slot.assign origins inputIndex (oneItem nodeName inputIndex).source))⟩, index) := by
    rw [NodeWaiting.fill]
    change (nodeWaiting state nodeName).findMissing inputIndex _ >>= _ = _
    rw [found, Fallible.ok_bind]
    change NodeWaiting.writeMain (nodeWaiting state nodeName).data index inputIndex
      (.value [{}]) >>= _ = _
    rw [data, Fallible.ok_bind]
    change NodeWaiting.writeMain (nodeWaiting state nodeName).source index inputIndex _ >>= _ = _
    rw [source]
    rfl
  refine ⟨index, slots, ⟨0, node, row.set .main (Slot.assign slots inputIndex (.value [{}])),
    some (sources.set .main (Slot.assign origins inputIndex (oneItem nodeName inputIndex).source)),
    none, none⟩, ?_, OrderedMap.get_set_self _ _ _, ?_⟩
  · rw [mainAt, stored, Option.bind_some, held]
  · rw [addWaitingNode]
    change (nodeWaiting state nodeName).fill (numberOfInputs workflow nodeName) _ >>= _ = _
    rw [fills, Fallible.ok_bind]
    have target : (oneItem nodeName inputIndex).connectionData.node = nodeName := rfl
    simp only [NodeWaiting.mainOf, OrderedMap.get_set_self, Option.bind_some, Fallible.ok_bind,
      complete, if_true, target, named, NodeWaiting.remove, OrderedMap.delete_set]
    rfl

theorem data_eq_of_enqueue {a b : IExecuteData}
    (same : (enqueue state workflow a).nodeExecutionStack =
      (enqueue state workflow b).nodeExecutionStack) : a.data = b.data := by
  simp only [enqueue] at same
  split at same
  · have last := List.append_cancel_left same
    exact (IExecuteData.mk.inj (List.cons.inj last).1).2.2.1
  · exact (IExecuteData.mk.inj (List.cons.inj same).1).2.2.1

theorem Sparse.remove (sparse : Sparse (nodeWaiting state nodeName)) {entry : IExecuteData}
    {index : Nat} : Sparse (nodeWaiting (storeWaiting (enqueue state workflow entry) nodeName
      ((nodeWaiting state nodeName).remove index)) nodeName) := by
  by_cases last : ((nodeWaiting state nodeName).remove index).data.size = 0
  · have nothing := data_nodeWaiting_storeWaiting (enqueue state workflow entry) nodeName
      ((nodeWaiting state nodeName).remove index)
    rw [(OrderedMap.size_eq_zero_iff _).1 last] at nothing
    refine ⟨fun place row stored => ?_, fun place row stored => ?_⟩
    · simp [nothing] at stored
    · simp [nothing] at stored
  · rw [nodeWaiting_storeWaiting _ _ _ fun empty => absurd empty last]
    refine ⟨fun place row stored => ?_, fun place row stored => ?_⟩
    · rw [NodeWaiting.remove, OrderedMap.get_delete] at stored
      split at stored
      · cases stored
      · exact sparse.rows place row stored
    · rw [NodeWaiting.remove, OrderedMap.get_delete] at stored
      split at stored
      · cases stored
      · rename_i other
        rw [NodeWaiting.remove, OrderedMap.get_delete, if_neg other]
        exact sparse.sources place row stored

/-- Delivered to again and again, the input of a row that fails is reached. -/
theorem fails_in_some_run (several : 1 < k) (inputs : numberOfInputs workflow nodeName = k)
    (named : workflow.nodes.get nodeName = some node) (size : Nat)
    (many : (nodeWaiting state nodeName).data.size = size)
    (sparse : Sparse (nodeWaiting state nodeName)) {bad : Nat}
    (fails : Fails k inputIndex (nodeWaiting state nodeName).data bad) :
    ∃ count, ¬ Along (afterCall workflow) (LeavesWhole workflow nodeName k) state
      (List.replicate count (oneItem nodeName inputIndex)) := by
  induction size generalizing state with
  | zero =>
    obtain ⟨slots, there, _⟩ := fails.lacks
    rw [(OrderedMap.size_eq_zero_iff _).1 many] at there
    cases there
  | succ size ih =>
    obtain ⟨slots, there, missing⟩ := fails.lacks
    obtain ⟨index, main, entry, stored, started, released⟩ :=
      addWaitingNode_releases named sparse ⟨bad, slots, there, missing⟩
    obtain ⟨row, present, _⟩ := Option.bind_eq_some_iff.1 stored
    have went : addNodeToBeExecuted workflow state (oneItem nodeName inputIndex) = .ok
        (storeWaiting (enqueue state workflow entry) nodeName
          ((nodeWaiting state nodeName).remove index)) := by
      rw [addNodeToBeExecuted, if_pos (inputs.symm ▸ several)]
      exact released
    have left := data_nodeWaiting_storeWaiting (enqueue state workflow entry) nodeName
      ((nodeWaiting state nodeName).remove index)
    by_cases here : index = bad
    · refine ⟨1, fun along => ?_⟩
      have moves := along.1 _ went index ((OrderedMap.mem_keys_iff _ _).2 ⟨row, present⟩) (by
        rw [left, NodeWaiting.remove, OrderedMap.mem_keys_delete]
        exact fun gone => gone.1 rfl)
      obtain ⟨other, slots', stack, _, held, whole⟩ := moves
      rw [nodeExecutionStack_storeWaiting] at stack
      rw [← data_eq_of_enqueue stack, started] at held
      rw [← Option.some.inj held] at whole
      rw [here] at stored
      exact fails.unfit main stored whole
    · have smaller : (nodeWaiting (storeWaiting (enqueue state workflow entry) nodeName
          ((nodeWaiting state nodeName).remove index)) nodeName).data.size = size := by
        have whole := (nodeWaiting state nodeName).data.size_of_get present
        rw [left]
        change ((nodeWaiting state nodeName).data.delete index).size = size
        omega
      have kept : ∀ slots, mainAt (nodeWaiting (storeWaiting (enqueue state workflow entry) nodeName
          ((nodeWaiting state nodeName).remove index)) nodeName).data bad = some slots ↔
          mainAt (nodeWaiting state nodeName).data bad = some slots := by
        intro slots
        rw [left, mainAt, NodeWaiting.remove, OrderedMap.get_delete_of_ne _ (Ne.symm here), mainAt]
      obtain ⟨count, broken⟩ := ih smaller sparse.remove
        ⟨⟨slots, (kept slots).2 there, missing⟩, fun slots held => fails.unfit slots
          ((kept slots).1 held)⟩
      refine ⟨count + 1, fun along => broken ?_⟩
      have rest := along.2
      rw [afterCall, went] at rest
      exact rest

end

def startOf (recreated : Recreated) : IRunExecutionData where
  nodeExecutionStack := recreated.nodeExecutionStack
  waitingExecution := recreated.waitingExecution
  waitingExecutionSource := recreated.waitingExecutionSource
  nextRef := recreated.nodeExecutionStack.length

/-- For a node with `k` main inputs: where its incomplete groups have items for
all inputs, all but one, or none, whatever is delivered, in whatever order and
state, no rebuilt entry is started before it holds data at all inputs. Where they
have not, some deliveries start one that does not; only for this half are the
connections into the node all main ones. -/
theorem rebuilt_leaves_whole (localeBefore : String → String → Bool) (graph : DirectedGraph)
    (runData : IRunData) (pinData : IPinData) (startNodes : List INode) (recreated : Recreated)
    (went : recreateNodeExecutionStack localeBefore graph runData pinData startNodes =
      .ok recreated) (workflow : Workflow) (nodeName : String) (k : Nat) (several : 1 < k)
    (inputs : numberOfInputs workflow nodeName = k) :
    (GroupsAlmostFilled localeBefore graph runData pinData startNodes nodeName k →
      ∀ state, state.waitingExecution = recreated.waitingExecution →
        ∀ calls, (∀ call ∈ calls, Delivers nodeName k call) →
          Along (afterCall workflow) (LeavesWhole workflow nodeName k) state calls) ∧
    ((∀ connection ∈ graph.getConnections, connection.toNode.name = nodeName →
        connection.type = .main) → (∃ node, workflow.nodes.get nodeName = some node) →
      (∀ calls, (∀ call ∈ calls, Delivers nodeName k call) →
        Along (afterCall workflow) (LeavesWhole workflow nodeName k) (startOf recreated) calls) →
      GroupsAlmostFilled localeBefore graph runData pinData startNodes nodeName k) := by
  have rebuilt := recreateNodeExecutionStack_rebuilt went nodeName
  have same : ∀ state : IRunExecutionData, state.waitingExecution = recreated.waitingExecution →
      (nodeWaiting state nodeName).data = rowsOf recreated nodeName := by
    intro state waiting
    rw [nodeWaiting, rowsOf, waiting]
    cases recreated.waitingExecution.get nodeName <;> rfl
  refine ⟨fun almost state waiting calls delivers => ?_, fun only exists_ always group listed
    incomplete => Classical.byContradiction fun short => ?_⟩
  · refine along_leavesWhole several inputs ?_ calls (along_of_forall delivers)
    rw [same state waiting]
    intro index row main stored held
    obtain ⟨group, listed, incomplete, holds⟩ :=
      rebuilt.rows index main (by rw [mainAt, stored]; exact held)
    exact sound_of_holds holds (almost group listed incomplete)
  · obtain ⟨node, named⟩ := exists_
    have mains := recreateNodeExecutionStack_hasMains only went
    have data := same (startOf recreated) rfl
    have sparse : Sparse (nodeWaiting (startOf recreated) nodeName) := by
      refine ⟨fun index row stored => ?_, fun index row stored => ?_⟩
      · rw [data] at stored
        obtain ⟨slots, held⟩ := Option.isSome_iff_exists.1 (mains index row stored).1
        obtain ⟨group, _, _, holds⟩ := rebuilt.rows index slots (by rw [mainAt, stored]; exact held)
        exact ⟨slots, _, held, holds⟩
      · rw [data] at stored
        obtain ⟨sources, next, held⟩ := (mains index row stored).2
        obtain ⟨slots, main⟩ := Option.isSome_iff_exists.1 held
        refine ⟨sources, slots, ?_, main⟩
        have waits : recreated.waitingExecution.get nodeName ≠ none := by
          intro nothing
          simp [rowsOf, nothing] at stored
        obtain ⟨rows, there⟩ := Option.ne_none_iff_exists'.1 waits
        simp only [nodeWaiting, startOf, there]
        exact next
    cases rebuilt.kept group listed incomplete with
    | inl nothing => exact short (.inl nothing)
    | inr row =>
      obtain ⟨index, slots, stored, holds⟩ := row
      obtain ⟨inputIndex, inside, fails⟩ := fails_of_not_almostFilled holds short stored
      rw [← data] at fails
      obtain ⟨count, broken⟩ := fails_in_some_run several inputs named _ rfl sparse fails
      refine broken (always _ fun call member => ?_)
      rw [List.eq_of_mem_replicate member]
      exact oneItem_delivers inside

/-- Three sources feed the three inputs of `Merge`. -/
def threeInputs : DirectedGraph :=
  (((({} : DirectedGraph).addNodes [{ name := "A" }, { name := "B" }, { name := "C" },
    { name := "Merge" }]).setConnection ⟨{ name := "A" }, { name := "Merge" }, .main, 0, 0⟩).setConnection
    ⟨{ name := "B" }, { name := "Merge" }, .main, 0, 1⟩).setConnection
    ⟨{ name := "C" }, { name := "Merge" }, .main, 0, 2⟩

def threeInputsWorkflow : Workflow :=
  Workflow.new (fun _ => none)
    { nodes := [{ name := "A" }, { name := "B" }, { name := "C" }, { name := "Merge" }]
      connections := .ofList [("A", .ofList [(.main, [some [⟨"Merge", .main, 0⟩]])]),
        ("B", .ofList [(.main, [some [⟨"Merge", .main, 1⟩]])]),
        ("C", .ofList [(.main, [some [⟨"Merge", .main, 2⟩]])])]
      executionOrder := some .v1 }

def ranOnce : List ITaskData := [{ data := some (mainOnly [.value [{}]]) }]

def byName (a b : String) : Bool := decide (a < b)

/-- With the run of `A` alone, `Merge` is started by the item of `B`, on two slots
and without `C`. -/
theorem merge_started_without_third_input :
    ∃ recreated, recreateNodeExecutionStack byName threeInputs (.ofList [("A", ranOnce)]) ∅
        [{ name := "B" }, { name := "C" }, { name := "Merge" }] = .ok recreated ∧
      ¬ Along (afterCall threeInputsWorkflow) (LeavesWhole threeInputsWorkflow "Merge" 3)
        (startOf recreated) [oneItem "Merge" 1] := by
  refine ⟨_, rfl, fun along => ?_⟩
  obtain ⟨entry, main, stack, _, held, whole⟩ := along.1 _ rfl 0 (by decide) (by decide)
  have data := (IExecuteData.mk.inj (List.cons.inj stack).1).2.2.1
  rw [← data] at held
  have length : main.length = 2 := by
    rw [← Option.some.inj held]
    rfl
  simp [whole.1] at length

/-- With the runs of `A` and `B`, only the item of `C` is missing. -/
theorem merge_waits_for_third_input :
    ∃ recreated, recreateNodeExecutionStack byName threeInputs
        (.ofList [("A", ranOnce), ("B", ranOnce)]) ∅ [{ name := "C" }, { name := "Merge" }] =
        .ok recreated ∧
      Along (afterCall threeInputsWorkflow) (LeavesWhole threeInputsWorkflow "Merge" 3)
        (startOf recreated) [oneItem "Merge" 1, oneItem "Merge" 2] := by
  refine ⟨_, rfl, (rebuilt_leaves_whole byName threeInputs (.ofList [("A", ranOnce), ("B", ranOnce)])
    ∅ [{ name := "C" }, { name := "Merge" }] _ rfl threeInputsWorkflow "Merge" 3 (by decide)
    (by decide)).1 ?_ _ rfl _ fun call member => ?_⟩
  · have groups : groupsOf byName threeInputs (.ofList [("A", ranOnce), ("B", ranOnce)]) ∅
        [{ name := "C" }, { name := "Merge" }] "Merge" =
        [⟨false, [⟨{ name := "A" }, { name := "Merge" }, .main, 0, 0⟩,
          ⟨{ name := "B" }, { name := "Merge" }, .main, 0, 1⟩,
          ⟨{ name := "C" }, { name := "Merge" }, .main, 0, 2⟩]⟩] := by decide
    intro group listed _
    rw [groups, List.mem_singleton] at listed
    rw [listed]
    have filled : filledInputs (.ofList [("A", ranOnce), ("B", ranOnce)])
        [⟨{ name := "A" }, { name := "Merge" }, .main, 0, 0⟩,
          ⟨{ name := "B" }, { name := "Merge" }, .main, 0, 1⟩,
          ⟨{ name := "C" }, { name := "Merge" }, .main, 0, 2⟩] = [0, 1] := by decide
    rw [filled]
    exact .inr (.inr ⟨by decide, 2, by decide, by decide⟩)
  · simp only [List.mem_cons, List.not_mem_nil, or_false] at member
    cases member with
    | inl first =>
      rw [first]
      exact oneItem_delivers (by decide)
    | inr second =>
      rw [second]
      exact oneItem_delivers (by decide)

end NodeAutomation.RebuiltWaiting
