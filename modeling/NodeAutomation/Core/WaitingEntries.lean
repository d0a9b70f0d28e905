import Mathlib.Data.List.Induction
import NodeAutomation.Core.RecreatedEntries

/-! The waiting entries that `recreateNodeExecutionStack` builds for incomplete groups: one row for
each group that brings items of a run. Data that is only pinned is not stored, and the run recorded
is the number of the row. -/

namespace NodeAutomation.WaitingEntries

open RecreateStack SourceGroups RecreatedRows RecreatedEntries Fallible

/-- `row[type][input] = value`. -/
def putSlot {α : Type} (row : OrderedMap NodeConnectionType (List (Slot α))) (connection : GraphConnection) (value : α) :
    OrderedMap NodeConnectionType (List (Slot α)) :=
  row.set connection.type
    (Slot.assign ((row.get connection.type).getD []) connection.inputIndex (.value value))

def slotOf {α : Type} (row : OrderedMap NodeConnectionType (List (Slot α))) (connection : GraphConnection) : Slot α :=
  Slot.at_ ((row.get connection.type).getD []) connection.inputIndex

def rowWith {α : Type} (value : GraphConnection → Option α) (connections : List GraphConnection) :
    OrderedMap NodeConnectionType (List (Slot α)) :=
  connections.foldl (fun row connection => ((value connection).map (putSlot row connection)).getD row) ∅

section

variable {α : Type} {value : GraphConnection → Option α} {connections : List GraphConnection}
  {connection other : GraphConnection}

theorem rowWith_append_singleton : rowWith value (connections ++ [connection]) =
    ((value connection).map (putSlot (rowWith value connections) connection)).getD (rowWith value connections) := by
  rw [rowWith, List.foldl_append]
  rfl

theorem slotOf_putSlot_self (row : OrderedMap NodeConnectionType (List (Slot α))) (a : α) :
    slotOf (putSlot row connection a) connection = .value a := by
  rw [slotOf, putSlot, OrderedMap.get_set_self, Option.getD_some, Slot.at_assign, if_pos rfl]

theorem slotOf_putSlot_of_ne (row : OrderedMap NodeConnectionType (List (Slot α))) (a : α)
    (apart : other.inputIndex ≠ connection.inputIndex) : slotOf (putSlot row connection a) other = slotOf row other := by
  rw [slotOf, putSlot, OrderedMap.get_set]
  split
  case isTrue same => rw [Option.getD_some, Slot.at_assign, if_neg apart, slotOf, same]
  case isFalse => rfl

theorem slotOf_rowWith_of_notMem (apart : ∀ c ∈ connections, other.inputIndex ≠ c.inputIndex) :
    slotOf (rowWith value connections) other = .hole := by
  induction connections using List.reverseRecOn with
  | nil => rfl
  | append_singleton connections c ih =>
    have before := ih fun d member => apart d (List.mem_append_left _ member)
    rw [rowWith_append_singleton]
    cases value c with
    | none => exact before
    | some a =>
      have different := apart c (List.mem_append_right _ (List.mem_singleton_self c))
      exact (slotOf_putSlot_of_ne _ a different).trans before

theorem slotOf_rowWith (once : connections.Pairwise fun a b => a.inputIndex ≠ b.inputIndex)
    (member : connection ∈ connections) : (slotOf (rowWith value connections) connection).value? = value connection := by
  induction connections using List.reverseRecOn with
  | nil => cases member
  | append_singleton connections c ih =>
    obtain ⟨before, _, apart⟩ := List.pairwise_append.1 once
    rw [rowWith_append_singleton]
    cases List.mem_append.1 member with
    | inl earlier =>
      have different := apart connection earlier c (List.mem_singleton_self c)
      cases found : value c with
      | none => exact ih before earlier
      | some a =>
        rw [Option.map_some, Option.getD_some, slotOf_putSlot_of_ne _ a different]
        exact ih before earlier
    | inr last =>
      rw [List.mem_singleton.1 last]
      cases found : value c with
      | none =>
        rw [Option.map_none, Option.getD_none, slotOf_rowWith_of_notMem fun d among same =>
          apart d among c (List.mem_singleton_self c) same.symm]
        rfl
      | some a =>
        rw [Option.map_some, Option.getD_some, slotOf_putSlot_self]
        rfl

end

section

variable (runData : IRunData)

def runItems (connection : GraphConnection) : Option (List INodeExecutionData) :=
  match getIncomingDataFromAnyRun runData connection.fromNode.name connection.type connection.outputIndex with
  | .ok found => found.map Prod.fst
  | .error _ => none

def recordedSource (index : Nat) (connection : GraphConnection) : Option ISourceData :=
  (runItems runData connection).map fun _ => ⟨connection.fromNode.name, some connection.outputIndex, some index⟩

def stores (group : SourceConnectionGroup) : Bool :=
  !group.complete && group.connections.any fun c => (runItems runData c).isSome

abbrev Rows := OrderedMap Nat ITaskDataConnections × OrderedMap Nat ITaskDataConnectionsSource

def storeConnections (rows : Rows) (connections : List GraphConnection) : Rows :=
  if connections.any fun c => (runItems runData c).isSome then
    (rows.1.set rows.1.size (rowWith (runItems runData) connections),
      rows.2.set rows.1.size (rowWith (recordedSource runData rows.1.size) connections))
  else rows

def storeGroup (rows : Rows) (group : SourceConnectionGroup) : Rows :=
  if group.complete then rows else storeConnections runData rows group.connections

def storedRows (groups : List SourceConnectionGroup) : Rows := groups.foldl (storeGroup runData) (∅, ∅)

def rowIndex (groups : List SourceConnectionGroup) : Nat := (groups.filter (stores runData)).length

end

/-- Nothing is stored from the number of rows on. -/
structure Ends (rows : Rows) : Prop where
  data : ∀ j, rows.1.size ≤ j → rows.1.get j = none
  source : ∀ j, rows.1.size ≤ j → rows.2.get j = none

variable {runData : IRunData} {rows : Rows} {connections : List GraphConnection} {connection : GraphConnection}
  {group : SourceConnectionGroup} {groups : List SourceConnectionGroup}

theorem ends_empty : Ends (∅, ∅) := ⟨fun _ _ => rfl, fun _ _ => rfl⟩

theorem size_set_of_absent {α : Type} {rows : OrderedMap Nat α} {index : Nat} (absent : rows.get index = none) (row : α) :
    (rows.set index row).size = rows.size + 1 := by
  have missing : index ∉ rows.keys := (OrderedMap.get_eq_none_iff _ _).1 absent
  rw [OrderedMap.size, OrderedMap.entries_set_of_not_mem _ _ missing, List.length_append]
  rfl

theorem rowWith_eq_empty {α : Type} {value : GraphConnection → Option α} (none : ∀ c ∈ connections, value c = none) :
    rowWith value connections = ∅ := by
  induction connections using List.reverseRecOn with
  | nil => rfl
  | append_singleton connections c ih =>
    rw [rowWith_append_singleton, none c (List.mem_append_right _ (List.mem_singleton_self c))]
    exact ih fun d member => none d (List.mem_append_left _ member)

theorem storeConnections_none (nothing : runItems runData connection = none) :
    storeConnections runData rows (connections ++ [connection]) = storeConnections runData rows connections := by
  have source : recordedSource runData rows.1.size connection = none := by rw [recordedSource, nothing]; rfl
  have any : ((connections ++ [connection]).any fun c => (runItems runData c).isSome) =
      connections.any fun c => (runItems runData c).isSome := by simp [nothing]
  unfold storeConnections
  rw [any, rowWith_append_singleton, rowWith_append_singleton, nothing, source]
  rfl

theorem storeConnections_some (ends : Ends rows) {items : List INodeExecutionData}
    (brought : runItems runData connection = some items) :
    storeConnections runData rows (connections ++ [connection]) =
      (addToRow (storeConnections runData rows connections).1 rows.1.size connection.type connection.inputIndex
          (.value items),
        addToRow (storeConnections runData rows connections).2 rows.1.size connection.type connection.inputIndex
          (.value ⟨connection.fromNode.name, some connection.outputIndex, some rows.1.size⟩)) := by
  have source : recordedSource runData rows.1.size connection =
      some ⟨connection.fromNode.name, some connection.outputIndex, some rows.1.size⟩ := by
    rw [recordedSource, brought]
    rfl
  have any : ((connections ++ [connection]).any fun c => (runItems runData c).isSome) = true := by simp [brought]
  rw [storeConnections, if_pos any, rowWith_append_singleton, rowWith_append_singleton, brought, source,
    storeConnections]
  split
  case isTrue => simp [addToRow, putSlot, OrderedMap.get_set_self, OrderedMap.set_set]
  case isFalse none =>
    have empty (c : GraphConnection) (member : c ∈ connections) : runItems runData c = Option.none := by
      simpa using fun some => none (List.any_eq_true.2 ⟨c, member, some⟩)
    have empty' (c : GraphConnection) (member : c ∈ connections) : recordedSource runData rows.1.size c = Option.none := by
      rw [recordedSource, empty c member]
      rfl
    rw [rowWith_eq_empty empty, rowWith_eq_empty empty']
    simp [addToRow, putSlot, ends.data _ (Nat.le_refl _), ends.source _ (Nat.le_refl _)]

theorem Ends.storeConnections (ends : Ends rows) : Ends (storeConnections runData rows connections) ∧
    (WaitingEntries.storeConnections runData rows connections).1.size =
      rows.1.size + if connections.any fun c => (runItems runData c).isSome then 1 else 0 := by
  unfold WaitingEntries.storeConnections
  split
  case isFalse => exact ⟨ends, rfl⟩
  case isTrue =>
    have longer := size_set_of_absent (ends.data _ (Nat.le_refl _)) (rowWith (runItems runData) connections)
    refine ⟨⟨fun j past => ?_, fun j past => ?_⟩, longer⟩
    all_goals
      dsimp only at past ⊢
      rw [longer] at past
      rw [OrderedMap.get_set_of_ne _ _ (by omega)]
    · exact ends.data j (by omega)
    · exact ends.source j (by omega)

theorem storedRows_append_singleton :
    storedRows runData (groups ++ [group]) = storeGroup runData (storedRows runData groups) group := by
  rw [storedRows, List.foldl_append]
  rfl

theorem rowIndex_append_singleton : rowIndex runData (groups ++ [group]) =
    rowIndex runData groups + if stores runData group then 1 else 0 := by
  rw [rowIndex, List.filter_append, List.length_append, List.filter_singleton]
  cases stores runData group <;> rfl

theorem storedRows_ends (groups : List SourceConnectionGroup) :
    Ends (storedRows runData groups) ∧ (storedRows runData groups).1.size = rowIndex runData groups := by
  induction groups using List.reverseRecOn with
  | nil => exact ⟨ends_empty, rfl⟩
  | append_singleton groups group ih =>
    obtain ⟨ends, size⟩ := ih
    rw [storedRows_append_singleton, rowIndex_append_singleton, storeGroup, stores]
    cases group.complete with
    | true => exact ⟨ends, size⟩
    | false =>
      have further := @Ends.storeConnections runData _ group.connections ends
      refine ⟨further.1, ?_⟩
      rw [if_neg Bool.false_ne_true, further.2, size]
      rfl

theorem storeGroup_get {j : Nat} (inside : j < rows.1.size) :
    (storeGroup runData rows group).1.get j = rows.1.get j ∧ (storeGroup runData rows group).2.get j = rows.2.get j := by
  unfold storeGroup storeConnections
  split
  case isTrue => exact ⟨rfl, rfl⟩
  case isFalse =>
    split
    case isTrue =>
      exact ⟨OrderedMap.get_set_of_ne _ _ (Nat.ne_of_lt inside), OrderedMap.get_set_of_ne _ _ (Nat.ne_of_lt inside)⟩
    case isFalse => exact ⟨rfl, rfl⟩

theorem storedRows_get (earlier later : List SourceConnectionGroup) (own : stores runData group = true) :
    (storedRows runData (earlier ++ group :: later)).1.get (rowIndex runData earlier) =
        some (rowWith (runItems runData) group.connections) ∧
      (storedRows runData (earlier ++ group :: later)).2.get (rowIndex runData earlier) =
        some (rowWith (recordedSource runData (rowIndex runData earlier)) group.connections) := by
  induction later using List.reverseRecOn with
  | nil =>
    obtain ⟨_, size⟩ := storedRows_ends earlier
    obtain ⟨incomplete, some⟩ := Bool.and_eq_true_iff.1 own
    have incomplete' : group.complete = false := by simpa using incomplete
    rw [storedRows_append_singleton, storeGroup, if_neg (Bool.eq_false_iff.1 incomplete'), storeConnections,
      if_pos some, size]
    exact ⟨OrderedMap.get_set_self _ _ _, OrderedMap.get_set_self _ _ _⟩
  | append_singleton later last ih =>
    have split : earlier ++ group :: (later ++ [last]) = (earlier ++ group :: later) ++ [last] := by simp
    obtain ⟨_, size⟩ := storedRows_ends (earlier ++ group :: later)
    have inside : rowIndex runData earlier < (storedRows runData (earlier ++ group :: later)).1.size := by
      rw [size, rowIndex, rowIndex, List.filter_append, List.filter_cons_of_pos own, List.length_append, List.length_cons]
      omega
    rw [split, storedRows_append_singleton, (storeGroup_get inside).1, (storeGroup_get inside).2]
    exact ih

section

variable (localeBefore : String → String → Bool) (graph : DirectedGraph) (runData : IRunData) (pinData : IPinData)

def groupsFor (startNode : INode) : List SourceConnectionGroup :=
  if ((graph.getConnections.filter (·.toNode = startNode)).filter (·.type = .main)).isEmpty then []
  else getSourceDataGroups localeBefore graph startNode runData pinData

def startGroups (startNodes : List INode) (nodeName : String) : List SourceConnectionGroup :=
  (startNodes.filter (·.name = nodeName)).flatMap (groupsFor localeBefore graph runData pinData)

end

def rowsPair (recreated : Recreated) (nodeName : String) : Rows :=
  (rowsOf recreated nodeName, sourceRowsOf recreated nodeName)

variable {localeBefore : String → String → Bool} {graph : DirectedGraph} {pinData : IPinData} {startNode : INode}
  {before now after : Recreated} {nodeName : String}

theorem incompleteConnection_rows (ends : Ends (rowsPair before nodeName))
    (held : ∀ name, rowsPair now name = if name = nodeName then
      storeConnections runData (rowsPair before nodeName) connections else rowsPair before name)
    (went : incompleteConnection runData nodeName (rowsPair before nodeName).1.size now connection = .ok after)
    (name : String) : rowsPair after name = if name = nodeName then
      storeConnections runData (rowsPair before nodeName) (connections ++ [connection]) else rowsPair before name := by
  obtain ⟨incoming, brought, done⟩ := (bind_eq_ok_iff _ _ _).1 went
  rw [← Except.ok.inj done]
  cases incoming with
  | none =>
    have nothing : runItems runData connection = none := by rw [runItems, brought]; rfl
    rw [storeConnections_none nothing]
    exact held name
  | some pair =>
    obtain ⟨items, run⟩ := pair
    have some : runItems runData connection = Option.some items := by rw [runItems, brought]; rfl
    have own := held nodeName
    rw [if_pos rfl] at own
    rw [storeConnections_some ends some, ← own]
    by_cases here : name = nodeName
    · rw [if_pos here, here]
      simp only [rowsPair, rowsOf, sourceRowsOf, addWaitingExecution, addWaitingExecutionSource,
        OrderedMap.get_set_self, Option.getD_some]
    · have same := held name
      rw [if_neg here] at same
      rw [if_neg here, ← same]
      simp only [rowsPair, rowsOf, sourceRowsOf, addWaitingExecution, addWaitingExecutionSource,
        OrderedMap.get_set_of_ne _ _ here]

theorem recreateGroup_rows (ends : Ends (rowsPair before startNode.name))
    (went : recreateGroup runData pinData startNode before group = .ok after) (name : String) :
    rowsPair after name = if name = startNode.name then storeGroup runData (rowsPair before startNode.name) group
      else rowsPair before name := by
  unfold recreateGroup at went
  split at went
  case isTrue complete =>
    obtain ⟨pair, _, done⟩ := (bind_eq_ok_iff _ _ _).1 went
    rw [← Except.ok.inj done, storeGroup, if_pos complete]
    split
    case isTrue here =>
      rw [here]
      rfl
    case isFalse => rfl
  case isFalse incomplete =>
    rw [nextRunIndex_eq] at went
    rw [storeGroup, if_neg incomplete]
    have start : storeConnections runData (rowsPair before startNode.name) [] = rowsPair before startNode.name := rfl
    refine foldlM_kept (P := fun visited now => ∀ name, rowsPair now name = if name = startNode.name then
      storeConnections runData (rowsPair before startNode.name) visited else rowsPair before name) went ?_ ?_ name
    · intro name
      rw [start]
      split
      case isTrue here => rw [here]
      case isFalse => rfl
    · exact fun _ _ _ _ _ held step => incompleteConnection_rows ends held step

theorem startGroups_append_singleton (visited : List INode) :
    startGroups localeBefore graph runData pinData (visited ++ [startNode]) nodeName =
      startGroups localeBefore graph runData pinData visited nodeName ++
        if startNode.name = nodeName then groupsFor localeBefore graph runData pinData startNode else [] := by
  rw [startGroups, List.filter_append, List.flatMap_append, List.filter_singleton]
  by_cases named : startNode.name = nodeName
  · simp [startGroups, named]
  · simp [startGroups, named]

theorem recreateStartNode_rows {visited : List INode}
    (held : ∀ name, rowsPair before name = storedRows runData (startGroups localeBefore graph runData pinData visited name))
    (went : recreateStartNode localeBefore graph runData pinData before startNode = .ok after) (name : String) :
    rowsPair after name =
      storedRows runData (startGroups localeBefore graph runData pinData (visited ++ [startNode]) name) := by
  obtain ⟨parents, asked, went⟩ := (bind_eq_ok_iff _ _ _).1 went
  rw [((DirectedGraph.getDirectParentConnections_eq_ok_iff _ _ _).1 asked).2] at went
  rw [startGroups_append_singleton, groupsFor]
  split at went
  case isTrue nothing =>
    rw [if_pos nothing, ← Except.ok.inj went, ite_self, List.append_nil]
    exact held name
  case isFalse some =>
    rw [if_neg some]
    refine foldlM_kept (P := fun done now => ∀ name, rowsPair now name = storedRows runData
      (startGroups localeBefore graph runData pinData visited name ++ if startNode.name = name then done else [])) went
      ?_ ?_ name
    · intro name
      rw [ite_self, List.append_nil]
      exact held name
    · intro done group now next _ earlier step name
      have ends : Ends (rowsPair now startNode.name) := by
        rw [earlier]
        exact (storedRows_ends _).1
      rw [recreateGroup_rows ends step name]
      by_cases named : name = startNode.name
      · rw [if_pos named, named, earlier, if_pos rfl, if_pos rfl, ← List.append_assoc, storedRows_append_singleton]
      · rw [if_neg named, earlier, if_neg (Ne.symm named), if_neg (Ne.symm named)]

theorem recreateNodeExecutionStack_rows {startNodes : List INode} {recreated : Recreated}
    (went : recreateNodeExecutionStack localeBefore graph runData pinData startNodes = .ok recreated) (name : String) :
    rowsPair recreated name = storedRows runData (startGroups localeBefore graph runData pinData startNodes name) := by
  obtain ⟨_, _, started⟩ := (bind_eq_ok_iff _ _ _).1 went
  refine foldlM_kept (P := fun visited now => ∀ name, rowsPair now name =
    storedRows runData (startGroups localeBefore graph runData pinData visited name)) started (fun _ => rfl) ?_ name
  exact fun _ _ _ _ _ held step => recreateStartNode_rows held step

section

variable (localeBefore : String → String → Bool) (graph : DirectedGraph) (runData : IRunData) (pinData : IPinData)

/-- Every connection of an incomplete group that brings data finds it at its input in the entry of the
group, with the run that it was taken from. -/
def InputsKept (startNodes : List INode) (recreated : Recreated) : Prop :=
  ∀ nodeName earlier group later,
    startGroups localeBefore graph runData pinData startNodes nodeName = earlier ++ group :: later →
    group.complete = false → ∀ c ∈ group.connections, ∀ items run, brings runData pinData c = some (items, run) →
    ∃ row sources, (rowsOf recreated nodeName).get (rowIndex runData earlier) = some row ∧
      (sourceRowsOf recreated nodeName).get (rowIndex runData earlier) = some sources ∧
      stores runData group = true ∧ slotOf row c = .value items ∧
      slotOf sources c = .value ⟨c.fromNode.name, some c.outputIndex, some run⟩

/-- Such data is that of a run, and the run is the number of the entry. -/
def RunsMatch (startNodes : List INode) : Prop :=
  ∀ nodeName earlier group later,
    startGroups localeBefore graph runData pinData startNodes nodeName = earlier ++ group :: later →
    group.complete = false → ∀ c ∈ group.connections, ∀ items run, brings runData pinData c = some (items, run) →
    runItems runData c = some items ∧ run = rowIndex runData earlier

end

theorem value?_eq_some {α : Type} {slot : Slot α} {a : α} : slot.value? = some a ↔ slot = .value a := by
  cases slot <;> simp [Slot.value?]

theorem inputs_once {startNodes : List INode}
    (member : group ∈ startGroups localeBefore graph runData pinData startNodes nodeName) :
    group.connections.Pairwise fun a b => a.inputIndex ≠ b.inputIndex := by
  obtain ⟨startNode, _, listed⟩ := List.mem_flatMap.1 member
  have consecutive : Consecutive group.connections := by
    unfold groupsFor at listed
    split at listed
    case isTrue => cases listed
    case isFalse => exact getSourceDataGroups_consecutive group listed
  obtain ⟨start, inputs⟩ := consecutive
  have once : (group.connections.map (·.inputIndex)).Nodup := by
    rw [inputs]
    exact List.nodup_range'
  exact List.pairwise_map.1 once

/-- No input is dropped if and only if all data is that of the run with the number of the entry. -/
theorem recreateNodeExecutionStack_inputsKept_iff {startNodes : List INode} {recreated : Recreated}
    (went : recreateNodeExecutionStack localeBefore graph runData pinData startNodes = .ok recreated) :
    InputsKept localeBefore graph runData pinData startNodes recreated ↔
      RunsMatch localeBefore graph runData pinData startNodes := by
  refine forall_congr' fun nodeName => forall_congr' fun earlier => forall_congr' fun group => forall_congr' fun later =>
    imp_congr_right fun split => imp_congr_right fun incomplete => forall_congr' fun c => imp_congr_right fun member =>
    forall_congr' fun items => forall_congr' fun run => imp_congr_right fun brought => ?_
  have once : group.connections.Pairwise fun a b => a.inputIndex ≠ b.inputIndex :=
    inputs_once (by rw [split]; exact List.mem_append_right _ List.mem_cons_self)
  have rows := recreateNodeExecutionStack_rows went nodeName
  rw [split] at rows
  have data : rowsOf recreated nodeName = _ := congrArg Prod.fst rows
  have source : sourceRowsOf recreated nodeName = _ := congrArg Prod.snd rows
  rw [data, source]
  constructor
  · intro kept
    obtain ⟨row, sources, found, found', own, value, origin⟩ := kept
    obtain ⟨stored, stored'⟩ := storedRows_get earlier later own
    rw [stored] at found
    rw [stored'] at found'
    cases found
    cases found'
    have brought' := @slotOf_rowWith _ (runItems runData) _ _ once member
    have recorded := @slotOf_rowWith _ (recordedSource runData (rowIndex runData earlier)) _ _ once member
    rw [value] at brought'
    rw [origin, recordedSource, ← brought'] at recorded
    refine ⟨brought'.symm, ?_⟩
    have same := congrArg ISourceData.previousNodeRun (Option.some.inj recorded)
    exact Option.some.inj same
  · intro holds
    obtain ⟨run_, same⟩ := holds
    have own : stores runData group = true := by
      rw [stores, incomplete]
      exact List.any_eq_true.2 ⟨c, member, by rw [run_]; rfl⟩
    obtain ⟨stored, stored'⟩ := storedRows_get earlier later own
    refine ⟨_, _, stored, stored', own, ?_, ?_⟩
    · rw [← value?_eq_some, slotOf_rowWith once member]
      exact run_
    · rw [← value?_eq_some, slotOf_rowWith once member, recordedSource, run_, same]
      rfl

/-- `Second` has neither run nor pinned data. -/
def halfGroup : SourceConnectionGroup where
  complete := false
  connections := [⟨{ name := "First" }, sink, .main, 0, 0⟩, ⟨{ name := "Second" }, sink, .main, 0, 1⟩]

theorem firstRan_inputsKept : ∃ recreated, recreateNodeExecutionStack inAlphabet
    (sourcesGraph [("First", 0), ("Second", 1)]) (ranWith ["First"]) ∅ [sink] = .ok recreated ∧
    InputsKept inAlphabet (sourcesGraph [("First", 0), ("Second", 1)]) (ranWith ["First"]) ∅ [sink] recreated := by
  have returns : (recreateNodeExecutionStack inAlphabet (sourcesGraph [("First", 0), ("Second", 1)])
    (ranWith ["First"]) ∅ [sink]).toOption.isSome = true := by decide
  cases went : recreateNodeExecutionStack inAlphabet (sourcesGraph [("First", 0), ("Second", 1)])
      (ranWith ["First"]) ∅ [sink] with
  | error e =>
    rw [went] at returns
    cases returns
  | ok recreated =>
    refine ⟨recreated, rfl, (recreateNodeExecutionStack_inputsKept_iff went).2 ?_⟩
    intro nodeName earlier group later split _ c member items run brought
    have all : startGroups inAlphabet (sourcesGraph [("First", 0), ("Second", 1)]) (ranWith ["First"]) ∅ [sink]
        nodeName = if nodeName = "Sink" then [halfGroup] else [] := by
      by_cases named : nodeName = "Sink"
      · rw [if_pos named, named]
        decide
      · rw [if_neg named, startGroups, List.filter_cons_of_neg (by simpa [sink, eq_comm] using named)]
        rfl
    rw [all] at split
    have only : earlier = [] ∧ group = halfGroup := by
      by_cases named : nodeName = "Sink"
      · rw [if_pos named] at split
        cases earlier with
        | nil => exact ⟨rfl, (List.cons.inj split).1.symm⟩
        | cons first earlier => simp at split
      · rw [if_neg named] at split
        simp at split
    obtain ⟨rfl, rfl⟩ := only
    have each : ∀ c ∈ halfGroup.connections, ∀ found ∈ brings (ranWith ["First"]) ∅ c,
        runItems (ranWith ["First"]) c = some found.1 ∧ found.2 = 0 := by decide
    exact each c member (items, run) brought

/-- `First` is pinned, and nothing is stored for it. -/
theorem firstPinned_not_inputsKept : ¬∃ recreated, recreateNodeExecutionStack inAlphabet
    (sourcesGraph [("First", 0), ("Second", 1)]) ∅ (OrderedMap.ofList [("First", [{}])]) [sink] = .ok recreated ∧
    InputsKept inAlphabet (sourcesGraph [("First", 0), ("Second", 1)]) ∅ (OrderedMap.ofList [("First", [{}])]) [sink]
      recreated := by
  intro kept
  obtain ⟨recreated, went, kept⟩ := kept
  have all : startGroups inAlphabet (sourcesGraph [("First", 0), ("Second", 1)]) ∅ (OrderedMap.ofList [("First", [{}])])
    [sink] "Sink" = [] ++ halfGroup :: [] := by decide
  obtain ⟨_, _, _, _, own, _⟩ := kept "Sink" [] halfGroup [] all rfl ⟨{ name := "First" }, sink, .main, 0, 0⟩
    List.mem_cons_self [{}] 0 (by decide)
  exact absurd own (by decide)

end NodeAutomation.WaitingEntries
