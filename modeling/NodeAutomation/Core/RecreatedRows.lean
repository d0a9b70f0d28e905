import NodeAutomation.Core.RecreateStack

/-! The waiting entries `recreateNodeExecutionStack` leaves for a node: one for
each incomplete group that brings items, with data at the inputs these come in. -/

namespace NodeAutomation.RecreatedRows
open RecreateStack

section

def bringsItems (runData : IRunData) (connection : GraphConnection) : Bool :=
  connection.type = .main &&
    match getIncomingDataFromAnyRun runData connection.fromNode.name connection.type
      connection.outputIndex with
    | .ok (some _) => true
    | _ => false

def filledInputs (runData : IRunData) (connections : List GraphConnection) : List Nat :=
  (connections.filter (bringsItems runData)).map (·.inputIndex)

structure Holds (filled : List Nat) (slots : List (Slot (List INodeExecutionData))) : Prop where
  some_ : filled ≠ []
  value : ∀ j, (Slot.at_ slots j).isValue = true ↔ j ∈ filled
  noNull : ∀ j, Slot.at_ slots j ≠ .null
  short : ∀ bound, (∀ i ∈ filled, i < bound) → slots.length ≤ bound

theorem Holds.assign {filled : List Nat} {slots : List (Slot (List INodeExecutionData))}
    (holds : Holds filled slots ∨ filled = [] ∧ slots = []) (inputIndex : Nat)
    (items : List INodeExecutionData) :
    Holds (filled ++ [inputIndex]) (Slot.assign slots inputIndex (.value items)) := by
  have before : (∀ j, (Slot.at_ slots j).isValue = true ↔ j ∈ filled) ∧
      (∀ j, Slot.at_ slots j ≠ .null) ∧
      ∀ bound, (∀ i ∈ filled, i < bound) → slots.length ≤ bound := by
    cases holds with
    | inl holds => exact ⟨holds.value, holds.noNull, holds.short⟩
    | inr nothing =>
      rw [nothing.1, nothing.2]
      exact ⟨by simp [Slot.at_, Slot.isValue], by simp [Slot.at_], by simp⟩
  refine ⟨by simp, fun j => ?_, fun j => ?_, fun bound inside => ?_⟩
  · rw [Slot.at_assign]
    split
    · rename_i here
      simp [here, Slot.isValue]
    · rename_i elsewhere
      simp [before.1 j, elsewhere]
  · rw [Slot.at_assign]
    split
    · intro null
      cases null
    · exact before.2.1 j
  · rw [Slot.length_assign]
    have earlier := before.2.2 bound fun i member => inside i (List.mem_append_left _ member)
    have last := inside inputIndex (by simp)
    omega

def Numbered (rows : OrderedMap Nat ITaskDataConnections) : Prop :=
  ∀ index ∈ rows.keys, index < rows.size

def rowsOf (recreated : Recreated) (nodeName : String) : OrderedMap Nat ITaskDataConnections :=
  (recreated.waitingExecution.get nodeName).getD ∅

def mainAt (rows : OrderedMap Nat ITaskDataConnections) (index : Nat) :
    Option (List (Slot (List INodeExecutionData))) :=
  (rows.get index).bind (·.get .main)

theorem mainAt_addToRow (rows : OrderedMap Nat ITaskDataConnections) (index : Nat)
    (inputType : NodeConnectionType) (inputIndex : Nat) (slot : Slot (List INodeExecutionData)) :
    mainAt (addToRow rows index inputType inputIndex slot) index =
      if inputType = .main then some (Slot.assign ((mainAt rows index).getD []) inputIndex slot)
      else mainAt rows index := by
  have row : ((rows.get index).getD ∅).get .main = mainAt rows index := by
    unfold mainAt
    cases rows.get index <;> rfl
  rw [mainAt, addToRow, OrderedMap.get_set_self, Option.bind_some, OrderedMap.get_set]
  split
  · rename_i here
    rw [if_pos here.symm, ← here, row]
  · rename_i other
    rw [if_neg (Ne.symm other), row]

theorem rowsOf_addWaitingExecution (recreated : Recreated) (nodeName : String) (index : Nat)
    (inputType : NodeConnectionType) (inputIndex : Nat) (slot : Slot (List INodeExecutionData))
    (sources : IWaitingForExecutionSource) (name : String) :
    rowsOf { recreated with
        waitingExecution := addWaitingExecution recreated.waitingExecution nodeName index inputType
          inputIndex slot
        waitingExecutionSource := sources } name =
      if name = nodeName then addToRow (rowsOf recreated nodeName) index inputType inputIndex slot
      else rowsOf recreated name := by
  simp only [rowsOf, addWaitingExecution, OrderedMap.get_set]
  split <;> rfl

theorem size_set_of_mem {rows : OrderedMap Nat ITaskDataConnections} {index : Nat}
    (row : ITaskDataConnections) (member : index ∈ rows.keys) :
    (rows.set index row).size = rows.size := by
  obtain ⟨old, stored⟩ := (OrderedMap.mem_keys_iff _ _).1 member
  have before := rows.size_of_get stored
  have after := (rows.set index row).size_of_get (OrderedMap.get_set_self _ _ _)
  rw [OrderedMap.delete_set] at after
  omega

theorem Numbered.set {rows : OrderedMap Nat ITaskDataConnections} (numbered : Numbered rows)
    {index : Nat} (row : ITaskDataConnections) (next : index ∈ rows.keys ∨ index = rows.size) :
    Numbered (rows.set index row) := by
  intro other member
  have grown : rows.size ≤ (rows.set index row).size ∧ index < (rows.set index row).size := by
    cases next with
    | inl present =>
      rw [size_set_of_mem row present]
      exact ⟨le_rfl, numbered index present⟩
    | inr last =>
      have absent : index ∉ rows.keys := fun present =>
        absurd (numbered index present) (by omega)
      have longer : (rows.set index row).size = rows.size + 1 := by
        rw [OrderedMap.size, OrderedMap.entries_set_of_not_mem _ _ absent, List.length_append]
        rfl
      omega
  cases (OrderedMap.mem_keys_set _ _ _ _).1 member with
  | inl here =>
    rw [here]
    exact grown.2
  | inr earlier => exact Nat.lt_of_lt_of_le (numbered other earlier) grown.1

/-- A group under way: only the row with its own index changes, and it holds what
the connections so far have brought. -/
structure UnderWay (runData : IRunData) (nodeName : String) (start now : Recreated)
    (visited : List GraphConnection) : Prop where
  others : ∀ name, name ≠ nodeName → rowsOf now name = rowsOf start name
  numbered : Numbered (rowsOf now nodeName)
  untouched : ∀ index, index ≠ (rowsOf start nodeName).size →
    (rowsOf now nodeName).get index = (rowsOf start nodeName).get index
  place : (rowsOf now nodeName).size = (rowsOf start nodeName).size ∨
    (rowsOf start nodeName).size ∈ (rowsOf now nodeName).keys
  holds : (∃ slots, mainAt (rowsOf now nodeName) (rowsOf start nodeName).size = some slots ∧
      Holds (filledInputs runData visited) slots) ∨
    mainAt (rowsOf now nodeName) (rowsOf start nodeName).size = none ∧
      filledInputs runData visited = []

theorem UnderWay.begin (runData : IRunData) (nodeName : String) (start : Recreated)
    (numbered : Numbered (rowsOf start nodeName)) :
    UnderWay runData nodeName start start [] := by
  refine ⟨fun _ _ => rfl, numbered, fun _ _ => rfl, .inl rfl, .inr ⟨?_, rfl⟩⟩
  have absent : (rowsOf start nodeName).get (rowsOf start nodeName).size = none := by
    refine (OrderedMap.get_eq_none_iff _ _).2 fun present => ?_
    exact absurd (numbered _ present) (Nat.lt_irrefl _)
  rw [mainAt, absent]
  rfl

theorem filledInputs_append (runData : IRunData) (visited : List GraphConnection)
    (connection : GraphConnection) :
    filledInputs runData (visited ++ [connection]) = filledInputs runData visited ++
      if bringsItems runData connection then [connection.inputIndex] else [] := by
  rw [filledInputs, List.filter_append, List.map_append]
  cases brings : bringsItems runData connection <;> simp [filledInputs, brings]

theorem UnderWay.step {runData : IRunData} {nodeName : String} {start now after : Recreated}
    {visited : List GraphConnection} (underWay : UnderWay runData nodeName start now visited)
    {connection : GraphConnection}
    (went : incompleteConnection runData nodeName (rowsOf start nodeName).size now connection =
      .ok after) :
    UnderWay runData nodeName start after (visited ++ [connection]) := by
  obtain ⟨incoming, found, done⟩ := (Fallible.bind_eq_ok_iff _ _ _).1 went
  have result := (Except.ok.inj done).symm
  cases incoming with
  | none =>
    have nothing : bringsItems runData connection = false := by simp [bringsItems, found]
    have same : filledInputs runData (visited ++ [connection]) = filledInputs runData visited := by
      rw [filledInputs_append, nothing]
      exact List.append_nil _
    rw [result]
    exact ⟨underWay.others, underWay.numbered, underWay.untouched, underWay.place,
      by rw [same]; exact underWay.holds⟩
  | some brought =>
    obtain ⟨items, runIndex⟩ := brought
    simp only at result
    rw [result]
    have own := rowsOf_addWaitingExecution now nodeName (rowsOf start nodeName).size connection.type
      connection.inputIndex (.value items)
    refine ⟨fun name other => ?_, ?_, fun index elsewhere => ?_, .inr ?_, ?_⟩
    · rw [own, if_neg other]
      exact underWay.others name other
    · rw [own, if_pos rfl]
      refine underWay.numbered.set _ ?_
      cases underWay.place with
      | inl fresh => exact .inr fresh.symm
      | inr present => exact .inl present
    · rw [own, if_pos rfl, addToRow, OrderedMap.get_set_of_ne _ _ elsewhere]
      exact underWay.untouched index elsewhere
    · rw [own, if_pos rfl, addToRow, OrderedMap.mem_keys_set]
      exact .inl rfl
    · rw [own, if_pos rfl, mainAt_addToRow, filledInputs_append]
      by_cases main : connection.type = .main
      · have brings : bringsItems runData connection = true := by
          rw [bringsItems, found]
          simp [main]
        rw [if_pos main, brings]
        refine .inl ⟨_, rfl, Holds.assign ?_ connection.inputIndex items⟩
        cases underWay.holds with
        | inl some_ =>
          obtain ⟨slots, held, holds⟩ := some_
          rw [held]
          exact .inl holds
        | inr none_ =>
          rw [none_.1]
          exact .inr ⟨none_.2, rfl⟩
      · have nothing : bringsItems runData connection = false := by simp [bringsItems, main]
        rw [if_neg main, nothing]
        simpa using underWay.holds

end

section

variable (localeBefore : String → String → Bool) (graph : DirectedGraph) (runData : IRunData)
  (pinData : IPinData)

variable {connection : GraphConnection}

theorem mem_collectGroups {fuel : Nat} {withData withoutData : List GraphConnection}
    {inputIndex : Nat} {currentGroup group : SourceConnectionGroup}
    (listed : group ∈ collectGroups fuel withData withoutData inputIndex currentGroup)
    (member : connection ∈ group.connections) :
    connection ∈ currentGroup.connections ∨ connection ∈ withData ∨ connection ∈ withoutData := by
  induction fuel, withData, withoutData, inputIndex, currentGroup using collectGroups.induct with
  | case1 withData withoutData inputIndex currentGroup =>
    rw [collectGroups, List.mem_singleton] at listed
    rw [← listed]
    exact .inl member
  | case2 fuel withData withoutData inputIndex currentGroup empty =>
    rw [collectGroups, if_pos empty, List.mem_singleton] at listed
    rw [← listed]
    exact .inl member
  | case3 fuel withData withoutData inputIndex currentGroup some_ taken found ih =>
    rw [collectGroups, if_neg some_, found] at listed
    cases ih listed with
    | inl before =>
      cases List.mem_append.1 before with
      | inl earlier => exact .inl earlier
      | inr last =>
        rw [List.mem_singleton.1 last]
        exact .inr (.inl (List.mem_of_find?_eq_some found))
    | inr rest => exact .inr (rest.imp_left List.mem_of_mem_eraseP)
  | case4 fuel withData withoutData inputIndex currentGroup some_ none_ taken found ih =>
    rw [collectGroups, if_neg some_, none_] at listed
    simp only [found] at listed
    cases ih listed with
    | inl before =>
      cases List.mem_append.1 before with
      | inl earlier => exact .inl earlier
      | inr last =>
        rw [List.mem_singleton.1 last]
        exact .inr (.inr (List.mem_of_find?_eq_some found))
    | inr rest => exact .inr (rest.imp_right List.mem_of_mem_eraseP)
  | case5 fuel withData withoutData inputIndex currentGroup some_ none_ nothing ih =>
    rw [collectGroups, if_neg some_, none_] at listed
    simp only [nothing] at listed
    cases List.mem_cons.1 listed with
    | inl here =>
      rw [← here]
      exact .inl member
    | inr later =>
      cases ih later with
      | inl before => cases before
      | inr rest => exact .inr rest

variable {group : SourceConnectionGroup}

theorem mem_getSourceDataGroups {node : INode}
    (listed : group ∈ getSourceDataGroups localeBefore graph node runData pinData)
    (member : connection ∈ group.connections) :
    connection ∈ graph.getConnections ∧ connection.toNode = node := by
  unfold getSourceDataGroups at listed
  simp only at listed
  split at listed
  · cases listed
  · have sorted : ∀ connections : List GraphConnection,
        connection ∈ sortConnections localeBefore connections → connection ∈ connections :=
      fun connections => (List.perm_insertionSort _ connections).mem_iff.1
    have into : connection ∈ graph.getConnections.filter (·.toNode = node) := by
      cases (mem_collectGroups listed member).resolve_left (by simp) with
      | inl data => exact (List.mem_filter.1 (sorted _ data)).1
      | inr without => exact (List.mem_filter.1 (sorted _ without)).1
    obtain ⟨real, target⟩ := List.mem_filter.1 into
    exact ⟨real, by simpa using target⟩

def groupsOf (startNodes : List INode) (nodeName : String) : List SourceConnectionGroup :=
  (startNodes.filter (·.name = nodeName)).flatMap fun node =>
    getSourceDataGroups localeBefore graph node runData pinData

theorem groupsOf_append (visited : List INode) (startNode : INode) (nodeName : String) :
    groupsOf localeBefore graph runData pinData (visited ++ [startNode]) nodeName =
      groupsOf localeBefore graph runData pinData visited nodeName ++
        if startNode.name = nodeName then
          getSourceDataGroups localeBefore graph startNode runData pinData
        else [] := by
  rw [groupsOf, List.filter_append, List.flatMap_append]
  by_cases named : startNode.name = nodeName <;> simp [groupsOf, named]

structure Rebuilt (nodeName : String) (groups : List SourceConnectionGroup)
    (recreated : Recreated) : Prop where
  numbered : ∀ name, Numbered (rowsOf recreated name)
  rows : ∀ index slots, mainAt (rowsOf recreated nodeName) index = some slots →
    ∃ group ∈ groups, group.complete = false ∧
      Holds (filledInputs runData group.connections) slots
  kept : ∀ group ∈ groups, group.complete = false →
    filledInputs runData group.connections = [] ∨
      ∃ index slots, mainAt (rowsOf recreated nodeName) index = some slots ∧
        Holds (filledInputs runData group.connections) slots

variable {localeBefore graph runData pinData} {nodeName : String}
  {groups more : List SourceConnectionGroup} {before after : Recreated}

theorem Rebuilt.append (rebuilt : Rebuilt runData nodeName groups before)
    (nothing : ∀ group ∈ more, group.complete = false →
      filledInputs runData group.connections = []) :
    Rebuilt runData nodeName (groups ++ more) before := by
  refine ⟨rebuilt.numbered, fun index slots stored => ?_, fun group member incomplete => ?_⟩
  · obtain ⟨group, member, rest⟩ := rebuilt.rows index slots stored
    exact ⟨group, List.mem_append_left more member, rest⟩
  · cases List.mem_append.1 member with
    | inl earlier => exact rebuilt.kept group earlier incomplete
    | inr new => exact .inl (nothing group new incomplete)

theorem nextRunIndex_eq (recreated : Recreated) (name : String) :
    nextRunIndex recreated name = (rowsOf recreated name).size := by
  unfold nextRunIndex rowsOf
  cases recreated.waitingExecution.get name <;> rfl

theorem UnderWay.rebuilt
    (underWay : UnderWay runData nodeName before after group.connections)
    (rebuilt : Rebuilt runData nodeName groups before) (incomplete : group.complete = false) :
    Rebuilt runData nodeName (groups ++ [group]) after := by
  have elsewhere : ∀ index, index ≠ (rowsOf before nodeName).size →
      mainAt (rowsOf after nodeName) index = mainAt (rowsOf before nodeName) index := by
    intro index other
    rw [mainAt, underWay.untouched index other, mainAt]
  have fresh : mainAt (rowsOf before nodeName) (rowsOf before nodeName).size = none := by
    cases UnderWay.begin runData nodeName before (rebuilt.numbered nodeName) |>.holds with
    | inl some_ =>
      obtain ⟨_, _, holds⟩ := some_
      exact absurd rfl holds.some_
    | inr none_ => exact none_.1
  refine ⟨fun name => ?_, fun index slots stored => ?_, fun other member without => ?_⟩
  · by_cases here : name = nodeName
    · rw [here]
      exact underWay.numbered
    · rw [underWay.others name here]
      exact rebuilt.numbered name
  · by_cases here : index = (rowsOf before nodeName).size
    · rw [here] at stored
      cases underWay.holds with
      | inl some_ =>
        obtain ⟨main, same, holds⟩ := some_
        rw [stored] at same
        rw [Option.some.inj same]
        exact ⟨group, by simp, incomplete, holds⟩
      | inr none_ =>
        simp [none_.1] at stored
    · rw [elsewhere index here] at stored
      obtain ⟨source, listed, rest⟩ := rebuilt.rows index slots stored
      exact ⟨source, List.mem_append_left _ listed, rest⟩
  · cases List.mem_append.1 member with
    | inl earlier =>
      refine (rebuilt.kept other earlier without).imp_right fun stored => ?_
      obtain ⟨index, slots, held, holds⟩ := stored
      refine ⟨index, slots, ?_, holds⟩
      rw [elsewhere index fun here => ?_, held]
      simp [here, fresh] at held
    | inr last =>
      rw [List.mem_singleton.1 last]
      cases underWay.holds with
      | inl some_ => exact .inr ⟨_, some_⟩
      | inr none_ => exact .inl none_.2

theorem recreateGroup_rebuilt {startNode : INode}
    (rebuilt : Rebuilt runData nodeName groups before)
    (went : recreateGroup runData pinData startNode before group = .ok after) :
    Rebuilt runData nodeName
      (groups ++ if startNode.name = nodeName then [group] else []) after := by
  unfold recreateGroup at went
  split at went
  · rename_i complete
    obtain ⟨_, _, done⟩ := (Fallible.bind_eq_ok_iff _ _ _).1 went
    rw [← Except.ok.inj done]
    have same : Rebuilt runData nodeName groups before := rebuilt
    refine Rebuilt.append ⟨same.numbered, same.rows, same.kept⟩ fun other member incomplete => ?_
    split at member
    · simp [List.mem_singleton.1 member, complete] at incomplete
    · cases member
  · rename_i incomplete
    rw [nextRunIndex_eq] at went
    have underWay : UnderWay runData startNode.name before after group.connections :=
      Fallible.foldlM_kept went
        (P := fun visited now => UnderWay runData startNode.name before now visited)
        (.begin runData startNode.name before (rebuilt.numbered startNode.name))
        fun _ _ _ _ _ held step => held.step step
    split
    · rename_i here
      rw [here] at underWay
      exact underWay.rebuilt rebuilt (Bool.eq_false_of_not_eq_true incomplete)
    · rename_i elsewhere
      have same := underWay.others nodeName (Ne.symm elsewhere)
      rw [List.append_nil]
      refine ⟨fun name => ?_, by rw [same]; exact rebuilt.rows, by rw [same]; exact rebuilt.kept⟩
      by_cases here : name = startNode.name
      · rw [here]
        exact underWay.numbered
      · rw [underWay.others name here]
        exact rebuilt.numbered name

theorem recreateStartNode_rebuilt {startNode : INode} {visited : List INode}
    (rebuilt : Rebuilt runData nodeName
      (groupsOf localeBefore graph runData pinData visited nodeName) before)
    (went : recreateStartNode localeBefore graph runData pinData before startNode = .ok after) :
    Rebuilt runData nodeName
      (groupsOf localeBefore graph runData pinData (visited ++ [startNode]) nodeName) after := by
  obtain ⟨parents, asked, rest⟩ := (Fallible.bind_eq_ok_iff _ _ _).1 went
  rw [groupsOf_append]
  split at rest
  · rename_i nothing
    rw [← Except.ok.inj rest]
    refine Rebuilt.append ⟨rebuilt.numbered, rebuilt.rows, rebuilt.kept⟩ fun group member _ => ?_
    split at member
    · have listed := ((DirectedGraph.getDirectParentConnections_eq_ok_iff _ _ _).1 asked).2
      rw [filledInputs, List.map_eq_nil_iff, List.filter_eq_nil_iff]
      intro connection among brings
      obtain ⟨real, target⟩ := mem_getSourceDataGroups _ _ _ _ member among
      have main : connection.type = .main := by
        simp only [bringsItems, Bool.and_eq_true, decide_eq_true_eq] at brings
        exact brings.1
      rw [List.isEmpty_iff, List.filter_eq_nil_iff, listed] at nothing
      exact nothing connection (List.mem_filter.2 ⟨real, by simpa using target⟩) (by simpa using main)
    · cases member
  · split
    · rename_i named
      have folded := Fallible.foldlM_kept rest (P := fun done now => Rebuilt runData nodeName
        (groupsOf localeBefore graph runData pinData visited nodeName ++ done) now)
        (by rw [List.append_nil]; exact rebuilt) fun done group s t _ held step => by
          have grown := recreateGroup_rebuilt held step
          rw [if_pos named, List.append_assoc] at grown
          exact grown
      exact folded
    · rename_i other
      rw [List.append_nil]
      exact Fallible.foldlM_kept rest (P := fun _ now => Rebuilt runData nodeName
        (groupsOf localeBefore graph runData pinData visited nodeName) now) rebuilt
        fun done group s t _ held step => by
          have grown := recreateGroup_rebuilt held step
          rw [if_neg other, List.append_nil] at grown
          exact grown

theorem recreateNodeExecutionStack_rebuilt {startNodes : List INode} {recreated : Recreated}
    (went : recreateNodeExecutionStack localeBefore graph runData pinData startNodes =
      .ok recreated) (nodeName : String) :
    Rebuilt runData nodeName (groupsOf localeBefore graph runData pinData startNodes nodeName)
      recreated := by
  obtain ⟨_, _, started⟩ := (Fallible.bind_eq_ok_iff _ _ _).1 went
  have initial : Rebuilt runData nodeName
      (groupsOf localeBefore graph runData pinData [] nodeName) {} := by
    refine ⟨fun name index member => ?_, fun index slots stored => ?_, fun group member => ?_⟩
    · cases member
    · cases stored
    · cases member
  exact Fallible.foldlM_kept started (P := fun visited now => Rebuilt runData nodeName
    (groupsOf localeBefore graph runData pinData visited nodeName) now) initial
    fun _ _ _ _ _ held step => recreateStartNode_rebuilt held step

def sourceRowsOf (recreated : Recreated) (nodeName : String) :
    OrderedMap Nat ITaskDataConnectionsSource :=
  (recreated.waitingExecutionSource.get nodeName).getD ∅

/-- Every row of the node has a `main`, and so has its row of sources. -/
def HasMains (nodeName : String) (recreated : Recreated) : Prop :=
  ∀ index row, (rowsOf recreated nodeName).get index = some row →
    (row.get .main).isSome ∧
      ∃ sources, (sourceRowsOf recreated nodeName).get index = some sources ∧
        (sources.get .main).isSome

theorem incompleteConnection_hasMains {startNode : String} {index : Nat} (has : HasMains nodeName before)
    (main : startNode = nodeName → connection.type = .main)
    (went : incompleteConnection runData startNode index before connection = .ok after) :
    HasMains nodeName after := by
  obtain ⟨incoming, found, done⟩ := (Fallible.bind_eq_ok_iff _ _ _).1 went
  rw [← Except.ok.inj done]
  cases incoming with
  | none => exact has
  | some brought =>
    obtain ⟨items, runIndex⟩ := brought
    by_cases here : nodeName = startNode
    · intro place row stored
      rw [rowsOf_addWaitingExecution, if_pos here, addToRow, OrderedMap.get_set] at stored
      simp only [sourceRowsOf, addWaitingExecutionSource, OrderedMap.get_set, if_pos here,
        Option.getD_some, addToRow]
      split at stored
      · rename_i same
        rw [if_pos same, ← Option.some.inj stored, main here.symm, OrderedMap.get_set_self]
        exact ⟨rfl, _, rfl, by rw [OrderedMap.get_set_self]; rfl⟩
      · rename_i other
        rw [if_neg other]
        rw [← here] at stored ⊢
        exact has place row stored
    · intro place row stored
      rw [rowsOf_addWaitingExecution, if_neg here] at stored
      simp only [sourceRowsOf, addWaitingExecutionSource, OrderedMap.get_set, if_neg here]
      exact has place row stored

theorem recreateNodeExecutionStack_hasMains {startNodes : List INode} {recreated : Recreated}
    (only : ∀ connection ∈ graph.getConnections, connection.toNode.name = nodeName →
      connection.type = .main)
    (went : recreateNodeExecutionStack localeBefore graph runData pinData startNodes =
      .ok recreated) : HasMains nodeName recreated := by
  obtain ⟨_, _, started⟩ := (Fallible.bind_eq_ok_iff _ _ _).1 went
  refine Fallible.foldlM_kept started (P := fun _ now => HasMains nodeName now)
    (fun index row stored => by cases stored) fun _ startNode _ _ _ has step => ?_
  obtain ⟨_, _, rest⟩ := (Fallible.bind_eq_ok_iff _ _ _).1 step
  split at rest
  · rw [← Except.ok.inj rest]
    exact has
  · refine Fallible.foldlM_kept rest (P := fun _ now => HasMains nodeName now) has
      fun _ group _ _ listed held grouped => ?_
    unfold recreateGroup at grouped
    split at grouped
    · obtain ⟨_, _, done⟩ := (Fallible.bind_eq_ok_iff _ _ _).1 grouped
      rw [← Except.ok.inj done]
      exact held
    · refine Fallible.foldlM_kept grouped (P := fun _ now => HasMains nodeName now) held
        fun _ connection _ _ member kept added => incompleteConnection_hasMains kept ?_ added
      intro named
      obtain ⟨real, target⟩ := mem_getSourceDataGroups _ _ _ _ listed member
      exact only connection real (by rw [target, named])

end
end NodeAutomation.RecreatedRows
