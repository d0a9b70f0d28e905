import NodeAutomation.Core.SourceGroups

/-! The stack entries that `recreateNodeExecutionStack` pushes: one for a start node without parents,
and one for each complete group of the others. What a group brings stands at its inputs if the group
starts with input 0 and brings items without a gap. -/

namespace NodeAutomation.RecreatedEntries

open RecreateStack SourceGroups Fallible

section

variable (localeBefore : String → String → Bool) (graph : DirectedGraph) (runData : IRunData) (pinData : IPinData)

/-- What a connection brings and from which run: pinned data of its source, else the first run with
data on its output. -/
def brings (connection : GraphConnection) : Option (List INodeExecutionData × Nat) :=
  match pinData.get connection.fromNode.name with
  | some items => some (items, 0)
  | none =>
    match getIncomingDataFromAnyRun runData connection.fromNode.name connection.type connection.outputIndex with
    | .ok found => found
    | .error _ => none

def broughtBy (connection : GraphConnection) : ISourceData :=
  ⟨connection.fromNode.name, some connection.outputIndex,
    some (((brings runData pinData connection).map Prod.snd).getD 0)⟩

def connectionInto (connections : List GraphConnection) (input : Nat) : Option GraphConnection :=
  connections.find? (·.inputIndex = input)

structure Aligned (connections : List GraphConnection) (entry : IExecuteData) : Prop where
  data : ∃ slots, entry.data.get .main = some slots ∧ ∀ input, (Slot.at_ slots input).value? =
    (connectionInto connections input).bind fun c => (brings runData pinData c).map Prod.fst
  source : ∃ sources slots, entry.source = some sources ∧ sources.get .main = some slots ∧
    ∀ input, (Slot.at_ slots input).value? = (connectionInto connections input).map (broughtBy runData pinData)

def pushesOf (startNode : INode) : List (INode × Option SourceConnectionGroup) :=
  if ((graph.getConnections.filter (·.toNode = startNode)).filter (·.type = .main)).isEmpty then [(startNode, none)]
  else ((getSourceDataGroups localeBefore graph startNode runData pinData).filter (·.complete)).map
    fun group => (startNode, some group)

def EntriesAligned (startNodes : List INode) (recreated : Recreated) : Prop :=
  List.Forall₂ (fun push entry => ∀ group, push.2 = some group → Aligned runData pinData group.connections entry)
    (startNodes.flatMap (pushesOf localeBefore graph runData pinData)) recreated.nodeExecutionStack

/-- The group starts with input 0, and no connection without items is before one with items. -/
structure InPlace (connections : List GraphConnection) : Prop where
  first : ∀ connection, connections.head? = some connection → connection.inputIndex = 0
  noGap : connections.Pairwise fun a b => brings runData pinData a = none → brings runData pinData b = none

structure EntryFor (push : INode × Option SourceConnectionGroup) (entry : IExecuteData) : Prop where
  node : entry.node = push.1
  data : ∀ group, push.2 = some group →
    entry.data = mainOnly ((group.connections.filterMap fun c => (brings runData pinData c).map Prod.fst).map .value) ∧
    entry.source = some (mainOnly (group.connections.map fun c => .value (broughtBy runData pinData c)))

end

variable {localeBefore : String → String → Bool} {graph : DirectedGraph} {runData : IRunData} {pinData : IPinData}
variable {startNode : INode} {connection : GraphConnection} {connections : List GraphConnection}
variable {before after : Recreated}

theorem completeIncomingData_ok {found : Option (List INodeExecutionData) × Nat}
    (went : completeIncomingData runData pinData startNode connection = .ok found) :
    found.1 = (brings runData pinData connection).map Prod.fst ∧
      found.2 = ((brings runData pinData connection).map Prod.snd).getD 0 := by
  unfold completeIncomingData at went
  dsimp only at went
  unfold brings
  cases pinned : pinData.get connection.fromNode.name with
  | some items =>
    rw [pinned] at went
    cases went
    exact ⟨rfl, rfl⟩
  | none =>
    rw [pinned] at went
    obtain ⟨_, _, went⟩ := (bind_eq_ok_iff _ _ _).1 went
    obtain ⟨incoming, brought, went⟩ := (bind_eq_ok_iff _ _ _).1 went
    rw [brought]
    cases incoming with
    | none =>
      cases went
      exact ⟨rfl, rfl⟩
    | some pair =>
      cases went
      exact ⟨rfl, rfl⟩

theorem completeGroup_ok {data : List (Slot (List INodeExecutionData))} {source : List (Slot ISourceData)}
    (went : completeGroup runData pinData startNode connections = .ok (data, source)) :
    data = (connections.filterMap fun c => (brings runData pinData c).map Prod.fst).map .value ∧
      source = connections.map fun c => .value (broughtBy runData pinData c) := by
  refine foldlM_kept (P := fun visited (incoming : List (Slot (List INodeExecutionData)) × List (Slot ISourceData)) =>
    incoming.1 = (visited.filterMap fun c => (brings runData pinData c).map Prod.fst).map .value ∧
      incoming.2 = visited.map fun c => .value (broughtBy runData pinData c)) went ⟨rfl, rfl⟩ ?_
  intro visited c incoming next _ held body
  obtain ⟨found, brought, body⟩ := (bind_eq_ok_iff _ _ _).1 body
  obtain ⟨items, run⟩ := completeIncomingData_ok brought
  have same := Except.ok.inj body
  rw [← same]
  refine ⟨?_, ?_⟩
  · dsimp only
    rw [List.filterMap_append, List.map_append, ← held.1]
    cases present : brings runData pinData c with
    | none =>
      rw [present] at items
      simp [items, present]
    | some pair =>
      rw [present] at items
      simp [items, present]
  · dsimp only
    rw [List.map_append, held.2, run]
    rfl

theorem stack_incompleteConnection {nodeName : String} {index : Nat}
    (went : incompleteConnection runData nodeName index before connection = .ok after) :
    after.nodeExecutionStack = before.nodeExecutionStack := by
  obtain ⟨incoming, _, done⟩ := (bind_eq_ok_iff _ _ _).1 went
  rw [← Except.ok.inj done]
  cases incoming <;> rfl

theorem recreateGroup_pushes {group : SourceConnectionGroup} {pushes : List (INode × Option SourceConnectionGroup)}
    (held : List.Forall₂ (EntryFor runData pinData) pushes before.nodeExecutionStack)
    (went : recreateGroup runData pinData startNode before group = .ok after) :
    List.Forall₂ (EntryFor runData pinData) (pushes ++ if group.complete then [(startNode, some group)] else [])
      after.nodeExecutionStack := by
  unfold recreateGroup at went
  split at went
  case isTrue complete =>
    obtain ⟨pair, built, done⟩ := (bind_eq_ok_iff _ _ _).1 went
    obtain ⟨data, source⟩ := pair
    obtain ⟨data_, source_⟩ := completeGroup_ok built
    rw [← Except.ok.inj done, if_pos complete]
    refine List.rel_append held (.cons ⟨rfl, fun other same => ?_⟩ .nil)
    cases same
    exact ⟨congrArg mainOnly data_, congrArg (some ∘ mainOnly) source_⟩
  case isFalse incomplete =>
    rw [if_neg incomplete, List.append_nil]
    exact foldlM_kept (P := fun _ now => List.Forall₂ (EntryFor runData pinData) pushes now.nodeExecutionStack) went held
      fun _ _ _ _ _ earlier step => by
        rw [stack_incompleteConnection step]
        exact earlier

theorem recreateStartNode_pushes {pushes : List (INode × Option SourceConnectionGroup)}
    (held : List.Forall₂ (EntryFor runData pinData) pushes before.nodeExecutionStack)
    (went : recreateStartNode localeBefore graph runData pinData before startNode = .ok after) :
    List.Forall₂ (EntryFor runData pinData) (pushes ++ pushesOf localeBefore graph runData pinData startNode)
      after.nodeExecutionStack := by
  obtain ⟨parents, asked, went⟩ := (bind_eq_ok_iff _ _ _).1 went
  rw [((DirectedGraph.getDirectParentConnections_eq_ok_iff _ _ _).1 asked).2] at went
  unfold pushesOf
  split at went
  case isTrue nothing =>
    rw [if_pos nothing, ← Except.ok.inj went]
    refine List.rel_append held (.cons ⟨rfl, fun group never => ?_⟩ .nil)
    cases never
  case isFalse some =>
    rw [if_neg some]
    have loop := foldlM_kept (P := fun visited now => List.Forall₂ (EntryFor runData pinData)
      (pushes ++ (visited.filter (·.complete)).map fun group => (startNode, Option.some group)) now.nodeExecutionStack)
      went (by simpa using held) fun visited group now next _ earlier step => by
        have further := recreateGroup_pushes earlier step
        rw [List.append_assoc] at further
        rw [List.filter_append, List.map_append, List.filter_singleton]
        cases complete : group.complete with
        | true => simpa [complete] using further
        | false => simpa [complete] using further
    exact loop

theorem recreateNodeExecutionStack_pushes {startNodes : List INode} {recreated : Recreated}
    (went : recreateNodeExecutionStack localeBefore graph runData pinData startNodes = .ok recreated) :
    List.Forall₂ (EntryFor runData pinData) (startNodes.flatMap (pushesOf localeBefore graph runData pinData))
      recreated.nodeExecutionStack := by
  obtain ⟨_, _, started⟩ := (bind_eq_ok_iff _ _ _).1 went
  refine foldlM_kept (P := fun visited now => List.Forall₂ (EntryFor runData pinData)
    (visited.flatMap (pushesOf localeBefore graph runData pinData)) now.nodeExecutionStack) started .nil ?_
  intro visited startNode now next _ held step
  rw [List.flatMap_append, List.flatMap_singleton]
  exact recreateStartNode_pushes held step

theorem value?_at_map {α : Type} (values : List α) (index : Nat) :
    (Slot.at_ (values.map Slot.value) index).value? = values[index]? := by
  rw [Slot.at_, List.getD_eq_getElem?_getD, List.getElem?_map]
  cases values[index]? <;> rfl

/-- Leaving out what is missing moves nothing if and only if nothing follows it. -/
theorem getElem?_filterMap_iff {α β : Type} (f : α → Option β) (xs : List α) :
    (∀ i : Nat, (xs.filterMap f)[i]? = xs[i]?.bind f) ↔ xs.Pairwise fun a b => f a = none → f b = none := by
  induction xs with
  | nil => simp
  | cons x xs ih =>
    rw [List.pairwise_cons]
    cases first : f x with
    | some y =>
      rw [List.filterMap_cons_some first, ← ih]
      constructor
      · intro all
        exact ⟨(by simp), fun i => by simpa using all (i + 1)⟩
      · intro rest i
        cases i with
        | zero => simp [first]
        | succ i => simpa using rest.2 i
    | none =>
      rw [List.filterMap_cons_none first]
      constructor
      · intro all
        have start : (xs.filterMap f)[0]? = none := by rw [all 0, List.getElem?_cons_zero, Option.bind_some, first]
        have nothing : xs.filterMap f = [] := List.length_eq_zero_iff.1 (Nat.le_zero.1 (List.getElem?_eq_none_iff.1 start))
        have none (b : α) (member : b ∈ xs) : f b = none := List.filterMap_eq_nil_iff.1 nothing b member
        exact ⟨fun b member _ => none b member,
          List.pairwise_of_forall_mem_list fun _ _ b member _ => none b member⟩
      · intro rest i
        have nothing : xs.filterMap f = [] := List.filterMap_eq_nil_iff.2 fun b member => rest.1 b member rfl
        rw [nothing]
        cases i with
        | zero => simp [first]
        | succ i =>
          rw [List.getElem?_cons_succ, List.getElem?_nil]
          cases later : xs[i]? with
          | none => rfl
          | some b => exact (rest.1 b (List.mem_of_getElem? later) rfl).symm

theorem connectionInto_add {start : Nat} (inputs : connections.map (·.inputIndex) = List.range' start connections.length)
    (i : Nat) : connectionInto connections (start + i) = connections[i]? := by
  induction connections generalizing start i with
  | nil => rfl
  | cons c connections ih =>
    rw [List.map_cons, List.length_cons, List.range'_succ] at inputs
    obtain ⟨here, rest⟩ := List.cons.inj inputs
    rw [connectionInto, List.find?_cons]
    cases i with
    | zero => rw [Nat.add_zero, decide_eq_true here, List.getElem?_cons_zero]
    | succ i =>
      have other : decide (c.inputIndex = start + (i + 1)) = false := decide_eq_false (by omega)
      have later := ih rest i
      rw [other, List.getElem?_cons_succ, ← later, Nat.add_right_comm]
      rfl

theorem inputIndex_of_connectionInto {input : Nat} (found : connectionInto connections input = some connection) :
    connection.inputIndex = input ∧ connection ∈ connections := by
  rw [connectionInto] at found
  exact ⟨by simpa using List.find?_some found, List.mem_of_find?_eq_some found⟩

/-- Of consecutive connections, the entry is aligned if and only if they are in place. -/
theorem aligned_iff {entry : IExecuteData} (consecutive : Consecutive connections)
    (data : entry.data = mainOnly ((connections.filterMap fun c => (brings runData pinData c).map Prod.fst).map .value))
    (source : entry.source = some (mainOnly (connections.map fun c => .value (broughtBy runData pinData c)))) :
    Aligned runData pinData connections entry ↔ InPlace runData pinData connections := by
  obtain ⟨start, inputs⟩ := consecutive
  have sources : (connections.map fun c => Slot.value (broughtBy runData pinData c)) =
      (connections.map (broughtBy runData pinData)).map .value := by rw [List.map_map]; rfl
  have gaps := getElem?_filterMap_iff (fun c => (brings runData pinData c).map Prod.fst) connections
  simp only [Option.map_eq_none_iff] at gaps
  have headed (c : GraphConnection) (head : connections.head? = some c) : c.inputIndex = start := by
    obtain ⟨rest, split⟩ := List.head?_eq_some_iff.1 head
    rw [split, List.map_cons, List.length_cons, List.range'_succ] at inputs
    exact (List.cons.inj inputs).1
  constructor
  · intro aligned
    have first : ∀ c, connections.head? = some c → c.inputIndex = 0 := by
      intro c head
      obtain ⟨_, slots, same, found, each⟩ := aligned.source
      rw [source] at same
      cases same
      rw [get_mainOnly, sources] at found
      cases found
      have zeroth := each 0
      rw [value?_at_map, List.getElem?_map, ← List.head?_eq_getElem?, head] at zeroth
      obtain ⟨d, into, _⟩ := Option.map_eq_some_iff.1 zeroth.symm
      obtain ⟨here, member⟩ := inputIndex_of_connectionInto into
      have inside : d.inputIndex ∈ List.range' start connections.length := by
        rw [← inputs]
        exact List.mem_map_of_mem member
      have bound := (List.mem_range'_1.1 inside).1
      rw [headed c head]
      omega
    refine ⟨first, gaps.1 fun i => ?_⟩
    obtain ⟨slots, found, each⟩ := aligned.data
    rw [data, get_mainOnly] at found
    cases found
    have here := each i
    rw [value?_at_map] at here
    rw [here]
    cases head : connections.head? with
    | none =>
      rw [List.head?_eq_none_iff] at head
      rw [head]
      rfl
    | some c =>
      have zero : start = 0 := (headed c head).symm.trans (first c head)
      rw [zero] at inputs
      rw [← connectionInto_add inputs i, Nat.zero_add]
  · intro place
    have into (i : Nat) : connectionInto connections i = connections[i]? := by
      cases head : connections.head? with
      | none =>
        rw [List.head?_eq_none_iff] at head
        rw [head]
        rfl
      | some c =>
        have zero : start = 0 := (headed c head).symm.trans (place.first c head)
        rw [zero] at inputs
        rw [← connectionInto_add inputs i, Nat.zero_add]
    refine ⟨⟨_, by rw [data, get_mainOnly], fun i => ?_⟩, ⟨_, _, source, get_mainOnly _, fun i => ?_⟩⟩
    · rw [value?_at_map, gaps.2 place.noGap i, into]
    · rw [sources, value?_at_map, List.getElem?_map, into]

theorem forall₂_iff_of {α β : Type} {R S : α → β → Prop} {T : α → Prop} {xs : List α} {ys : List β}
    (related : List.Forall₂ R xs ys) (same : ∀ x ∈ xs, ∀ y, R x y → (S x y ↔ T x)) :
    List.Forall₂ S xs ys ↔ ∀ x ∈ xs, T x := by
  induction related with
  | nil => simp
  | @cons x y xs ys here _ ih =>
    rw [List.forall₂_cons, same x List.mem_cons_self y here, ih fun x member => same x (List.mem_cons_of_mem _ member),
      List.forall_mem_cons]

theorem mem_pushesOf {node : INode} {group : SourceConnectionGroup} :
    (node, some group) ∈ pushesOf localeBefore graph runData pinData startNode ↔
      node = startNode ∧ group ∈ getSourceDataGroups localeBefore graph startNode runData pinData ∧
        group.complete = true ∧ ∃ c ∈ graph.getConnections, c.toNode = startNode ∧ c.type = .main := by
  have parents : ((graph.getConnections.filter (·.toNode = startNode)).filter (·.type = .main)).isEmpty = false ↔
      ∃ c ∈ graph.getConnections, c.toNode = startNode ∧ c.type = .main := by
    rw [List.filter_filter]
    simp [and_comm]
  unfold pushesOf
  split
  case isTrue none =>
    refine iff_of_false (by simp) fun listed => ?_
    rw [← parents, none] at listed
    exact Bool.noConfusion listed.2.2.2
  case isFalse some =>
    have has := parents.1 (Bool.eq_false_iff.2 some)
    constructor
    · intro listed
      obtain ⟨other, member, same⟩ := List.mem_map.1 listed
      cases same
      obtain ⟨member, complete⟩ := List.mem_filter.1 member
      exact ⟨rfl, member, complete, has⟩
    · intro listed
      obtain ⟨rfl, member, complete, _⟩ := listed
      exact List.mem_map.2 ⟨group, List.mem_filter.2 ⟨member, complete⟩, rfl⟩

/-- The entries for complete groups are aligned if and only if every such group is in place. -/
theorem recreateNodeExecutionStack_aligned_iff {startNodes : List INode} {recreated : Recreated}
    (went : recreateNodeExecutionStack localeBefore graph runData pinData startNodes = .ok recreated) :
    EntriesAligned localeBefore graph runData pinData startNodes recreated ↔
      ∀ startNode ∈ startNodes, ∀ group ∈ getSourceDataGroups localeBefore graph startNode runData pinData,
        group.complete = true → (∃ c ∈ graph.getConnections, c.toNode = startNode ∧ c.type = .main) →
          InPlace runData pinData group.connections := by
  have pushed := recreateNodeExecutionStack_pushes went
  rw [EntriesAligned, forall₂_iff_of (T := fun push => ∀ group, push.2 = some group →
    InPlace runData pinData group.connections) pushed]
  · constructor
    · intro all startNode start group listed complete parents
      exact all (startNode, some group) (List.mem_flatMap.2 ⟨startNode, start, mem_pushesOf.2 ⟨rfl, listed, complete, parents⟩⟩)
        group rfl
    · intro all push member group same
      obtain ⟨node, pushed⟩ := push
      cases same
      obtain ⟨startNode, start, among⟩ := List.mem_flatMap.1 member
      obtain ⟨_, listed, complete, parents⟩ := mem_pushesOf.1 among
      exact all startNode start group listed complete parents
  · intro push member entry held
    refine forall_congr' fun group => imp_congr_right fun same => ?_
    obtain ⟨node, pushed⟩ := push
    cases same
    obtain ⟨startNode, _, among⟩ := List.mem_flatMap.1 member
    obtain ⟨data, source⟩ := held.data group rfl
    exact aligned_iff (getSourceDataGroups_consecutive group (mem_pushesOf.1 among).2.1) data source

/-- Runs of one item each. -/
def ranWith (names : List String) : IRunData :=
  OrderedMap.ofList (names.map fun name => (name, [{ data := some (mainOnly [.value [{}]]) }]))

theorem bothInputs_aligned : ∃ recreated, recreateNodeExecutionStack inAlphabet
    (sourcesGraph [("First", 0), ("Second", 1)]) (ranWith ["First", "Second"]) ∅ [sink] = .ok recreated ∧
    EntriesAligned inAlphabet (sourcesGraph [("First", 0), ("Second", 1)]) (ranWith ["First", "Second"]) ∅ [sink]
      recreated := by
  have returns : (recreateNodeExecutionStack inAlphabet (sourcesGraph [("First", 0), ("Second", 1)])
    (ranWith ["First", "Second"]) ∅ [sink]).toOption.isSome = true := by decide
  cases went : recreateNodeExecutionStack inAlphabet (sourcesGraph [("First", 0), ("Second", 1)])
      (ranWith ["First", "Second"]) ∅ [sink] with
  | error e =>
    rw [went] at returns
    cases returns
  | ok recreated =>
    refine ⟨recreated, rfl, (recreateNodeExecutionStack_aligned_iff went).2 fun startNode start group listed _ _ => ?_⟩
    rw [List.mem_singleton.1 start] at listed
    have one : getSourceDataGroups inAlphabet (sourcesGraph [("First", 0), ("Second", 1)]) sink
        (ranWith ["First", "Second"]) ∅ = [{ connections := [⟨{ name := "First" }, sink, .main, 0, 0⟩,
          ⟨{ name := "Second" }, sink, .main, 0, 1⟩] }] := by decide
    rw [one, List.mem_singleton] at listed
    rw [listed]
    exact ⟨(by simp), (by decide)⟩

/-- Only input 1 is connected: its data is put at input 0. -/
theorem secondInput_not_aligned : ¬∃ recreated, recreateNodeExecutionStack inAlphabet (sourcesGraph [("First", 1)])
    (ranWith ["First"]) ∅ [sink] = .ok recreated ∧
    EntriesAligned inAlphabet (sourcesGraph [("First", 1)]) (ranWith ["First"]) ∅ [sink] recreated := by
  intro aligned
  obtain ⟨recreated, went, aligned⟩ := aligned
  have pushed := recreateNodeExecutionStack_pushes went
  have pushes : [sink].flatMap (pushesOf inAlphabet (sourcesGraph [("First", 1)]) (ranWith ["First"]) ∅) =
    [(sink, some { connections := [⟨{ name := "First" }, sink, .main, 0, 1⟩] })] := by decide
  rw [EntriesAligned, pushes] at aligned
  rw [pushes] at pushed
  generalize recreated.nodeExecutionStack = stack at aligned pushed
  cases pushed with
  | cons held _ =>
    cases aligned with
    | cons here _ =>
      obtain ⟨data, source⟩ := held.data _ rfl
      have place := (aligned_iff ⟨1, rfl⟩ data source).1 (here _ rfl)
      exact absurd (place.first _ rfl) (by decide)

end NodeAutomation.RecreatedEntries
