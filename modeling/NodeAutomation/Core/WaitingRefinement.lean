import NodeAutomation.Core.WaitingExecution
import NodeAutomation.Lib.RowPool
import NodeAutomation.Lib.Runs

/-! The entries of a waiting node are a pool of rows: one for each entry, with
the items and the source record of every input that has received any. Handing
over a batch is delivering a token to the pool. -/

namespace NodeAutomation.WaitingRefinement
open RowPool WorkflowExecute Connections

/-- Items with the record of where they come from. -/
abbrev Batch := List INodeExecutionData × ISourceData

variable {k : Nat}

def dataSlot : Option Batch → Slot (List INodeExecutionData)
  | none => .null
  | some batch => .value batch.1

def sourceSlot : Option Batch → Slot ISourceData
  | none => .null
  | some batch => .value batch.2

def encodeData (row : Row k Batch) : ITaskDataConnections :=
  mainOnly (List.ofFn fun i => dataSlot (row i))

def encodeSource (row : Row k Batch) : ITaskDataConnectionsSource :=
  mainOnly (List.ofFn fun i => sourceSlot (row i))

def encode (pool : Pool k Batch) : NodeWaiting :=
  ⟨pool.mapValues encodeData, pool.mapValues encodeSource⟩

theorem at_ofFn {α : Type} (f : Fin k → Slot α) (i : Fin k) :
    Slot.at_ (List.ofFn f) i = f i := by
  rw [Slot.at_, List.getD_eq_getElem _ _ (by rw [List.length_ofFn]; exact i.isLt),
    List.getElem_ofFn]

theorem assign_ofFn {α : Type} (f : Fin k → Slot α) (i : Fin k) (slot : Slot α) :
    Slot.assign (List.ofFn f) i slot = List.ofFn (Function.update f i slot) := by
  have lengths : (Slot.assign (List.ofFn f) i slot).length = k := by
    rw [Slot.length_assign, List.length_ofFn]
    omega
  apply List.ext_getElem
  · rw [lengths, List.length_ofFn]
  · intro j left right
    have bound : j < k := by rwa [List.length_ofFn] at right
    have read := Slot.at_assign (List.ofFn f) i j slot
    rw [Slot.at_, List.getD_eq_getElem _ _ left] at read
    rw [read, List.getElem_ofFn]
    by_cases same : j = i
    · have eq : (⟨j, bound⟩ : Fin k) = i := Fin.ext same
      rw [if_pos same, eq, Function.update_self]
    · have ne : (⟨j, bound⟩ : Fin k) ≠ i := fun eq => same (congrArg Fin.val eq)
      rw [if_neg same, Function.update_of_ne ne]
      exact at_ofFn f ⟨j, bound⟩

theorem update_slot {α : Type} (slot : Option Batch → Slot α) (row : Row k Batch) (i : Fin k)
    (x : Batch) :
    Function.update (fun j => slot (row j)) i (slot (some x)) = fun j => slot (row.put i x j) := by
  funext j
  by_cases same : j = i
  · subst same
    simp only [Function.update_self, Row.put]
  · simp only [Function.update_of_ne same, Row.put]

theorem allDataFound_iff (row : Row k Batch) :
    NodeWaiting.allDataFound (List.ofFn fun i => dataSlot (row i)) = true ↔ row.Full := by
  have nulls : ∀ i, dataSlot (row i) = .null ↔ row i = none := by
    intro i
    cases row i <;> simp [dataSlot]
  simp only [NodeWaiting.allDataFound, Bool.not_eq_true', Row.Full, List.contains_eq_mem,
    decide_eq_false_iff_not, List.mem_ofFn, not_exists, nulls, ne_eq]

theorem vacant_data : encodeData (Row.vacant : Row k Batch) = mainOnly (List.replicate k .null) := by
  rw [encodeData, ← List.ofFn_const]
  rfl

theorem vacant_source :
    encodeSource (Row.vacant : Row k Batch) = mainOnly (List.replicate k .null) := by
  rw [encodeSource, ← List.ofFn_const]
  rfl

theorem findMissing_encode (pool : Pool k Batch) (i : Fin k) (indexes : List Nat)
    (known : ∀ n ∈ indexes, n ∈ pool.keys) :
    (encode pool).findMissing i indexes =
      .ok (indexes.find? fun number => decide (pool.Lacks i number)) := by
  induction indexes with
  | nil => rfl
  | cons n indexes ih =>
    have later := ih fun m member => known m (List.mem_cons_of_mem n member)
    obtain ⟨row, stored⟩ := (pool.mem_keys_iff n).1 (known n List.mem_cons_self)
    have read : NodeWaiting.mainOf (encode pool).data n =
        .ok (List.ofFn fun j => dataSlot (row j)) := by
      simp only [NodeWaiting.mainOf, encode, OrderedMap.get_mapValues, stored, Option.map_some,
        Option.bind_some, encodeData, get_mainOnly]
    have lacks : pool.Lacks i n ↔ row i = none := by
      rw [Pool.Lacks, stored]
      rfl
    rw [NodeWaiting.findMissing, read, List.find?_cons]
    simp only [at_ofFn, later]
    cases value : row i with
    | none => simp [dataSlot, Slot.isValue, lacks, value]
    | some x => simp [dataSlot, Slot.isValue, lacks, value]

theorem writeMain_encode {α : Type} (slot : Option Batch → Slot α) (pool : Pool k Batch)
    {number : Nat} {row : Row k Batch} (stored : pool.get number = some row) (i : Fin k)
    (x : Batch) :
    NodeWaiting.writeMain (pool.mapValues fun row => mainOnly (List.ofFn fun j => slot (row j)))
      number i (slot (some x)) =
      .ok ((pool.set number (row.put i x)).mapValues fun row =>
        mainOnly (List.ofFn fun j => slot (row j))) := by
  simp only [NodeWaiting.writeMain, OrderedMap.get_mapValues, stored, Option.map_some, get_mainOnly,
    set_mainOnly, assign_ofFn, update_slot, OrderedMap.mapValues_set]

theorem prepare_encode (pool : Pool k Batch) (number : Nat) :
    (encode pool).prepareWaitingToExecution k number = encode (pool.set number Row.vacant) := by
  rw [NodeWaiting.prepareWaitingToExecution, encode, encode, OrderedMap.mapValues_set,
    OrderedMap.mapValues_set, vacant_data, vacant_source]

def readied (pool : Pool k Batch) (i : Fin k) : Pool k Batch :=
  match pool.lacking i with
  | none => pool.set (pool.target i) Row.vacant
  | some _ => pool

theorem readied_get (pool : Pool k Batch) (i : Fin k) :
    (readied pool i).get (pool.target i) = some (pool.taker i) := by
  unfold readied Pool.taker
  cases found : pool.lacking i with
  | none => exact OrderedMap.get_set_self _ _ _
  | some number =>
    obtain ⟨row, stored, _⟩ := Pool.lacking_some found
    simp only [Pool.target, found, Option.getD_some, stored]

theorem readied_set (pool : Pool k Batch) (i : Fin k) (row : Row k Batch) :
    (readied pool i).set (pool.target i) row = pool.set (pool.target i) row := by
  unfold readied
  split
  · exact OrderedMap.set_set _ _ _ _
  · rfl

section

variable {call : NodeToBeExecuted} {i : Fin k} {x : Batch}

/-- The call brings the batch `x` to input `i`. -/
structure Brings (call : NodeToBeExecuted) (i : Fin k) (x : Batch) : Prop where
  index : call.connectionData.index = i
  batch : call.batch = dataSlot (some x)
  source : call.source = sourceSlot (some x)

theorem fill_encode (brings : Brings call i x) (pool : Pool k Batch) :
    (encode pool).fill k call =
      .ok (encode (pool.set (pool.target i) ((pool.taker i).put i x)), pool.target i) := by
  have order : (encode pool).runIndexes = pool.order := by
    rw [NodeWaiting.runIndexes, encode, OrderedMap.keys_mapValues, Pool.order]
  have known : ∀ n ∈ pool.order, n ∈ pool.keys := fun n member =>
    (List.perm_insertionSort _ _).subset member
  have found : (encode pool).findMissing i pool.order = .ok (pool.lacking i) :=
    findMissing_encode pool i pool.order known
  have target : (pool.lacking i).getD (encode pool).data.size = pool.target i := by
    rw [encode, OrderedMap.size_mapValues, Pool.target]
  have entry : (encode pool).createNewWaitingEntry k (pool.target i) (pool.lacking i) =
      encode (readied pool i) := by
    unfold readied
    cases pool.lacking i with
    | none => exact prepare_encode pool _
    | some _ => rfl
  have data := writeMain_encode dataSlot (readied pool i) (readied_get pool i) i x
  have source := writeMain_encode sourceSlot (readied pool i) (readied_get pool i) i x
  rw [readied_set] at data source
  rw [NodeWaiting.fill, brings.index, order, found, Fallible.ok_bind]
  simp only [target, entry, brings.batch, brings.source]
  change (NodeWaiting.writeMain ((readied pool i).mapValues fun row =>
    mainOnly (List.ofFn fun j => dataSlot (row j))) _ _ _ >>= _) = _
  rw [data, Fallible.ok_bind]
  change (NodeWaiting.writeMain ((readied pool i).mapValues fun row =>
    mainOnly (List.ofFn fun j => sourceSlot (row j))) _ _ _ >>= _) = _
  rw [source]
  rfl

theorem keep_encode (brings : Brings call i x) (pool : Pool k Batch) (number : Nat)
    {row : Row k Batch} (present : row i = some x) :
    (encode pool).keep number call (List.ofFn fun j => dataSlot (row j))
      (List.ofFn fun j => sourceSlot (row j)) = encode (pool.set number row) := by
  have same : (fun j => dataSlot (row.put i x j)) = fun j => dataSlot (row j) := by
    funext j
    by_cases here : j = i
    · subst here
      rw [Row.put, Function.update_self, present]
    · rw [Row.put, Function.update_of_ne here]
  simp only [NodeWaiting.keep, brings.index, brings.batch, assign_ofFn, update_slot, same, encode,
    OrderedMap.mapValues_set]
  rfl

end

theorem encode_of_size_zero {pool : Pool k Batch} (empty : (encode pool).data.size = 0) :
    encode pool = {} := by
  rw [encode, OrderedMap.size_mapValues, OrderedMap.size_eq_zero_iff] at empty
  rw [empty]
  rfl

def stackEntry (ref : Nat) (node : INode) (row : Row k Batch) : IExecuteData :=
  { ref := ref, node := node, data := encodeData row, source := some (encodeSource row) }

/-- A call that goes through delivers to the pool and stacks the row that is
released. -/
theorem addWaitingNode_spec {workflow : Workflow} (v1 : workflow.isLegacyExecutionOrder = false)
    {state next : IRunExecutionData} {call : NodeToBeExecuted} {i : Fin k} {x : Batch}
    (brings : Brings call i x) {pool : Pool k Batch}
    (inputs : numberOfInputs workflow call.connectionData.node = k)
    (waits : nodeWaiting state call.connectionData.node = encode pool)
    (went : addWaitingNode workflow state call = .ok next) :
    nodeWaiting next call.connectionData.node = encode (pool.deliver i x).1 ∧
    next.nodeExecutionStack = state.nodeExecutionStack ∧ (pool.deliver i x).2 = none ∨
    nodeWaiting next call.connectionData.node = encode (pool.deliver i x).1 ∧
    ∃ node row, workflow.nodes.get call.connectionData.node = some node ∧
      (pool.deliver i x).2 = some row ∧ row.Full ∧
      next.nodeExecutionStack = stackEntry state.nextRef node row :: state.nodeExecutionStack := by
  have row : (pool.set (pool.target i) ((pool.taker i).put i x)).get (pool.target i) =
      some ((pool.taker i).put i x) := OrderedMap.get_set_self _ _ _
  have dataRow : (encode (pool.set (pool.target i) ((pool.taker i).put i x))).data.get
      (pool.target i) = some (encodeData ((pool.taker i).put i x)) := by
    rw [encode, OrderedMap.get_mapValues, row]
    rfl
  have sourceRow : (encode (pool.set (pool.target i) ((pool.taker i).put i x))).source.get
      (pool.target i) = some (encodeSource ((pool.taker i).put i x)) := by
    rw [encode, OrderedMap.get_mapValues, row]
    rfl
  have main : NodeWaiting.mainOf (encode (pool.set (pool.target i) ((pool.taker i).put i x))).data
      (pool.target i) = .ok (List.ofFn fun j => dataSlot ((pool.taker i).put i x j)) := by
    rw [NodeWaiting.mainOf, dataRow, Option.bind_some, encodeData, get_mainOnly]
  have mainSource : NodeWaiting.mainOf
      (encode (pool.set (pool.target i) ((pool.taker i).put i x))).source (pool.target i) =
        .ok (List.ofFn fun j => sourceSlot ((pool.taker i).put i x j)) := by
    rw [NodeWaiting.mainOf, sourceRow, Option.bind_some, encodeSource, get_mainOnly]
  unfold addWaitingNode at went
  simp only [inputs, waits, fill_encode brings, main, mainSource, dataRow, sourceRow,
    Fallible.ok_bind] at went
  by_cases full : ((pool.taker i).put i x).Full
  · have found := (allDataFound_iff _).2 full
    have delivered : pool.deliver i x =
        ((pool.set (pool.target i) ((pool.taker i).put i x)).delete (pool.target i),
          some ((pool.taker i).put i x)) := by
      rw [Pool.deliver, if_pos full]
    rw [if_pos found] at went
    cases stored : workflow.nodes.get call.connectionData.node with
    | none => simp [stored] at went
    | some node =>
      simp only [stored] at went
      have removed : (encode (pool.set (pool.target i) ((pool.taker i).put i x))).remove
          (pool.target i) = encode (pool.deliver i x).1 := by
        rw [delivered, NodeWaiting.remove, encode, encode, OrderedMap.mapValues_delete,
          OrderedMap.mapValues_delete]
      rw [removed] at went
      have eq := (Except.ok.inj went).symm
      refine .inr ⟨?_, node, _, rfl, by rw [delivered], full, ?_⟩
      · rw [eq]
        exact nodeWaiting_storeWaiting _ _ _ encode_of_size_zero
      · rw [eq, nodeExecutionStack_storeWaiting, nodeExecutionStack_enqueue v1]
        rfl
  · have missing : NodeWaiting.allDataFound
        (List.ofFn fun j => dataSlot ((pool.taker i).put i x j)) = false := by
      rw [← Bool.not_eq_true, allDataFound_iff]
      exact full
    have delivered : pool.deliver i x =
        (pool.set (pool.target i) ((pool.taker i).put i x), none) := by
      rw [Pool.deliver, if_neg full]
    rw [missing] at went
    simp only [Bool.false_eq_true, if_false] at went
    obtain ⟨now, others, eq⟩ := (Fallible.bind_eq_ok_iff _ _ _).1 went
    have same := addInputNodesOfNew_v1 v1 others
    have present : (pool.taker i).put i x i = some x := by
      rw [Row.put, Function.update_self]
    have kept := keep_encode brings (pool.set (pool.target i) ((pool.taker i).put i x))
      (pool.target i) present
    rw [OrderedMap.set_set] at kept
    rw [kept, same] at eq
    have eq := (Except.ok.inj eq).symm
    refine .inl ⟨?_, ?_, by rw [delivered]⟩
    · rw [eq, delivered]
      exact nodeWaiting_storeWaiting _ _ _ encode_of_size_zero
    · rw [eq, nodeExecutionStack_storeWaiting]

end NodeAutomation.WaitingRefinement
