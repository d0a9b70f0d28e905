import NodeAutomation.Core.WaitingRefinement

/-! Where the batches for a waiting node are: in the entries that wait, or in
the stack entries that were made of them. A call adds its own batch and loses
nothing unless it opens a new entry under a number in use. -/

namespace NodeAutomation.WaitingConservation
open RowPool WorkflowExecute WaitingRefinement Runs

abbrev Token := Nat × List INodeExecutionData × ISourceData

def tokenAt (main : List (Slot (List INodeExecutionData))) (mainSource : List (Slot ISourceData))
    (inputIndex : Nat) : Option Token :=
  match Slot.at_ main inputIndex, Slot.at_ mainSource inputIndex with
  | .value items, .value source => some (inputIndex, items, source)
  | _, _ => none

def tokensOf (data : ITaskDataConnections) (source : Option ITaskDataConnectionsSource) :
    Multiset Token :=
  let main := (data.get .main).getD []
  let mainSource := (source.bind (·.get .main)).getD []
  (List.range main.length).filterMap (tokenAt main mainSource)

def stackTokens (nodeName : String) (stack : List IExecuteData) : Multiset Token :=
  ((stack.filter (·.node.name = nodeName)).map fun entry => tokensOf entry.data entry.source).sum

theorem stackTokens_cons (nodeName : String) (entry : IExecuteData) (stack : List IExecuteData)
    (named : entry.node.name = nodeName) :
    stackTokens nodeName (entry :: stack) =
      tokensOf entry.data entry.source + stackTokens nodeName stack := by
  simp only [stackTokens, List.filter_cons, named, decide_true, if_true, List.map_cons,
    List.sum_cons]

def waitingTokens (waiting : NodeWaiting) : Multiset Token :=
  (waiting.data.entries.map fun entry => tokensOf entry.2 (waiting.source.get entry.1)).sum

def placed (nodeName : String) (state : IRunExecutionData) : Multiset Token :=
  stackTokens nodeName state.nodeExecutionStack + waitingTokens (nodeWaiting state nodeName)

variable {k : Nat}

def numbered (token : Fin k × Batch) : Token := (token.1, token.2)

theorem numbered_injective : Function.Injective (numbered : Fin k × Batch → Token) := by
  intro a b same
  have parts := Prod.mk.inj same
  exact Prod.ext (Fin.ext parts.1) parts.2

theorem tokensOf_encode (row : Row k Batch) :
    tokensOf (encodeData row) (some (encodeSource row)) = row.tokens.map numbered := by
  have reads : ∀ i : Fin k, tokenAt (List.ofFn fun j => dataSlot (row j))
      (List.ofFn fun j => sourceSlot (row j)) i = (row.tokenAt i).map numbered := by
    intro i
    rw [tokenAt, at_ofFn, at_ofFn, Row.tokenAt]
    cases row i <;> rfl
  simp only [tokensOf, encodeData, encodeSource, get_mainOnly, Option.getD_some, Option.bind_some,
    List.length_ofFn, Row.tokens, Multiset.map_coe, List.map_filterMap, ← List.map_coe_finRange_eq_range,
    List.filterMap_map]
  congr 1
  apply List.filterMap_congr
  intro i _
  exact reads i

theorem map_sum_tokens {α β : Type} (f : α → β) (parts : List (Multiset α)) :
    (parts.map (Multiset.map f)).sum = parts.sum.map f := by
  induction parts with
  | nil => rfl
  | cons part parts ih => rw [List.map_cons, List.sum_cons, List.sum_cons, Multiset.map_add, ih]

theorem waitingTokens_encode (pool : Pool k Batch) :
    waitingTokens (encode pool) = pool.tokens.map numbered := by
  have entries : (encode pool).data.entries.map
      (fun entry => tokensOf entry.2 ((encode pool).source.get entry.1)) =
      (pool.entries.map fun entry => entry.2.tokens).map (Multiset.map numbered) := by
    simp only [encode, OrderedMap.mapValues, List.map_map]
    apply List.map_congr_left
    intro entry member
    have stored := (pool.get_eq_some_iff entry.1 entry.2).2 member
    have source : (pool.mapValues encodeSource).get entry.1 = some (encodeSource entry.2) := by
      rw [OrderedMap.get_mapValues, stored]
      rfl
    simp only [Function.comp_apply]
    rw [← tokensOf_encode, ← source]
    rfl
  rw [waitingTokens, entries, map_sum_tokens, Pool.tokens, Multiset.sum_coe]

/-- A batch handed to one of the `k` inputs of a node. -/
structure Delivery (k : Nat) where
  inputIndex : Fin k
  outputIndex : Nat
  parentNodeName : String
  nodeSuccessData : List (Slot (List INodeExecutionData))
  runIndex : Nat
  newRunIndex : Option Nat := none
  metadata : Option ITaskMetadata := none
  items : List INodeExecutionData
  batch : Slot.at_ nodeSuccessData outputIndex = .value items

def Delivery.call (nodeName : String) (delivery : Delivery k) : NodeToBeExecuted where
  connectionData := ⟨nodeName, .main, delivery.inputIndex⟩
  outputIndex := delivery.outputIndex
  parentNodeName := delivery.parentNodeName
  nodeSuccessData := some delivery.nodeSuccessData
  runIndex := delivery.runIndex
  newRunIndex := delivery.newRunIndex
  metadata := delivery.metadata

def Delivery.source (delivery : Delivery k) : ISourceData :=
  ⟨delivery.parentNodeName, some delivery.outputIndex, some delivery.runIndex⟩

def Delivery.token (delivery : Delivery k) : Token :=
  (delivery.inputIndex, delivery.items, delivery.source)

theorem Delivery.brings (nodeName : String) (delivery : Delivery k) :
    Brings (delivery.call nodeName) delivery.inputIndex (delivery.items, delivery.source) :=
  ⟨rfl, delivery.batch, rfl⟩

section

variable (workflow : Workflow) (nodeName : String)

def GoesThrough (state : IRunExecutionData) (delivery : Delivery k) : Prop :=
  ∃ next, addNodeToBeExecuted workflow state (delivery.call nodeName) = .ok next

def deliver (state : IRunExecutionData) (delivery : Delivery k) : IRunExecutionData :=
  match addNodeToBeExecuted workflow state (delivery.call nodeName) with
  | .ok next => next
  | .error _ => state

/-- The call's batch is added to those that were there. -/
def Conserves (state : IRunExecutionData) (delivery : Delivery k) : Prop :=
  placed nodeName (deliver workflow nodeName state delivery) =
    delivery.token ::ₘ placed nodeName state

/-- Every entry has data for the input, and the number of entries is the run
index of one of them. -/
def Overwrites (state : IRunExecutionData) (delivery : Delivery k) : Prop :=
  let waiting := nodeWaiting state nodeName
  (∀ data ∈ waiting.data.values,
    (Slot.at_ ((data.get .main).getD []) delivery.inputIndex).isValue = true) ∧
  waiting.data.size ∈ waiting.data.keys

instance (state : IRunExecutionData) (delivery : Delivery k) :
    Decidable (Overwrites nodeName state delivery) :=
  inferInstanceAs (Decidable (_ ∧ _))

end

section

variable {workflow : Workflow} {nodeName : String} {state : IRunExecutionData} {pool : Pool k Batch}

theorem overwrites_iff (waits : nodeWaiting state nodeName = encode pool) (delivery : Delivery k) :
    Overwrites nodeName state delivery ↔ pool.Collides delivery.inputIndex := by
  have full : (∀ data ∈ (encode pool).data.values,
      (Slot.at_ ((data.get .main).getD []) delivery.inputIndex).isValue = true) ↔
      pool.lacking delivery.inputIndex = none := by
    have slot : ∀ row : Row k Batch, (Slot.at_ (((encodeData row).get .main).getD [])
        delivery.inputIndex).isValue = true ↔ row delivery.inputIndex ≠ none := by
      intro row
      rw [encodeData, get_mainOnly, Option.getD_some, at_ofFn]
      cases row delivery.inputIndex <;> simp [dataSlot, Slot.isValue]
    have stored : ∀ data, data ∈ (encode pool).data.values ↔
        ∃ n row, pool.get n = some row ∧ encodeData row = data := by
      intro data
      simp only [OrderedMap.mem_values_iff, encode, OrderedMap.get_mapValues,
        Option.map_eq_some_iff]
    refine ⟨fun all => ?_, fun nowhere data member => ?_⟩
    · cases found : pool.lacking delivery.inputIndex with
      | none => rfl
      | some n =>
        obtain ⟨row, get, vacant⟩ := Pool.lacking_some found
        exact absurd vacant ((slot row).1 (all _ ((stored _).2 ⟨n, row, get, rfl⟩)))
    · obtain ⟨n, row, get, eq⟩ := (stored data).1 member
      rw [← eq, slot]
      exact Pool.lacking_none nowhere get
  simp only [Overwrites, waits, full, Pool.Collides]
  simp only [encode, OrderedMap.size_mapValues, OrderedMap.keys_mapValues]

theorem deliver_placed (v1 : workflow.isLegacyExecutionOrder = false) (several : 1 < k)
    (inputs : numberOfInputs workflow nodeName = k)
    (waits : nodeWaiting state nodeName = encode pool) {delivery : Delivery k}
    (goes : GoesThrough workflow nodeName state delivery) :
    let result := pool.deliver delivery.inputIndex (delivery.items, delivery.source)
    nodeWaiting (deliver workflow nodeName state delivery) nodeName = encode result.1 ∧
      placed nodeName (deliver workflow nodeName state delivery) =
        stackTokens nodeName state.nodeExecutionStack +
          (result.1.tokens + Pool.released result).map numbered := by
  obtain ⟨next, went⟩ := goes
  have now : deliver workflow nodeName state delivery = next := by
    rw [deliver, went]
  rw [now]
  rw [addNodeToBeExecuted, if_pos (by rw [Delivery.call, inputs]; exact several)] at went
  have spec := addWaitingNode_spec v1 (delivery.brings nodeName) inputs waits went
  cases spec with
  | inl stays =>
    obtain ⟨waiting, stack, kept⟩ := stays
    refine ⟨waiting, ?_⟩
    rw [placed, stack, show nodeWaiting next nodeName = _ from waiting, waitingTokens_encode,
      Pool.released, kept]
    simp
  | inr leaves =>
    obtain ⟨waiting, node, row, stored, released, _, stack⟩ := leaves
    have named : node.name = nodeName := workflow.named nodeName node stored
    have front : stackTokens nodeName next.nodeExecutionStack =
        row.tokens.map numbered + stackTokens nodeName state.nodeExecutionStack := by
      rw [stack, stackTokens_cons nodeName _ _ named, ← tokensOf_encode]
      rfl
    refine ⟨waiting, ?_⟩
    rw [placed, front, show nodeWaiting next nodeName = _ from waiting, waitingTokens_encode,
      Pool.released, released, Multiset.map_add]
    simp only [Option.map_some, Option.getD_some]
    rw [add_comm (Multiset.map numbered row.tokens), add_assoc,
      add_comm (Multiset.map numbered row.tokens)]

theorem conserves_iff (v1 : workflow.isLegacyExecutionOrder = false) (several : 1 < k)
    (inputs : numberOfInputs workflow nodeName = k)
    (waits : nodeWaiting state nodeName = encode pool) {delivery : Delivery k}
    (goes : GoesThrough workflow nodeName state delivery) :
    Conserves workflow nodeName state delivery ↔ ¬ Overwrites nodeName state delivery := by
  have token : delivery.token = numbered (delivery.inputIndex, delivery.items, delivery.source) :=
    rfl
  rw [overwrites_iff waits, ← Pool.deliver_conserves_iff pool delivery.inputIndex
    (delivery.items, delivery.source), Conserves, (deliver_placed v1 several inputs waits goes).2,
    placed, waits, waitingTokens_encode, ← Multiset.add_cons, token, ← Multiset.map_cons,
    add_right_inj, (Multiset.map_injective numbered_injective).eq_iff]

end

section

variable {workflow : Workflow} {nodeName : String} {state : IRunExecutionData}

theorem along_conserves_iff (v1 : workflow.isLegacyExecutionOrder = false) (several : 1 < k)
    (inputs : numberOfInputs workflow nodeName = k) {pool : Pool k Batch}
    (waits : nodeWaiting state nodeName = encode pool) (deliveries : List (Delivery k))
    (goes : Along (deliver workflow nodeName) (GoesThrough workflow nodeName) state deliveries) :
    Along (deliver workflow nodeName) (Conserves workflow nodeName) state deliveries ↔
      Along (deliver workflow nodeName) (fun s d => ¬ Overwrites nodeName s d) state deliveries := by
  refine along_iff (I := fun s => ∃ pool : Pool k Batch, nodeWaiting s nodeName = encode pool)
    ?_ ?_ ⟨pool, waits⟩ goes
  · intro s d held through_
    obtain ⟨pool, waits⟩ := held
    exact conserves_iff v1 several inputs waits through_
  · intro s d held through_ _
    obtain ⟨pool, waits⟩ := held
    exact ⟨_, (deliver_placed v1 several inputs waits through_).1⟩

end

/-- From an empty `waitingExecution` on, whatever is delivered in whatever order. -/
theorem delivered_conserved_iff (workflow : Workflow)
    (v1 : workflow.isLegacyExecutionOrder = false) (nodeName : String) (several : 1 < k)
    (inputs : numberOfInputs workflow nodeName = k) (state : IRunExecutionData)
    (empty : state.waitingExecution = ∅) (deliveries : List (Delivery k))
    (goes : Along (deliver workflow nodeName) (GoesThrough workflow nodeName) state deliveries) :
    Along (deliver workflow nodeName) (Conserves workflow nodeName) state deliveries ↔
      Along (deliver workflow nodeName) (fun s d => ¬ Overwrites nodeName s d) state
        deliveries := by
  have waits : nodeWaiting state nodeName = encode (∅ : Pool k Batch) := by
    rw [nodeWaiting, empty]
    rfl
  exact along_conserves_iff v1 several inputs waits deliveries goes

/-- Two sources feed the two inputs of `Merge`. -/
def mergeWorkflow : Workflow :=
  Workflow.new (fun _ => none)
    { nodes := [{ name := "A" }, { name := "B" }, { name := "Merge" }]
      connections := .ofList [("A", .ofList [(.main, [some [⟨"Merge", .main, 0⟩]])]),
        ("B", .ofList [(.main, [some [⟨"Merge", .main, 1⟩]])])]
      executionOrder := some .v1 }

/-- One item on the first output of `A` or of `B`. -/
def oneItem (inputIndex : Fin 2) (runIndex : Nat) : Delivery 2 where
  inputIndex := inputIndex
  outputIndex := 0
  parentNodeName := if inputIndex = 0 then "A" else "B"
  nodeSuccessData := [.value [{}]]
  runIndex := runIndex
  items := [{}]
  batch := rfl

instance (workflow : Workflow) (nodeName : String) (state : IRunExecutionData)
    (delivery : Delivery k) : Decidable (GoesThrough workflow nodeName state delivery) :=
  match h : addNodeToBeExecuted workflow state (delivery.call nodeName) with
  | .ok next => isTrue ⟨next, h⟩
  | .error _ => isFalse fun goes => by
    obtain ⟨next, went⟩ := goes
    simp [h] at went

/-- The second batch of `A` is overwritten by the third: the entry it waits in
has run index 1, and is the only one left. -/
theorem merge_loses_batch :
    Along (deliver mergeWorkflow "Merge") (GoesThrough mergeWorkflow "Merge") {}
      [oneItem 0 0, oneItem 0 1, oneItem 1 0, oneItem 0 2] ∧
    ¬ Along (deliver mergeWorkflow "Merge") (Conserves mergeWorkflow "Merge") {}
      [oneItem 0 0, oneItem 0 1, oneItem 1 0, oneItem 0 2] := by
  have goes : Along (deliver mergeWorkflow "Merge") (GoesThrough mergeWorkflow "Merge") {}
      [oneItem 0 0, oneItem 0 1, oneItem 1 0, oneItem 0 2] :=
    ⟨by decide, by decide, by decide, by decide, trivial⟩
  refine ⟨goes, fun conserved => ?_⟩
  have waits : nodeWaiting {} "Merge" = encode (∅ : Pool 2 Batch) := rfl
  have free := (along_conserves_iff (by decide) (by decide) (by decide) waits _ goes).1 conserved
  exact free.2.2.2.1 (by decide)

/-- Strictly alternating inputs never overwrite. -/
theorem merge_keeps_batches :
    Along (deliver mergeWorkflow "Merge") (Conserves mergeWorkflow "Merge") {}
      [oneItem 0 0, oneItem 1 0, oneItem 0 1, oneItem 1 1] :=
  (delivered_conserved_iff mergeWorkflow (by decide) "Merge" (by decide) (by decide) {} rfl
    [oneItem 0 0, oneItem 1 0, oneItem 0 1, oneItem 1 1]
    ⟨by decide, by decide, by decide, by decide, trivial⟩).2
    ⟨by decide, by decide, by decide, by decide, trivial⟩

end NodeAutomation.WaitingConservation
