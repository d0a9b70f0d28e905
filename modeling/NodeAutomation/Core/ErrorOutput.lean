import NodeAutomation.Interfaces
import Mathlib.Logic.Function.Basic

/-! The routing of items to the error output (`packages/core/src/execution-engine/workflow-execute.ts`), and
the lookup of the input item that an item comes from (`packages/workflow/src/workflow-data-proxy.ts`). -/

namespace NodeAutomation.ErrorOutput

/-- `json` with its keys, and the `error` that a node may add to an item. -/
structure INodeExecutionData where
  json : OrderedMap String JsValue
  error : JsValue := .undefined
  pairedItem : Option PairedItem := none
  deriving DecidableEq

structure StoredItem where
  ref : Nat
  item : INodeExecutionData
  deriving DecidableEq

/-- A run of a node: `data.main`, and where its input came from. -/
structure ITaskData where
  main : Option (List (Option (List StoredItem)))
  source : List (Slot ISourceData)

structure WorkflowDataProxy where
  runData : OrderedMap String (List ITaskData)
  pinData : OrderedMap String (List StoredItem)
  manual : Bool

inductive PairedItemError where
  | pairedItemNotFound
  | missingOutput
  | missingPairedItem
  | multipleItemsFound
  | typeError
  | rangeError
  deriving DecidableEq

def getPinDataIfManualExecution (that : WorkflowDataProxy) (nodeName : String) : Option (List StoredItem) :=
  if that.manual then that.pinData.get nodeName else none

def pinDataToTask (pinData : List StoredItem) : ITaskData := { main := some [some pinData], source := [] }

def getTaskData (that : WorkflowDataProxy) (source : ISourceData) : Option ITaskData :=
  ((that.runData.get source.previousNode).bind fun runs => runs[source.previousNodeRun.getD 0]?).or
    ((getPinDataIfManualExecution that source.previousNode).map pinDataToTask)

def getNodeOutput (taskData : Option ITaskData) (source : ISourceData) : Except PairedItemError (List StoredItem) :=
  match (taskData.bind ITaskData.main).bind fun outputs => (outputs[source.previousNodeOutput.getD 0]?).join with
  | none => .error .missingOutput
  | some outputs => .ok outputs

def normalizePairedItem : Option PairedItem → List IPairedItemData
  | none => []
  | some (.index item) => [{ item }]
  | some (.one pairedItem) => [pairedItem]
  | some (.many pairedItems) => pairedItems

def matchedItem (results : List (Except PairedItemError StoredItem)) : Except PairedItemError StoredItem :=
  match results.filterMap Except.toOption with
  | [] =>
    match results with
    | .error error :: _ => .error error
    | .ok _ :: _ | [] => .error .typeError
  | first :: rest => if rest.any fun item => item.ref ≠ first.ref then .error .multipleItemsFound else .ok first

/-- `getPairedItem`, as deep as the stack allows. -/
def getPairedItem (that : WorkflowDataProxy) (destinationNodeName : String) :
    (stack : Nat) → (incomingSourceData : Option ISourceData) → IPairedItemData → Except PairedItemError StoredItem
  | 0, _, _ => .error .rangeError
  | stack + 1, incomingSourceData, pairedItem =>
    match pairedItem.sourceOverwrite.or incomingSourceData with
    | none => .error .pairedItemNotFound
    | some sourceData =>
      let taskData := getTaskData that sourceData
      match getNodeOutput taskData sourceData with
      | .error error => .error error
      | .ok outputData =>
        if sourceData.previousNode = destinationNodeName then
          match outputData[pairedItem.item]? with
          | none => .error .missingPairedItem
          | some item => .ok item
        else
          match outputData[pairedItem.item]? with
          | none => .error .typeError
          | some item =>
            let sourceArray := taskData.elim [] ITaskData.source
            let nextPairedItems := normalizePairedItem item.item.pairedItem
            if nextPairedItems.isEmpty then .error .missingPairedItem
            else
              let reachable := nextPairedItems.filter fun nextPairedItem =>
                nextPairedItem.input.getD 0 < sourceArray.length
              matchedItem (reachable.map fun nextPairedItem =>
                let inputIndex := nextPairedItem.input.getD 0
                getPairedItem that destinationNodeName stack
                  (nextPairedItem.sourceOverwrite.or (Slot.at_ sourceArray inputIndex).value?)
                  { nextPairedItem with input := some inputIndex })

def field (item : INodeExecutionData) (key : String) : JsValue := (item.json.get key).getD .undefined

/-- The item has `errorData`, in one of three shapes. -/
def hasErrorData (item : INodeExecutionData) : Bool :=
  item.error.truthy || ((field item "error").truthy && item.json.size == 1) ||
    ((field item "error").truthy && (field item "message").truthy && item.json.size == 2)

/-- `{ ...first, ...second }`. -/
def spread (first second : OrderedMap String JsValue) : OrderedMap String JsValue :=
  second.entries.foldl (fun json entry => json.set entry.1 entry.2) first

def pairedItemData (item : INodeExecutionData) : Option IPairedItemData :=
  match item.pairedItem with
  | none | some (.index _) => none
  | some (.one pairedItem) => some pairedItem
  | some (.many pairedItems) => pairedItems.head?

structure NodeRun where
  that : WorkflowDataProxy
  source : Option ITaskDataConnectionsSource
  stack : Nat

/-- `$getPairedItem` of the node that the item's input came from. -/
def findInput (run : NodeRun) (source : ITaskDataConnectionsSource) (paired : IPairedItemData) :
    Except PairedItemError StoredItem :=
  match source.get .main with
  | none => .error .typeError
  | some inputs =>
    match (Slot.at_ inputs (paired.input.getD 0)).value? with
    | none => .error .typeError
    | some sourceData => getPairedItem run.that sourceData.previousNode run.stack (some sourceData) paired

def errorItem (run : NodeRun) (item : INodeExecutionData) : Except PairedItemError INodeExecutionData :=
  match run.source, pairedItemData item with
  | some source, some paired =>
    match findInput run source paired with
    | .error error => .error error
    | .ok constPairedItem => .ok { item with json := spread constPairedItem.item.json item.json }
  | _, _ => .ok item

def drain (run : NodeRun) : (items successItems errorItems : List INodeExecutionData) →
    Except PairedItemError (List INodeExecutionData × List INodeExecutionData)
  | [], successItems, errorItems => .ok (successItems, errorItems)
  | item :: items, successItems, errorItems =>
    if hasErrorData item then
      match errorItem run item with
      | .error error => .error error
      | .ok added => drain run items successItems (errorItems ++ [added])
    else drain run items (successItems ++ [item]) errorItems

/-- The outputs of a node: for each the array that it is, and what the arrays hold. Two outputs may
be one array. -/
structure Outputs where
  nodeSuccessData : List (Option Nat)
  arrays : Nat → List INodeExecutionData

def Outputs.items (outputs : Outputs) (outputIndex : Nat) : List INodeExecutionData :=
  (outputs.nodeSuccessData[outputIndex]?).join.elim [] outputs.arrays

def Outputs.emptied (outputs : Outputs) (outputIndex : Nat) : Outputs :=
  { outputs with
    arrays := (outputs.nodeSuccessData[outputIndex]?).join.elim outputs.arrays fun array =>
      Function.update outputs.arrays array [] }

def drainOutputs (run : NodeRun) : (outputIndexes : List Nat) → Outputs → (errorItems : List INodeExecutionData) →
    Except PairedItemError (List (List INodeExecutionData) × List INodeExecutionData)
  | [], _, errorItems => .ok ([], errorItems)
  | outputIndex :: outputIndexes, outputs, errorItems =>
    match drain run (outputs.items outputIndex) [] errorItems with
    | .error error => .error error
    | .ok (successItems, errorItems) =>
      match drainOutputs run outputIndexes (outputs.emptied outputIndex) errorItems with
      | .error error => .error error
      | .ok (later, errorItems) => .ok (successItems :: later, errorItems)

def handleNodeErrorOutput (run : NodeRun) (mainOutputs : Nat) (outputs : Outputs) :
    Except PairedItemError (List (List INodeExecutionData)) :=
  match drainOutputs run (List.range (mainOutputs - 1)) outputs [] with
  | .error error => .error error
  | .ok (success, errorItems) => .ok (success ++ [errorItems])

structure Kept (item routed : INodeExecutionData) : Prop where
  error : routed.error = item.error
  pairedItem : routed.pairedItem = item.pairedItem
  json : ∀ key value, item.json.get key = some value → routed.json.get key = some value

def withError (items : List INodeExecutionData) : List INodeExecutionData := items.filter hasErrorData

def withoutError (items : List INodeExecutionData) : List INodeExecutionData :=
  items.filter fun item => !hasErrorData item

/-- The success outputs keep their items without an error, and the error output has those with one besides what
the node has put on it. -/
structure Conserved (mainOutputs : Nat) (outputs : Outputs) (after : List (List INodeExecutionData)) : Prop where
  success : ∀ outputIndex < mainOutputs - 1, after[outputIndex]? = some (withoutError (outputs.items outputIndex))
  errors : ∃ routed errorOutput,
    List.Forall₂ Kept (withError (((List.range (mainOutputs - 1)).map outputs.items).flatten)) routed ∧
      after[mainOutputs - 1]? = some errorOutput ∧
      errorOutput.Perm (routed ++ outputs.items (mainOutputs - 1))

def Outputs.Shared (outputs : Outputs) (i j : Nat) : Prop :=
  ∃ array, outputs.nodeSuccessData[i]? = some (some array) ∧ outputs.nodeSuccessData[j]? = some (some array)

/-- Nothing has been put on the error output, no success output that shares the array of one before it has items,
and the input item of each item with an error is found, where there is something to look for. -/
structure Routable (run : NodeRun) (mainOutputs : Nat) (outputs : Outputs) : Prop where
  free : outputs.items (mainOutputs - 1) = []
  apart : ∀ i j, i < j → j < mainOutputs - 1 → outputs.Shared i j → outputs.items j = []
  found : ∀ outputIndex < mainOutputs - 1, ∀ item ∈ withError (outputs.items outputIndex),
    ∀ source, run.source = some source → ∀ paired, pairedItemData item = some paired →
      ∃ input, findInput run source paired = .ok input

variable {run : NodeRun} {outputs : Outputs} {item routed : INodeExecutionData}

theorem get_spread (first second : OrderedMap String JsValue) {key : String} {value : JsValue}
    (own : second.get key = some value) : (spread first second).get key = some value := by
  have member := (second.get_eq_some_iff key value).1 own
  obtain ⟨held, held_mem, found⟩ | ⟨absent, _⟩ := OrderedMap.get_foldl_set second.entries first key
  · rw [spread, found, ← own]
    exact ((second.get_eq_some_iff key held).2 held_mem).symm
  · exact absurd member (absent value)

theorem errorItem_kept (added : errorItem run item = .ok routed) : Kept item routed := by
  unfold errorItem at added
  split at added
  · split at added
    · cases added
    · cases added
      exact ⟨rfl, rfl, fun key value own => get_spread _ _ own⟩
  · cases added
    exact ⟨rfl, rfl, fun key value own => own⟩

theorem errorItem_ok_iff : (∃ routed, errorItem run item = .ok routed) ↔
    ∀ source, run.source = some source → ∀ paired, pairedItemData item = some paired →
      ∃ input, findInput run source paired = .ok input := by
  unfold errorItem
  cases run.source with
  | none => simp
  | some source =>
    cases pairedItemData item with
    | none => simp
    | some paired => cases found : findInput run source paired <;> simp [found]

/-- What is added to the error output for these items. -/
abbrev Routed (run : NodeRun) : List INodeExecutionData → List INodeExecutionData → Prop :=
  List.Forall₂ fun item routed => errorItem run item = .ok routed

theorem exists_routed {items : List INodeExecutionData}
    (each : ∀ item ∈ items, ∃ routed, errorItem run item = .ok routed) :
    ∃ added, Routed run items added := by
  induction items with
  | nil => exact ⟨[], .nil⟩
  | cons item items ih =>
    rw [List.forall_mem_cons] at each
    obtain ⟨routed, here⟩ := each.1
    obtain ⟨added, later⟩ := ih each.2
    exact ⟨routed :: added, .cons here later⟩

theorem drain_ok_iff {items successItems errorItems : List INodeExecutionData}
    {result : List INodeExecutionData × List INodeExecutionData} :
    drain run items successItems errorItems = .ok result ↔
      ∃ added, Routed run (withError items) added ∧
        result = (successItems ++ withoutError items, errorItems ++ added) := by
  induction items generalizing successItems errorItems with
  | nil => simp [drain, withError, withoutError, eq_comm]
  | cons item items ih =>
    unfold drain
    by_cases marked : hasErrorData item = true
    · have withs : withError (item :: items) = item :: withError items := List.filter_cons_of_pos marked
      have withouts : withoutError (item :: items) = withoutError items :=
        List.filter_cons_of_neg (by simp [marked])
      rw [if_pos marked, withs, withouts]
      cases here : errorItem run item with
      | error error => simp [List.forall₂_cons_left_iff, here]
      | ok added =>
        simp only [ih, List.forall₂_cons_left_iff, here, Except.ok.injEq]
        constructor
        · rintro ⟨later, routed, rfl⟩
          exact ⟨added :: later, ⟨added, later, rfl, routed, rfl⟩, by rw [List.append_assoc, List.singleton_append]⟩
        · rintro ⟨_, ⟨_, later, rfl, routed, rfl⟩, rfl⟩
          exact ⟨later, routed, by rw [List.append_assoc, List.singleton_append]⟩
    · have withs : withError (item :: items) = withError items := List.filter_cons_of_neg marked
      have withouts : withoutError (item :: items) = item :: withoutError items :=
        List.filter_cons_of_pos (by simp [marked])
      rw [if_neg marked, withs, withouts, ih]
      simp only [List.append_assoc, List.singleton_append]

def turns : (outputIndexes : List Nat) → Outputs → List (List INodeExecutionData)
  | [], _ => []
  | outputIndex :: outputIndexes, outputs =>
    outputs.items outputIndex :: turns outputIndexes (outputs.emptied outputIndex)

theorem withError_append (first second : List INodeExecutionData) :
    withError (first ++ second) = withError first ++ withError second := List.filter_append _ _

theorem routed_append_iff {first second added : List INodeExecutionData} :
    Routed run (first ++ second) added ↔
      ∃ before after, Routed run first before ∧ Routed run second after ∧ added = before ++ after := by
  induction first generalizing added with
  | nil => simp
  | cons item first ih =>
    rw [List.cons_append, Routed, List.forall₂_cons_left_iff]
    constructor
    · rintro ⟨routed, later, here, rest, rfl⟩
      obtain ⟨before, after, first_routed, second_routed, rfl⟩ := ih.1 rest
      exact ⟨routed :: before, after, .cons here first_routed, second_routed, rfl⟩
    · rintro ⟨_, after, first_routed, second_routed, rfl⟩
      obtain ⟨routed, before, here, rest, rfl⟩ := List.forall₂_cons_left_iff.1 first_routed
      exact ⟨routed, before ++ after, here, ih.2 ⟨before, after, rest, second_routed, rfl⟩, rfl⟩

theorem drainOutputs_ok_iff {outputIndexes : List Nat} {errorItems : List INodeExecutionData}
    {result : List (List INodeExecutionData) × List INodeExecutionData} :
    drainOutputs run outputIndexes outputs errorItems = .ok result ↔
      ∃ added, Routed run (withError (turns outputIndexes outputs).flatten) added ∧
        result = ((turns outputIndexes outputs).map withoutError, errorItems ++ added) := by
  induction outputIndexes generalizing outputs errorItems result with
  | nil => simp [drainOutputs, turns, withError, eq_comm]
  | cons outputIndex outputIndexes ih =>
    unfold drainOutputs
    rw [turns, List.flatten_cons, withError_append, List.map_cons]
    constructor
    · intro ended
      split at ended
      · cases ended
      next successItems errorsHere drained =>
        obtain ⟨before, here, same⟩ := drain_ok_iff.1 drained
        cases same
        split at ended
        · cases ended
        next later errorsLater ended_later =>
          obtain ⟨after, rest, same⟩ := ih.1 ended_later
          cases same
          cases ended
          exact ⟨before ++ after, routed_append_iff.2 ⟨before, after, here, rest, rfl⟩,
            by rw [List.append_assoc]; rfl⟩
    · rintro ⟨added, routed, rfl⟩
      obtain ⟨before, after, here, rest, rfl⟩ := routed_append_iff.1 routed
      rw [drain_ok_iff.2 ⟨before, here, rfl⟩]
      dsimp only
      rw [ih.2 ⟨after, rest, rfl⟩, List.append_assoc]
      rfl

theorem items_emptied (outputs : Outputs) (i j : Nat) : (outputs.Shared i j ∧ (outputs.emptied i).items j = []) ∨
    (¬ outputs.Shared i j ∧ (outputs.emptied i).items j = outputs.items j) := by
  unfold Outputs.Shared Outputs.emptied Outputs.items
  cases at_j : outputs.nodeSuccessData[j]?.join with
  | none =>
    right
    refine ⟨?_, rfl⟩
    rintro ⟨array, -, second⟩
    simp [second] at at_j
  | some array =>
    have second : outputs.nodeSuccessData[j]? = some (some array) := by simpa [Option.join_eq_some_iff] using at_j
    cases at_i : outputs.nodeSuccessData[i]?.join with
    | none =>
      right
      refine ⟨?_, rfl⟩
      rintro ⟨other, first, -⟩
      simp [first] at at_i
    | some other =>
      have first : outputs.nodeSuccessData[i]? = some (some other) := by simpa [Option.join_eq_some_iff] using at_i
      by_cases same : array = other
      · subst same
        exact .inl ⟨⟨array, first, second⟩, by simp⟩
      · right
        refine ⟨?_, by simp [Function.update_of_ne same]⟩
        rintro ⟨both, here, there⟩
        rw [first] at here
        rw [second] at there
        cases here
        cases there
        exact same rfl

theorem turns_items (outputIndexes : List Nat) (outputs : Outputs) :
    List.Forall₂ (fun now before => now = before ∨ now = []) (turns outputIndexes outputs)
      (outputIndexes.map outputs.items) := by
  induction outputIndexes generalizing outputs with
  | nil => exact .nil
  | cons outputIndex outputIndexes ih =>
    refine .cons (.inl rfl) ?_
    have rest := ih (outputs.emptied outputIndex)
    rw [List.forall₂_map_right_iff] at rest ⊢
    refine rest.imp fun now index here => ?_
    obtain ⟨-, emptied⟩ | ⟨-, same⟩ := items_emptied outputs outputIndex index
    · rw [emptied] at here
      exact .inr (here.elim id id)
    · rwa [same] at here

/-- All outputs hold at their turn what the node has put on them, if and only if those that come later and share
an array hold nothing. -/
theorem turns_eq_iff (outputIndexes : List Nat) (outputs : Outputs) :
    turns outputIndexes outputs = outputIndexes.map outputs.items ↔
      outputIndexes.Pairwise fun i j => outputs.Shared i j → outputs.items j = [] := by
  induction outputIndexes generalizing outputs with
  | nil => simp [turns]
  | cons outputIndex outputIndexes ih =>
    rw [turns, List.map_cons, List.cons_inj_right, List.pairwise_cons]
    have same_items (apart : ∀ j ∈ outputIndexes, outputs.Shared outputIndex j → outputs.items j = []) :
        ∀ j ∈ outputIndexes, (outputs.emptied outputIndex).items j = outputs.items j := by
      intro j member
      obtain ⟨shared, emptied⟩ | ⟨-, same⟩ := items_emptied outputs outputIndex j
      · rw [emptied, apart j member shared]
      · exact same
    constructor
    · intro whole
      have apart : ∀ j ∈ outputIndexes, outputs.Shared outputIndex j → outputs.items j = [] := by
        intro j member shared
        have each := turns_items outputIndexes (outputs.emptied outputIndex)
        rw [whole, List.forall₂_map_left_iff, List.forall₂_map_right_iff, List.forall₂_same] at each
        obtain ⟨-, emptied⟩ | ⟨apart, -⟩ := items_emptied outputs outputIndex j
        · have here := each j member
          rw [emptied] at here
          exact here.elim id id
        · exact absurd shared apart
      have same := same_items apart
      refine ⟨apart, ?_⟩
      have rest := (ih (outputs.emptied outputIndex)).1 (by rw [whole]; exact (List.map_congr_left same).symm)
      refine rest.imp_of_mem fun {i j} _ member here shared => ?_
      rw [← same j member]
      exact here shared
    · rintro ⟨apart, rest⟩
      have same := same_items apart
      rw [(ih (outputs.emptied outputIndex)).2 (rest.imp_of_mem fun {i j} _ member here shared => by
        rw [same j member]
        exact here shared)]
      exact List.map_congr_left same

theorem whole_of_counts {now before : List (List INodeExecutionData)}
    (each : List.Forall₂ (fun now before => now = before ∨ now = []) now before)
    (success : now.map withoutError = before.map withoutError) (more : Nat)
    (counts : (withError before.flatten).length + more ≤ (withError now.flatten).length) :
    now = before ∧ more = 0 := by
  induction each generalizing more with
  | nil => exact ⟨rfl, by simpa [withError] using counts⟩
  | @cons here start now before held _ ih =>
    rw [List.map_cons, List.map_cons, List.cons.injEq] at success
    rw [List.flatten_cons, List.flatten_cons, withError_append, withError_append, List.length_append,
      List.length_append] at counts
    obtain rfl | rfl := held
    · obtain ⟨rfl, none⟩ := ih success.2 more (by omega)
      exact ⟨rfl, none⟩
    · have all : withError start = start := by
        refine List.filter_eq_self.2 fun item member => ?_
        have without := (List.filter_eq_nil_iff.1 success.1.symm) item member
        simpa using without
      rw [all] at counts
      have nothing : (withError ([] : List INodeExecutionData)).length = 0 := rfl
      obtain ⟨rfl, none⟩ := ih success.2 (start.length + more) (by omega)
      have empty : start = [] := List.length_eq_zero_iff.1 (by omega)
      exact ⟨by rw [empty], by omega⟩

theorem handle_ok_iff {mainOutputs : Nat} {after : List (List INodeExecutionData)} :
    handleNodeErrorOutput run mainOutputs outputs = .ok after ↔
      ∃ added, Routed run (withError (turns (List.range (mainOutputs - 1)) outputs).flatten) added ∧
        after = (turns (List.range (mainOutputs - 1)) outputs).map withoutError ++ [added] := by
  unfold handleNodeErrorOutput
  constructor
  · intro ended
    split at ended
    · cases ended
    next success errorItems drained =>
      obtain ⟨added, routed, same⟩ := drainOutputs_ok_iff.1 drained
      cases same
      cases ended
      exact ⟨added, routed, rfl⟩
  · rintro ⟨added, routed, rfl⟩
    rw [drainOutputs_ok_iff.2 ⟨added, routed, rfl⟩]
    rfl

theorem length_turns (outputIndexes : List Nat) (outputs : Outputs) :
    (turns outputIndexes outputs).length = outputIndexes.length := by
  have length := (turns_items outputIndexes outputs).length_eq
  rwa [List.length_map] at length

theorem mem_withError_flatten {outputIndexes : List Nat} :
    item ∈ withError (outputIndexes.map outputs.items).flatten ↔
      ∃ outputIndex ∈ outputIndexes, item ∈ withError (outputs.items outputIndex) := by
  simp only [withError, List.mem_filter, List.mem_flatten, List.mem_map]
  constructor
  · rintro ⟨⟨_, ⟨outputIndex, member, rfl⟩, inside⟩, marked⟩
    exact ⟨outputIndex, member, inside, marked⟩
  · rintro ⟨outputIndex, member, inside, marked⟩
    exact ⟨⟨_, ⟨outputIndex, member, rfl⟩, inside⟩, marked⟩

theorem pairwise_range_iff {count : Nat} : ((List.range count).Pairwise fun i j =>
      outputs.Shared i j → outputs.items j = []) ↔
    ∀ i j, i < j → j < count → outputs.Shared i j → outputs.items j = [] := by
  rw [List.pairwise_iff_getElem]
  simp only [List.length_range, List.getElem_range]
  constructor
  · intro h i j before inside
    exact h i j (Nat.lt_trans before inside) inside before
  · intro h i j _ inside before
    exact h i j before inside

/-- `handleNodeErrorOutput` does not throw and conserves all items, if and only if these can be routed. -/
theorem handleNodeErrorOutput_conserves_iff (run : NodeRun) (mainOutputs : Nat) (outputs : Outputs) :
    (∃ after, handleNodeErrorOutput run mainOutputs outputs = .ok after ∧ Conserved mainOutputs outputs after) ↔
      Routable run mainOutputs outputs := by
  have length : ((turns (List.range (mainOutputs - 1)) outputs).map withoutError).length = mainOutputs - 1 := by
    rw [List.length_map, length_turns, List.length_range]
  constructor
  · rintro ⟨after, ended, conserved⟩
    obtain ⟨added, routed, rfl⟩ := handle_ok_iff.1 ended
    obtain ⟨kept, onError, all_kept, last, perm⟩ := conserved.errors
    rw [List.getElem?_append_right (Nat.le_of_eq length), length, Nat.sub_self, List.getElem?_cons_zero] at last
    cases last
    have success : (turns (List.range (mainOutputs - 1)) outputs).map withoutError =
        ((List.range (mainOutputs - 1)).map outputs.items).map withoutError := by
      refine List.ext_getElem? fun i => ?_
      by_cases inside : i < mainOutputs - 1
      · have here := conserved.success i inside
        rw [List.getElem?_append_left (by omega)] at here
        rw [here]
        simp [inside]
      · have beyond : (((List.range (mainOutputs - 1)).map outputs.items).map withoutError).length ≤ i := by
          simpa using inside
        rw [List.getElem?_eq_none (by omega), List.getElem?_eq_none beyond]
    have counts := perm.length_eq
    rw [List.length_append, ← all_kept.length_eq, ← routed.length_eq] at counts
    obtain ⟨whole, none⟩ := whole_of_counts (turns_items _ outputs) success _ (Nat.le_of_eq counts.symm)
    rw [whole] at routed
    refine ⟨List.length_eq_zero_iff.1 none, pairwise_range_iff.1 ((turns_eq_iff _ _).1 whole), ?_⟩
    intro outputIndex inside item marked
    have member := mem_withError_flatten.2 ⟨outputIndex, List.mem_range.2 inside, marked⟩
    obtain ⟨i, bound, rfl⟩ := List.getElem_of_mem member
    exact errorItem_ok_iff.1 ⟨_, routed.get bound (routed.length_eq ▸ bound)⟩
  · rintro ⟨free, apart, found⟩
    have whole := (turns_eq_iff (List.range (mainOutputs - 1)) outputs).2 (pairwise_range_iff.2 apart)
    obtain ⟨added, routed⟩ : ∃ added,
        Routed run (withError ((List.range (mainOutputs - 1)).map outputs.items).flatten) added := by
      refine exists_routed fun item member => ?_
      obtain ⟨outputIndex, inside, marked⟩ := mem_withError_flatten.1 member
      exact errorItem_ok_iff.2 (found outputIndex (List.mem_range.1 inside) item marked)
    refine ⟨_, handle_ok_iff.2 ⟨added, by rwa [whole], rfl⟩, ?_, added, added, ?_, ?_, ?_⟩
    · intro outputIndex inside
      rw [List.getElem?_append_left (by omega), whole]
      simp [inside]
    · exact routed.imp fun item routed => errorItem_kept
    · rw [List.getElem?_append_right (Nat.le_of_eq length), length, Nat.sub_self, List.getElem?_cons_zero]
    · rw [free, List.append_nil]

def emptyProxy : WorkflowDataProxy := { runData := ∅, pinData := ∅, manual := false }

def twoOutputs (success errorOutput : List INodeExecutionData) : Outputs where
  nodeSuccessData := [some 0, some 1]
  arrays array := if array = 0 then success else errorOutput

/-- An item that the node has put on its error output is lost, and an item with an error is thrown at where
the input it belongs to has no source. -/
theorem errorOutput_overwritten :
    (¬ ∃ after, handleNodeErrorOutput ⟨emptyProxy, none, 100⟩ 2 (twoOutputs [] [⟨∅, .undefined, none⟩]) = .ok after ∧
        Conserved 2 (twoOutputs [] [⟨∅, .undefined, none⟩]) after) ∧
      ∃ error, handleNodeErrorOutput ⟨emptyProxy, some (mainOnly []), 100⟩ 2
        (twoOutputs [⟨∅, .string "failed", some (.one { item := 0 })⟩] []) = .error error := by
  refine ⟨?_, .typeError, by decide⟩
  rintro ⟨after, ended, conserved⟩
  cases ended
  obtain ⟨routed, errorOutput, _, last, perm⟩ := conserved.errors
  cases last
  have length := perm.length_eq
  simp [twoOutputs, Outputs.items] at length

end NodeAutomation.ErrorOutput
