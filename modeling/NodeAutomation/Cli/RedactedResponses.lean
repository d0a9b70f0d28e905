import NodeAutomation.Cli.ExecutionRedaction

/-! What redacted responses depend on: of two executions that differ in the data of items and in the
details of errors only, where the responses are equal. -/

namespace NodeAutomation.ExecutionRedaction

variable {ι κ : Type}

def ExecutionError.erase (error : ExecutionError) : ExecutionError := { error with details := .null }

def NodeExecutionData.erase (item : NodeExecutionData) : NodeExecutionData :=
  { item with json := .object [], binary := none, error := item.error.map ExecutionError.erase }

def TaskData.erase (task : TaskData ι) : TaskData ι := { task with error := task.error.map ExecutionError.erase }

def ResultData.erase (resultData : ResultData ι) : ResultData ι :=
  { resultData with
    error := resultData.error.map ExecutionError.erase
    runData := resultData.runData.map fun runData => runData.mapValues fun tasks => tasks.map TaskData.erase }

def RunExecutionData.erase (data : RunExecutionData ι) : RunExecutionData ι :=
  { data with resultData := data.resultData.erase }

def RedactableExecution.erase (execution : RedactableExecution) : RedactableExecution :=
  { execution with
    data := execution.data.map RunExecutionData.erase
    store := fun item => (execution.store item).erase }

/-- Equal but for the contents of items and the details of errors. -/
def Alike (x y : RedactableExecution) : Prop := x.erase = y.erase

def TaskData.items (task : TaskData ι) : List ι :=
  task.data.elim [] TaskDataConnections.items ++ task.inputOverride.elim [] TaskDataConnections.items

def RunExecutionData.runItems (data : RunExecutionData ι) : List ι :=
  data.resultData.runData.elim [] fun runData => runData.values.flatten.flatMap TaskData.items

def RunExecutionData.heldItems (data : RunExecutionData ι) : List ι :=
  data.resultData.pinData.elim [] (fun pinData => pinData.values.flatten) ++
    data.executionData.elim [] fun executionData =>
      executionData.nodeExecutionStack.flatMap (fun entry => TaskDataConnections.items entry.data) ++
        executionData.waitingExecution.values.flatMap fun runs =>
          runs.values.flatMap TaskDataConnections.items

section

variable {f g : ι → κ}

theorem TaskDataConnections.map_eq_iff (connections : TaskDataConnections ι) :
    TaskDataConnections.map f connections = TaskDataConnections.map g connections ↔
      ∀ item ∈ TaskDataConnections.items connections, f item = g item := by
  simp only [TaskDataConnections.map, TaskDataConnections.items, OrderedMap.mapValues_eq_iff, List.map_inj_left,
    List.mem_flatMap]
  constructor
  · rintro h item ⟨outputs, here, items, there, member⟩
    cases items with
    | none => cases member
    | some items =>
      have same := Option.some.inj (h outputs here (some items) there)
      exact List.map_inj_left.1 same item member
  · rintro h outputs here items there
    cases items with
    | none => rfl
    | some items =>
      refine congrArg some (List.map_inj_left.2 fun item member => ?_)
      exact h item ⟨outputs, here, some items, there, member⟩

theorem option_map_eq_iff {α β : Type*} {f g : α → β} (value : Option α) :
    value.map f = value.map g ↔ ∀ x ∈ value, f x = g x := by
  cases value with
  | none => simp
  | some x => simp

theorem TaskData.map_eq_iff (task : TaskData ι) :
    task.map f = task.map g ↔ ∀ item ∈ task.items, f item = g item := by
  simp only [TaskData.map, TaskData.mk.injEq, and_true, option_map_eq_iff, TaskDataConnections.map_eq_iff,
    TaskData.items, List.mem_append, or_imp, forall_and]
  cases task.data <;> cases task.inputOverride <;> simp

theorem ExecuteData.map_eq_iff (entry : ExecuteData ι) :
    entry.map f = entry.map g ↔ ∀ item ∈ TaskDataConnections.items entry.data, f item = g item := by
  simp only [ExecuteData.map, ExecuteData.mk.injEq, and_true, TaskDataConnections.map_eq_iff]

theorem RunExecutionData.map_eq_iff (data : RunExecutionData ι) :
    data.map f = data.map g ↔ ∀ item ∈ data.runItems ++ data.heldItems, f item = g item := by
  have runs : (∀ runData ∈ data.resultData.runData, ∀ tasks ∈ runData.values, ∀ task ∈ tasks,
      ∀ item ∈ TaskData.items task, f item = g item) ↔ ∀ item ∈ data.runItems, f item = g item := by
    unfold runItems
    cases data.resultData.runData with
    | none => simp
    | some runData => simp; grind
  have pinned : (∀ pinData ∈ data.resultData.pinData, ∀ items ∈ pinData.values, ∀ item ∈ items,
      f item = g item) ↔
        ∀ item ∈ data.resultData.pinData.elim [] (fun pinData => pinData.values.flatten), f item = g item := by
    cases data.resultData.pinData with
    | none => simp
    | some pinData => simp; grind
  have held : (∀ executionData ∈ data.executionData, executionData.map f = executionData.map g) ↔
      ∀ item ∈ data.executionData.elim [] fun executionData =>
        executionData.nodeExecutionStack.flatMap (fun entry => TaskDataConnections.items entry.data) ++
          executionData.waitingExecution.values.flatMap fun runs =>
            runs.values.flatMap TaskDataConnections.items, f item = g item := by
    cases data.executionData with
    | none => simp
    | some executionData =>
      simp [ExecutionData.map, ExecuteData.map_eq_iff, OrderedMap.mapValues_eq_iff,
        TaskDataConnections.map_eq_iff]
      grind
  simp only [RunExecutionData.map, ResultData.map, RunExecutionData.mk.injEq, ResultData.mk.injEq, and_true,
    true_and, option_map_eq_iff, OrderedMap.mapValues_eq_iff, List.map_inj_left, TaskData.map_eq_iff, runs,
    pinned, held, heldItems, List.mem_append, or_imp, forall_and, and_assoc]

end

def redactAt (reason : String) (store : Store) (item : Nat) : Store :=
  Function.update store item (redactItem reason (store item))

theorem redactTaskItems_eq (reason : String) (task : TaskData Nat) (store : Store) :
    redactTaskItems reason task store = task.items.foldl (redactAt reason) store := by
  unfold redactTaskItems TaskData.items
  rw [List.foldl_append]
  cases task.data <;> cases task.inputOverride <;> rfl

variable (context : RedactionContext)

theorem apply_store (data : RunExecutionData Nat) (store : Store) :
    (apply context data store).2 = data.runItems.foldl (redactAt context.reason) store := by
  unfold apply RunExecutionData.runItems
  cases data.resultData.runData with
  | none => rfl
  | some runData =>
    simp only [Option.elim_some, List.foldl_flatMap]
    exact congrArg (fun step => runData.values.flatten.foldl step store)
      (funext fun store => funext fun task => redactTaskItems_eq context.reason task store)

theorem redactItem_erase (reason : String) (item : NodeExecutionData) :
    redactItem reason item.erase = redactItem reason item := by
  unfold redactItem NodeExecutionData.erase
  cases item.error <;> rfl

theorem redactItem_congr {reason : String} {x y : NodeExecutionData} (same : x.erase = y.erase) :
    redactItem reason x = redactItem reason y := by
  rw [← redactItem_erase, same, redactItem_erase]

theorem foldl_redactAt_of_not_mem {reason : String} {store : Store} {items : List Nat} {item : Nat}
    (other : item ∉ items) : items.foldl (redactAt reason) store item = store item := by
  induction items generalizing store with
  | nil => rfl
  | cons first items ih =>
    rw [List.foldl_cons, ih (List.not_mem_of_not_mem_cons other)]
    exact Function.update_of_ne (List.ne_of_not_mem_cons other) _ store

theorem foldl_redactAt_congr {reason : String} {store store' : Store} {items : List Nat} {item : Nat}
    (alike : ∀ i, (store i).erase = (store' i).erase) (here : item ∈ items ∨ store item = store' item) :
    items.foldl (redactAt reason) store item = items.foldl (redactAt reason) store' item := by
  induction items generalizing store store' with
  | nil => exact here.resolve_left List.not_mem_nil
  | cons first items ih =>
    refine ih (fun i => ?_) ?_
    · by_cases same : i = first
      · subst same
        simp [redactAt, redactItem_congr (alike i)]
      · simp [redactAt, same, alike i]
    · by_cases same : item = first
      · subst same
        exact .inr (by simp [redactAt, redactItem_congr (alike item)])
      · refine here.imp (fun member => (List.mem_cons.1 member).resolve_left same) fun equal => ?_
        simp [redactAt, same, equal]

variable (data : RunExecutionData ι)

theorem runItems_erase : data.erase.runItems = data.runItems := by
  unfold RunExecutionData.runItems RunExecutionData.erase ResultData.erase
  cases data.resultData.runData with
  | none => rfl
  | some runData =>
    simp only [Option.map_some, Option.elim_some, OrderedMap.values_mapValues, ← List.map_flatten,
      List.flatMap_map]
    rfl

theorem runtimeData_erase : data.erase.runtimeData = data.runtimeData := rfl

theorem hasDynamicCredentials_erase :
    hasDynamicCredentials data.erase = hasDynamicCredentials data := by
  unfold hasDynamicCredentials RunExecutionData.erase ResultData.erase
  cases data.resultData.runData with
  | none => rfl
  | some runData =>
    simp [Function.comp_def, List.any_map, TaskData.erase]

theorem needsCredentialStrip_erase :
    needsCredentialStrip data.erase = needsCredentialStrip data := by
  unfold needsCredentialStrip
  rw [hasDynamicCredentials_erase, runtimeData_erase]

variable (setting : Setting)

theorem resolvePolicy_erase (execution : RedactableExecution) :
    execution.erase.resolvePolicy setting = execution.resolvePolicy setting := by
  unfold RedactableExecution.resolvePolicy RedactableExecution.erase
  cases execution.data <;> rfl

theorem policyAllowsReveal_erase (execution : RedactableExecution) :
    execution.erase.policyAllowsReveal setting = execution.policyAllowsReveal setting := by
  unfold RedactableExecution.policyAllowsReveal
  rw [resolvePolicy_erase]
  rfl

theorem redactionContext_erase (options : Options) (revealableIds : List String)
    (execution : RedactableExecution) (data : RunExecutionData Nat) :
    redactionContext setting options revealableIds execution.erase data.erase =
      redactionContext setting options revealableIds execution data := by
  unfold redactionContext isOwnDynamicCredentialsExecution
  rw [hasDynamicCredentials_erase, runtimeData_erase, policyAllowsReveal_erase]
  rfl

theorem isCleared_erase (options : Options) (revealableIds : List String)
    (execution : RedactableExecution) (data : RunExecutionData Nat) :
    isCleared setting options revealableIds execution.erase data.erase =
      isCleared setting options revealableIds execution data := by
  unfold isCleared shouldClearItems
  rw [redactionContext_erase, policyAllowsReveal_erase, resolvePolicy_erase]
  rfl

theorem revealableIds_congr (options : Options) {executions others : List RedactableExecution}
    (alike : List.Forall₂ Alike executions others) :
    revealableIds setting options executions = revealableIds setting options others := by
  have ids : (needsCheck setting executions).map (·.workflowId) = (needsCheck setting others).map (·.workflowId) := by
    induction alike with
    | nil => rfl
    | @cons x y executions others head tail ih =>
      have there : x.data.isSome = y.data.isSome := by
        simpa [RedactableExecution.erase] using congrArg (fun e => e.data.isSome) head
      have allows : x.policyAllowsReveal setting = y.policyAllowsReveal setting := by
        rw [← policyAllowsReveal_erase, show x.erase = y.erase from head, policyAllowsReveal_erase]
      have workflow : x.workflowId = y.workflowId := congrArg (·.workflowId) head
      unfold needsCheck at ih ⊢
      rw [List.filter_cons, List.filter_cons, there, allows]
      split
      · rw [List.map_cons, List.map_cons, ih, workflow]
      · exact ih
  have empty : (needsCheck setting executions).isEmpty = (needsCheck setting others).isEmpty := by
    have := congrArg List.isEmpty ids
    simpa using this
  unfold revealableIds
  rw [ids, empty]

def redactedData (context : RedactionContext) (data : RunExecutionData Nat) (store : Store) :
    RunExecutionData Nat :=
  if needsCredentialStrip data then stripCredentials (apply context data store).1
  else (apply context data store).1

variable {options : Options} {revealable : List String}

theorem processOne_response {setting : Setting}
    {execution : RedactableExecution} {data : RunExecutionData Nat} (here : execution.data = some data)
    (cleared : isCleared setting options revealable execution data = true) :
    (processOne setting options revealable execution).response =
      { execution.response with
        data := some ((redactedData (redactionContext setting options revealable execution data) data
          execution.store).map
            (data.runItems.foldl
              (redactAt (redactionContext setting options revealable execution data).reason)
              execution.store)) } := by
  rw [← apply_store]
  simp only [processOne, here, cleared, or_true, not_true_eq_false, and_false, if_false, if_true]
  rfl

theorem TaskData.redact_erase (task : TaskData ι) : task.erase.redact = task.redact := by
  unfold redact erase
  cases error : task.error with
  | none =>
    cases task
    cases error
    rfl
  | some error => rfl

theorem TaskData.items_redact (task : TaskData ι) : task.redact.items = task.items := by
  unfold redact
  cases task.error <;> rfl

variable (resultData : ResultData ι)

theorem ResultData.redact_erase :
    ({ resultData with error := resultData.error.map ExecutionError.erase } : ResultData ι).redact =
      resultData.redact := by
  unfold redact
  cases error : resultData.error with
  | none =>
    cases resultData
    cases error
    rfl
  | some error => rfl

@[simp] theorem ResultData.redact_runData :
    resultData.redact.runData = resultData.runData := by
  unfold redact
  cases resultData.error <;> rfl

@[simp] theorem ResultData.redact_pinData :
    resultData.redact.pinData = resultData.pinData := by
  unfold redact
  cases resultData.error <;> rfl

theorem stripCredentials_items :
    (stripCredentials data).runItems = data.runItems ∧ (stripCredentials data).heldItems = data.heldItems := by
  refine ⟨rfl, ?_⟩
  unfold RunExecutionData.heldItems stripCredentials
  cases data.executionData <;> rfl

theorem apply_items (data : RunExecutionData Nat) (store : Store) :
    (apply context data store).1.runItems = data.runItems ∧
      (apply context data store).1.heldItems = data.heldItems := by
  unfold apply
  cases runs : data.resultData.runData with
  | none => exact ⟨rfl, rfl⟩
  | some runData =>
    unfold RunExecutionData.runItems RunExecutionData.heldItems
    have items : (fun task : TaskData Nat => task.redact.items) = TaskData.items :=
      funext TaskData.items_redact
    have tasks : (runData.values.map fun tasks => tasks.map TaskData.redact).flatten.flatMap TaskData.items =
        runData.values.flatten.flatMap TaskData.items := by
      rw [← List.map_flatten, List.flatMap_map, items]
    simp only [runs, ResultData.redact_runData, ResultData.redact_pinData, Option.elim_some,
      OrderedMap.values_mapValues]
    exact ⟨tasks, trivial⟩

theorem redactedData_items (data : RunExecutionData Nat) (store : Store) :
    (redactedData context data store).runItems = data.runItems ∧
      (redactedData context data store).heldItems = data.heldItems := by
  unfold redactedData
  have strip := stripCredentials_items (apply context data store).1
  have items := apply_items context data store
  split
  · exact ⟨strip.1.trans items.1, strip.2.trans items.2⟩
  · exact items

theorem apply_erase {data : RunExecutionData Nat} (store store' : Store)
    (runs : data.resultData.runData ≠ none) :
    (apply context data.erase store).1 = (apply context data store').1 := by
  obtain ⟨runData, runs⟩ := Option.ne_none_iff_exists'.1 runs
  have tasks : (runData.mapValues fun tasks => tasks.map TaskData.erase).mapValues
      (fun tasks => tasks.map TaskData.redact) = runData.mapValues fun tasks => tasks.map TaskData.redact := by
    rw [OrderedMap.mapValues_mapValues, OrderedMap.mapValues_eq_iff]
    intro tasks _
    rw [List.map_map]
    exact List.map_congr_left fun task _ => TaskData.redact_erase task
  unfold apply RunExecutionData.erase ResultData.erase
  simp only [runs, Option.map_some, tasks]
  have error := ResultData.redact_erase
    { data.resultData with runData := some (runData.mapValues fun tasks => tasks.map TaskData.redact) }
  simp only at error
  rw [error]

theorem apply_none {data : RunExecutionData Nat} (store : Store)
    (runs : data.resultData.runData = none) : apply context data store = (data, store) := by
  simp only [apply, runs]

theorem runData_eq_none_of_erase {data other : RunExecutionData ι} (same : data.erase = other.erase) :
    data.resultData.runData = none ↔ other.resultData.runData = none := by
  have runs := congrArg (fun data => data.resultData.runData.isSome) same
  simp only [RunExecutionData.erase, ResultData.erase, Option.isSome_map] at runs
  cases here : data.resultData.runData <;> cases there : other.resultData.runData <;> simp_all

theorem eq_of_erase {data other : RunExecutionData ι} (same : data.erase = other.erase)
    (runs : data.resultData.runData = none) (error : data.resultData.error = other.resultData.error) :
    data = other := by
  have there := (runData_eq_none_of_erase same).1 runs
  obtain ⟨⟨e, r, runData, p, o⟩, x, i⟩ := data
  obtain ⟨⟨e', r', runData', p', o'⟩, x', i'⟩ := other
  simp only at runs there error
  subst runs there error
  simp only [RunExecutionData.erase, ResultData.erase, RunExecutionData.mk.injEq, ResultData.mk.injEq] at same ⊢
  exact ⟨⟨trivial, same.1.2.1, trivial, same.1.2.2.2⟩, same.2⟩

theorem redactedData_congr {data other : RunExecutionData Nat}
    (store store' : Store) (same : data.erase = other.erase)
    (error : data.resultData.runData = none → data.resultData.error = other.resultData.error) :
    redactedData context data store = redactedData context other store' := by
  have strip : needsCredentialStrip data = needsCredentialStrip other := by
    rw [← needsCredentialStrip_erase, same, needsCredentialStrip_erase]
  have applied : (apply context data store).1 = (apply context other store').1 := by
    by_cases runs : data.resultData.runData = none
    · rw [eq_of_erase same runs (error runs), apply_none _ _ ((runData_eq_none_of_erase same).1 runs),
        apply_none _ _ ((runData_eq_none_of_erase same).1 runs)]
    · have there := fun h => runs ((runData_eq_none_of_erase same).2 h)
      rw [← apply_erase context store store runs, same, apply_erase context store store' there]
  unfold redactedData
  rw [strip, applied]

theorem redactedData_error {data : RunExecutionData Nat} (store : Store)
    (runs : data.resultData.runData = none) :
    (redactedData context data store).resultData.error = data.resultData.error := by
  unfold redactedData
  rw [apply_none context store runs]
  split <;> rfl

/-- No item that only pinned data, the stack or waiting data hold differs, and without run data
nothing differs. -/
def Covered (x y : RedactableExecution) : Prop :=
  ∀ data other, x.data = some data → y.data = some other →
    (∀ item ∈ data.heldItems, item ∉ data.runItems → x.store item = y.store item) ∧
      (data.resultData.runData = none → data.resultData.error = other.resultData.error)

def Cleared (setting : Setting) (options : Options) (revealable : List String)
    (execution : RedactableExecution) : Prop :=
  ∃ data, execution.data = some data ∧ isCleared setting options revealable execution data = true

theorem response_eq_iff {setting : Setting}
    {x y : RedactableExecution} (alike : Alike x y) (cleared : Cleared setting options revealable x) :
    (processOne setting options revealable x).response = (processOne setting options revealable y).response ↔
      Covered x y := by
  obtain ⟨data, here, cleared⟩ := cleared
  obtain ⟨other, there, same⟩ : ∃ other, y.data = some other ∧ data.erase = other.erase := by
    have places : x.data.map RunExecutionData.erase = y.data.map RunExecutionData.erase :=
      congrArg (·.data) alike
    rw [here] at places
    obtain ⟨other, there, same⟩ := Option.map_eq_some_iff.1 places.symm
    exact ⟨other, there, same.symm⟩
  have contexts : redactionContext setting options revealable x data =
      redactionContext setting options revealable y other := by
    rw [← redactionContext_erase, same, show x.erase = y.erase from alike, redactionContext_erase]
  have cleared' : isCleared setting options revealable y other = true := by
    rw [← isCleared_erase, ← same, ← show x.erase = y.erase from alike, isCleared_erase, cleared]
  have covered : Covered x y ↔
      (∀ item ∈ data.heldItems, item ∉ data.runItems → x.store item = y.store item) ∧
        (data.resultData.runData = none → data.resultData.error = other.resultData.error) := by
    refine ⟨fun h => h data other here there, fun h data' other' here' there' => ?_⟩
    cases here.symm.trans here'
    cases there.symm.trans there'
    exact h
  have stores : ∀ item, (x.store item).erase = (y.store item).erase := fun item =>
    congrFun (congrArg (·.store) alike) item
  have rest : x.id = y.id ∧ x.mode = y.mode ∧ x.workflowId = y.workflowId ∧
      x.redactionPolicy = y.redactionPolicy := by
    have parts := congrArg (fun e => (e.id, e.mode, e.workflowId, e.redactionPolicy)) alike
    simpa [RedactableExecution.erase] using parts
  have runs : data.runItems = other.runItems := by rw [← runItems_erase, same, runItems_erase]
  rw [processOne_response here cleared, processOne_response there cleared', contexts, covered, ← runs]
  set context := redactionContext setting options revealable y other
  have items := redactedData_items context data x.store
  simp only [RedactableExecution.response, Response.mk.injEq, rest, true_and, and_true, Option.some.injEq]
  constructor
  · intro equal
    have error (none : data.resultData.runData = none) : data.resultData.error = other.resultData.error := by
      have none' := (runData_eq_none_of_erase same).1 none
      rw [← redactedData_error context x.store none, ← redactedData_error context y.store none']
      exact congrArg (·.resultData.error) equal
    refine ⟨fun item held fresh => ?_, error⟩
    rw [← redactedData_congr context x.store y.store same error] at equal
    have shown := (RunExecutionData.map_eq_iff _).1 equal item (List.mem_append_right _ (items.2 ▸ held))
    rwa [foldl_redactAt_of_not_mem fresh, foldl_redactAt_of_not_mem fresh] at shown
  · rintro ⟨held, error⟩
    rw [← redactedData_congr context x.store y.store same error, RunExecutionData.map_eq_iff, items.1, items.2]
    intro item member
    refine foldl_redactAt_congr stores ?_
    by_cases run : item ∈ data.runItems
    · exact .inl run
    · exact .inr (held item ((List.mem_append.1 member).resolve_left run) run)

def SameWhereCleared (setting : Setting) (options : Options) (executions others : List RedactableExecution) :
    Prop :=
  ∀ (k : Nat) (x y : RedactableExecution), executions[k]? = some x → others[k]? = some y →
    Cleared setting options (revealableIds setting options executions) x →
      ∃ processed processed', processExecutions setting options executions = .ok processed ∧
        processExecutions setting options others = .ok processed' ∧
          processed[k]?.map (·.response) = processed'[k]?.map (·.response)

theorem Cleared.redactExecutionData {setting : Setting}
    {execution : RedactableExecution} (cleared : Cleared setting options revealable execution) :
    options.redactExecutionData ≠ some false := by
  obtain ⟨data, -, cleared⟩ := cleared
  simp only [isCleared, shouldClearItems, redactionContext] at cleared
  exact (of_decide_eq_true cleared).1

theorem processExecutions_of_redacting {setting : Setting}
    {executions : List RedactableExecution} (redacting : options.redactExecutionData ≠ some false)
    {k : Nat} {x : RedactableExecution} (here : executions[k]? = some x) (there : x.data.isSome) :
    processExecutions setting options executions =
      .ok (executions.map (processOne setting options (revealableIds setting options executions))) := by
  have some : (executions.all (·.data.isNone)) = false := by
    rw [List.all_eq_false]
    exact ⟨x, List.mem_of_getElem? here, by simpa [Option.isSome_iff_ne_none] using there⟩
  simp [processExecutions, some, redacting, pure, Except.pure]

/-- Redacted executions that differ in item data and error details only are shown alike exactly
where no item out of run data differs. -/
theorem sameWhereCleared_iff (setting : Setting) (options : Options)
    (executions others : List RedactableExecution) (alike : List.Forall₂ Alike executions others) :
    SameWhereCleared setting options executions others ↔
      ∀ (k : Nat) (x y : RedactableExecution), executions[k]? = some x → others[k]? = some y →
        Cleared setting options (revealableIds setting options executions) x → Covered x y := by
  refine forall_congr' fun k => forall_congr' fun x => forall_congr' fun y => ?_
  refine forall_congr' fun here => forall_congr' fun there => forall_congr' fun cleared => ?_
  have pair : Alike x y := by
    obtain ⟨bound, rfl⟩ := List.getElem?_eq_some_iff.1 here
    obtain ⟨bound', rfl⟩ := List.getElem?_eq_some_iff.1 there
    exact alike.get bound bound'
  have data : x.data.isSome := by
    obtain ⟨data, here, -⟩ := cleared
    rw [here]
    rfl
  have data' : y.data.isSome := by
    have places := congrArg (fun e => e.data.isSome) pair
    simp only [RedactableExecution.erase, Option.isSome_map] at places
    rw [← places, data]
  rw [← response_eq_iff pair cleared,
    processExecutions_of_redacting cleared.redactExecutionData here data,
    processExecutions_of_redacting cleared.redactExecutionData there data', revealableIds_congr setting options alike]
  simp [here, there]

/-! Executions with one item, on the stack or in the data of a task. -/

def mainItem : TaskDataConnections Nat := OrderedMap.empty.set "main" [some [0]]

def stackedData : RunExecutionData Nat where
  resultData := ⟨none, none, some ∅, none, .null⟩
  executionData := some ⟨none, [⟨mainItem, .null⟩], ∅, .null⟩
  redactionInfo := none

def ranData : RunExecutionData Nat where
  resultData := ⟨none, none, some (OrderedMap.empty.set "Set" [⟨some mainItem, none, none, none, false, .null⟩]),
    none, .null⟩
  executionData := none
  redactionInfo := none

def showing (data : RunExecutionData Nat) (json : JsValue) : RedactableExecution where
  id := some "1"
  mode := .trigger
  workflowId := "w"
  data := some data
  redactionPolicy := some .all
  store := fun _ => ⟨json, none, none, none, .null⟩

theorem alike_showing (data : RunExecutionData Nat) (x y : JsValue) : Alike (showing data x) (showing data y) := rfl

theorem sameWhereCleared_ran :
    SameWhereCleared ⟨true, fun _ _ => []⟩ ⟨"u", none, false⟩ [showing ranData (.string "a")]
      [showing ranData (.string "b")] := by
  refine (sameWhereCleared_iff _ _ _ _ (.cons (alike_showing _ _ _) .nil)).2 fun k x y here there _ => ?_
  obtain rfl : k = 0 := by simpa using (List.getElem?_eq_some_iff.1 here).1
  cases here
  cases there
  intro data other same same'
  cases same
  cases same'
  refine ⟨fun item held => ?_, fun none => ?_⟩
  · cases held
  · cases none

/-- An item on the stack is shown. -/
theorem not_sameWhereCleared_stacked :
    ¬∀ (setting : Setting) (options : Options) (executions others : List RedactableExecution),
      List.Forall₂ Alike executions others → SameWhereCleared setting options executions others := by
  intro hidden
  have alike := alike_showing stackedData (.string "a") (.string "b")
  have cleared : Cleared ⟨true, fun _ _ => []⟩ ⟨"u", none, false⟩
      (revealableIds ⟨true, fun _ _ => []⟩ ⟨"u", none, false⟩ [showing stackedData (.string "a")])
      (showing stackedData (.string "a")) := ⟨stackedData, rfl, by decide⟩
  obtain ⟨processed, processed', first, second, same⟩ :=
    hidden ⟨true, fun _ _ => []⟩ ⟨"u", none, false⟩ [showing stackedData (.string "a")]
      [showing stackedData (.string "b")] (.cons alike .nil) 0 _ _ rfl rfl cleared
  rw [processExecutions_of_redacting (k := 0) (by decide) rfl rfl] at first second
  cases first
  cases second
  have covered := (response_eq_iff alike cleared).1 (Option.some.inj same)
  have shown := (covered stackedData stackedData rfl rfl).1 0 (by decide) (by decide)
  exact absurd (congrArg (·.json) shown) (by decide)

end NodeAutomation.ExecutionRedaction
