import NodeAutomation.Core.ExecutionLoop
import NodeAutomation.Lib.Places
import NodeAutomation.Lib.Runs

/-! The runs of the nodes, in both execution orders: nothing the execution loop does takes a
recorded run away, moves it, or empties what it holds. -/

namespace NodeAutomation.KeptRuns
open WorkflowExecute RequestsResponse WaitingScan ExecutionLoop Fallible Places

structure KeptIn (run later : ITaskData) : Prop where
  data : run.data.isSome → later.data.isSome
  inputOverride : run.inputOverride.isSome → later.inputOverride.isSome
  error : run.error.isSome → later.error.isSome

theorem KeptIn.refl (run : ITaskData) : KeptIn run run := ⟨id, id, id⟩

/-- Each run is at its index still. -/
def Keeps (before after : IRunData) : Prop :=
  ∀ (name : String) (k : Nat) (run : ITaskData), ((before.get name).getD [])[k]? = some run →
    ∃ later, ((after.get name).getD [])[k]? = some later ∧ KeptIn run later

theorem Keeps.refl (runData : IRunData) : Keeps runData runData :=
  fun _ _ run there => ⟨run, there, .refl run⟩

theorem Keeps.trans {before middle after : IRunData} (first : Keeps before middle)
    (second : Keeps middle after) : Keeps before after := by
  intro name k run there
  obtain ⟨now, found, kept⟩ := first name k run there
  obtain ⟨later, found', kept'⟩ := second name k now found
  exact ⟨later, found', kept'.data ∘ kept.data, kept'.inputOverride ∘ kept.inputOverride,
    kept'.error ∘ kept.error⟩

theorem keeps_set {runData : IRunData} {name : String} {runs : List ITaskData}
    (kept : ∀ (k : Nat) run, ((runData.get name).getD [])[k]? = some run →
      ∃ later, runs[k]? = some later ∧ KeptIn run later) : Keeps runData (runData.set name runs) := by
  intro other k run there
  by_cases same : other = name
  · subst same
    rw [OrderedMap.get_set_self]
    exact kept k run there
  · rw [OrderedMap.get_set_of_ne _ _ same]
    exact ⟨run, there, .refl run⟩

theorem keeps_append (runData : IRunData) (name : String) (new : ITaskData) :
    Keeps runData (runData.set name ((runData.get name).getD [] ++ [new])) :=
  keeps_set fun _ run there => ⟨run, getElem?_append_of_some there _, .refl run⟩

theorem keeps_recordRun (state : IRunExecutionData) (executionData : IExecuteData) (runIndex : Nat)
    (taskData : ITaskData) :
    Keeps state.runData (recordRun state executionData runIndex taskData).runData := by
  unfold recordRun
  simp only
  split
  · rename_i current there
    refine keeps_set fun k run found => ?_
    by_cases same : runIndex = k
    · subst same
      rw [there] at found
      cases found
      refine ⟨_, List.getElem?_set_self (List.getElem?_eq_some_iff.1 there).1, ?_, ?_, ?_⟩ <;>
        simp +contextual [Option.isSome_or]
    · exact ⟨run, by rw [List.getElem?_set_ne same, found], .refl run⟩
  · exact keeps_append _ _ _

section

variable {α : Type} {env : Environment} {workflow : Workflow} {before : IRunData} {state : IRunExecutionData}

abbrev Keeping (before : IRunData) (state : α → IRunExecutionData) : Except JsError α → Prop :=
  Ensures (fun result => Keeps before (state result).runData) fun _ => True

abbrev Leaving (before : IRunData) (state : α → IRunExecutionData) : Except Thrown α → Prop :=
  Ensures (fun result => Keeps before (state result).runData) fun thrown => Keeps before thrown.2.runData

variable (held : Keeps before state.runData)
include held

theorem keeps_storeWaiting (nodeName : String) (waiting : NodeWaiting) :
    Keeps before (storeWaiting state nodeName waiting).runData := by
  unfold storeWaiting
  split <;> exact held

theorem keeping_addLegacyParent (call : NodeToBeExecuted) (nodes : List String) (inputNode : String) :
    Keeping before id (addLegacyParent workflow call nodes state inputNode) := by
  unfold addLegacyParent
  simp only
  split
  · exact held
  · split
    all_goals
      refine (ensures_any _).bind fun unwanted _ => ?_
      split
      · exact held
      · refine (ensures_any _).bind fun addEmptyItem _ => ?_
        split
        · split
          · trivial
          · exact held
        · exact held

theorem keeping_addInputNode (call : NodeToBeExecuted) (nodes : List String) (inputData : IConnection) :
    Keeping before id (addInputNode workflow call nodes state inputData) := by
  unfold addInputNode
  split
  · exact held
  · refine (ensures_any _).bind fun willRun _ => ?_
    split
    · exact held
    · exact keeping_addLegacyParent held call nodes inputData.node

theorem keeping_addInputNodesOfNew (call : NodeToBeExecuted) :
    Keeping before id (addInputNodesOfNew workflow call state) := by
  unfold addInputNodesOfNew addInputNodes
  split
  · exact held
  · split
    · trivial
    · exact ensures_foldlM (fun _ _ kept => keeping_addInputNode kept call _ _) held

theorem keeping_addNodeToBeExecuted (call : NodeToBeExecuted) :
    Keeping before id (addNodeToBeExecuted workflow state call) := by
  unfold addNodeToBeExecuted
  split
  · refine (ensures_any _).bind fun filled _ => (ensures_any _).bind fun main _ =>
      (ensures_any _).bind fun mainSource _ => ?_
    split
    · split
      · exact keeps_storeWaiting (show Keeps before (enqueue _ _ _).runData from held) _ _
      · trivial
    · exact (keeping_addInputNodesOfNew held call).bind fun now kept =>
        keeps_storeWaiting kept _ _
  · unfold addDirectly
    split
    · exact held
    · exact held

/-- The state a waiting node leaves behind once it is looked at. -/
def left (state : IRunExecutionData) : Checked → IRunExecutionData
  | .skipped => state
  | .removed next | .released next => next

theorem keeping_checkNode (nodeName : String) :
    Keeping before (left state) (checkNode env workflow state nodeName) := by
  have taken (runIndex : Nat) (node : INode) (main) :
      Keeping before (left state) (takeEntry env state node nodeName runIndex main) := by
    unfold takeEntry
    split
    · trivial
    · split
      · split
        · trivial
        · exact keeps_storeWaiting (show Keeps before (pushEntry _ _).runData from held) _ _
      · exact keeps_storeWaiting held _ _
  fun_cases checkNode env workflow state nodeName <;> first | exact held | trivial | exact taken _ _ _

theorem keeping_checkNodes (nodeNames : List String) :
    Keeping before (left state) (checkNodes env workflow state nodeNames) := by
  induction nodeNames with
  | nil => exact held
  | cons nodeName nodeNames ih =>
    unfold checkNodes
    split
    · exact ih
    · exact keeping_checkNode held nodeName

theorem keeping_search (fuel : Nat) : Keeping before id (search env workflow fuel state) := by
  induction fuel generalizing state with
  | zero => exact held
  | succ fuel ih =>
    have checked : Keeping before (left state) (checkNodes env workflow state state.waitingExecution.keys) :=
      keeping_checkNodes held _
    unfold search
    split
    · trivial
    · exact held
    · rename_i found
      exact checked.of_ok found
    · rename_i found
      exact ih (checked.of_ok found)

theorem keeping_releaseWaiting : Keeping before id (releaseWaiting env workflow state) := by
  unfold releaseWaiting
  split
  · exact keeping_search held _
  · exact held

theorem keeping_addChildren (executionNode : String) (runIndex : Nat) (outputs : Outputs) :
    Keeping before id (addChildren workflow executionNode runIndex outputs state) :=
  (ensures_any _).bind fun _ _ => ensures_foldlM (fun _ _ kept => keeping_addNodeToBeExecuted kept _) held

theorem keeping_handleEngineRequest (executionData : IExecuteData) (runIndex : Nat) (request : EngineRequest) :
    Leaving before id (handleEngineRequest workflow executionData runIndex state request) := by
  have prepared : Leaving before Preparation.state
      (prepareRequestedNodesForExecution workflow executionData runIndex state request) := by
    refine ensures_foldlM (fun now action kept => ?_) held
    unfold prepareRequestedNode
    split
    · exact kept
    · exact kept.trans (keeps_append now.state.runData _ _)
  have asked : Leaving before Prod.fst (handleRequest workflow executionData runIndex state request) := by
    unfold handleRequest
    split
    · rename_i thrown
      exact prepared.of_error thrown
    · rename_i went
      have kept := prepared.of_ok went
      split
      · exact kept
      · split <;> exact kept
  unfold handleEngineRequest
  split
  · rename_i thrown
    exact asked.of_error thrown
  · rename_i went
    refine ensures_foldlM (fun now call kept => ?_) (asked.of_ok went)
    unfold addRequested
    split
    · rename_i added
      exact (keeping_addNodeToBeExecuted kept call).of_ok added
    · exact kept

theorem keeps_finishTry (executionData : IExecuteData) (nodeSuccessData : Option Outputs) :
    Keeps before (finishTry env executionData state nodeSuccessData).state.runData := by
  have noted : (noteExecuted executionData state nodeSuccessData).runData = state.runData := by
    unfold noteExecuted
    split <;> rfl
  unfold finishTry
  split
  · exact held
  · split <;> exact noted.symm ▸ held

theorem keeps_tryNode (executionData : IExecuteData) (runIndex : Nat) (run : NodeRun) :
    Keeps before (tryNode env workflow executionData runIndex state run).state.runData := by
  unfold tryNode
  split
  · exact keeps_finishTry held executionData _
  · have waits : Keeps before { state with waitTill := state.waitTill || run.waitTill }.runData := held
    simp only
    split
    · exact keeps_finishTry waits executionData _
    · exact held
    · split
      · rename_i went
        exact (keeping_handleEngineRequest waits executionData runIndex _).of_ok went
      · rename_i went
        exact (keeping_handleEngineRequest waits executionData runIndex _).of_error went

theorem keeping_completeWith (executionData : IExecuteData) (runIndex : Nat) (error : Option String)
    (nodeSuccessData : Option Outputs) :
    Keeping before Prod.snd (completeWith env workflow state executionData runIndex error nodeSuccessData) := by
  unfold completeWith
  split
  · trivial
  · rename_i outputs
    unfold complete
    have recorded (taskData : ITaskData) := held.trans (keeps_recordRun state executionData runIndex taskData)
    split
    · trivial
    · simp only
      split
      · exact recorded _
      · split
        · exact recorded _
        · exact (keeping_addChildren (recorded _) _ _ _).bind fun now kept =>
            (keeping_releaseWaiting kept).bind fun _ last => last

theorem keeping_runEntry (loop : LoopState) (turn : Turn) (executionData : IExecuteData) :
    Keeping before (·.2.data) (runEntry env workflow loop turn state executionData) := by
  unfold runEntry
  simp only
  split
  · trivial
  · split
    · exact held
    · split
      · exact held
      · suffices finished : Keeping before Prod.snd (afterTries env workflow executionData _ (tries ..)) from
          finished.bind fun _ kept => kept
        have tried : Keeps before (tries env workflow executionData (runIndexOf state executionData)
            state turn.run turn.retries).state.runData :=
          tries_kept (P := fun now => Keeps before now.runData) turn.run turn.retries
            (fun _ try_ _ kept => keeps_tryNode kept executionData _ try_) held
        unfold afterTries
        split <;> rename_i same <;> rw [same] at tried
        · exact tried
        · exact tried
        · exact keeping_completeWith tried _ _ _ _
        · split
          · exact keeping_completeWith tried _ _ _ _
          · exact tried.trans (keeps_recordRun _ _ _ _)

end

/-- Whatever the nodes answer and however the execution ends, a run recorded in some state of it is
in every later one. -/
theorem keeps_after (env : Environment) (workflow : Workflow) (loop : LoopState) (turns : List Turn) :
    Keeps loop.data.runData (Runs.after (next env workflow) loop turns).data.runData := by
  induction turns generalizing loop with
  | nil => exact .refl _
  | cons turn turns ih =>
    refine Keeps.trans ?_ (ih (next env workflow loop turn))
    have iterated : Keeping loop.data.runData (·.2.data) (iterate env workflow loop turn) := by
      unfold iterate
      split
      · exact .refl _
      · split
        · exact .refl _
        · exact keeping_runEntry (show Keeps _ { loop.data with nodeExecutionStack := _ }.runData from .refl _) loop turn _
    unfold next
    split
    · rename_i went
      exact iterated.of_ok went
    · exact .refl _

end NodeAutomation.KeptRuns
