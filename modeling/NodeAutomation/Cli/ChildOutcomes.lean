import NodeAutomation.Cli.LastChildWins

/-! What a waiting parent keeps of its finished children. Each writes to the first entry of the
parent's stack; a child that failed and one that succeeded write different fields. -/

namespace NodeAutomation.ParentResults

open WaitTracker (RelatedExecution)

structure FinishedChild where
  subworkflowResults : IRun
  childExecution : Option RelatedExecution := none
  deriving DecidableEq

def FinishedChild.error (child : FinishedChild) : Option ExecutionError :=
  child.subworkflowResults.data.resultData.error

/-- The row that `updateParentExecutionWithChildResults` leaves, or none where it does not update. -/
def updateParentExecutionWithChildResults (parent : ExecutionRow) (child : FinishedChild) :
    Except JsError (Option ExecutionRow) :=
  match getLastExecutedNodeData child.subworkflowResults with
  | .error error => .error error
  | .ok lastExecutedNodeData =>
    if child.error.isNone && (lastExecutedNodeData.bind ITaskData.data).isNone then .ok none
    else .ok ((childUpdate parent child.error lastExecutedNodeData child.childExecution).map parent.apply)

inductive Updated (parent : ExecutionRow) : List FinishedChild → ExecutionRow → Prop where
  | none : Updated parent [] parent
  | next (before : Updated parent children row)
      (update : updateParentExecutionWithChildResults row child = .ok (some updated)) :
      Updated parent (children ++ [child]) updated

variable {parent row updated : ExecutionRow} {children : List FinishedChild} {child last : FinishedChild}

def ExecutionRow.firstEntry (row : ExecutionRow) : Option IExecuteData :=
  row.data.nodeExecutionStack.bind List.head?

def ExecutionRow.resumeError (row : ExecutionRow) : Option ExecutionError := do
  (← (← row.firstEntry).metadata).resumeError

def ExecutionRow.subExecution (row : ExecutionRow) : Option RelatedExecution := do
  (← (← row.firstEntry).metadata).subExecution

def FinishedChild.HasOutput (child : FinishedChild) (output : ITaskDataConnections) : Prop :=
  ∃ task, getLastExecutedNodeData child.subworkflowResults = .ok (some task) ∧ task.data = some output

def failedEntry (entry : IExecuteData) (error : ExecutionError) (childExecution : Option RelatedExecution) :
    IExecuteData :=
  { entry with
    metadata := some { entry.metadata.getD {} with
      resumeError := some error
      subExecution := childExecution.or (entry.metadata.getD {}).subExecution } }

section

variable (update : updateParentExecutionWithChildResults row child = .ok (some updated))
include update

theorem update_cases :
    ∃ entry, row.firstEntry = some entry ∧
      ((child.error = none ∧ ∃ output, child.HasOutput output ∧
          updated.firstEntry = some { entry with data := output }) ∨
        ∃ error, child.error = some error ∧
          updated.firstEntry = some (failedEntry entry error child.childExecution)) := by
  unfold updateParentExecutionWithChildResults at update
  split at update
  · cases update
  next lastExecutedNodeData found =>
    split at update
    · cases update
    next reached =>
      simp only [Except.ok.injEq, Option.map_eq_some_iff] at update
      obtain ⟨execution, updates, rfl⟩ := update
      unfold childUpdate at updates
      split at updates
      · cases updates
      split at updates
      · cases updates
      · cases updates
      next entry rest stack =>
        refine ⟨entry, by simp [ExecutionRow.firstEntry, stack], ?_⟩
        simp only [Option.some.injEq] at updates
        subst updates
        cases failed : child.error with
        | some error => exact .inr ⟨error, rfl, rfl⟩
        | none =>
          left
          obtain ⟨task, rfl, has_data⟩ : ∃ task, lastExecutedNodeData = some task ∧ ¬ task.data = none := by
            simpa [failed] using reached
          obtain ⟨output, data⟩ := Option.ne_none_iff_exists'.1 has_data
          refine ⟨rfl, output, ⟨task, found, data⟩, ?_⟩
          simp [ExecutionRow.firstEntry, ExecutionRow.apply, data]

theorem resumeError_update :
    updated.resumeError = child.error.or row.resumeError := by
  obtain ⟨entry, first, ⟨succeeded, output, _, after⟩ | ⟨error, failed, after⟩⟩ := update_cases update
  · simp [ExecutionRow.resumeError, first, after, succeeded]
  · simp [ExecutionRow.resumeError, after, failed, failedEntry]

theorem subExecution_update :
    updated.subExecution =
      if child.error.isSome then child.childExecution.or row.subExecution else row.subExecution := by
  obtain ⟨entry, first, ⟨succeeded, output, _, after⟩ | ⟨error, failed, after⟩⟩ := update_cases update
  · simp [ExecutionRow.subExecution, first, after, succeeded]
  · cases metadata : entry.metadata <;>
      simp [ExecutionRow.subExecution, first, after, failed, failedEntry, metadata]

end

theorem resumeError_updated (run : Updated parent children row) :
    row.resumeError = none ↔ parent.resumeError = none ∧ ∀ child ∈ children, child.error = none := by
  induction run with
  | none => simp
  | next before update ih =>
    rw [resumeError_update update, Option.or_eq_none_iff, ih, List.forall_mem_append, List.forall_mem_singleton]
    tauto

theorem subExecution_updated (run : Updated parent children row) :
    row.subExecution = none ↔ parent.subExecution = none ∧
      ∀ child ∈ children, child.error.isSome → child.childExecution = none := by
  induction run with
  | none => simp
  | @next children row child updated before update ih =>
    rw [subExecution_update update, List.forall_mem_append, List.forall_mem_singleton, ← and_assoc, ← ih]
    split
    · next failed => simp [failed, and_comm]
    · next succeeded => simp [succeeded]

/-- The entry tells how the child ended. -/
def Reflects (row : ExecutionRow) (child : FinishedChild) : Prop :=
  match child.error with
  | none => (∃ entry, row.firstEntry = some entry ∧ child.HasOutput entry.data) ∧ row.resumeError = none
  | some error => row.resumeError = some error ∧ row.subExecution = child.childExecution

def NothingLeftBehind (parent : ExecutionRow) (children : List FinishedChild) (last : FinishedChild) : Prop :=
  match last.error with
  | none => parent.resumeError = none ∧ ∀ child ∈ children, child.error = none
  | some _ => last.childExecution = none → parent.subExecution = none ∧
      ∀ child ∈ children, child.error.isSome → child.childExecution = none

theorem updated_concat (run : Updated parent (children ++ [last]) updated) : ∃ row,
    Updated parent children row ∧ updateParentExecutionWithChildResults row last = .ok (some updated) := by
  generalize all : children ++ [last] = finished at run
  cases run with
  | none => simp at all
  | next before update =>
    obtain ⟨rfl, same⟩ := List.append_inj' all rfl
    cases same
    exact ⟨_, before, update⟩

/-- After children that each updated the waiting parent its entry tells how the last one ended, if and only
if nothing was left behind in the fields that this one does not write. -/
theorem reflects_last_iff (run : Updated parent (children ++ [last]) updated) :
    Reflects updated last ↔ NothingLeftBehind parent children last := by
  obtain ⟨row, before, update⟩ := updated_concat run
  have error_after := resumeError_update update
  have reference_after := subExecution_update update
  obtain ⟨entry, _, ⟨succeeded, output, is_output, after⟩ | ⟨error, failed, _⟩⟩ := update_cases update
  · have written : ∃ entry, updated.firstEntry = some entry ∧ last.HasOutput entry.data := ⟨_, after, is_output⟩
    rw [succeeded, Option.none_or] at error_after
    simp only [Reflects, NothingLeftBehind, succeeded, and_iff_right written, error_after]
    exact resumeError_updated before
  · rw [failed, Option.some_or] at error_after
    rw [failed, Option.isSome_some, if_pos rfl] at reference_after
    simp only [Reflects, NothingLeftBehind, failed, error_after, true_and, reference_after]
    rw [← subExecution_updated before]
    cases last.childExecution <;> simp

def answeringChild : FinishedChild := ⟨childAnswering "done", none⟩

def failedChild : FinishedChild where
  subworkflowResults := { data := { resultData := { error := some ⟨"NodeOperationError", "failed"⟩ } } }
  childExecution := some { executionId := "2", workflowId := "child" }

theorem answeringChild_reflected : ∃ updated, Updated waitingParent [answeringChild] updated ∧
    (Reflects updated answeringChild ↔ NothingLeftBehind waitingParent [] answeringChild) ∧
    NothingLeftBehind waitingParent [] answeringChild := by
  have run := @Updated.next waitingParent [] waitingParent answeringChild _ .none rfl
  exact ⟨_, run, reflects_last_iff run, rfl, by simp⟩

/-- The error of a child stays with the parent when another one succeeds behind it. -/
theorem failedChild_left_behind : ∃ updated, Updated waitingParent [failedChild, answeringChild] updated ∧
    ¬ Reflects updated answeringChild := by
  have first := @Updated.next waitingParent [] waitingParent failedChild _ .none rfl
  have run := @Updated.next waitingParent [failedChild] _ answeringChild _ first rfl
  exact ⟨_, run, fun reflects => absurd reflects.2 (by decide)⟩

end NodeAutomation.ParentResults
