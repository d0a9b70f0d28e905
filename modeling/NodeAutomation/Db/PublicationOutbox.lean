import NodeAutomation.Lib.IndexedTable
import NodeAutomation.Lib.Interleaving
import Mathlib.Data.List.MinMax

/-! The outbox of workflow publications
(`packages/@n8n/db/src/repositories/workflow-publication-outbox.repository.ts`). Times are in
milliseconds. -/

namespace NodeAutomation.PublicationOutbox

open Interleaving

variable {ω υ : Type} [DecidableEq ω]

inductive Status where
  | pending
  | inProgress
  | completed
  | partialSuccess
  | failed
  deriving DecidableEq

def Status.value : Status → String
  | pending => "pending"
  | inProgress => "in_progress"
  | completed => "completed"
  | partialSuccess => "partial_success"
  | failed => "failed"

structure Record (ω υ : Type) where
  workflowId : ω
  publishedVersionId : υ
  status : Status
  errorMessage : Option String := none
  updatedAt : Nat
  deriving DecidableEq

/-- `IDX_workflow_publication_outbox_active_workflow_status`. -/
def activeWorkflowStatus (record : Record ω υ) : Option (ω × Status) :=
  match record.status with
  | .pending | .inProgress => some (record.workflowId, record.status)
  | .completed | .partialSuccess | .failed => none

abbrev Table (ω υ : Type) := IndexedTable (activeWorkflowStatus (ω := ω) (υ := υ))

/-- What an operation throws. -/
inductive Failure where
  | uniqueConstraint
  | unexpected (message : String)
  | connection
  deriving DecidableEq

def enqueue (table : Table ω υ) (now : Nat) (workflowId : ω) (publishedVersionId : υ) : Table ω υ × Nat :=
  table.upsert (workflowId, .pending)
    { workflowId, publishedVersionId, status := .pending, updatedAt := now }
    (fun record => { record with publishedVersionId, updatedAt := now }) rfl (fun _ => rfl)

structure WorkflowEntity (ω υ : Type) where
  id : ω
  activeVersionId : Option υ
  isArchived : Bool

/-- Pending, and none of its workflow is in progress; or in progress, with its lease expired. -/
def claimable (table : Table ω υ) (leaseSeconds now : Nat) (record : Record ω υ) : Prop :=
  (record.status = .pending ∧
      ¬ ∃ entry ∈ table.rows.entries, entry.2.workflowId = record.workflowId ∧ entry.2.status = .inProgress) ∨
    (record.status = .inProgress ∧ record.updatedAt + leaseSeconds * 1000 < now)

instance (table : Table ω υ) (leaseSeconds now : Nat) (record : Record ω υ) :
    Decidable (claimable table leaseSeconds now record) :=
  inferInstanceAs (Decidable ((record.status = .pending ∧
      ¬ ∃ entry ∈ table.rows.entries, entry.2.workflowId = record.workflowId ∧ entry.2.status = .inProgress) ∨
    (record.status = .inProgress ∧ record.updatedAt + leaseSeconds * 1000 < now)))

def nextClaimable (table : Table ω υ) (leaseSeconds now : Nat) (locked : List Nat) : Option (Nat × Record ω υ) :=
  (table.rows.entries.filter fun entry =>
    entry.1 ∉ locked ∧ claimable table leaseSeconds now entry.2).argmin Prod.fst

def claimNextPendingRecord (table : Table ω υ) (leaseSeconds now : Nat) (locked : List Nat) :
    Table ω υ × Except Failure (Option (Nat × Record ω υ)) :=
  match nextClaimable table leaseSeconds now locked with
  | none => (table, .ok none)
  | some entry =>
    match table.update entry.1 (fun _ => true) ({ · with status := .inProgress, updatedAt := now }) with
    | none => (table, .error .uniqueConstraint)
    | some result => (result.1, .ok ((result.1.get entry.1).map fun record => (entry.1, record)))

/-- `update({ id, status: InProgress }, { status, errorMessage })`. -/
def updateInProgress (table : Table ω υ) (now id : Nat) (status : Status) (errorMessage : Option String) :
    Option (Table ω υ × Nat) :=
  table.update id (·.status = .inProgress) ({ · with status, errorMessage, updatedAt := now })

def assertSingleRowAffected (affected id : Nat) (target : Status) : Except Failure Unit :=
  let status := target.value
  if affected ≠ 1 then
    .error (.unexpected s!"Expected to transition outbox record {id} to '{status}', but {affected} rows were affected. The record may not be in progress.")
  else .ok ()

def mark (table : Table ω υ) (now id : Nat) (target : Status) (errorMessage : Option String) :
    Table ω υ × Except Failure Unit :=
  match updateInProgress table now id target errorMessage with
  | none => (table, .error .uniqueConstraint)
  | some result => (result.1, assertSingleRowAffected result.2 id target)

/-- How a consumer marks the record it has processed. -/
inductive Outcome where
  | completed
  | failed (errorMessage : String)
  | partialSuccess (errorMessage : String)
  deriving DecidableEq

def markCompleted (table : Table ω υ) (now id : Nat) := mark table now id .completed none

def markFailed (table : Table ω υ) (now id : Nat) (errorMessage : String) :=
  mark table now id .failed (some errorMessage)

def markPartialSuccess (table : Table ω υ) (now id : Nat) (errorMessage : String) :=
  mark table now id .partialSuccess (some errorMessage)

def markAs (table : Table ω υ) (now id : Nat) : Outcome → Table ω υ × Except Failure Unit
  | .completed => markCompleted table now id
  | .failed errorMessage => markFailed table now id errorMessage
  | .partialSuccess errorMessage => markPartialSuccess table now id errorMessage

def deleteInProgress (table : Table ω υ) (id : Nat) : Table ω υ :=
  table.deleteWhere fun other record => other = id && record.status = .inProgress

def Record.terminalOlderThan (record : Record ω υ) (now completedRetentionSeconds failedRetentionSeconds : Nat) : Prop :=
  (record.status = .completed ∧ record.updatedAt + completedRetentionSeconds * 1000 < now) ∨
    ((record.status = .failed ∨ record.status = .partialSuccess) ∧
      record.updatedAt + failedRetentionSeconds * 1000 < now)

omit [DecidableEq ω] in
instance (record : Record ω υ) (now completedRetentionSeconds failedRetentionSeconds : Nat) :
    Decidable (record.terminalOlderThan now completedRetentionSeconds failedRetentionSeconds) :=
  inferInstanceAs (Decidable ((record.status = .completed ∧ record.updatedAt + completedRetentionSeconds * 1000 < now) ∨
    ((record.status = .failed ∨ record.status = .partialSuccess) ∧
      record.updatedAt + failedRetentionSeconds * 1000 < now)))

/-- The batch is any `batchSize` rows that match; `picked` are those the database comes across
first. -/
def deleteTerminalOlderThan (table : Table ω υ)
    (now completedRetentionSeconds failedRetentionSeconds batchSize : Nat) (picked : List Nat) : Table ω υ :=
  let batch := (picked.filter fun id => (table.get id).any fun record =>
    record.terminalOlderThan now completedRetentionSeconds failedRetentionSeconds).take batchSize
  table.deleteWhere fun id record =>
    id ∈ batch && record.terminalOlderThan now completedRetentionSeconds failedRetentionSeconds

inductive Operation (ω υ : Type) where
  | enqueue (workflowId : ω) (publishedVersionId : υ)
  | enqueueAllActiveWorkflows
  | claimNextPendingRecord
  | returnToPending (id : Nat)
  | mark (id : Nat) (outcome : Outcome)
  | deleteTerminalOlderThan (completedRetentionSeconds failedRetentionSeconds batchSize : Nat)
  deriving DecidableEq

/-- The statement that an operation waits for; `superseded` is the deletion of a record that
could not be returned. -/
inductive Stage (ω υ : Type) where
  | issued (operation : Operation ω υ)
  | superseded (id : Nat)
  | returned (result : Except Failure (Option (Nat × Record ω υ)))

/-- The log tells which record each enqueue has written, and which records were marked. -/
inductive Event (ω υ : Type) where
  | enqueued (id : Nat) (workflowId : ω) (publishedVersionId : υ)
  | finished (id : Nat)

structure Shared (ω υ : Type) [DecidableEq ω] where
  table : Table ω υ := ∅
  workflows : List (WorkflowEntity ω υ) := []
  log : List (Event ω υ) := []

/-- A statement is executed at a time of the database, and its answer may be lost; or it fails
without an effect. -/
inductive Reply where
  | executed (now : Nat) (locked picked : List Nat) (answered : Bool)
  | failed
  deriving DecidableEq

inductive EnvironmentEvent (ω υ : Type) where
  | workflowsChange (workflows : List (WorkflowEntity ω υ))

def Shared.enqueue (s : Shared ω υ) (now : Nat) (workflowId : ω) (publishedVersionId : υ) : Shared ω υ :=
  let result := PublicationOutbox.enqueue s.table now workflowId publishedVersionId
  { s with table := result.1, log := s.log ++ [.enqueued result.2 workflowId publishedVersionId] }

def Shared.enqueueAllActiveWorkflows (s : Shared ω υ) (now : Nat) : Shared ω υ :=
  s.workflows.foldl (fun s workflow =>
    match workflow.activeVersionId, workflow.isArchived with
    | some activeVersionId, false => s.enqueue now workflow.id activeVersionId
    | _, _ => s) s

def Shared.mark (s : Shared ω υ) (now id : Nat) (outcome : Outcome) : Shared ω υ × Except Failure Unit :=
  let result := markAs s.table now id outcome
  match result.2 with
  | .ok _ => ({ s with table := result.1, log := s.log ++ [.finished id] }, result.2)
  | .error _ => ({ s with table := result.1 }, result.2)

def execute (leaseSeconds : Nat) (s : Shared ω υ) (now : Nat) (locked picked : List Nat) :
    Operation ω υ → Shared ω υ × Stage ω υ
  | .enqueue workflowId publishedVersionId =>
    (s.enqueue now workflowId publishedVersionId, .returned (.ok none))
  | .enqueueAllActiveWorkflows => (s.enqueueAllActiveWorkflows now, .returned (.ok none))
  | .claimNextPendingRecord =>
    let result := claimNextPendingRecord s.table leaseSeconds now locked
    ({ s with table := result.1 }, .returned result.2)
  | .returnToPending id =>
    match updateInProgress s.table now id .pending none with
    | some result => ({ s with table := result.1 }, .returned (.ok none))
    | none => (s, .superseded id)
  | .mark id outcome =>
    let result := s.mark now id outcome
    (result.1, .returned (result.2.map fun _ => none))
  | .deleteTerminalOlderThan completedRetentionSeconds failedRetentionSeconds batchSize =>
    ({ s with
      table := deleteTerminalOlderThan s.table now completedRetentionSeconds failedRetentionSeconds
        batchSize picked },
      .returned (.ok none))

def proceed (leaseSeconds : Nat) (s : Shared ω υ) (_ : Nat) (stage : Stage ω υ) (reply : Reply) :
    Shared ω υ × Stage ω υ :=
  match stage, reply with
  | .returned result, _ => (s, .returned result)
  | .issued _, .failed | .superseded _, .failed => (s, .returned (.error .connection))
  | .issued operation, .executed now locked picked answered =>
    let result := execute leaseSeconds s now locked picked operation
    (result.1, if answered then result.2 else .returned (.error .connection))
  | .superseded id, .executed _ _ _ answered =>
    ({ s with table := deleteInProgress s.table id },
      .returned (if answered then .ok none else .error .connection))

def system (leaseSeconds : Nat) :
    System (Shared ω υ) (Stage ω υ) (Operation ω υ) Reply (EnvironmentEvent ω υ) where
  invoke s _ operation := (s, .issued operation)
  proceed := proceed leaseSeconds
  environment s
    | .workflowsChange workflows => { s with workflows }

end NodeAutomation.PublicationOutbox
