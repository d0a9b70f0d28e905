import NodeAutomation.Cli.ActiveExecutions
import NodeAutomation.Lib.Interleaving
import Mathlib.Data.List.Sort

/-! Executions in queue mode: `WorkflowRunner.run` writes the row of an execution and then adds
its job (`packages/cli/src/workflow-runner.ts`), workers process jobs
(`packages/cli/src/scaling/job-processor.ts`), and the leader marks executions without a job as
crashed (`packages/cli/src/scaling/scaling.service.ts`). Executions and jobs are known by the
order in which they were made. -/

namespace NodeAutomation.QueueRecovery

open ActiveExecutions (ExecutionStatus)
open Interleaving

structure ExecutionRow where
  status : ExecutionStatus
  startedAt : Option Nat := none
  deriving DecidableEq

inductive JobStatus where
  | waiting
  | active (worker : Nat)
  | finished
  deriving DecidableEq

structure Job where
  executionId : Nat
  status : JobStatus := .waiting
  deriving DecidableEq

inductive RunEnd where
  | success | error | canceled | waiting
  deriving DecidableEq

def RunEnd.status : RunEnd → ExecutionStatus
  | success => .success
  | error => .error
  | canceled => .canceled
  | waiting => .waiting

/-- The executions table, the queue, the clock, and the calls of `run` that have written the
row of an execution and have still to add its job. -/
structure Shared where
  rows : List ExecutionRow := []
  jobs : List Job := []
  clock : Nat := 0
  adding : List (Nat × Nat) := []
  deriving DecidableEq

structure Settings where
  batchSize : Nat
  /-- Where the database sorts the rows that have not started. -/
  nullsFirst : Bool

namespace Shared

def status (s : Shared) (id : Nat) : Option ExecutionStatus := s.rows[id]?.map ExecutionRow.status

def setStatus (s : Shared) (id : Nat) (status : ExecutionStatus) : Shared :=
  { s with rows := s.rows.modify id ({ · with status }) }

def setJob (s : Shared) (job : Nat) (status : JobStatus) : Shared :=
  { s with jobs := s.jobs.modify job ({ · with status }) }

/-- The executions of the jobs that `findJobsByStatus(['active', 'waiting'])` returns. -/
def queuedIds (s : Shared) : List Nat :=
  (s.jobs.filter fun job => job.status ≠ .finished).map Job.executionId

def liveIds (s : Shared) : List Nat := s.queuedIds ++ s.adding.map Prod.snd

/-- `updateExistingExecution` at the end of a run, under `requireNotCanceled`. -/
def saveEnd (s : Shared) (id : Nat) (ended : RunEnd) : Shared :=
  if s.status id = some .canceled then s else s.setStatus id ended.status

/-- `ExecutionRepository.setRunning`. -/
def setRunning (s : Shared) (id : Nat) : Shared :=
  { s with
    rows := s.rows.modify id fun row =>
      { status := .running, startedAt := row.startedAt.or (some s.clock) } }

end Shared

def startedAtDesc (nullsFirst : Bool) : Option Nat → Option Nat → Bool
  | none, none => true
  | none, some _ => nullsFirst
  | some _, none => !nullsFirst
  | some a, some b => b ≤ a

def getInProgressExecutionIds (settings : Settings) (s : Shared) : List Nat :=
  let inProgress := s.rows.zipIdx.filter fun (row, _) => row.status = .new ∨ row.status = .running
  let sorted := inProgress.insertionSort fun (row, _) (row', _) =>
    startedAtDesc settings.nullsFirst row.startedAt row'.startedAt
  (sorted.take settings.batchSize).map Prod.snd

def crashable : ExecutionStatus → Bool
  | .new | .running | .unknown => true
  | .canceled | .crashed | .error | .success | .waiting => false

def maxUpdateBatchSize : Nat := 900

/-- One update of `ExecutionRepository.markAsCrashed`. -/
def markBatch (s : Shared) (ids : List Nat) : Shared :=
  { s with
    rows := s.rows.mapIdx fun id row =>
      if id ∈ ids ∧ crashable row.status then { row with status := .crashed } else row }

/-- `run` for a new execution or for a waiting one, a worker that takes a job, a recovery. -/
inductive Invocation where
  | run (restartExecutionId : Option Nat)
  | processJob (job : Nat)
  | recoverFromQueue
  deriving DecidableEq

/-- What a call is suspended at. -/
inductive Stage where
  | creating
  | restarting (id : Nat)
  | adding (id : Nat)
  | failing (id : Nat)
  | finding (job id : Nat)
  | starting (job id : Nat)
  | executing (job id : Nat)
  | completing (job : Nat)
  | readingIds
  | readingJobs (storedIds : List Nat)
  | marking (danglingIds : List Nat)
  | done
  deriving DecidableEq

/-- What a call has waited for: a statement, one that throws, or the end of a workflow. A
worker may also die, which puts its job back. -/
inductive Reply where
  | ok
  | thrown
  | died
  | ended (runEnd : RunEnd)
  deriving DecidableEq

/-- A job that waits is removed; a stop or an error handler saves the end of an execution;
time passes. -/
inductive Event where
  | jobRemoved (job : Nat)
  | endSaved (id : Nat) (ended : RunEnd)
  | timePasses (elapsed : Nat)
  deriving DecidableEq

def invoke (s : Shared) (number : Nat) : Invocation → Shared × Stage
  | .run none => (s, .creating)
  | .run (some id) => (s, .restarting id)
  | .processJob job =>
    match s.jobs[job]? with
    | some ⟨id, .waiting⟩ => (s.setJob job (.active number), .finding job id)
    | some ⟨_, .active _⟩ | some ⟨_, .finished⟩ | none => (s, .done)
  | .recoverFromQueue => (s, .readingIds)

/-- The rest of `markAsCrashed`, once a batch is marked. -/
def markRest (danglingIds : List Nat) : Stage :=
  if danglingIds.isEmpty then .done else .marking danglingIds

def Shared.leaveJob (s : Shared) (job : Nat) : Reply → Option Shared
  | .ok | .ended _ => none
  | .thrown => some (s.setJob job .finished)
  | .died => some (s.setJob job .waiting)

def proceed (settings : Settings) (s : Shared) (number : Nat) (stage : Stage) (reply : Reply) :
    Shared × Stage :=
  match stage with
  | .creating =>
    match reply with
    | .thrown | .died => (s, .done)
    | .ok | .ended _ =>
      let id := s.rows.length
      ({ s with rows := s.rows ++ [{ status := .new }], adding := (number, id) :: s.adding }, .adding id)
  | .restarting id =>
    match reply with
    | .thrown | .died => (s, .done)
    | .ok | .ended _ =>
      -- the conditional update of `ActiveExecutions.add`
      if s.status id = some .waiting then
        ({ s.setStatus id .running with adding := (number, id) :: s.adding }, .adding id)
      else (s, .done)
  | .adding id =>
    let adding := s.adding.filter fun entry => entry.1 ≠ number
    match reply with
    | .thrown => ({ s with adding }, .failing id)
    | .died => ({ s with adding }, .done)
    | .ok | .ended _ => ({ s with jobs := s.jobs ++ [{ executionId := id }], adding }, .done)
  | .failing id => (s.saveEnd id .error, .done)
  | .finding job id =>
    match s.leaveJob job reply with
    | some left => (left, .done)
    | none => if s.status id = some .crashed then (s, .completing job) else (s, .starting job id)
  | .starting job id =>
    match s.leaveJob job reply with
    | some left => (left, .done)
    | none => (s.setRunning id, .executing job id)
  | .executing job id =>
    match s.leaveJob job reply, reply with
    | some left, _ => (left, .done)
    | none, .ended runEnd => (s.saveEnd id runEnd, .completing job)
    | none, _ => (s, .executing job id)
  | .completing job =>
    match s.leaveJob job reply with
    | some left => (left, .done)
    | none => (s.setJob job .finished, .done)
  | .readingIds =>
    match getInProgressExecutionIds settings s with
    | [] => (s, .done)
    | storedIds => (s, .readingJobs storedIds)
  | .readingJobs storedIds => (s, markRest (storedIds.filter fun id => id ∉ s.queuedIds))
  | .marking danglingIds =>
    (markBatch s (danglingIds.take maxUpdateBatchSize), markRest (danglingIds.drop maxUpdateBatchSize))
  | .done => (s, .done)

def environment (s : Shared) : Event → Shared
  | .jobRemoved job =>
    if s.jobs[job]?.map Job.status = some .waiting then s.setJob job .finished else s
  | .endSaved id ended => s.saveEnd id ended
  | .timePasses elapsed => { s with clock := s.clock + elapsed }

def system (settings : Settings) : System Shared Stage Invocation Reply Event where
  invoke := invoke
  proceed := proceed settings
  environment := environment

/-- The step crashes no execution that has a job in the queue or will still get one. -/
def KeepsLive (s s' : Shared) : Prop :=
  ∀ id ∈ s.liveIds, s'.status id = some .crashed → s.status id = some .crashed

def NotSkipped (s : Shared) : Stage → Prop
  | .finding _ id => s.status id ≠ some .crashed
  | _ => True

def Safe (settings : Settings) (config : Config Shared Stage) (action : Action Invocation Reply Event) :
    Prop :=
  KeepsLive config.shared ((system settings).next config action).shared ∧
    match action with
    | .proceed number _ => ∀ stage ∈ config.calls[number]?, NotSkipped config.shared stage
    | .invoke _ | .environment _ => True

instance (s s' : Shared) : Decidable (KeepsLive s s') :=
  inferInstanceAs (Decidable (∀ id ∈ s.liveIds, _ → _))

instance (s : Shared) : DecidablePred (NotSkipped s)
  | .finding _ id => inferInstanceAs (Decidable (s.status id ≠ some .crashed))
  | .creating | .restarting _ | .adding _ | .failing _ | .starting _ _ | .executing _ _
  | .completing _ | .readingIds | .readingJobs _ | .marking _ | .done => isTrue trivial

instance (settings : Settings) (config : Config Shared Stage) : DecidablePred (Safe settings config)
  | .proceed number _ =>
    inferInstanceAs (Decidable (_ ∧ ∀ stage ∈ config.calls[number]?, NotSkipped config.shared stage))
  | .invoke _ | .environment _ => inferInstanceAs (Decidable (_ ∧ True))

def Stage.danglingIds : Stage → List Nat
  | .marking danglingIds => danglingIds
  | _ => []

def Stage.ClosedAt (config : Config Shared Stage) (reply : Reply) : Stage → Prop
  | .readingJobs storedIds =>
    ∀ id ∈ storedIds, id ∈ config.shared.adding.map Prod.snd → id ∈ config.shared.queuedIds
  | .restarting id =>
    reply ≠ .thrown ∧ reply ≠ .died ∧ config.shared.status id = some .waiting →
      ∀ call ∈ config.calls, id ∉ call.danglingIds
  | _ => True

/-- No run is between its row and its job when a recovery that has read its id reads the
queue, and none restarts an execution that a recovery is about to mark. -/
def WindowClosed (config : Config Shared Stage) : Action Invocation Reply Event → Prop
  | .proceed number reply => ∀ stage ∈ config.calls[number]?, stage.ClosedAt config reply
  | .invoke _ | .environment _ => True

instance (config : Config Shared Stage) (reply : Reply) : DecidablePred (Stage.ClosedAt config reply)
  | .readingJobs storedIds => inferInstanceAs (Decidable (∀ id ∈ storedIds, _ → _))
  | .restarting _ => inferInstanceAs (Decidable (_ → ∀ call ∈ config.calls, _))
  | .creating | .adding _ | .failing _ | .finding _ _ | .starting _ _ | .executing _ _
  | .completing _ | .readingIds | .marking _ | .done => isTrue trivial

instance (config : Config Shared Stage) : DecidablePred (WindowClosed config)
  | .proceed number reply =>
    inferInstanceAs (Decidable (∀ stage ∈ config.calls[number]?, stage.ClosedAt config reply))
  | .invoke _ | .environment _ => isTrue trivial

variable {settings : Settings} {s s' : Shared} {number : Nat} {stage : Stage} {reply : Reply}

theorem status_setStatus (s : Shared) (id other : Nat) (status : ExecutionStatus) :
    (s.setStatus id status).status other =
      if id = other then (s.status other).map fun _ => status else s.status other := by
  rw [Shared.status, Shared.setStatus, List.getElem?_modify, Shared.status]
  cases s.rows[other]? with
  | none => split <;> rfl
  | some row => split <;> rfl

theorem crashed_of_setStatus {id other : Nat} {status : ExecutionStatus} (notCrashed : status ≠ .crashed)
    (crashed : (s.setStatus id status).status other = some .crashed) :
    s.status other = some .crashed := by
  rw [status_setStatus] at crashed
  split at crashed
  · cases found : s.status other with
    | none => rw [found] at crashed; exact crashed
    | some old =>
      rw [found] at crashed
      exact absurd (Option.some.inj crashed) notCrashed
  · exact crashed

theorem RunEnd.status_ne_crashed (ended : RunEnd) : ended.status ≠ .crashed := by
  cases ended <;> decide

theorem crashed_of_saveEnd {id other : Nat} {ended : RunEnd}
    (crashed : (s.saveEnd id ended).status other = some .crashed) : s.status other = some .crashed := by
  rw [Shared.saveEnd] at crashed
  split at crashed
  · exact crashed
  · exact crashed_of_setStatus ended.status_ne_crashed crashed

theorem crashed_of_setRunning {id other : Nat}
    (crashed : (s.setRunning id).status other = some .crashed) : s.status other = some .crashed := by
  rw [Shared.status, Shared.setRunning, List.getElem?_modify] at crashed
  rw [Shared.status]
  cases found : s.rows[other]? with
  | none => rw [found] at crashed; exact crashed
  | some row =>
    simp only [found, Option.map_eq_map, Option.map_some] at crashed
    split at crashed
    · exact absurd crashed (by simp)
    · exact crashed

theorem crashed_of_markBatch {ids : List Nat} {other : Nat}
    (crashed : (markBatch s ids).status other = some .crashed) :
    other ∈ ids ∨ s.status other = some .crashed := by
  rw [Shared.status, markBatch, List.getElem?_mapIdx] at crashed
  rw [Shared.status]
  cases found : s.rows[other]? with
  | none => rw [found] at crashed; exact absurd crashed (by simp)
  | some row =>
    rw [found] at crashed
    simp only [Option.map_some] at crashed ⊢
    split at crashed
    case isTrue marked => exact .inl marked.1
    case isFalse => exact .inr crashed

variable {id : Nat}

theorem mem_queuedIds :
    id ∈ s.queuedIds ↔ ∃ (job : Nat) (status : JobStatus),
      s.jobs[job]? = some ⟨id, status⟩ ∧ status ≠ .finished := by
  rw [Shared.queuedIds, List.mem_map]
  refine ⟨fun ⟨job, member, same⟩ => ?_, fun ⟨job, status, found, unfinished⟩ => ?_⟩
  · obtain ⟨known, unfinished⟩ := List.mem_filter.1 member
    obtain ⟨index, found⟩ := List.mem_iff_getElem?.1 known
    exact ⟨index, job.status, by rw [found, ← same], of_decide_eq_true unfinished⟩
  · exact ⟨_, List.mem_filter.2 ⟨List.mem_of_getElem? found, decide_eq_true unfinished⟩, rfl⟩

theorem getElem?_setJob (s : Shared) (job other : Nat) (status : JobStatus) :
    (s.setJob job status).jobs[other]? =
      if job = other then s.jobs[other]?.map ({ · with status }) else s.jobs[other]? := by
  rw [Shared.setJob, List.getElem?_modify]
  cases s.jobs[other]? with
  | none => split <;> rfl
  | some row => split <;> rfl

theorem getElem?_setJob_ne {job other : Nat} (apart : job ≠ other) (status : JobStatus) :
    (s.setJob job status).jobs[other]? = s.jobs[other]? := by
  rw [getElem?_setJob, if_neg apart]

theorem getElem?_setJob_self {job id : Nat} {old : JobStatus}
    (found : s.jobs[job]? = some ⟨id, old⟩) (status : JobStatus) :
    (s.setJob job status).jobs[job]? = some ⟨id, status⟩ := by
  rw [getElem?_setJob, if_pos rfl, found]
  rfl

theorem queued_of_setJob {job id id' : Nat} {old status : JobStatus}
    (found : s.jobs[job]? = some ⟨id, old⟩) (unfinished : old ≠ .finished)
    (queued : id' ∈ (s.setJob job status).queuedIds) : id' ∈ s.queuedIds := by
  obtain ⟨other, status', found', unfinished'⟩ := mem_queuedIds.1 queued
  by_cases same : job = other
  · rw [← same, getElem?_setJob_self found] at found'
    rw [mem_queuedIds]
    refine ⟨job, old, ?_, unfinished⟩
    rw [found, (Job.mk.inj (Option.some.inj found')).1]
  · rw [getElem?_setJob_ne same] at found'
    exact mem_queuedIds.2 ⟨other, status', found', unfinished'⟩

theorem leaveJob_eq {job : Nat} {left : Shared} (leaves : s.leaveJob job reply = some left) :
    ∃ status, left = s.setJob job status := by
  cases reply with
  | ok => exact absurd leaves (by simp [Shared.leaveJob])
  | ended ended => exact absurd leaves (by simp [Shared.leaveJob])
  | thrown => exact ⟨.finished, (Option.some.inj leaves).symm⟩
  | died => exact ⟨.waiting, (Option.some.inj leaves).symm⟩

/-- A worker holds the job it works on; what a recovery is about to mark has no job and gets none. -/
def StageKnown (s : Shared) (number : Nat) : Stage → Prop
  | .adding id => (number, id) ∈ s.adding
  | .finding job id | .starting job id | .executing job id => s.jobs[job]? = some ⟨id, .active number⟩
  | .completing job => ∃ id, s.jobs[job]? = some ⟨id, .active number⟩
  | .readingJobs storedIds => ∀ id ∈ storedIds, id < s.rows.length
  | .marking danglingIds => ∀ id ∈ danglingIds, id < s.rows.length ∧ id ∉ s.liveIds
  | _ => True

def LiveUncrashed (s : Shared) (_ : Nat) : Prop := ∀ id ∈ s.liveIds, s.status id ≠ some .crashed

/-- What a step of one call leaves the others. -/
structure Frame (number : Nat) (s s' : Shared) : Prop where
  rows : s.rows.length ≤ s'.rows.length
  jobs : ∀ job id worker : Nat, worker ≠ number → s.jobs[job]? = some ⟨id, .active worker⟩ →
    s'.jobs[job]? = some ⟨id, .active worker⟩
  adding : ∀ entry ∈ s.adding, entry.1 ≠ number → entry ∈ s'.adding

theorem Frame.refl (number : Nat) (s : Shared) : Frame number s s :=
  ⟨Nat.le_refl _, fun _ _ _ _ found => found, fun _ member _ => member⟩

theorem frame_rows {f : ExecutionRow → ExecutionRow} (id : Nat) :
    Frame number s { s with rows := s.rows.modify id f } :=
  ⟨Nat.le_of_eq (List.length_modify f s.rows id).symm, fun _ _ _ _ found => found, fun _ member _ => member⟩

theorem frame_saveEnd (id : Nat) (ended : RunEnd) : Frame number s (s.saveEnd id ended) := by
  rw [Shared.saveEnd]
  split
  · exact Frame.refl number s
  · exact frame_rows id

theorem frame_setJob {job id : Nat} {old : JobStatus} (found : s.jobs[job]? = some ⟨id, old⟩)
    (own : ∀ worker, worker ≠ number → old ≠ .active worker) (status : JobStatus) :
    Frame number s (s.setJob job status) where
  rows := Nat.le_refl _
  jobs other id' worker apart found' := by
    have distinct : job ≠ other := by
      intro same
      rw [← same, found] at found'
      exact own worker apart (Job.mk.inj (Option.some.inj found')).2
    rw [getElem?_setJob_ne distinct]
    exact found'
  adding _ member _ := member

theorem own_active {worker : Nat} (apart : worker ≠ number) : JobStatus.active number ≠ .active worker :=
  fun same => apart (JobStatus.active.inj same).symm

theorem frame_leaveJob {job id : Nat} {left : Shared}
    (found : s.jobs[job]? = some ⟨id, .active number⟩) (leaves : s.leaveJob job reply = some left) :
    Frame number s left := by
  obtain ⟨status, same⟩ := leaveJob_eq leaves
  rw [same]
  exact frame_setJob found (fun _ apart => own_active apart) status

theorem frame_adding {adding : List (Nat × Nat)}
    (kept : ∀ entry ∈ s.adding, entry.1 ≠ number → entry ∈ adding) :
    Frame number s { s with adding } :=
  ⟨Nat.le_refl _, fun _ _ _ _ found => found, kept⟩

theorem frame_jobs (s : Shared) (job : Job) : Frame number s { s with jobs := s.jobs ++ [job] } where
  rows := Nat.le_refl _
  jobs other id worker _ found := by
    rw [List.getElem?_append_left (List.getElem?_eq_some_iff.1 found).1]
    exact found
  adding _ member _ := member

theorem frame_concat (s : Shared) (row : ExecutionRow) :
    Frame number s { s with rows := s.rows ++ [row] } where
  rows := by
    rw [List.length_append]
    exact Nat.le_add_right _ _
  jobs _ _ _ _ found := found
  adding _ member _ := member

theorem Frame.trans {first second third : Shared} (h : Frame number first second)
    (h' : Frame number second third) : Frame number first third where
  rows := Nat.le_trans h.rows h'.rows
  jobs job id worker apart found := h'.jobs job id worker apart (h.jobs job id worker apart found)
  adding entry member apart := h'.adding entry (h.adding entry member apart) apart

theorem kept_filter {adding : List (Nat × Nat)} :
    ∀ entry ∈ adding, entry.1 ≠ number → entry ∈ adding.filter fun entry => entry.1 ≠ number :=
  fun _ member apart => List.mem_filter.2 ⟨member, decide_eq_true apart⟩

theorem length_markBatch (s : Shared) (ids : List Nat) : (markBatch s ids).rows.length = s.rows.length :=
  List.length_mapIdx

theorem frame_markBatch (ids : List Nat) : Frame number s (markBatch s ids) where
  rows := Nat.le_of_eq (length_markBatch s ids).symm
  jobs _ _ _ _ found := found
  adding _ member _ := member

theorem proceed_frame (known : StageKnown s number stage) :
    Frame number s (proceed settings s number stage reply).1 := by
  have refl := Frame.refl number s
  have dropped : Frame number s { s with adding := s.adding.filter fun entry => entry.1 ≠ number } :=
    frame_adding kept_filter
  cases stage with
  | creating =>
    have created : Frame number s
        { s with rows := s.rows ++ [{ status := .new }], adding := (number, s.rows.length) :: s.adding } :=
      (frame_concat s _).trans (frame_adding fun _ member _ => List.mem_cons_of_mem _ member)
    cases reply with
    | thrown => exact refl
    | died => exact refl
    | ok => exact created
    | ended => exact created
  | restarting id =>
    have restarted : Frame number s { s.setStatus id .running with adding := (number, id) :: s.adding } :=
      (frame_rows id).trans (frame_adding fun _ member _ => List.mem_cons_of_mem _ member)
    cases reply with
    | thrown => exact refl
    | died => exact refl
    | ok | ended =>
      simp only [proceed]
      split
      · exact restarted
      · exact refl
  | adding id =>
    cases reply with
    | thrown => exact dropped
    | died => exact dropped
    | ok => exact dropped.trans (frame_jobs _ _)
    | ended => exact dropped.trans (frame_jobs _ _)
  | failing id => exact frame_saveEnd id .error
  | finding job id =>
    simp only [proceed]
    split
    case h_1 left leaves => exact frame_leaveJob known leaves
    case h_2 =>
      split
      · exact refl
      · exact refl
  | starting job id =>
    simp only [proceed]
    split
    case h_1 left leaves => exact frame_leaveJob known leaves
    case h_2 => exact frame_rows id
  | executing job id =>
    simp only [proceed]
    split
    case h_1 left leaves => exact frame_leaveJob known leaves
    case h_2 ended _ => exact frame_saveEnd id ended
    case h_3 => exact refl
  | completing job =>
    obtain ⟨id, found⟩ := known
    simp only [proceed]
    split
    case h_1 left leaves => exact frame_leaveJob found leaves
    case h_2 => exact frame_setJob found (fun _ apart => own_active apart) .finished
  | readingIds =>
    simp only [proceed]
    split
    · exact refl
    · exact refl
  | readingJobs storedIds => exact refl
  | marking danglingIds => exact frame_markBatch _
  | done => exact refl

theorem mem_liveIds :
    id ∈ s.liveIds ↔ id ∈ s.queuedIds ∨ ∃ number, (number, id) ∈ s.adding := by
  rw [Shared.liveIds, List.mem_append, List.mem_map]
  refine or_congr Iff.rfl ⟨fun ⟨entry, member, same⟩ => ?_, fun ⟨number, member⟩ => ⟨_, member, rfl⟩⟩
  exact ⟨entry.1, by rw [← same]; exact member⟩

theorem live_of (queued : id ∈ s'.queuedIds → id ∈ s.queuedIds)
    (adding : ∀ entry ∈ s'.adding, entry ∈ s.adding) (live : id ∈ s'.liveIds) : id ∈ s.liveIds := by
  rw [mem_liveIds] at live ⊢
  exact live.imp queued fun ⟨number, member⟩ => ⟨number, adding _ member⟩

theorem live_of_dropped {p : Nat × Nat → Bool}
    (live : id ∈ ({ s with adding := s.adding.filter p } : Shared).liveIds) : id ∈ s.liveIds := by
  rw [mem_liveIds] at live ⊢
  exact live.imp_right fun ⟨number, member⟩ => ⟨number, List.mem_of_mem_filter member⟩

theorem live_of_setJob {job id id' : Nat} {old status : JobStatus}
    (found : s.jobs[job]? = some ⟨id, old⟩) (unfinished : old ≠ .finished)
    (live : id' ∈ (s.setJob job status).liveIds) : id' ∈ s.liveIds :=
  live_of (queued_of_setJob found unfinished) (fun _ member => member) live

theorem live_of_leaveJob {job id id' : Nat} {left : Shared}
    (found : s.jobs[job]? = some ⟨id, .active number⟩) (leaves : s.leaveJob job reply = some left)
    (live : id' ∈ left.liveIds) : id' ∈ s.liveIds := by
  obtain ⟨status, same⟩ := leaveJob_eq leaves
  rw [same] at live
  exact live_of_setJob found (by simp) live

theorem live_of_saveEnd {id id' : Nat} {ended : RunEnd} (live : id' ∈ (s.saveEnd id ended).liveIds) :
    id' ∈ s.liveIds := by
  rw [Shared.saveEnd] at live
  split at live
  · exact live
  · exact live

theorem live_of_begin {id id' : Nat} {rows : List ExecutionRow}
    (live : id' ∈ ({ s with rows, adding := (number, id) :: s.adding } : Shared).liveIds) :
    id' ∈ s.liveIds ∨ id' = id := by
  rw [mem_liveIds] at live
  cases live with
  | inl queued => exact .inl (mem_liveIds.2 (.inl queued))
  | inr adding =>
    obtain ⟨other, member⟩ := adding
    cases List.mem_cons.1 member with
    | inl same => exact .inr (Prod.mk.inj same).2
    | inr old => exact .inl (mem_liveIds.2 (.inr ⟨other, old⟩))

theorem live_of_add {id id' : Nat} (known : (number, id) ∈ s.adding)
    (live : id' ∈ ({ s with
      jobs := s.jobs ++ [{ executionId := id }]
      adding := s.adding.filter fun entry => entry.1 ≠ number } : Shared).liveIds) :
    id' ∈ s.liveIds := by
  rw [mem_liveIds] at live ⊢
  cases live with
  | inl queued =>
    simp only [Shared.queuedIds, List.filter_append, List.map_append, List.mem_append] at queued ⊢
    cases queued with
    | inl old => exact .inl old
    | inr new =>
      have last : id' = id := by simpa using new
      rw [last]
      exact .inr ⟨number, known⟩
  | inr adding =>
    obtain ⟨other, member⟩ := adding
    exact .inr ⟨other, List.mem_of_mem_filter member⟩

/-- Where an execution becomes live: its row is new, or it is restarted. -/
def Begins (s : Shared) (id : Nat) (reply : Reply) : Stage → Prop
  | .creating => id = s.rows.length
  | .restarting id' => id = id' ∧ reply ≠ .thrown ∧ reply ≠ .died ∧ s.status id = some .waiting
  | _ => False

theorem proceed_live (known : StageKnown s number stage) {id : Nat}
    (live : id ∈ (proceed settings s number stage reply).1.liveIds) :
    id ∈ s.liveIds ∨ Begins s id reply stage := by
  cases stage with
  | creating =>
    cases reply with
    | thrown => exact .inl live
    | died => exact .inl live
    | ok => exact live_of_begin live
    | ended => exact live_of_begin live
  | restarting id' =>
    cases reply with
    | thrown => exact .inl live
    | died => exact .inl live
    | ok | ended =>
      simp only [proceed] at live
      split at live
      case isFalse => exact .inl live
      case isTrue waiting =>
        refine (live_of_begin live).imp_right fun same => ⟨same, by simp, by simp, ?_⟩
        rw [same]
        exact waiting
  | adding id' =>
    cases reply with
    | thrown => exact .inl (live_of_dropped live)
    | died => exact .inl (live_of_dropped live)
    | ok => exact .inl (live_of_add known live)
    | ended => exact .inl (live_of_add known live)
  | failing id' => exact .inl (live_of_saveEnd live)
  | finding job id' =>
    simp only [proceed] at live
    split at live
    case h_1 left leaves => exact .inl (live_of_leaveJob known leaves live)
    case h_2 =>
      split at live
      · exact .inl live
      · exact .inl live
  | starting job id' =>
    simp only [proceed] at live
    split at live
    case h_1 left leaves => exact .inl (live_of_leaveJob known leaves live)
    case h_2 => exact .inl live
  | executing job id' =>
    simp only [proceed] at live
    split at live
    case h_1 left leaves => exact .inl (live_of_leaveJob known leaves live)
    case h_2 => exact .inl (live_of_saveEnd live)
    case h_3 => exact .inl live
  | completing job =>
    obtain ⟨id', found⟩ := known
    simp only [proceed] at live
    split at live
    case h_1 left leaves => exact .inl (live_of_leaveJob found leaves live)
    case h_2 => exact .inl (live_of_setJob found (by simp) live)
  | readingIds =>
    simp only [proceed] at live
    split at live
    · exact .inl live
    · exact .inl live
  | readingJobs storedIds => exact .inl live
  | marking danglingIds => exact .inl live
  | done => exact .inl live

theorem crashed_of_concat {status : ExecutionStatus} (notCrashed : status ≠ .crashed)
    (crashed : ({ s with rows := s.rows ++ [{ status }] } : Shared).status id = some .crashed) :
    s.status id = some .crashed := by
  rw [Shared.status] at crashed ⊢
  by_cases old : id < s.rows.length
  · rwa [List.getElem?_append_left old] at crashed
  · rw [List.getElem?_append_right (Nat.le_of_not_lt old)] at crashed
    cases past : id - s.rows.length with
    | zero =>
      rw [past] at crashed
      exact absurd (Option.some.inj crashed) notCrashed
    | succ n =>
      rw [past] at crashed
      exact absurd crashed (by simp)

theorem crashed_of_leaveJob {job id : Nat} {left : Shared} (leaves : s.leaveJob job reply = some left)
    (crashed : left.status id = some .crashed) : s.status id = some .crashed := by
  obtain ⟨status, same⟩ := leaveJob_eq leaves
  rw [same] at crashed
  exact crashed

/-- Only a recovery crashes executions, those it has found dangling. -/
theorem proceed_crashed
    (crashed : (proceed settings s number stage reply).1.status id = some .crashed) :
    s.status id = some .crashed ∨ id ∈ stage.danglingIds := by
  cases stage with
  | creating =>
    cases reply with
    | thrown => exact .inl crashed
    | died => exact .inl crashed
    | ok => exact .inl (crashed_of_concat (by decide) crashed)
    | ended => exact .inl (crashed_of_concat (by decide) crashed)
  | restarting id' =>
    cases reply with
    | thrown => exact .inl crashed
    | died => exact .inl crashed
    | ok | ended =>
      simp only [proceed] at crashed
      split at crashed
      · exact .inl (crashed_of_setStatus (by decide) crashed)
      · exact .inl crashed
  | adding id' =>
    cases reply with
    | thrown => exact .inl crashed
    | died => exact .inl crashed
    | ok => exact .inl crashed
    | ended => exact .inl crashed
  | failing id' => exact .inl (crashed_of_saveEnd crashed)
  | finding job id' =>
    simp only [proceed] at crashed
    split at crashed
    case h_1 left leaves => exact .inl (crashed_of_leaveJob leaves crashed)
    case h_2 =>
      split at crashed
      · exact .inl crashed
      · exact .inl crashed
  | starting job id' =>
    simp only [proceed] at crashed
    split at crashed
    case h_1 left leaves => exact .inl (crashed_of_leaveJob leaves crashed)
    case h_2 => exact .inl (crashed_of_setRunning crashed)
  | executing job id' =>
    simp only [proceed] at crashed
    split at crashed
    case h_1 left leaves => exact .inl (crashed_of_leaveJob leaves crashed)
    case h_2 => exact .inl (crashed_of_saveEnd crashed)
    case h_3 => exact .inl crashed
  | completing job =>
    simp only [proceed] at crashed
    split at crashed
    case h_1 left leaves => exact .inl (crashed_of_leaveJob leaves crashed)
    case h_2 => exact .inl crashed
  | readingIds =>
    simp only [proceed] at crashed
    split at crashed
    · exact .inl crashed
    · exact .inl crashed
  | readingJobs storedIds => exact .inl crashed
  | marking danglingIds => exact (crashed_of_markBatch crashed).symm.imp_right List.mem_of_mem_take
  | done => exact .inl crashed

theorem StageKnown.frame {other : Nat} {otherStage : Stage} (known : StageKnown s other otherStage)
    (frame : Frame number s s') (apart : number ≠ other)
    (live : ∀ id ∈ otherStage.danglingIds, id ∈ s'.liveIds → id ∈ s.liveIds) :
    StageKnown s' other otherStage := by
  cases otherStage with
  | creating => trivial
  | restarting id => trivial
  | adding id => exact frame.adding _ known apart.symm
  | failing id => trivial
  | finding job id => exact frame.jobs job id other apart.symm known
  | starting job id => exact frame.jobs job id other apart.symm known
  | executing job id => exact frame.jobs job id other apart.symm known
  | completing job =>
    obtain ⟨id, found⟩ := known
    exact ⟨id, frame.jobs job id other apart.symm found⟩
  | readingIds => trivial
  | readingJobs storedIds => exact fun id member => Nat.lt_of_lt_of_le (known id member) frame.rows
  | marking danglingIds =>
    refine fun id member => ⟨Nat.lt_of_lt_of_le (known id member).1 frame.rows, fun now => ?_⟩
    exact (known id member).2 (live id member now)
  | done => trivial

theorem getInProgressExecutionIds_bound (member : id ∈ getInProgressExecutionIds settings s) :
    id < s.rows.length := by
  rw [getInProgressExecutionIds, List.mem_map] at member
  obtain ⟨⟨row, index⟩, taken, same⟩ := member
  have stored := (List.mem_filter.1 ((List.mem_insertionSort _).1 (List.mem_of_mem_take taken))).1
  have found := List.mem_zipIdx_iff_getElem?.1 stored
  rw [← same]
  exact (List.getElem?_eq_some_iff.1 found).1

theorem stageKnown_markRest {danglingIds : List Nat}
    (known : ∀ id ∈ danglingIds, id < s.rows.length ∧ id ∉ s.liveIds) :
    StageKnown s number (markRest danglingIds) := by
  rw [markRest]
  split
  · trivial
  · exact known

/-- A call that has made a step knows what it needs for the next one. -/
theorem proceed_known (known : StageKnown s number stage)
    (closed : ∀ storedIds, stage = .readingJobs storedIds →
      ∀ id ∈ storedIds, id ∈ s.adding.map Prod.snd → id ∈ s.queuedIds) :
    StageKnown (proceed settings s number stage reply).1 number
      (proceed settings s number stage reply).2 := by
  cases stage with
  | creating =>
    cases reply with
    | thrown => trivial
    | died => trivial
    | ok => exact List.mem_cons_self
    | ended => exact List.mem_cons_self
  | restarting id =>
    cases reply with
    | thrown => trivial
    | died => trivial
    | ok | ended =>
      simp only [proceed]
      split
      · exact List.mem_cons_self
      · trivial
  | adding id => cases reply <;> trivial
  | failing id => trivial
  | finding job id =>
    simp only [proceed]
    split
    · trivial
    · split
      · exact ⟨id, known⟩
      · exact known
  | starting job id =>
    simp only [proceed]
    split
    · trivial
    · exact known
  | executing job id =>
    simp only [proceed]
    split
    case h_1 => trivial
    case h_2 ended _ =>
      rw [Shared.saveEnd]
      split
      · exact ⟨id, known⟩
      · exact ⟨id, known⟩
    case h_3 => exact known
  | completing job =>
    simp only [proceed]
    split
    · trivial
    · trivial
  | readingIds =>
    simp only [proceed]
    split
    case h_1 => trivial
    case h_2 => exact fun id member => getInProgressExecutionIds_bound member
  | readingJobs storedIds =>
    refine stageKnown_markRest fun id member => ?_
    obtain ⟨stored, absent⟩ := List.mem_filter.1 member
    have notQueued := of_decide_eq_true absent
    refine ⟨known id stored, fun live => ?_⟩
    cases List.mem_append.1 live with
    | inl queued => exact notQueued queued
    | inr adding => exact notQueued (closed storedIds rfl id stored adding)
  | marking danglingIds =>
    refine stageKnown_markRest fun id member => ?_
    have before := known id (List.mem_of_mem_drop member)
    exact ⟨Nat.lt_of_lt_of_eq before.1 (length_markBatch s _).symm, before.2⟩
  | done => trivial

abbrev Sound (config : Config Shared Stage) : Prop := Holds LiveUncrashed StageKnown config

theorem invoke_status (s : Shared) (made : Nat) (call : Invocation) (id : Nat) :
    (invoke s made call).1.status id = s.status id := by
  unfold invoke
  split
  · rfl
  · rfl
  · split
    · rfl
    · rfl
    · rfl
    · rfl
  · rfl

theorem invoke_frame (s : Shared) (made : Nat) (call : Invocation) : Frame made s (invoke s made call).1 := by
  unfold invoke
  split
  · exact Frame.refl made s
  · exact Frame.refl made s
  · split
    case h_1 id found => exact frame_setJob found (by simp) _
    · exact Frame.refl made s
    · exact Frame.refl made s
    · exact Frame.refl made s
  · exact Frame.refl made s

theorem invoke_live {made : Nat} {call : Invocation}
    (live : id ∈ (invoke s made call).1.liveIds) : id ∈ s.liveIds := by
  unfold invoke at live
  split at live
  · exact live
  · exact live
  · split at live
    case h_1 id' found => exact live_of_setJob found (by simp) live
    · exact live
    · exact live
    · exact live
  · exact live

theorem invoke_known (s : Shared) (made : Nat) (call : Invocation) :
    StageKnown (invoke s made call).1 made (invoke s made call).2 := by
  unfold invoke
  split
  · trivial
  · trivial
  · split
    case h_1 id found => exact getElem?_setJob_self found _
    · trivial
    · trivial
    · trivial
  · trivial

theorem environment_frame (s : Shared) (event : Event) (number : Nat) :
    Frame number s (environment s event) := by
  cases event with
  | jobRemoved job =>
    rw [environment]
    split
    case isTrue waiting =>
      obtain ⟨⟨id, status⟩, found, same⟩ := Option.map_eq_some_iff.1 waiting
      exact frame_setJob found (fun _ _ active => absurd (same.symm.trans active) (by simp)) .finished
    case isFalse => exact Frame.refl number s
  | endSaved id ended => exact frame_saveEnd id ended
  | timePasses elapsed => exact ⟨Nat.le_refl _, fun _ _ _ _ found => found, fun _ member _ => member⟩

theorem environment_live {event : Event} (live : id ∈ (environment s event).liveIds) :
    id ∈ s.liveIds := by
  cases event with
  | jobRemoved job =>
    rw [environment] at live
    split at live
    case isTrue waiting =>
      obtain ⟨⟨id', status⟩, found, same⟩ := Option.map_eq_some_iff.1 waiting
      refine live_of_setJob found (fun finished => ?_) live
      exact absurd (same.symm.trans finished) (by simp)
    case isFalse => exact live
  | endSaved id' ended => exact live_of_saveEnd live
  | timePasses elapsed => exact live

theorem environment_crashed {event : Event}
    (crashed : (environment s event).status id = some .crashed) : s.status id = some .crashed := by
  cases event with
  | jobRemoved job =>
    rw [environment] at crashed
    split at crashed
    · exact crashed
    · exact crashed
  | endSaved id' ended => exact crashed_of_saveEnd crashed
  | timePasses elapsed => exact crashed

theorem sound_other {config : Config Shared Stage} {made : Nat} {number : Nat} {call : Stage}
    (sound : Sound config) (found : config.calls[number]? = some call)
    (frame : Frame made config.shared s') (apart : made ≠ number)
    (live : ∀ id ∈ s'.liveIds, id ∈ config.shared.liveIds) : StageKnown s' number call :=
  (sound.call number call found).frame frame apart fun id _ => live id

theorem liveUncrashed_other {made : Nat} (uncrashed : LiveUncrashed s made)
    (live : ∀ id ∈ s'.liveIds, id ∈ s.liveIds)
    (crashed : ∀ id, s'.status id = some .crashed → s.status id = some .crashed) :
    LiveUncrashed s' made :=
  fun id member now => uncrashed id (live id member) (crashed id now)

theorem begins_unmarked {config : Config Shared Stage} {call : Stage}
    (sound : Sound config) (closed : WindowClosed config (.proceed number reply))
    (found : config.calls[number]? = some stage) (begins : Begins config.shared id reply stage)
    (member : call ∈ config.calls) : id ∉ call.danglingIds := by
  cases stage with
  | creating =>
    obtain ⟨other, known⟩ := List.mem_iff_getElem?.1 member
    have bounds := sound.call other call known
    cases call with
    | marking danglingIds =>
      intro marked
      have bound := (bounds id marked).1
      rw [begins] at bound
      exact absurd bound (Nat.lt_irrefl _)
    | _ => exact List.not_mem_nil
  | restarting id' =>
    obtain ⟨same, succeeds⟩ := begins
    have here := closed _ found
    rw [same] at succeeds ⊢
    exact here succeeds call member
  | _ => exact absurd begins (fun never => never)

theorem begins_uncrashed (begins : Begins s id reply stage) :
    s.status id ≠ some .crashed := by
  cases stage with
  | creating =>
    change id = s.rows.length at begins
    rw [begins, Shared.status, List.getElem?_eq_none (Nat.le_refl _)]
    simp
  | restarting id' =>
    rw [begins.2.2.2]
    simp
  | _ => exact absurd begins (fun never => never)

section

variable (known : StageKnown s number stage)
include known

theorem proceed_keepsLive :
    KeepsLive s (proceed settings s number stage reply).1 := by
  intro id live crashed
  cases proceed_crashed crashed with
  | inl before => exact before
  | inr marked =>
    cases stage with
    | marking danglingIds => exact absurd live (known id marked).2
    | _ => exact absurd marked List.not_mem_nil

theorem notSkipped (uncrashed : LiveUncrashed s 0) :
    NotSkipped s stage := by
  cases stage with
  | finding job id =>
    refine uncrashed id (mem_liveIds.2 (.inl (mem_queuedIds.2 ⟨job, .active number, known, ?_⟩)))
    simp
  | _ => trivial

theorem liveUncrashed_proceed {made : Nat}
    (uncrashed : LiveUncrashed s made) :
    LiveUncrashed (proceed settings s number stage reply).1 made := by
  intro id live crashed
  cases proceed_live known live with
  | inl before => exact uncrashed id before (proceed_keepsLive known id before crashed)
  | inr begins =>
    cases proceed_crashed crashed with
    | inl before => exact begins_uncrashed begins before
    | inr marked =>
      cases stage with
      | marking danglingIds => exact begins
      | _ => exact absurd marked List.not_mem_nil

end

theorem safe_step (settings : Settings) (config : Config Shared Stage)
    (action : Action Invocation Reply Event) (sound : Sound config)
    (closed : WindowClosed config action) :
    Safe settings config action ∧ Sound ((system settings).next config action) := by
  cases action with
  | invoke call =>
    have live : ∀ id ∈ (invoke config.shared config.calls.length call).1.liveIds,
        id ∈ config.shared.liveIds := fun id => invoke_live
    have crashed : ∀ id, (invoke config.shared config.calls.length call).1.status id = some .crashed →
        config.shared.status id = some .crashed := fun id now => by rwa [invoke_status] at now
    refine ⟨⟨fun id _ now => crashed id now, trivial⟩, Holds.invoke call ⟨?_, ?_⟩ fun other stage found => ?_⟩
    · exact liveUncrashed_other sound.shared live crashed
    · exact invoke_known _ _ call
    · exact sound_other sound found (invoke_frame _ _ call)
        (Nat.ne_of_gt (List.getElem?_eq_some_iff.1 found).1) live
  | environment event =>
    have live : ∀ id ∈ (environment config.shared event).liveIds, id ∈ config.shared.liveIds :=
      fun id => environment_live
    have crashed : ∀ id, (environment config.shared event).status id = some .crashed →
        config.shared.status id = some .crashed := fun id => environment_crashed
    refine ⟨⟨fun id _ now => crashed id now, trivial⟩, Holds.environment event ?_ fun number stage found => ?_⟩
    · exact liveUncrashed_other sound.shared live crashed
    · exact sound_other sound found (environment_frame _ event config.calls.length)
        (Nat.ne_of_gt (List.getElem?_eq_some_iff.1 found).1) live
  | proceed number reply =>
    refine ⟨⟨?_, fun stage found => ?_⟩, sound.proceed number reply (fun stage found => ?_) ?_⟩
    · rw [System.next]
      split
      case h_1 => exact fun id _ crashed => crashed
      case h_2 stage found => exact proceed_keepsLive (sound.call number stage found)
    · exact notSkipped (sound.call number stage found) sound.shared
    · have known := sound.call number stage found
      refine ⟨liveUncrashed_proceed known sound.shared, proceed_known known fun storedIds same => ?_⟩
      rw [same] at found
      exact closed _ found
    · intro stage other otherStage found apart known
      have own := sound.call number stage found
      refine (sound.call other otherStage known).frame (proceed_frame own) apart fun id marked live => ?_
      cases proceed_live own live with
      | inl before => exact before
      | inr begins =>
        exact absurd marked (begins_unmarked sound closed found begins (List.mem_of_getElem? known))

/-- In a run in which no recovery meets an execution between its row and its job, recoveries
crash no execution that has or will get a job, and workers skip none. -/
theorem safe_along (settings : Settings) (actions : List (Action Invocation Reply Event))
    (closed : Runs.Along (system settings).next WindowClosed { shared := {} } actions) :
    Runs.Along (system settings).next (Safe settings) { shared := {} } actions :=
  Runs.along_of_invariant (safe_step settings)
    (Holds.initial fun _ live => absurd live List.not_mem_nil) closed

/-- The main that runs the second execution dies before it has added the job. -/
def danglingRun : List (Action Invocation Reply Event) :=
  [.invoke (.run none), .proceed 0 .ok, .proceed 0 .ok,
    .invoke (.run none), .proceed 1 .ok, .proceed 1 .died,
    .invoke .recoverFromQueue, .proceed 2 .ok, .proceed 2 .ok, .proceed 2 .ok,
    .invoke (.processJob 0), .proceed 3 .ok]

theorem safe_along_dangling :
    Runs.Along (system ⟨10, true⟩).next (Safe ⟨10, true⟩) { shared := {} } danglingRun ∧
      ((system ⟨10, true⟩).run { shared := {} } danglingRun).shared.rows.map ExecutionRow.status =
        [.new, .crashed] :=
  ⟨safe_along ⟨10, true⟩ danglingRun (by decide), by decide⟩

/-- The recovery reads the row of the execution, and the queue before the job is added. -/
def windowRun : List (Action Invocation Reply Event) :=
  [.invoke (.run none), .proceed 0 .ok,
    .invoke .recoverFromQueue, .proceed 1 .ok, .proceed 1 .ok,
    .proceed 0 .ok, .proceed 1 .ok,
    .invoke (.processJob 0), .proceed 2 .ok]

theorem recovery_crashes_live :
    ¬ Runs.Along (system ⟨10, true⟩).next (Safe ⟨10, true⟩) { shared := {} } windowRun := by
  decide

end NodeAutomation.QueueRecovery
