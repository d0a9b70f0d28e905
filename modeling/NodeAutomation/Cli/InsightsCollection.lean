import NodeAutomation.Cli.ActiveExecutions
import NodeAutomation.Lib.Places
import Mathlib.Data.List.Count
import Mathlib.Algebra.Order.Field.Rat

/-! Insights that are buffered and flushed to the database
(`packages/cli/src/modules/insights/insights-collection.service.ts`). A flush is suspended at each of
its calls to the database, and others run meanwhile. -/

namespace NodeAutomation.InsightsCollection
open Runs Places
open ActiveExecutions (ExecutionStatus WorkflowExecuteMode)

def shouldSkipStatus : ExecutionStatus → Bool
  | .success | .crashed | .error => false
  | .canceled | .new | .running | .unknown | .waiting => true

def shouldSkipMode : WorkflowExecuteMode → Bool
  | .cli | .error | .retry | .trigger | .webhook | .evaluation => false
  | .integrated | .internal | .manual | .chat | .agent => true

def maxRuntime : Int := 2 ^ 31 - 1

inductive InsightType where
  | success
  | failure
  | runtime_ms
  | time_saved_min
  deriving DecidableEq

/-- An event is an object of its own, known by its number. -/
structure BufferedInsight where
  number : Nat
  type : InsightType
  value : Rat
  workflowId : String
  workflowName : String
  timestamp : Int
  deriving DecidableEq

structure InsightsMetadata where
  metaId : Nat
  workflowId : String
  workflowName : String
  projectId : String
  projectName : String
  deriving DecidableEq

structure InsightsRaw where
  metaId : Nat
  type : InsightType
  value : Int
  timestamp : Int
  deriving DecidableEq

structure SharedWorkflow where
  workflowId : String
  projectId : String
  projectName : String
  deriving DecidableEq

def integerValueForInsightsRaw (value : Rat) : Int := (value + 1 / 2).floor

structure WorkflowExecuteAfterContext where
  workflowId : String
  workflowName : String
  status : ExecutionStatus
  mode : WorkflowExecuteMode
  startedAt : Int
  stoppedAt : Option Int
  timeSavedPerExecution : Option Rat
  dynamicTimeSaved : Bool
  timeSavedFromNodes : List Rat
  timestamp : Int

def calculateTimeSaved (ctx : WorkflowExecuteAfterContext) : Rat :=
  if !ctx.dynamicTimeSaved then ctx.timeSavedPerExecution.getD 0 else ctx.timeSavedFromNodes.sum

def eventsOf (ctx : WorkflowExecuteAfterContext) : List (InsightType × Rat) :=
  let status : InsightType := if ctx.status = .success then .success else .failure
  let runtime := ctx.stoppedAt.map fun stoppedAt =>
    (InsightType.runtime_ms, ((min (max (stoppedAt - ctx.startedAt) 0) maxRuntime : Int) : Rat))
  let timeSaved := if status = .success ∧ ctx.mode ≠ .error then
    [(InsightType.time_saved_min, calculateTimeSaved ctx)] else []
  (status, 1) :: (runtime.toList ++ timeSaved)

def insightsOf (ctx : WorkflowExecuteAfterContext) (first : Nat) : List BufferedInsight :=
  ((eventsOf ctx).zipIdx first).map fun (event, number) =>
    { number
      type := event.1
      value := event.2
      workflowId := ctx.workflowId
      workflowName := ctx.workflowName
      timestamp := ctx.timestamp }

inductive Stage (batch : List BufferedInsight) where
  | findingSharedWorkflows
  | upserting (metadataToUpsert : List InsightsMetadata)
  | findingMetadata (metadataToUpsert : List InsightsMetadata)
  | inserting (rows : { rows : List (BufferedInsight × InsightsRaw) // rows.map Prod.fst = batch })
  | finished

structure Flush where
  batch : List BufferedInsight
  sharedWorkflows : List SharedWorkflow := []
  stage : Stage batch

def Flush.holding (flush : Flush) : List BufferedInsight :=
  match flush.stage with
  | .findingSharedWorkflows | .upserting _ | .findingMetadata _ | .inserting _ => flush.batch
  | .finished => []

def Flush.ended (flush : Flush) : Bool :=
  match flush.stage with
  | .findingSharedWorkflows | .upserting _ | .findingMetadata _ | .inserting _ => false
  | .finished => true

def Flush.finish (flush : Flush) : Flush := { flush with stage := .finished }

/-- The service with the tables it uses. The rows that were inserted stand beside their events, and
all events that were ever collected are kept. -/
structure State where
  isInitialized : Bool := false
  isAsynchronouslySavingInsights : Bool := true
  flushBatchSize : Nat
  cachedMetadata : OrderedMap String InsightsMetadata := ∅
  bufferedInsights : List BufferedInsight := []
  flushes : List Flush := []
  sharedWorkflows : OrderedMap String SharedWorkflow := ∅
  metadata : OrderedMap String InsightsMetadata := ∅
  nextMetaId : Nat := 1
  inserted : List (BufferedInsight × InsightsRaw) := []
  collected : List BufferedInsight := []

namespace State

def setFlush (s : State) (number : Nat) (flush : Flush) : State :=
  { s with flushes := s.flushes.set number flush }

/-- `flushEvents` up to its first call to the database. -/
def flushEvents (s : State) : State :=
  if !s.isInitialized then s
  else if s.bufferedInsights = [] then s
  else { s with
    bufferedInsights := []
    flushes := s.flushes ++ [{ batch := s.bufferedInsights, stage := .findingSharedWorkflows }] }

/-- A handler that has waited for its flush looks at the size of the buffer too; that is a flush as
any other, which may come at any time. -/
def handleWorkflowExecuteAfter (s : State) (ctx : WorkflowExecuteAfterContext) : State :=
  if !s.isInitialized then s
  else if shouldSkipStatus ctx.status || shouldSkipMode ctx.mode then s
  else
    let events := insightsOf ctx s.collected.length
    let s := { s with
      bufferedInsights := s.bufferedInsights ++ events
      collected := s.collected ++ events }
    if !s.isAsynchronouslySavingInsights then s.flushEvents
    else if s.flushBatchSize ≤ s.bufferedInsights.length then s.flushEvents
    else s

def workflowIdNames (batch : List BufferedInsight) : OrderedMap String String :=
  batch.foldl (fun names event => names.set event.workflowId event.workflowName) ∅

def metadataToUpsert (s : State) (batch : List BufferedInsight) (sharedWorkflows : List SharedWorkflow) :
    List InsightsMetadata :=
  sharedWorkflows.filterMap fun shared =>
    let workflowName := ((workflowIdNames batch).get shared.workflowId).getD ""
    let metadata : InsightsMetadata :=
      ⟨0, shared.workflowId, workflowName, shared.projectId, shared.projectName⟩
    match s.cachedMetadata.get shared.workflowId with
    | none => some metadata
    | some cached =>
      if cached.projectId ≠ shared.projectId ∨ cached.projectName ≠ shared.projectName ∨
        cached.workflowName ≠ workflowName then some metadata else none

/-- A row of the workflow keeps its id. -/
def upsert (s : State) (metadata : InsightsMetadata) : State :=
  match s.metadata.get metadata.workflowId with
  | some row => { s with metadata := s.metadata.set metadata.workflowId { metadata with metaId := row.metaId } }
  | none => { s with
    metadata := s.metadata.set metadata.workflowId { metadata with metaId := s.nextMetaId }
    nextMetaId := s.nextMetaId + 1 }

def cacheFound (s : State) (metadataToUpsert : List InsightsMetadata) : OrderedMap String InsightsMetadata :=
  metadataToUpsert.foldl (fun cache metadata =>
    match s.metadata.get metadata.workflowId with
    | some row => cache.set row.workflowId row
    | none => cache) s.cachedMetadata

def couldNotFind (workflowId : String) : String :=
  "Could not find shared workflow for insight with workflowId " ++ workflowId

def rowsOf (cachedMetadata : OrderedMap String InsightsMetadata) : (batch : List BufferedInsight) →
    Except String { rows : List (BufferedInsight × InsightsRaw) // rows.map Prod.fst = batch }
  | [] => .ok ⟨[], rfl⟩
  | event :: rest =>
    match cachedMetadata.get event.workflowId, rowsOf cachedMetadata rest with
    | none, .ok _ | none, .error _ => .error (couldNotFind event.workflowId)
    | some _, .error message => .error message
    | some metadata, .ok rows =>
      .ok ⟨(event, ⟨metadata.metaId, event.type, integerValueForInsightsRaw event.value, event.timestamp⟩) :: rows.1,
        congrArg (event :: ·) rows.2⟩

def putBack (s : State) (number : Nat) (flush : Flush) : State :=
  ({ s with bufferedInsights := s.bufferedInsights ++ flush.batch } : State).setFlush number flush.finish

/-- A call to the database succeeds, or fails. -/
def answer (s : State) (number : Nat) (ok : Bool) : State :=
  match s.flushes[number]? with
  | none => s
  | some flush =>
    match flush.stage, ok with
    | .finished, true | .finished, false => s
    | .findingSharedWorkflows, false | .upserting _, false | .findingMetadata _, false
    | .inserting _, false => s.putBack number flush
    | .findingSharedWorkflows, true =>
      let sharedWorkflows := (workflowIdNames flush.batch).keys.filterMap s.sharedWorkflows.get
      s.setFlush number
        { flush with
          sharedWorkflows
          stage := .upserting (s.metadataToUpsert flush.batch sharedWorkflows) }
    | .upserting metadataToUpsert, true =>
      (metadataToUpsert.foldl upsert s).setFlush number { flush with stage := .findingMetadata metadataToUpsert }
    | .findingMetadata metadataToUpsert, true =>
      let s := { s with cachedMetadata := s.cacheFound metadataToUpsert }
      match rowsOf s.cachedMetadata flush.batch with
      | .error _ => s.putBack number flush
      | .ok rows => s.setFlush number { flush with stage := .inserting rows }
    | .inserting rows, true =>
      ({ s with inserted := s.inserted ++ rows.1 } : State).setFlush number flush.finish

end State

/-- Timers flush at any time. A shutdown stops the service once its flushes are done. Workflows are
created, moved, renamed and deleted, and metadata of a deleted workflow no longer has its id. -/
inductive Action where
  | init
  | handleWorkflowExecuteAfter (ctx : WorkflowExecuteAfterContext)
  | flushEvents
  | answer (number : Nat) (ok : Bool)
  | shutdown
  | stopped
  | share (shared : SharedWorkflow)
  | deleteWorkflow (workflowId : String)

def next (s : State) : Action → State
  | .init => { s with isInitialized := true, isAsynchronouslySavingInsights := true }
  | .handleWorkflowExecuteAfter ctx => s.handleWorkflowExecuteAfter ctx
  | .flushEvents => s.flushEvents
  | .answer number ok => s.answer number ok
  | .shutdown => ({ s with isAsynchronouslySavingInsights := false } : State).flushEvents
  | .stopped => { s with isInitialized := false }
  | .share shared => { s with sharedWorkflows := s.sharedWorkflows.set shared.workflowId shared }
  | .deleteWorkflow workflowId => { s with
    sharedWorkflows := s.sharedWorkflows.delete workflowId
    metadata := s.metadata.delete workflowId }

def State.places (s : State) : List BufferedInsight :=
  s.bufferedInsights ++ (s.flushes.flatMap Flush.holding ++ s.inserted.map Prod.fst)

def Once (s : State) : Prop := ∀ event ∈ s.collected, s.places.count event = 1

def Flush.Owned (flush : Flush) (event : BufferedInsight) : Prop :=
  event.workflowId ∈ flush.sharedWorkflows.map SharedWorkflow.workflowId

/-- A flush that ends with a call that succeeds has inserted what has an owner. -/
def Delivers (s : State) : Action → Prop
  | .answer number true => ∀ flush after, s.flushes[number]? = some flush → flush.ended = false →
      (next s (.answer number true)).flushes[number]? = some after → after.ended = true →
      ∀ event ∈ flush.batch, flush.Owned event → event ∈ (next s (.answer number true)).inserted.map Prod.fst
  | .answer _ false | .init | .handleWorkflowExecuteAfter _ | .flushEvents | .shutdown | .stopped | .share _
  | .deleteWorkflow _ => True

/-- The workflow of an event is in the cache, or among those whose metadata the flush finds. -/
def Known (s : State) (metadataToUpsert : List InsightsMetadata) (event : BufferedInsight) : Prop :=
  (∃ cached, s.cachedMetadata.get event.workflowId = some cached) ∨
    event.workflowId ∈ metadataToUpsert.map InsightsMetadata.workflowId ∧
      ∃ row, s.metadata.get event.workflowId = some row

/-- When a flush finds its metadata, all workflows of its batch are known, or none of them has an owner. -/
def Complete (s : State) : Action → Prop
  | .answer number true => ∀ flush metadataToUpsert, s.flushes[number]? = some flush →
      flush.stage = .findingMetadata metadataToUpsert → (∃ event ∈ flush.batch, flush.Owned event) →
      ∀ event ∈ flush.batch, Known s metadataToUpsert event
  | .answer _ false | .init | .handleWorkflowExecuteAfter _ | .flushEvents | .shutdown | .stopped | .share _
  | .deleteWorkflow _ => True

variable {s : State} {number : Nat} {flush flush' : Flush} {metadataToUpsert : List InsightsMetadata}

/-- No event is lost or doubled, events are numbered as they come, and the table is kept by workflow. -/
structure Kept (s : State) : Prop where
  places : s.places.Perm s.collected
  numbers : s.collected.map BufferedInsight.number = List.range s.collected.length
  metadata : ∀ workflowId row, s.metadata.get workflowId = some row → row.workflowId = workflowId

namespace Kept

theorem nodup (kept : Kept s) : s.collected.Nodup := by
  refine List.Nodup.of_map BufferedInsight.number ?_
  rw [kept.numbers]
  exact List.nodup_range

theorem once (kept : Kept s) : Once s := by
  intro event among
  rw [kept.places.count_eq]
  exact List.count_eq_one_of_mem kept.nodup among

theorem not_inserted (kept : Kept s) {event : BufferedInsight} (here : s.flushes[number]? = some flush)
    (holds : event ∈ flush.holding) : event ∉ s.inserted.map Prod.fst := by
  have nodup : s.places.Nodup := kept.places.nodup_iff.2 kept.nodup
  have parts := (List.nodup_append.1 (List.nodup_append.1 nodup).2.1).2.2
  intro inserted
  exact parts event (List.mem_flatMap.2 ⟨flush, List.mem_of_getElem? here, holds⟩) event inserted rfl

end Kept

theorem places_setFlush (flush' : Flush) (here : s.flushes[number]? = some flush) :
    ((s.setFlush number flush').places ++ flush.holding).Perm (s.places ++ flush'.holding) := by
  have moved := perm_flatMap_modify (f := fun _ => flush') Flush.holding here
  rw [← List.set_eq_modify] at moved
  have swap (first second third fourth : List BufferedInsight) :
      (first ++ (second ++ third) ++ fourth).Perm (first ++ (second ++ fourth ++ third)) := by
    rw [List.append_assoc, List.append_assoc, List.append_assoc]
    exact (List.perm_append_comm.append_left second).append_left first
  exact (swap _ _ _ _).trans (((moved.append_right _).append_left _).trans (swap _ _ _ _).symm)

theorem places_setFlush_of_holding (flush' : Flush) (here : s.flushes[number]? = some flush)
    (same : flush'.holding = flush.holding) : (s.setFlush number flush').places.Perm s.places := by
  have moved := places_setFlush flush' here
  rw [same] at moved
  exact (List.perm_append_right_iff _).1 moved

theorem places_putBack (here : s.flushes[number]? = some flush) (holds : flush.holding = flush.batch) :
    (s.putBack number flush).places.Perm s.places := by
  have moved := places_setFlush (s := { s with bufferedInsights := s.bufferedInsights ++ flush.batch })
    flush.finish here
  rw [holds] at moved
  have back : (({ s with bufferedInsights := s.bufferedInsights ++ flush.batch } : State).places ++ []).Perm
      (s.places ++ flush.batch) := by
    rw [List.append_nil, State.places, State.places, List.append_assoc, List.append_assoc]
    exact List.perm_append_comm.append_left _
  exact (List.perm_append_right_iff _).1 (moved.trans back)

theorem places_flushEvents : s.flushEvents.places.Perm s.places := by
  rw [State.flushEvents]
  split
  · exact .refl _
  split
  · exact .refl _
  · rw [State.places, State.places, List.flatMap_append, List.nil_append, List.append_assoc]
    show (s.flushes.flatMap Flush.holding ++ (s.bufferedInsights ++ [] ++ s.inserted.map Prod.fst)).Perm _
    rw [List.append_nil]
    exact List.perm_append_comm_assoc _ _ _

theorem foldl_upsert (metadataToUpsert : List InsightsMetadata) (s : State)
    (keyed : ∀ workflowId row, s.metadata.get workflowId = some row → row.workflowId = workflowId) :
    ∃ metadata nextMetaId, metadataToUpsert.foldl State.upsert s = { s with metadata, nextMetaId } ∧
      ∀ workflowId row, metadata.get workflowId = some row → row.workflowId = workflowId := by
  induction metadataToUpsert generalizing s with
  | nil => exact ⟨s.metadata, s.nextMetaId, rfl, keyed⟩
  | cons first rest ih =>
    have set_keyed (metaId : Nat) (workflowId : String) (row : InsightsMetadata)
        (there : (s.metadata.set first.workflowId { first with metaId }).get workflowId = some row) :
        row.workflowId = workflowId := by
      rw [OrderedMap.get_set] at there
      by_cases same : workflowId = first.workflowId
      · rw [if_pos same] at there
        rw [← Option.some.inj there, same]
      · rw [if_neg same] at there
        exact keyed workflowId row there
    rw [List.foldl_cons, State.upsert]
    cases s.metadata.get first.workflowId with
    | some row =>
      obtain ⟨metadata, nextMetaId, folded, keyed'⟩ := ih
        { s with metadata := s.metadata.set first.workflowId { first with metaId := row.metaId } }
        (set_keyed row.metaId)
      exact ⟨metadata, nextMetaId, folded, keyed'⟩
    | none =>
      obtain ⟨metadata, nextMetaId, folded, keyed'⟩ := ih
        { s with
          metadata := s.metadata.set first.workflowId { first with metaId := s.nextMetaId }
          nextMetaId := s.nextMetaId + 1 }
        (set_keyed s.nextMetaId)
      exact ⟨metadata, nextMetaId, folded, keyed'⟩

theorem kept_flushEvents (kept : Kept s) : Kept s.flushEvents := by
  have frame : s.flushEvents.collected = s.collected ∧ s.flushEvents.metadata = s.metadata := by
    rw [State.flushEvents]
    split
    · exact ⟨rfl, rfl⟩
    split
    · exact ⟨rfl, rfl⟩
    · exact ⟨rfl, rfl⟩
  refine ⟨?_, ?_, ?_⟩
  · rw [frame.1]
    exact places_flushEvents.trans kept.places
  · rw [frame.1]
    exact kept.numbers
  · rw [frame.2]
    exact kept.metadata

theorem numbers_insightsOf (ctx : WorkflowExecuteAfterContext) (first : Nat) :
    (insightsOf ctx first).map BufferedInsight.number = List.range' first (insightsOf ctx first).length := by
  rw [insightsOf, List.map_map, List.length_map, List.length_zipIdx]
  exact List.zipIdx_map_snd first _

theorem kept_collect (kept : Kept s) (ctx : WorkflowExecuteAfterContext) :
    Kept { s with
      bufferedInsights := s.bufferedInsights ++ insightsOf ctx s.collected.length
      collected := s.collected ++ insightsOf ctx s.collected.length } := by
  refine ⟨?_, ?_, kept.metadata⟩
  · show (s.bufferedInsights ++ insightsOf ctx s.collected.length ++
      (s.flushes.flatMap Flush.holding ++ s.inserted.map Prod.fst)).Perm _
    rw [List.append_assoc]
    refine (List.perm_append_comm.append_left s.bufferedInsights).trans ?_
    rw [← List.append_assoc]
    exact kept.places.append_right _
  · show (s.collected ++ _).map _ = List.range (s.collected ++ _).length
    rw [List.map_append, List.length_append, kept.numbers, numbers_insightsOf, List.range_eq_range',
      List.range_eq_range', ← List.range'_append_1, Nat.zero_add]

theorem kept_handle (kept : Kept s) (ctx : WorkflowExecuteAfterContext) :
    Kept (s.handleWorkflowExecuteAfter ctx) := by
  rw [State.handleWorkflowExecuteAfter]
  split
  · exact kept
  split
  · exact kept
  simp only
  split
  · exact kept_flushEvents (kept_collect kept ctx)
  split
  · exact kept_flushEvents (kept_collect kept ctx)
  · exact kept_collect kept ctx

theorem kept_answer (kept : Kept s) (number : Nat) (ok : Bool) : Kept (s.answer number ok) := by
  rw [State.answer]
  cases here : s.flushes[number]? with
  | none => exact kept
  | some flush =>
    obtain ⟨batch, sharedWorkflows, stage⟩ := flush
    have failed (holds : Flush.holding ⟨batch, sharedWorkflows, stage⟩ = batch) :
        Kept (s.putBack number ⟨batch, sharedWorkflows, stage⟩) :=
      ⟨(places_putBack here holds).trans kept.places, kept.numbers, kept.metadata⟩
    cases stage with
    | finished => cases ok <;> exact kept
    | findingSharedWorkflows =>
      cases ok with
      | false => exact failed rfl
      | true =>
        let found := (State.workflowIdNames batch).keys.filterMap s.sharedWorkflows.get
        have moved := places_setFlush_of_holding
          ⟨batch, found, .upserting (s.metadataToUpsert batch found)⟩ here rfl
        exact ⟨moved.trans kept.places, kept.numbers, kept.metadata⟩
    | upserting metadataToUpsert =>
      cases ok with
      | false => exact failed rfl
      | true =>
        obtain ⟨metadata, nextMetaId, folded, keyed⟩ := foldl_upsert metadataToUpsert s kept.metadata
        simp only [folded]
        have moved := places_setFlush_of_holding (s := { s with metadata, nextMetaId })
          ⟨batch, sharedWorkflows, .findingMetadata metadataToUpsert⟩ here rfl
        exact ⟨moved.trans kept.places, kept.numbers, keyed⟩
    | findingMetadata metadataToUpsert =>
      cases ok with
      | false => exact failed rfl
      | true =>
        simp only
        cases State.rowsOf (s.cacheFound metadataToUpsert) batch with
        | error message =>
          have moved := places_putBack (s := { s with cachedMetadata := s.cacheFound metadataToUpsert }) here rfl
          exact ⟨moved.trans kept.places, kept.numbers, kept.metadata⟩
        | ok rows =>
          have moved := places_setFlush_of_holding (s := { s with cachedMetadata := s.cacheFound metadataToUpsert })
            ⟨batch, sharedWorkflows, .inserting rows⟩ here rfl
          exact ⟨moved.trans kept.places, kept.numbers, kept.metadata⟩
    | inserting rows =>
      cases ok with
      | false => exact failed rfl
      | true =>
        refine ⟨?_, kept.numbers, kept.metadata⟩
        have moved := places_setFlush (s := { s with inserted := s.inserted ++ rows.1 })
          (Flush.finish ⟨batch, sharedWorkflows, .inserting rows⟩) here
        have more : (State.places { s with inserted := s.inserted ++ rows.1 } ++ []).Perm (s.places ++ batch) := by
          rw [List.append_nil, State.places, State.places, List.map_append, rows.2, List.append_assoc,
            List.append_assoc]
        exact ((List.perm_append_right_iff _).1 (moved.trans more)).trans kept.places

theorem kept_next (kept : Kept s) (action : Action) : Kept (next s action) := by
  cases action with
  | init => exact ⟨kept.places, kept.numbers, kept.metadata⟩
  | handleWorkflowExecuteAfter ctx => exact kept_handle kept ctx
  | flushEvents => exact kept_flushEvents kept
  | answer number ok => exact kept_answer kept number ok
  | shutdown => exact kept_flushEvents ⟨kept.places, kept.numbers, kept.metadata⟩
  | stopped => exact ⟨kept.places, kept.numbers, kept.metadata⟩
  | share shared => exact ⟨kept.places, kept.numbers, kept.metadata⟩
  | deleteWorkflow workflowId =>
    refine ⟨kept.places, kept.numbers, fun other row there => ?_⟩
    rw [next, OrderedMap.get_delete] at there
    split at there
    · cases there
    · exact kept.metadata other row there

theorem kept_start (flushBatchSize : Nat) : Kept { flushBatchSize } where
  places := .refl _
  numbers := rfl
  metadata := fun _ _ never => by cases never

theorem get_cacheFound (kept : Kept s) (workflowId : String) :
    (∃ cached, (s.cacheFound metadataToUpsert).get workflowId = some cached) ↔
      (∃ cached, s.cachedMetadata.get workflowId = some cached) ∨
        workflowId ∈ metadataToUpsert.map InsightsMetadata.workflowId ∧
          ∃ row, s.metadata.get workflowId = some row := by
  rw [State.cacheFound]
  generalize s.cachedMetadata = cache
  induction metadataToUpsert generalizing cache with
  | nil => simp
  | cons first rest ih =>
    rw [List.foldl_cons, ih, List.map_cons, List.mem_cons]
    cases found : s.metadata.get first.workflowId with
    | none =>
      refine or_congr_right (and_congr_left ?_)
      rintro ⟨row, there⟩
      refine (or_iff_right ?_).symm
      rintro rfl
      simp [found] at there
    | some row =>
      have keyed := kept.metadata _ row found
      simp only [keyed, OrderedMap.get_set]
      by_cases same : workflowId = first.workflowId
      · rw [if_pos same, same, found]
        simp
      · rw [if_neg same]
        simp [same]

theorem rowsOf_ok_iff (cachedMetadata : OrderedMap String InsightsMetadata) (batch : List BufferedInsight) :
    (∃ rows, State.rowsOf cachedMetadata batch = .ok rows) ↔
      ∀ event ∈ batch, ∃ cached, cachedMetadata.get event.workflowId = some cached := by
  induction batch with
  | nil => exact iff_of_true ⟨_, rfl⟩ fun _ never => by cases never
  | cons event rest ih =>
    rw [State.rowsOf, List.forall_mem_cons, ← ih]
    cases cachedMetadata.get event.workflowId with
    | none =>
      cases State.rowsOf cachedMetadata rest with
      | error message => simp
      | ok rows => simp
    | some cached =>
      cases State.rowsOf cachedMetadata rest with
      | error message => simp
      | ok rows => simp

theorem delivers_of_goesOn {left : State} {flush flush' : Flush} (here : s.flushes[number]? = some flush)
    (went : next s (.answer number true) = left.setFlush number flush') (flushes : left.flushes = s.flushes)
    (open_ : flush'.ended = false) : Delivers s (.answer number true) := by
  intro flush after _ _ there ended
  rw [went, State.setFlush, flushes, List.getElem?_set_self (List.getElem?_eq_some_iff.1 here).1] at there
  simp [← Option.some.inj there, open_] at ended

theorem complete_of_stage {batch : List BufferedInsight} {sharedWorkflows : List SharedWorkflow}
    {stage : Stage batch} (here : s.flushes[number]? = some ⟨batch, sharedWorkflows, stage⟩)
    (other : ∀ metadataToUpsert, stage ≠ .findingMetadata metadataToUpsert) :
    Complete s (.answer number true) := by
  intro flush metadataToUpsert found staged
  rw [here] at found
  cases found
  exact absurd staged (other metadataToUpsert)

/-- Once the metadata is read the flush goes on if all of it is known, or else puts its batch back. -/
theorem delivers_foundMetadata_iff (kept : Kept s) {batch : List BufferedInsight}
    {sharedWorkflows : List SharedWorkflow}
    (here : s.flushes[number]? = some ⟨batch, sharedWorkflows, .findingMetadata metadataToUpsert⟩) :
    Delivers s (.answer number true) ↔ Complete s (.answer number true) := by
  have known_iff (event : BufferedInsight) :
      (∃ cached, (s.cacheFound metadataToUpsert).get event.workflowId = some cached) ↔
        Known s metadataToUpsert event := get_cacheFound kept event.workflowId
  have all_iff := rowsOf_ok_iff (s.cacheFound metadataToUpsert) batch
  simp only [known_iff] at all_iff
  cases computed : State.rowsOf (s.cacheFound metadataToUpsert) batch with
  | ok rows =>
    refine iff_of_true ?_ ?_
    · have went : next s (.answer number true) =
          ({ s with cachedMetadata := s.cacheFound metadataToUpsert } : State).setFlush number
            ⟨batch, sharedWorkflows, .inserting rows⟩ := by
        rw [next, State.answer, here]
        simp only [computed]
      exact delivers_of_goesOn here went rfl rfl
    · intro flush other found staged _
      rw [here] at found
      cases found
      cases staged
      exact all_iff.1 ⟨rows, computed⟩
  | error message =>
    have went : next s (.answer number true) =
        State.putBack { s with cachedMetadata := s.cacheFound metadataToUpsert } number
          ⟨batch, sharedWorkflows, .findingMetadata metadataToUpsert⟩ := by
      rw [next, State.answer, here]
      simp only [computed]
    have unknown : ¬ ∀ event ∈ batch, Known s metadataToUpsert event := by
      intro all
      obtain ⟨rows, computed'⟩ := all_iff.2 all
      rw [computed] at computed'
      cases computed'
    constructor
    · intro delivers flush other found staged owned
      rw [here] at found
      cases found
      obtain ⟨event, among, owner⟩ := owned
      have ends : (next s (.answer number true)).flushes[number]? =
          some (Flush.finish ⟨batch, sharedWorkflows, .findingMetadata metadataToUpsert⟩) := by
        rw [went, State.putBack, State.setFlush, List.getElem?_set_self (List.getElem?_eq_some_iff.1 here).1]
      have inserted := delivers _ _ here rfl ends rfl event among owner
      rw [went] at inserted
      exact absurd inserted (kept.not_inserted here among)
    · intro complete flush after found _ _ _ event among owner
      rw [here] at found
      cases found
      exact absurd (complete _ metadataToUpsert here rfl ⟨event, among, owner⟩) unknown

/-- A flush that ends in a call that succeeds has inserted its batch, or has not found all metadata. -/
theorem delivers_answer_iff (kept : Kept s) {batch : List BufferedInsight} {sharedWorkflows : List SharedWorkflow}
    {stage : Stage batch} (here : s.flushes[number]? = some ⟨batch, sharedWorkflows, stage⟩) :
    Delivers s (.answer number true) ↔ Complete s (.answer number true) := by
  cases stage with
  | finished =>
    refine iff_of_true ?_ (complete_of_stage here fun _ same => by cases same)
    intro flush after found open_
    rw [here] at found
    cases found
    cases open_
  | findingSharedWorkflows =>
    refine iff_of_true ?_ (complete_of_stage here fun _ same => by cases same)
    let found := (State.workflowIdNames batch).keys.filterMap s.sharedWorkflows.get
    have went : next s (.answer number true) =
        s.setFlush number ⟨batch, found, .upserting (s.metadataToUpsert batch found)⟩ := by
      rw [next, State.answer, here]
    exact delivers_of_goesOn here went rfl rfl
  | upserting metadataToUpsert =>
    refine iff_of_true ?_ (complete_of_stage here fun _ same => by cases same)
    obtain ⟨metadata, nextMetaId, folded, -⟩ := foldl_upsert metadataToUpsert s kept.metadata
    have went : next s (.answer number true) = ({ s with metadata, nextMetaId } : State).setFlush number
        ⟨batch, sharedWorkflows, .findingMetadata metadataToUpsert⟩ := by
      rw [next, State.answer, here, ← folded]
    exact delivers_of_goesOn here went rfl rfl
  | inserting rows =>
    refine iff_of_true ?_ (complete_of_stage here fun _ same => by cases same)
    intro flush after found _ _ _ event among _
    rw [here] at found
    cases found
    have went : next s (.answer number true) = ({ s with inserted := s.inserted ++ rows.1 } : State).setFlush
        number (Flush.finish ⟨batch, sharedWorkflows, .inserting rows⟩) := by
      rw [next, State.answer, here]
    rw [went]
    show event ∈ (s.inserted ++ rows.1).map Prod.fst
    rw [List.map_append, rows.2]
    exact List.mem_append_right _ among
  | findingMetadata metadataToUpsert => exact delivers_foundMetadata_iff kept here

theorem delivers_iff (kept : Kept s) (action : Action) : Delivers s action ↔ Complete s action := by
  cases action with
  | answer number ok =>
    cases ok with
    | false => exact Iff.rfl
    | true =>
      cases here : s.flushes[number]? with
      | some flush => exact delivers_answer_iff kept here
      | none =>
        refine iff_of_true (fun flush after found => ?_) fun flush metadataToUpsert found => ?_
        · simp [here] at found
        · simp [here] at found
  | init => exact Iff.rfl
  | handleWorkflowExecuteAfter ctx => exact Iff.rfl
  | flushEvents => exact Iff.rfl
  | shutdown => exact Iff.rfl
  | stopped => exact Iff.rfl
  | share shared => exact Iff.rfl
  | deleteWorkflow workflowId => exact Iff.rfl

/-- In a run, events are never lost or doubled, and flushes whose calls succeed deliver what has an
owner exactly when they never find metadata for a part of a batch only. -/
theorem along_once_delivers_iff (flushBatchSize : Nat) (actions : List Action) :
    Along next (fun s action => Once (next s action) ∧ Delivers s action) { flushBatchSize } actions ↔
      Along next Complete { flushBatchSize } actions :=
  along_iff
    (fun _ action kept _ => (and_iff_right (kept_next kept action).once).trans (delivers_iff kept action))
    (fun _ action kept _ _ => kept_next kept action) (kept_start flushBatchSize)
    (along_of_forall (R := fun _ => True) fun _ _ => trivial)

def failureOf (workflowId : String) : WorkflowExecuteAfterContext where
  workflowId := workflowId
  workflowName := workflowId
  status := .error
  mode := .webhook
  startedAt := 0
  stoppedAt := none
  timeSavedPerExecution := none
  dynamicTimeSaved := false
  timeSavedFromNodes := []
  timestamp := 0

def halfDeleted : List Action :=
  [.init, .share ⟨"kept", "project", "Project"⟩, .share ⟨"deleted", "project", "Project"⟩,
    .handleWorkflowExecuteAfter (failureOf "kept"), .handleWorkflowExecuteAfter (failureOf "deleted"),
    .deleteWorkflow "deleted", .flushEvents, .answer 0 true, .answer 0 true]

/-- The event of the workflow that is left goes back to the buffer with that of the deleted one. -/
theorem not_delivers_halfDeleted :
    ¬ Along next (fun s action => Once (next s action) ∧ Delivers s action) { flushBatchSize := 1000 }
      (halfDeleted ++ [.answer 0 true]) := by
  intro along
  have delivers := (Along.here along).2
  have delivered := delivers _ _ rfl rfl rfl rfl
    { number := 0, type := .failure, value := 1, workflowId := "kept", workflowName := "kept", timestamp := 0 }
    List.mem_cons_self (List.mem_cons_self)
  cases delivered

end NodeAutomation.InsightsCollection
