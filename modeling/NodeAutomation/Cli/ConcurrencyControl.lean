import NodeAutomation.Cli.ActiveExecutions
import NodeAutomation.Cli.ConcurrencyQueue

/-! The limits on concurrent executions (`packages/cli/src/concurrency/concurrency-control.service.ts`)
while the active executions are shut down (`ActiveExecutions.shutdown`), in regular mode. -/

namespace NodeAutomation.ConcurrencyControl
open Runs
open Concurrency (ConcurrencyQueue Item)
open ActiveExecutions (WorkflowExecuteMode ExecutionStatus)

/-- A mode without a queue is unlimited. -/
structure ConcurrencyControlService where
  isEnabled : Bool
  production : Option ConcurrencyQueue
  evaluation : Option ConcurrencyQueue
  evalQueueResolved : Bool
  deriving DecidableEq

namespace ConcurrencyControlService

inductive QueueType where
  | production
  | evaluation
  deriving DecidableEq

def queueType : WorkflowExecuteMode → Option QueueType
  | .webhook | .trigger | .chat => some .production
  | .evaluation => some .evaluation
  | .error | .integrated | .cli | .internal | .manual | .retry | .agent => none

def queueOf (service : ConcurrencyControlService) : QueueType → Option ConcurrencyQueue
  | .production => service.production
  | .evaluation => service.evaluation

def setQueue (service : ConcurrencyControlService) (type : QueueType) (queue : ConcurrencyQueue) :
    ConcurrencyControlService :=
  match type with
  | .production => { service with production := some queue }
  | .evaluation => { service with evaluation := some queue }

def ensureEvalQueueResolved (evaluationLimit : Int) (service : ConcurrencyControlService) :
    ConcurrencyControlService :=
  if service.evalQueueResolved then service
  else if evaluationLimit > 0 then
    { service with evalQueueResolved := true, evaluation := some { capacity := evaluationLimit }, isEnabled := true }
  else { service with evalQueueResolved := true }

def resolveFor (evaluationLimit : Int) (mode : WorkflowExecuteMode) (service : ConcurrencyControlService) :
    ConcurrencyControlService :=
  if mode = .evaluation then service.ensureEvalQueueResolved evaluationLimit else service

/-- What a method does with the queue of the mode, unless the service is disabled or the mode unlimited.
The item is that of a throttled execution that is admitted. -/
def withQueue (evaluationLimit : Int) (mode : WorkflowExecuteMode) (service : ConcurrencyControlService)
    (method : ConcurrencyQueue → ConcurrencyQueue × Option Item) : ConcurrencyControlService × Option Item :=
  let service := service.resolveFor evaluationLimit mode
  if !service.isEnabled then (service, none)
  else
    match queueType mode with
    | none => (service, none)
    | some type =>
      match service.queueOf type with
      | none => (service, none)
      | some queue =>
        let (queue, item) := method queue
        (service.setQueue type queue, item)

def throttle (evaluationLimit : Int) (mode : WorkflowExecuteMode) (executionId : String) (promise : Nat)
    (service : ConcurrencyControlService) : ConcurrencyControlService × Option Item :=
  service.withQueue evaluationLimit mode fun queue => ((queue.enqueue executionId promise).1, none)

def release (evaluationLimit : Int) (mode : WorkflowExecuteMode) (service : ConcurrencyControlService) :
    ConcurrencyControlService × Option Item :=
  service.withQueue evaluationLimit mode ConcurrencyQueue.dequeue

def remove (evaluationLimit : Int) (mode : WorkflowExecuteMode) (executionId : String)
    (service : ConcurrencyControlService) : ConcurrencyControlService × Option Item :=
  service.withQueue evaluationLimit mode fun queue => queue.remove executionId

def emptyQueue (queue : ConcurrencyQueue) : ConcurrencyQueue × List Item :=
  (queue.queue.map Item.executionId).eraseDups.foldl
    (fun (queue, admitted) executionId =>
      let (left, item) := queue.remove executionId
      (left, admitted ++ item.toList))
    (queue, [])

/-- The last component is what is passed to `cancelMany`. -/
def removeAll (executionIdsToCancel : List String) (service : ConcurrencyControlService) :
    ConcurrencyControlService × List Item × List String :=
  if !service.isEnabled then (service, [], [])
  else
    let production := service.production.map emptyQueue
    let evaluation := service.evaluation.map emptyQueue
    ({ service with production := production.map Prod.fst, evaluation := evaluation.map Prod.fst },
      (production.map Prod.snd).getD [] ++ (evaluation.map Prod.snd).getD [], executionIdsToCancel)

def disable (service : ConcurrencyControlService) : ConcurrencyControlService := { service with isEnabled := false }

def queued (service : ConcurrencyControlService) : List String :=
  (service.production.toList ++ service.evaluation.toList).flatMap fun queue => queue.queue.map Item.executionId

end ConcurrencyControlService

/-- The process from the moment on in which the shutdown has begun: the throttled executions that were
admitted since, and what was passed to `cancelMany`. -/
structure Process where
  active : ActiveExecutions.State
  control : ConcurrencyControlService
  admitted : List Item := []
  cancelled : List String := []

def stopOrForget (cancelAll : Bool) (active : ActiveExecutions.State) (executionId : String) :
    ActiveExecutions.State :=
  match active.active executionId with
  | none => active
  | some (_, execution) =>
    if cancelAll then active.stopExecution executionId
    else if execution.status = .waiting ∨ execution.status = .new then
      { active with activeExecutions := active.activeExecutions.delete executionId }
    else active

def toCancel (cancelAll : Bool) (active : ActiveExecutions.State) : List String :=
  if cancelAll then active.activeExecutions.keys else []

def shutdown (cancelAll : Bool) (active : ActiveExecutions.State) (control : ConcurrencyControlService) :
    Process :=
  let control := control.disable
  let stopped := active.activeExecutions.keys.foldl (stopOrForget cancelAll) active
  let (control, admitted, cancelled) := control.removeAll (toCancel cancelAll active)
  { active := stopped, control, admitted, cancelled }

/-- What happens while the shutdown waits: calls of the service, and of the active executions. -/
inductive Event where
  | throttle (mode : WorkflowExecuteMode) (executionId : String) (promise : Nat)
  | release (mode : WorkflowExecuteMode)
  | remove (mode : WorkflowExecuteMode) (executionId : String)
  | active (action : ActiveExecutions.Action)

def Process.call (process : Process) (called : ConcurrencyControlService × Option Item) : Process :=
  { process with control := called.1, admitted := process.admitted ++ called.2.toList }

def step (evaluationLimit : Int) (process : Process) : Event → Process
  | .throttle mode executionId promise =>
    process.call (process.control.throttle evaluationLimit mode executionId promise)
  | .release mode => process.call (process.control.release evaluationLimit mode)
  | .remove mode executionId => process.call (process.control.remove evaluationLimit mode executionId)
  | .active action => { process with active := ActiveExecutions.step .regular process.active action }

/-- In a run after its begin, the shutdown starts nothing: no throttled execution is admitted, with the
last active execution the queues are empty, and what was queued or stopped is cancelled. -/
structure StartsNothing (cancelAll : Bool) (active : ActiveExecutions.State)
    (control : ConcurrencyControlService) (process : Process) : Prop where
  admitted : process.admitted = []
  queues : process.active.activeExecutions.keys = [] → process.control.queued = []
  cancelled : ∀ executionId ∈ control.queued ++ toCancel cancelAll active, executionId ∈ process.cancelled

def Resolves (evaluationLimit : Int) (process : Process) : Event → Prop
  | .throttle mode _ _ | .release mode | .remove mode _ =>
    mode = .evaluation ∧ process.control.evalQueueResolved = false ∧ evaluationLimit > 0
  | .active _ => False

variable {evaluationLimit : Int} {cancelAll : Bool} {active : ActiveExecutions.State}
  {control : ConcurrencyControlService} {process : Process} {events : List Event}

/-- The service is disabled, with empty queues, and nothing has been admitted. -/
structure Idle (process : Process) : Prop where
  disabled : process.control.isEnabled = false
  queues : process.control.queued = []
  admitted : process.admitted = []

theorem idle_call (idle : Idle process) {mode : WorkflowExecuteMode}
    (quiet : ¬ (mode = .evaluation ∧ process.control.evalQueueResolved = false ∧ evaluationLimit > 0))
    (method : ConcurrencyQueue → ConcurrencyQueue × Option Item) :
    Idle (process.call (process.control.withQueue evaluationLimit mode method)) := by
  obtain ⟨resolved, same, left⟩ : ∃ resolved, resolved.queued = process.control.queued ∧
      process.control.withQueue evaluationLimit mode method = (resolved, none) ∧ resolved.isEnabled = false := by
    have kept : (process.control.resolveFor evaluationLimit mode).queued = process.control.queued ∧
        (process.control.resolveFor evaluationLimit mode).isEnabled = process.control.isEnabled := by
      rw [ConcurrencyControlService.resolveFor, ConcurrencyControlService.ensureEvalQueueResolved]
      split
      case isFalse => exact ⟨rfl, rfl⟩
      case isTrue evaluation =>
        split
        case isTrue => exact ⟨rfl, rfl⟩
        case isFalse unresolved =>
          rw [if_neg fun positive => quiet ⟨evaluation, Bool.not_eq_true _ ▸ unresolved, positive⟩]
          exact ⟨rfl, rfl⟩
    refine ⟨_, kept.1, ?_, kept.2.trans idle.disabled⟩
    rw [ConcurrencyControlService.withQueue]
    simp only [kept.2, idle.disabled, Bool.not_false, if_true]
  rw [left.1]
  refine ⟨left.2, same.trans idle.queues, ?_⟩
  rw [Process.call, idle.admitted]
  rfl

theorem idle_step (idle : Idle process) {event : Event} (quiet : ¬ Resolves evaluationLimit process event) :
    Idle (step evaluationLimit process event) := by
  cases event with
  | throttle mode executionId promise => exact idle_call idle quiet _
  | release mode => exact idle_call idle quiet _
  | remove mode executionId => exact idle_call idle quiet _
  | active action => exact ⟨idle.disabled, idle.queues, idle.admitted⟩

theorem idle_after (idle : Idle process)
    (quiet : Along (step evaluationLimit) (fun process event => ¬ Resolves evaluationLimit process event)
      process events) :
    Idle (after (step evaluationLimit) process events) := by
  induction events generalizing process with
  | nil => exact idle
  | cons event events ih => exact ih (idle_step idle quiet.1) quiet.2

theorem resolved_withQueue {service : ConcurrencyControlService} (resolved : service.evalQueueResolved = true)
    (mode : WorkflowExecuteMode) (method : ConcurrencyQueue → ConcurrencyQueue × Option Item) :
    (service.withQueue evaluationLimit mode method).1.evalQueueResolved = true := by
  have same : service.resolveFor evaluationLimit mode = service := by
    rw [ConcurrencyControlService.resolveFor, ConcurrencyControlService.ensureEvalQueueResolved, if_pos resolved,
      ite_self]
  have kept (type : ConcurrencyControlService.QueueType) (queue : ConcurrencyQueue) :
      (service.setQueue type queue).evalQueueResolved = true := by
    cases type with
    | production => exact resolved
    | evaluation => exact resolved
  rw [ConcurrencyControlService.withQueue, same]
  simp only
  split
  · exact resolved
  split
  · exact resolved
  split
  · exact resolved
  · exact kept _ _

theorem along_quiet (settled : process.control.evalQueueResolved = true ∨ evaluationLimit ≤ 0) :
    Along (step evaluationLimit) (fun process event => ¬ Resolves evaluationLimit process event)
      process events := by
  have quiet (process : Process) (event : Event)
      (settled : process.control.evalQueueResolved = true ∨ evaluationLimit ≤ 0) :
      ¬ Resolves evaluationLimit process event := by
    have never {mode : WorkflowExecuteMode} : ¬ (mode = .evaluation ∧
        process.control.evalQueueResolved = false ∧ evaluationLimit > 0) := by
      rintro ⟨-, unresolved, positive⟩
      rcases settled with resolved | unlimited
      · simp [resolved] at unresolved
      · omega
    cases event with
    | throttle mode executionId promise => exact never
    | release mode => exact never
    | remove mode executionId => exact never
    | active action => exact not_false
  refine along_of_invariant (I := fun process => process.control.evalQueueResolved = true ∨ evaluationLimit ≤ 0)
    (W := fun _ _ => True) (fun process event settled _ => ⟨quiet process event settled, ?_⟩) settled
    (along_of_forall (R := fun _ => True) fun _ _ => trivial)
  refine settled.imp_left fun resolved => ?_
  cases event with
  | throttle mode executionId promise => exact resolved_withQueue resolved mode _
  | release mode => exact resolved_withQueue resolved mode _
  | remove mode executionId => exact resolved_withQueue resolved mode _
  | active action => exact resolved

def evaluating (control : ConcurrencyControlService) (queue : ConcurrencyQueue) : ConcurrencyControlService :=
  { control with isEnabled := true, evalQueueResolved := true, evaluation := some queue }

theorem withQueue_evaluating (queue : ConcurrencyQueue)
    (method : ConcurrencyQueue → ConcurrencyQueue × Option Item) :
    (evaluating control queue).withQueue evaluationLimit .evaluation method =
      (evaluating control (method queue).1, (method queue).2) := rfl

theorem throttle_free (count : Nat) {capacity : Int} (free : count ≤ capacity)
    (here : process.control = evaluating control { capacity := capacity }) :
    after (step evaluationLimit) process (List.replicate count (.throttle .evaluation "" 0)) =
      { process with control := evaluating control { capacity := capacity - count } } := by
  induction count generalizing process capacity with
  | zero =>
    have whole : capacity - (0 : Nat) = capacity := by omega
    rw [whole, ← here]
    rfl
  | succ count ih =>
    have room : ¬ capacity - 1 < 0 := by omega
    have step_ : step evaluationLimit process (.throttle .evaluation "" 0) =
        { process with control := evaluating control { capacity := capacity - 1 } } := by
      rw [step, here, ConcurrencyControlService.throttle, withQueue_evaluating, ConcurrencyQueue.enqueue,
        if_neg room, Process.call]
      simp
    rw [List.replicate_succ, after, List.foldl_cons, step_]
    have rest := @ih { process with control := evaluating control { capacity := capacity - 1 } } (capacity - 1)
      (by omega) rfl
    rw [after] at rest
    rw [rest]
    have whole : capacity - 1 - count = capacity - (count + 1 : Nat) := by omega
    rw [whole]

theorem admitted_of_unresolved (unresolved : process.control.evalQueueResolved = false)
    (positive : evaluationLimit > 0) :
    ∃ events, (after (step evaluationLimit) process events).admitted ≠ [] := by
  have whole : (evaluationLimit.toNat : Int) = evaluationLimit := Int.toNat_of_nonneg (by omega)
  -- a removal that removes nothing, as many evaluations as the limit allows, one more, and a release
  let opened : Process :=
    { process with control := evaluating process.control { capacity := evaluationLimit } }
  let full : Process := { process with control := evaluating process.control { capacity := 0 } }
  have opens : step evaluationLimit process (.remove .evaluation "") = opened := by
    have resolved : process.control.resolveFor evaluationLimit .evaluation =
        evaluating process.control { capacity := evaluationLimit } := by
      rw [ConcurrencyControlService.resolveFor, if_pos rfl, ConcurrencyControlService.ensureEvalQueueResolved,
        unresolved, if_neg Bool.false_ne_true, if_pos positive]
      rfl
    rw [step, ConcurrencyControlService.remove, ConcurrencyControlService.withQueue, resolved]
    simp [evaluating, ConcurrencyControlService.queueType, ConcurrencyControlService.queueOf,
      ConcurrencyQueue.remove, ConcurrencyQueue.has, ConcurrencyControlService.setQueue, Process.call, opened]
  have fills : after (step evaluationLimit) opened
      (List.replicate evaluationLimit.toNat (.throttle .evaluation "" 0)) = full := by
    have filled := @throttle_free evaluationLimit process.control opened evaluationLimit.toNat evaluationLimit
      (by omega) rfl
    rw [whole, Int.sub_self] at filled
    exact filled
  refine ⟨.remove .evaluation "" :: (List.replicate evaluationLimit.toNat (.throttle .evaluation "" 0) ++
    [.throttle .evaluation "" 0, .release .evaluation]), ?_⟩
  rw [after, List.foldl_cons, opens, List.foldl_append]
  rw [after] at fills
  rw [fills]
  show process.admitted ++ [] ++ [(⟨"", 0⟩ : Item)] ≠ []
  simp

/-- A shutdown starts nothing, whatever happens while it waits, exactly when nothing is queued or to be
stopped when it begins, and the queue of evaluations has been resolved before or has no limit; and
without these last conditions in every run in which no call resolves that queue. -/
theorem startsNothing_iff (evaluationLimit : Int) (cancelAll : Bool) (active : ActiveExecutions.State)
    (control : ConcurrencyControlService) :
    ((∀ events, StartsNothing cancelAll active control
        (after (step evaluationLimit) (shutdown cancelAll active control) events)) ↔
      control.queued = [] ∧ toCancel cancelAll active = [] ∧
        (control.evalQueueResolved = true ∨ evaluationLimit ≤ 0)) ∧
    ∀ events, control.queued = [] → toCancel cancelAll active = [] →
      Along (step evaluationLimit) (fun process event => ¬ Resolves evaluationLimit process event)
        (shutdown cancelAll active control) events →
      StartsNothing cancelAll active control
        (after (step evaluationLimit) (shutdown cancelAll active control) events) := by
  have runs : ∀ events, control.queued = [] → toCancel cancelAll active = [] →
      Along (step evaluationLimit) (fun process event => ¬ Resolves evaluationLimit process event)
        (shutdown cancelAll active control) events →
      StartsNothing cancelAll active control
        (after (step evaluationLimit) (shutdown cancelAll active control) events) := by
    intro events unqueued nothing quiet
    have begun : Idle (shutdown cancelAll active control) := ⟨rfl, unqueued, rfl⟩
    have idle := idle_after begun quiet
    refine ⟨idle.admitted, fun _ => idle.queues, fun executionId among => ?_⟩
    simp [unqueued, nothing] at among
  refine ⟨⟨fun starts => ?_, ?_⟩, runs⟩
  · have begun := (starts []).cancelled
    have nothing := List.append_eq_nil_iff.1 (List.eq_nil_iff_forall_not_mem.2 fun executionId among =>
      List.not_mem_nil (begun executionId among))
    refine ⟨nothing.1, nothing.2, ?_⟩
    by_contra unsettled
    obtain ⟨events, admits⟩ := @admitted_of_unresolved evaluationLimit (shutdown cancelAll active control)
      (Bool.not_eq_true _ ▸ fun resolved => unsettled (.inl resolved)) (by omega)
    exact admits (starts events).admitted
  · rintro ⟨unqueued, nothing, settled⟩ events
    exact runs events unqueued nothing (along_quiet settled)

def oneRuns : ActiveExecutions.State where
  activeExecutions := (∅ : OrderedMap String Nat).set "1" 0
  executions := [{ executionId := "1", capacityReservation := ⟨true, 1, 0⟩, status := .running }]

def oneWaits : ConcurrencyControlService where
  isEnabled := true
  production := some { capacity := -1, queue := [⟨"2", 0⟩] }
  evaluation := none
  evalQueueResolved := true

/-- When the execution that runs has ended the shutdown is finished, and the other is still queued. -/
theorem not_startsNothing_queued :
    ¬ ∀ events, StartsNothing false oneRuns oneWaits
      (after (step (-1)) (shutdown false oneRuns oneWaits) events) := by
  intro starts
  have finished := (starts [.active (.runEnds 0), .active (.postExecuted 0), .release .webhook]).queues rfl
  cases finished

end NodeAutomation.ConcurrencyControl
