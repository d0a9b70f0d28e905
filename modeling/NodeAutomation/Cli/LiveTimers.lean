import NodeAutomation.Cli.WaitTracker
import NodeAutomation.Lib.Pairing
import NodeAutomation.Lib.Places

/-! What a step does to the timers that are stored and to those that are pending, and when
the two stay paired. -/

namespace NodeAutomation.WaitTracker

open Pairing Places

section

variable (timers : List Timer)
include timers

theorem pendingFor_length : pendingFor timers timers.length = none := by
  rw [pendingFor, List.getElem?_eq_none (Nat.le_refl _)]
  rfl

theorem pendingFor_concat {t : Timer} (pending : t.status = .pending) :
    pendingFor (timers ++ [t]) = Function.update (pendingFor timers) timers.length (some t.executionId) := by
  funext timer
  cases Nat.lt_trichotomy timer timers.length with
  | inl before =>
    rw [Function.update_of_ne (Nat.ne_of_lt before), pendingFor, List.getElem?_append_left before, pendingFor]
  | inr rest =>
    cases rest with
    | inl last =>
      rw [last, Function.update_self, pendingFor, List.getElem?_concat_length]
      simp [pending]
    | inr behind =>
      rw [Function.update_of_ne (Nat.ne_of_gt behind), pendingFor, pendingFor,
        List.getElem?_eq_none (Nat.le_of_lt behind), List.getElem?_eq_none]
      rw [List.length_append]
      exact behind

theorem pendingFor_modify (timer : Nat) {f : Timer → Timer}
    (expired : ∀ t, (f t).status ≠ .pending) :
    pendingFor (timers.modify timer f) = Function.update (pendingFor timers) timer none := by
  funext other
  rw [pendingFor, List.getElem?_modify]
  cases eq_or_ne timer other with
  | inl same =>
    rw [same, Function.update_self]
    cases timers[other]? with
    | none => rfl
    | some t => simp [expired t]
  | inr apart =>
    rw [Function.update_of_ne apart.symm, pendingFor]
    cases timers[other]? with
    | none => rfl
    | some t => simp [apart]

theorem pendingFor_clearTimeout (timer : Nat) :
    pendingFor (clearTimeout timers timer) = Function.update (pendingFor timers) timer none := by
  refine pendingFor_modify timers timer fun t => ?_
  split
  case isTrue => exact nofun
  case isFalse expired => exact expired

end

theorem pendingFor_cleared_of_none {timers : List Timer} {timer : Nat} (cleared : List Nat)
    (expired : pendingFor timers timer = none) :
    pendingFor (cleared.foldl clearTimeout timers) timer = none := by
  induction cleared generalizing timers with
  | nil => exact expired
  | cons first rest ih =>
    refine ih ?_
    rw [pendingFor_clearTimeout, Function.update_apply]
    split
    case isTrue => rfl
    case isFalse => exact expired

theorem pendingFor_cleared {cleared : List Nat} {timer : Nat} (member : timer ∈ cleared)
    (timers : List Timer) : pendingFor (cleared.foldl clearTimeout timers) timer = none := by
  induction cleared generalizing timers with
  | nil => exact absurd member (by simp)
  | cons first rest ih =>
    cases List.mem_cons.1 member with
    | inl same =>
      refine pendingFor_cleared_of_none rest ?_
      rw [pendingFor_clearTimeout, same, Function.update_self]
    | inr later => exact ih later _

namespace State

variable {s s' : State} {executionId : String} {waiting : WaitingExecution}

theorem stored_of_set
    (set : s'.waitingExecutions = s.waitingExecutions.set executionId waiting) :
    s'.stored = Function.update s.stored executionId (some waiting.timer) := by
  funext other
  rw [stored, set, OrderedMap.get_set, Function.update_apply]
  split
  case isTrue => rfl
  case isFalse => rfl

theorem stored_of_delete (delete : s'.waitingExecutions = s.waitingExecutions.delete executionId) :
    s'.stored = Function.update s.stored executionId none := by
  funext other
  rw [stored, delete, OrderedMap.get_delete, Function.update_apply]
  split
  case isTrue => rfl
  case isFalse => rfl

theorem stored_eq_none_iff :
    s.stored executionId = none ↔ s.waitingExecutions.get executionId = none := Option.map_eq_none_iff

variable (now : Int) (execution : DueExecution) (executions : List DueExecution)

theorem tracking_schedule : (s.schedule now execution).tracking = s.tracking := by
  rw [schedule]
  split
  · rfl
  · rfl

theorem schedule_stored {timer : Nat} (already : s.stored executionId = some timer) :
    (s.schedule now execution).stored executionId = some timer := by
  rw [schedule]
  split
  case h_1 absent =>
    rw [stored_of_set rfl, Function.update_of_ne, already]
    intro same
    rw [same, stored_eq_none_iff.2 absent] at already
    exact nomatch already
  case h_2 => exact already

theorem stored_schedule : ∃ timer, (s.schedule now execution).stored execution.id = some timer := by
  rw [schedule]
  split
  case h_1 => exact ⟨s.timers.length, by rw [stored_of_set rfl, Function.update_self]⟩
  case h_2 waiting present => exact ⟨waiting.timer, by rw [stored, present]; rfl⟩

theorem schedule_paired (h : Paired s.stored (pendingFor s.timers)) :
    Paired (s.schedule now execution).stored (pendingFor (s.schedule now execution).timers) := by
  rw [schedule]
  split
  case h_1 absent =>
    rw [stored_of_set rfl, pendingFor_concat _ rfl]
    exact h.add (stored_eq_none_iff.2 absent) (pendingFor_length s.timers)
  case h_2 => exact h

theorem tracking_schedules : (executions.foldl (schedule now) s).tracking = s.tracking := by
  induction executions generalizing s with
  | nil => rfl
  | cons execution rest ih => exact ih.trans (tracking_schedule now execution)

theorem schedules_stored {timer : Nat} (already : s.stored executionId = some timer) :
    (executions.foldl (schedule now) s).stored executionId = some timer := by
  induction executions generalizing s with
  | nil => exact already
  | cons execution rest ih => exact ih (schedule_stored now execution already)

theorem stored_schedules {execution : DueExecution} {executions : List DueExecution}
    (member : execution ∈ executions) :
    ∃ timer, (executions.foldl (schedule now) s).stored execution.id = some timer := by
  induction executions generalizing s with
  | nil => exact absurd member (by simp)
  | cons first rest ih =>
    cases List.mem_cons.1 member with
    | inl same =>
      obtain ⟨timer, its⟩ := stored_schedule (s := s) now first
      exact ⟨timer, schedules_stored now rest (same ▸ its)⟩
    | inr later => exact ih later

theorem schedules_paired (h : Paired s.stored (pendingFor s.timers)) :
    Paired (executions.foldl (schedule now) s).stored
      (pendingFor (executions.foldl (schedule now) s).timers) := by
  induction executions generalizing s with
  | nil => exact h
  | cons execution rest ih => exact ih (schedule_paired now execution h)

namespace Live

variable (h : s.Live)

include h

theorem congr (stored : s'.stored = s.stored) (timers : s'.timers = s.timers)
    (tracking : s'.tracking = s.tracking) : s'.Live where
  paired := by
    rw [stored, timers]
    exact h.paired
  stopped off := by
    rw [timers]
    exact h.stopped (tracking ▸ off)

theorem remove {timer : Nat} (its : s.stored executionId = some timer)
    (stored : s'.stored = Function.update s.stored executionId none)
    (pending : pendingFor s'.timers = Function.update (pendingFor s.timers) timer none)
    (tracking : s'.tracking = s.tracking) : s'.Live where
  paired := by
    rw [stored, pending]
    exact Paired.remove h.paired its
  stopped off other := by
    rw [pending, Function.update_apply]
    split
    case isTrue => rfl
    case isFalse => exact h.stopped (tracking ▸ off) other

theorem startTracking : s.startTracking.Live where
  paired := h.paired
  stopped off := by
    have on : s.startTracking.tracking = true := by
      simp [tracking, State.startTracking, getWaitingExecutions]
    exact nomatch on.symm.trans off

theorem stopExecution : (s.stopExecution executionId).Live := by
  rw [State.stopExecution]
  split
  case h_1 => exact h
  case h_2 waiting present =>
    have its : s.stored executionId = some waiting.timer := by rw [stored, present]; rfl
    exact h.remove its (stored_of_delete rfl) (pendingFor_clearTimeout _ _) rfl

theorem timerFires {timer : Nat} : (s.timerFires timer).Live := by
  rw [State.timerFires]
  split
  case h_1 => exact h
  case h_2 t here =>
    split
    case isFalse => exact h
    case isTrue status =>
      have pending : pendingFor s.timers timer = some t.executionId := by simp [pendingFor, here, status]
      exact h.remove ((h.paired _ _).2 pending) (stored_of_delete rfl)
        (pendingFor_modify _ _ fun _ => nofun) rfl

theorem startExecution_iff :
    (s.startExecution executionId).Live ↔ s.waitingExecutions.get executionId = none := by
  have gone : (s.startExecution executionId).stored = Function.update s.stored executionId none :=
    stored_of_delete rfl
  refine ⟨fun live => ?_, fun absent => ?_⟩
  · rw [← stored_eq_none_iff]
    cases its : s.stored executionId with
    | none => rfl
    | some timer =>
      have still := (live.paired executionId timer).2 ((h.paired executionId timer).1 its)
      rw [gone, Function.update_self] at still
      exact nomatch still
  · have same : (s.startExecution executionId).stored = s.stored := by
      rw [gone, ← stored_eq_none_iff.2 absent, Function.update_eq_self]
    exact h.congr same rfl rfl

theorem stopTracking_iff :
    s.stopTracking.Live ↔ s.mainTimer = none ∨ s.waitingExecutions.size = 0 := by
  rw [State.stopTracking]
  split
  case h_1 untracked => exact ⟨fun _ => .inl untracked, fun _ => h⟩
  case h_2 mainTimer tracked =>
    refine ⟨fun live => .inr ((OrderedMap.size_eq_zero_iff_get _).2 fun executionId => ?_), fun empty => ?_⟩
    · cases present : s.waitingExecutions.get executionId with
      | none => rfl
      | some waiting =>
        have its : s.stored executionId = some waiting.timer := by rw [stored, present]; rfl
        have member : waiting.timer ∈ s.waitingExecutions.values.map fun waiting => waiting.timer :=
          List.mem_map_of_mem ((OrderedMap.mem_values_iff _ _).2 ⟨executionId, present⟩)
        have expired := pendingFor_cleared member s.timers
        exact nomatch expired.symm.trans ((live.paired executionId waiting.timer).1 its)
    · have absent := (OrderedMap.size_eq_zero_iff_get _).1
        (empty.resolve_left fun untracked => nomatch untracked.symm.trans tracked)
      have expired := Paired.none_of_none h.paired fun executionId => stored_eq_none_iff.2 (absent executionId)
      have still (timer : Nat) := pendingFor_cleared_of_none
        (s.waitingExecutions.values.map fun waiting => waiting.timer) (expired timer)
      refine ⟨fun executionId timer => ?_, fun _ => still⟩
      rw [still timer]
      refine ⟨fun its => ?_, nofun⟩
      exact nomatch its.symm.trans (stored_eq_none_iff.2 (absent executionId))

theorem answered_iff {now : Int} {executions : List DueExecution} :
    (s.answered (.ok executions) now).Live ↔ s.queries = 0 ∨ s.tracking = true ∨ executions = [] := by
  rw [answered]
  split
  case isTrue idle => exact ⟨fun _ => .inl idle, fun _ => h⟩
  case isFalse inFlight =>
    generalize asked : ({ s with queries := s.queries - 1 } : State) = s'
    have live : s'.Live := asked ▸ h.congr rfl rfl rfl
    have same : s'.tracking = s.tracking := asked ▸ rfl
    have kept : (executions.foldl (schedule now) s').tracking = s.tracking :=
      (tracking_schedules now executions).trans same
    refine ⟨fun after => .inr ?_, fun orderly => ?_⟩
    · cases on : s.tracking with
      | true => exact .inl rfl
      | false =>
        cases executions with
        | nil => exact .inr rfl
        | cons execution rest =>
          obtain ⟨timer, its⟩ := stored_schedules (s := s') now (List.mem_cons_self (a := execution) (l := rest))
          exact nomatch ((after.paired _ _).1 its).symm.trans (after.stopped (kept.trans on) timer)
    · cases orderly.resolve_left inFlight with
      | inl on =>
        exact ⟨schedules_paired now executions live.paired,
          fun off => nomatch (kept.trans on).symm.trans off⟩
      | inr none =>
        rw [none]
        exact live

theorem answered_error (message : String) (now : Int) : (s.answered (.error message) now).Live := by
  rw [answered]
  split
  case isTrue => exact h
  case isFalse => exact h.congr rfl rfl rfl

theorem setStage {call : Nat} {stage : StartStage} : (s.setStage call stage).Live :=
  h.congr rfl rfl rfl

theorem found {call : Nat} {result : Except String (Option FullExecutionData)} :
    (s.found call result).Live := by
  rw [State.found.eq_def]
  split
  case h_2 => exact h
  case h_1 =>
    split
    case h_1 => exact h.setStage
    case h_2 => exact h.setStage
    case h_3 =>
      split
      case isTrue => exact h.setStage
      case isFalse => split <;> exact h.setStage

theorem owned {call : Nat} {result : Except String String} : (s.owned call result).Live := by
  rw [State.owned]
  split
  case h_2 => exact h
  case h_1 =>
    split
    case h_1 => exact h.setStage
    case h_2 => exact h.congr rfl rfl rfl

theorem ran {call : Nat} {result : RunResult} : (s.ran call result).Live := by
  rw [State.ran]
  split
  case h_2 => exact h
  case h_1 =>
    split
    case h_1 => exact h.setStage
    case h_2 => exact h.setStage
    case h_3 =>
      split
      case h_1 => exact h.setStage
      case h_2 => exact h.congr rfl rfl rfl

theorem step_iff (action : Action) : (step s action).Live ↔ Orderly s action := by
  cases action with
  | init isLeader =>
    refine iff_of_true ?_ trivial
    cases isLeader with
    | true => exact h.startTracking
    | false => exact h
  | startTracking => exact iff_of_true h.startTracking trivial
  | stopTracking => exact h.stopTracking_iff
  | intervalFires interval =>
    refine iff_of_true ?_ trivial
    rw [step, intervalFires]
    split
    case isTrue => exact h.congr rfl rfl rfl
    case isFalse => exact h
  | getWaitingExecutions => exact iff_of_true (h.congr rfl rfl rfl) trivial
  | answered result now =>
    cases result with
    | error message => exact iff_of_true (h.answered_error message now) trivial
    | ok executions => exact h.answered_iff
  | stopExecution executionId => exact iff_of_true h.stopExecution trivial
  | timerFires timer => exact iff_of_true h.timerFires trivial
  | startExecution executionId => exact h.startExecution_iff
  | found call result => exact iff_of_true h.found trivial
  | owned call result => exact iff_of_true h.owned trivial
  | ran call result => exact iff_of_true h.ran trivial

end Live

theorem live_empty : State.Live {} where
  paired _ _ := ⟨nofun, nofun⟩
  stopped _ _ := rfl

end State

theorem tracked_iff_live {s : State} {action : Action} : Tracked s action ↔ (step s action).Live := by
  refine ⟨Tracked.live, fun live => ⟨live, ?_⟩⟩
  intro executions now answered inFlight _ execution member
  obtain ⟨timer, its⟩ : ∃ timer, (step s action).stored execution.id = some timer := by
    rw [answered, step, State.answered, if_neg (Nat.ne_of_gt inFlight)]
    exact State.stored_schedules now member
  exact ⟨timer, its, (live.paired execution.id timer).1 its⟩

/-- Timers are live all along a run exactly when tracking stops, queries answer and
executions start in it only where no timer is lost or left behind. -/
theorem tracked_along_iff (actions : List Action) :
    Runs.Along step Tracked {} actions ↔ Runs.Along step Orderly {} actions :=
  Runs.along_iff (I := State.Live) (W := fun _ _ => True)
    (fun _ action h _ => tracked_iff_live.trans (h.step_iff action))
    (fun _ _ _ _ tracked => tracked.live) State.live_empty
    (Runs.along_of_forall (R := fun _ => True) fun _ _ => trivial)

/-- A leader that steps down and takes over again: the entry it kept has no timer. -/
theorem takeover_leaves_untimed :
    ¬ Runs.Along step Tracked {}
      [.startTracking, .answered (.ok [⟨"1", 5000⟩]) 0, .stopTracking,
        .startTracking, .answered (.ok [⟨"1", 5000⟩]) 10] := by
  intro tracked
  obtain ⟨timer, its, pending⟩ :=
    tracked.2.2.2.2.1.given _ _ rfl (by decide) (by decide) ⟨"1", 5000⟩ (by simp)
  have stored : (Runs.after step {}
      [.startTracking, .answered (.ok [⟨"1", 5000⟩]) 0, .stopTracking,
        .startTracking, .answered (.ok [⟨"1", 5000⟩]) 10]).stored "1" = some 0 := by decide
  have expired : pendingFor (Runs.after step {}
      [.startTracking, .answered (.ok [⟨"1", 5000⟩]) 0, .stopTracking,
        .startTracking, .answered (.ok [⟨"1", 5000⟩]) 10]).timers 0 = none := by decide
  rw [← Option.some.inj (stored.symm.trans its)] at pending
  exact nomatch expired.symm.trans pending

end NodeAutomation.WaitTracker
