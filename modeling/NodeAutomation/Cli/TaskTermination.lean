import NodeAutomation.Cli.TaskView
import NodeAutomation.Lib.Runs

/-! The end of a task, as its requester hears of it. `cancelTask` and `failTask` delete
the task before they send anything; `taskDoneHandler` and `taskErrorHandler` delete it
behind the `await`, and until then it can end once more. -/

namespace NodeAutomation.TaskBroker

def Sent.terminates (taskId : TaskId) : Sent → Bool
  | .toRequester _ (.taskdone id _) | .toRequester _ (.taskerror id _) => id = taskId
  | _ => false

def State.terminals (taskId : TaskId) (s : State) : Nat := s.sent.countP (Sent.terminates taskId)

/-- A handler that has told the requester has yet to delete its task, or has failed to,
and the action makes another one tell it again. -/
def Suspended.disturbed (mode : Mode) (s : State) (action : Action) : Suspended → Bool
  | .finishing taskId _ => endsTask mode s taskId action
  | _ => false

def Undisturbed (mode : Mode) (s : State) (action : Action) : Prop :=
  ∀ call ∈ s.suspended, call.disturbed mode s action = false

instance (mode : Mode) (s : State) (action : Action) : Decidable (Undisturbed mode s action) :=
  inferInstanceAs (Decidable (∀ call ∈ s.suspended, call.disturbed mode s action = false))

namespace TaskView

def terminals (taskId : TaskId) (v : TaskView) : Nat := v.sent.countP (Sent.terminates taskId)

/-- The task has ended at most once so far; if it is still there, the handler of its end
is suspended, or was left by an exception. -/
structure Terminated (taskId : TaskId) (v : TaskView) : Prop where
  once : v.terminals taskId ≤ 1
  ending : v.terminals taskId = 1 → v.task ≠ none → v.ending = true
  unaccepted : v.Unaccepted → v.terminals taskId = 0

variable {mode : Mode} {s : State} {action : Action} {taskId : TaskId} {v w : TaskView}

theorem terminals_hears (heard : Prop) [Decidable heard] (message : Sent) :
    (v.hears heard message).terminals taskId =
      v.terminals taskId + if heard ∧ message.terminates taskId = true then 1 else 0 := by
  by_cases h : heard
  · simp [terminals, hears, h, List.countP_append, List.countP_cons]
  · simp [terminals, hears, h]

namespace Terminated

section

variable (h : v.Terminated taskId)
include h

theorem of_eq (sent : w.terminals taskId = v.terminals taskId)
    (task : w.task ≠ none → v.task ≠ none ∧ (v.ending = true → w.ending = true))
    (unaccepted : w.Unaccepted → v.Unaccepted) : w.Terminated taskId := by
  refine ⟨by rw [sent]; exact h.once, fun one there => ?_, fun early => ?_⟩
  · rw [sent] at one
    obtain ⟨was, still⟩ := task there
    exact still (h.ending one was)
  · rw [sent]
    exact h.unaccepted (unaccepted early)

theorem of_gone (sent : w.sent = v.sent) (gone : w.task = none)
    (unaccepted : w.Unaccepted → v.Unaccepted) : w.Terminated taskId :=
  h.of_eq (by rw [terminals, sent, terminals]) (fun there => absurd gone there) unaccepted

theorem of_unaccepted (early : v.Unaccepted)
    (sent : w.terminals taskId = v.terminals taskId) : w.Terminated taskId := by
  have none := h.unaccepted early
  rw [none] at sent
  exact ⟨by omega, by omega, fun _ => sent⟩

theorem untold (there : v.task ≠ none) (idle : v.ending = false) :
    v.terminals taskId = 0 := by
  have once := h.once
  have ending := h.ending
  by_cases one : v.terminals taskId = 1
  · exact absurd (idle.symm.trans (ending one there)) (by decide)
  · omega

theorem of_told (message : Sent) {heard : Prop} [Decidable heard]
    (silent : heard → v.terminals taskId = 0) (after : w.task = none ∨ w.ending = true)
    (accepted : ¬ w.Unaccepted)
    (sent : w.terminals taskId = (v.hears heard message).terminals taskId) :
    w.Terminated taskId := by
  rw [terminals_hears] at sent
  refine ⟨?_, fun _ there => after.resolve_left there, fun early => absurd early accepted⟩
  have once := h.once
  by_cases heard : heard
  · have silent := silent heard
    split at sent <;> omega
  · rw [if_neg fun both => heard both.1] at sent
    omega

end

variable (h : (s.view taskId).Terminated taskId) (sound : (s.view taskId).Sound taskId)
  (undisturbed : (s.view taskId).ending = true → endsTask mode s taskId action = false)

include h undisturbed in
theorem silent_of_ends {task : Task} (here : (s.view taskId).task = some task)
    (ends : endsTask mode s taskId action = true) : (s.view taskId).terminals taskId = 0 := by
  refine h.untold (by simp [here]) ?_
  rw [Bool.eq_false_iff]
  exact fun ending => absurd ends (by simp [undisturbed ending])

include h sound undisturbed

section

variable (ends : ∀ task, (s.view taskId).task = some task → task.requesterId ∈ s.requesters → endsTask mode s taskId action = true)
include ends

theorem of_failed {error : JsValue} :
    ((s.view taskId).failed s.requesters taskId error).Terminated taskId := by
  cases here : (s.view taskId).task with
  | none =>
    rw [failed, here]
    exact h
  | some task =>
    have accepted : ¬ ((s.view taskId).failed s.requesters taskId error).Unaccepted := by
      rw [Unaccepted, stage_failed]
      exact sound.not_unaccepted here
    refine h.of_told (.toRequester task.requesterId (.taskerror taskId error))
      (fun known => silent_of_ends h undisturbed here (ends task here known))
      (.inl (task_failed _ _ _ _)) accepted ?_
    rw [failed, here]
    rfl

theorem of_finishing {message : BrokerMessage.ToRequester} :
    ((s.view taskId).finishing s.requesters message).Terminated taskId := by
  cases here : (s.view taskId).task with
  | none =>
    rw [finishing, here]
    exact h
  | some task =>
    have accepted : ¬ ((s.view taskId).finishing s.requesters message).Unaccepted := by
      rw [Unaccepted, (finishing_keeps s.requesters message (s.view taskId)).2]
      exact sound.not_unaccepted here
    refine h.of_told (.toRequester task.requesterId message)
      (fun known => silent_of_ends h undisturbed here (ends task here known)) (.inr ?_) accepted ?_
    · rw [finishing, here]
      rfl
    · rw [finishing, here]
      rfl

end

theorem of_change (change : Change mode s action taskId v) : v.Terminated taskId := by
  cases change with
  | same => exact h
  | offered unused => exact h.of_unaccepted (.inl unused) rfl
  | delivered offering => exact h.of_unaccepted (.inr (.inl offering)) rfl
  | refused unaccepted => exact h.of_unaccepted unaccepted rfl
  | orphaned task own lost awaiting => exact h.of_unaccepted (.inr (.inr awaiting)) rfl
  | readied task requestId own awaiting =>
    refine h.of_unaccepted (.inr (.inr awaiting)) ?_
    rw [terminals_hears, if_neg (by simp [Sent.terminates])]
    rfl
  | accepted => exact h.of_eq rfl (fun there => ⟨there, fun ending => ending⟩) fun early => early
  | timedOut => exact h.of_eq rfl (fun there => ⟨there, fun ending => ending⟩) fun early => early
  | awaited => exact h.of_eq rfl (fun there => ⟨there, fun ending => ending⟩) (by simp [Unaccepted])
  | abandoned => exact h.of_gone rfl rfl (by simp [Unaccepted])
  | absent gone => exact h.of_gone rfl gone (by simp [Unaccepted])
  | runnerFound => exact h.of_eq rfl (fun there => ⟨there, fun ending => ending⟩) (by simp [Unaccepted])
  | runnerNotFound error ends =>
    have failed : ((s.view taskId).failed s.requesters taskId error).Terminated taskId :=
      of_failed h sound undisturbed ends
    exact failed.of_eq rfl (fun there => ⟨there, fun ending => ending⟩) (by simp [Unaccepted])
  | settingsSent task settings runnerId timeout here getting =>
    refine h.of_eq ?_ (fun _ => ⟨by simp [here], fun ending => ending⟩) (by simp [Unaccepted, hears])
    rw [terminals_hears, if_neg (by simp [Sent.terminates])]
    rfl
  | completed => exact h.of_eq rfl (fun there => ⟨there, fun ending => ending⟩) (by simp [Unaccepted])
  | dropped => exact h.of_gone rfl rfl fun early => early
  | failed error ends => exact of_failed h sound undisturbed ends
  | finishing message names unready ends => exact of_finishing h sound undisturbed ends

end Terminated

end TaskView

theorem Undisturbed.of_ending {mode : Mode} {s : State} {action : Action}
    (undisturbed : Undisturbed mode s action) {taskId : TaskId}
    (ending : (s.view taskId).ending = true) : endsTask mode s taskId action = false := by
  obtain ⟨call, member, ends⟩ := List.any_eq_true.1 ending
  have here := undisturbed call member
  cases call with
  | finishing id thrown =>
    have same : id = taskId := of_decide_eq_true ends
    rw [← same]
    exact here
  | timingOut => exact absurd ends (by simp [Suspended.ends])
  | responding => exact absurd ends (by simp [Suspended.ends])
  | returned => exact absurd ends (by simp [Suspended.ends])

theorem terminals_view (taskId : TaskId) (s : State) :
    (s.view taskId).terminals taskId = s.terminals taskId := by
  rw [TaskView.terminals, State.view, State.terminals, List.countP_filter]
  refine List.countP_congr fun message _ => ?_
  rw [Bool.and_eq_true, and_iff_left_iff_imp]
  intro terminates
  cases message with
  | toRunner runnerId message => exact absurd terminates (by simp [Sent.terminates])
  | toRequester requesterId message =>
    cases message <;> simp_all [Sent.terminates, Sent.concerns]

/-- A requester hears the end of a task at most once, in a run that lets the handler of
an end delete its task before another one tells the requester. -/
theorem terminals_le_one_of_undisturbed {mode : Mode} {actions : List Action}
    (undisturbed : Runs.Along (step mode) (Undisturbed mode) {} actions) (taskId : TaskId) :
    (Runs.after (step mode) {} actions).terminals taskId ≤ 1 := by
  have kept := Runs.holds_after
    (I := fun s => ∀ id, (s.view id).Sound id ∧ (s.view id).Terminated id)
    (fun s action both undisturbed id => ?_) (fun id => ?_) undisturbed
  · rw [← terminals_view]
    exact (kept taskId).2.once
  · have change : Change mode s action id ((step mode s action).view id) :=
      view_step_of_sound (fun id => (both id).1) action id
    exact ⟨(both id).1.of_change change,
      .of_change (both id).2 (both id).1 undisturbed.of_ending change⟩
  · exact ⟨sound_initial id, by simp [TaskView.terminals, State.view],
      fun _ there => absurd rfl there, fun _ => rfl⟩

theorem terminals_le_one_after_taskdone :
    (Runs.after (step .internal) {} (handshake "runner" "requester" ++
      [.runnerMessage "runner" (.taskdone 0 .null) 0, .resume 0 true,
        .runnerMessage "runner" (.taskdone 0 .null) 0])).terminals 0 ≤ 1 :=
  terminals_le_one_of_undisturbed (by decide) 0

/-- The runner repeats itself while the requester is being told. -/
theorem taskdone_told_twice : ¬ ∀ (mode : Mode) (actions : List Action) (taskId : TaskId),
    (Runs.after (step mode) {} actions).terminals taskId ≤ 1 :=
  fun once => absurd
    (once .internal (handshake "runner" "requester" ++
      [.runnerMessage "runner" (.taskdone 0 .null) 0,
        .runnerMessage "runner" (.taskdone 0 .null) 0]) 0)
    (by decide)

end NodeAutomation.TaskBroker
