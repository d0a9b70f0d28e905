import NodeAutomation.Cli.TaskBroker
import NodeAutomation.Lib.Places

/-! One task as the broker sees it: its entry in `tasks`, the call of `acceptOffer` that
made it, and what its requester and its runner were told. Every step of the broker
changes the view of a task in one of the ways that `Change` lists. -/

namespace NodeAutomation.TaskBroker

def Sent.concerns (taskId : TaskId) : Sent → Bool
  | .toRequester _ (.taskready _ id) | .toRequester _ (.taskdone id _)
  | .toRequester _ (.taskerror id _) | .toRunner _ (.tasksettings id _) => id = taskId
  | _ => false

def Suspended.ends (taskId : TaskId) : Suspended → Bool
  | .finishing id _ => id = taskId
  | _ => false

structure TaskView where
  task : Option Task
  stage : Option AcceptStage
  requesterAccept : RequesterAccept
  ending : Bool
  sent : List Sent

namespace TaskView

def hears (heard : Prop) [Decidable heard] (message : Sent) (v : TaskView) : TaskView :=
  { v with sent := v.sent ++ if heard then [message] else [] }

def failed (requesters : OrderedSet String) (taskId : TaskId) (error : JsValue) (v : TaskView) :
    TaskView :=
  match v.task with
  | none => v
  | some task => ({ v with task := none } : TaskView).hears (task.requesterId ∈ requesters)
      (.toRequester task.requesterId (.taskerror taskId error))

variable (requesters : OrderedSet String)

theorem stage_failed (taskId : TaskId) (error : JsValue)
    (v : TaskView) : (v.failed requesters taskId error).stage = v.stage := by
  rw [failed]
  split <;> rfl

theorem task_failed (taskId : TaskId) (error : JsValue)
    (v : TaskView) : (v.failed requesters taskId error).task = none := by
  cases here : v.task <;> simp [failed, hears, here]

/-- `taskDoneHandler` and `taskErrorHandler`, before they delete the task. -/
def finishing (requesters : OrderedSet String) (message : BrokerMessage.ToRequester)
    (v : TaskView) : TaskView :=
  match v.task with
  | none => v
  | some task => ({ v with ending := true } : TaskView).hears (task.requesterId ∈ requesters)
      (.toRequester task.requesterId message)

theorem finishing_keeps (message : BrokerMessage.ToRequester)
    (v : TaskView) : (v.finishing requesters message).task = v.task ∧
      (v.finishing requesters message).stage = v.stage := by
  rw [finishing]
  split <;> exact ⟨rfl, rfl⟩

/-- No runner has accepted the task, or it has not been offered to one. -/
def Unaccepted (v : TaskView) : Prop :=
  v.stage = none ∨ v.stage = some .offering ∨ v.stage = some .awaitingRunner

/-- A task stands under its own id, and only once its runner has accepted it. -/
structure Sound (taskId : TaskId) (v : TaskView) : Prop where
  own : ∀ task, v.task = some task → task.id = taskId
  accepted : v.Unaccepted → v.task = none

end TaskView

namespace State

variable (taskId : TaskId) (s : State)

def view : TaskView where
  task := s.tasks.get taskId
  stage := s.acceptOffers[taskId]?.map AcceptOffer.stage
  requesterAccept := (s.acceptOffers[taskId]?.map AcceptOffer.requesterAccept).getD .pending
  ending := s.suspended.any (Suspended.ends taskId)
  sent := s.sent.filter (Sent.concerns taskId)

@[simp] theorem view_setTimeout (timer : Timer) : (s.setTimeout timer).view taskId = s.view taskId :=
  rfl

@[simp] theorem view_clearTimeout (timeout : Option Nat) :
    (s.clearTimeout timeout).view taskId = s.view taskId := rfl

theorem view_messageRunner (runnerId : String) (message : BrokerMessage.ToRunner) :
    (s.messageRunner runnerId message).view taskId =
      if (Sent.toRunner runnerId message).concerns taskId
      then (s.view taskId).hears (runnerId ∈ s.knownRunners) (.toRunner runnerId message)
      else s.view taskId := by
  by_cases known : runnerId ∈ s.knownRunners <;>
    by_cases concerned : (Sent.toRunner runnerId message).concerns taskId <;>
      simp [view, messageRunner, TaskView.hears, known, concerned]

theorem view_messageRequester (requesterId : String) (message : BrokerMessage.ToRequester) :
    (s.messageRequester requesterId message).view taskId =
      if (Sent.toRequester requesterId message).concerns taskId
      then (s.view taskId).hears (requesterId ∈ s.requesters) (.toRequester requesterId message)
      else s.view taskId := by
  by_cases known : requesterId ∈ s.requesters <;>
    by_cases concerned : (Sent.toRequester requesterId message).concerns taskId <;>
      simp [view, messageRequester, TaskView.hears, known, concerned]

theorem view_suspend (call : Suspended) : (s.suspend call).view taskId =
    { s.view taskId with ending := (s.view taskId).ending || call.ends taskId } := by
  simp [view, suspend]

variable (id : TaskId)

theorem view_modifyCall (f : AcceptOffer → AcceptOffer) :
    ({ s with acceptOffers := s.acceptOffers.modify id f } : State).view taskId =
      if id = taskId then
        { s.view taskId with
          stage := (s.acceptOffers[taskId]?.map f).map AcceptOffer.stage
          requesterAccept :=
            ((s.acceptOffers[taskId]?.map f).map AcceptOffer.requesterAccept).getD .pending }
      else s.view taskId := by
  by_cases same : id = taskId <;> simp [view, same]

theorem view_modifyCall_of_keeps {f : AcceptOffer → AcceptOffer}
    (stage : ∀ call, (f call).stage = call.stage)
    (requesterAccept : ∀ call, (f call).requesterAccept = call.requesterAccept) :
    ({ s with acceptOffers := s.acceptOffers.modify id f } : State).view taskId = s.view taskId := by
  rw [view_modifyCall]
  split
  case isTrue =>
    cases here : s.acceptOffers[taskId]? with
    | none => simp [view, here]
    | some call => simp [view, here, stage, requesterAccept]
  case isFalse => rfl

theorem view_setStage (stage : AcceptStage) : (s.setStage id stage).view taskId =
    if id = taskId then { s.view taskId with stage := (s.view taskId).stage.map fun _ => stage }
    else s.view taskId := by
  rw [setStage, view_modifyCall]
  congr 1
  cases here : s.acceptOffers[taskId]? <;> simp [view, here]

theorem view_deleteTask : ({ s with tasks := s.tasks.delete id } : State).view taskId =
    if id = taskId then { s.view taskId with task := none } else s.view taskId := by
  by_cases same : id = taskId
  · simp [view, same]
  · simp [view, same, OrderedMap.get_delete_of_ne s.tasks (Ne.symm same)]

theorem view_setTask (task : Task) :
    ({ s with tasks := s.tasks.set id task } : State).view taskId =
      if id = taskId then { s.view taskId with task := some task } else s.view taskId := by
  by_cases same : id = taskId
  · simp [view, same]
  · simp [view, same, OrderedMap.get_set_of_ne s.tasks task (Ne.symm same)]

@[simp] theorem view_settleRunnerAccept (result : RunnerAccept) :
    (s.settleRunnerAccept id result).view taskId = s.view taskId :=
  view_modifyCall_of_keeps taskId s id (fun call => by split <;> rfl) fun call => by split <;> rfl

@[simp] theorem view_answerRunnerAccept (result : RunnerAccept) :
    (s.answerRunnerAccept id result).view taskId = s.view taskId := by
  rw [answerRunnerAccept]
  split
  case isTrue => exact view_settleRunnerAccept taskId s id result
  case isFalse => rfl

theorem view_settleRequesterAccept (result : RequesterAccept) :
    (s.settleRequesterAccept id result).view taskId = s.view taskId ∨
      id = taskId ∧ (s.settleRequesterAccept id result).view taskId =
        { s.view taskId with requesterAccept := result } := by
  rw [settleRequesterAccept, view_modifyCall]
  split
  case isTrue same =>
    cases here : s.acceptOffers[taskId]? with
    | none => exact .inl (by simp [view, here])
    | some call =>
      by_cases pending : call.requesterAccept = .pending
      · exact .inr ⟨same, by simp [view, here, pending]⟩
      · exact .inl (by simp [view, here, pending])
  case isFalse => exact .inl rfl

@[simp] theorem view_setAcceptInProgress (request : Nat) (acceptInProgress : Bool) :
    (s.setAcceptInProgress request acceptInProgress).view taskId = s.view taskId := rfl

@[simp] theorem view_handleRequestTimeout (requestId : String) :
    (s.handleRequestTimeout requestId).view taskId = s.view taskId := by
  rw [handleRequestTimeout]
  split
  case h_1 => rfl
  case h_2 =>
    split
    case h_1 => rfl
    case h_2 =>
      rw [view_messageRequester]
      rfl

theorem view_setSuspended {call : Nat} {old new : Suspended} (here : s.suspended[call]? = some old)
    (same : old.ends taskId = new.ends taskId) :
    ({ s with suspended := s.suspended.set call new } : State).view taskId = s.view taskId := by
  simp [view, Places.any_set_of_eq (Suspended.ends taskId) here same]

def Offered (v v' : TaskView) : Prop := v' = v ∨ v.stage = none ∧ v' = { v with stage := some .offering }

theorem view_acceptOffer (offer request : Nat) :
    Offered (s.view taskId) ((s.acceptOffer offer request).view taskId) := by
  rw [acceptOffer]
  split
  case h_1 => exact .inl rfl
  case h_2 o here =>
    rw [view_messageRunner, if_neg (by simp [Sent.concerns]), view_setTimeout]
    by_cases same : taskId = s.acceptOffers.length
    · refine .inr ⟨by simp [view, same], ?_⟩
      simp [view, same]
    · refine .inl ?_
      have unchanged : (s.acceptOffers ++ [({ offer, request } : AcceptOffer)])[taskId]? =
          s.acceptOffers[taskId]? := by
        cases Nat.lt_or_gt_of_ne same with
        | inl earlier => exact List.getElem?_append_left earlier
        | inr later =>
          rw [List.getElem?_eq_none (Nat.le_of_lt later)]
          exact List.getElem?_eq_none (by rw [List.length_append]; exact later)
      simp [view, unchanged]

theorem Offered.trans {u v w : TaskView} (first : Offered u v) (second : Offered v w) :
    Offered u w := by
  cases first with
  | inl same => rwa [same] at second
  | inr first =>
    cases second with
    | inl same => exact same ▸ .inr first
    | inr second => exact absurd second.1 (by simp [first.2])

theorem view_settleRequest (request : Nat) :
    Offered (s.view taskId) ((s.settleRequest request).view taskId) := by
  rw [settleRequest]
  split
  case h_1 => exact .inl rfl
  case h_2 r here =>
    split
    case isTrue => exact .inl rfl
    case isFalse =>
      split
      case h_1 => exact .inl rfl
      case h_2 offer found => exact view_acceptOffer taskId _ offer request

theorem view_foldl_settleRequest (requests : List Nat) (s : State) :
    Offered (s.view taskId) ((requests.foldl settleRequest s).view taskId) := by
  induction requests generalizing s with
  | nil => exact .inl rfl
  | cons request rest ih =>
    exact (view_settleRequest taskId s request).trans (ih (s.settleRequest request))

theorem view_settleTasks (now : Int) :
    Offered (s.view taskId) ((s.settleTasks now).view taskId) :=
  view_foldl_settleRequest taskId _ (s.expireTasks now)

theorem view_taskRequested (requestId requesterId taskType : String) (now : Int) :
    Offered (s.view taskId)
      ((s.taskRequested requestId requesterId taskType now).view taskId) := by
  rw [taskRequested]
  split
  case isTrue =>
    rw [view_messageRequester]
    exact .inl rfl
  case isFalse => exact view_settleTasks taskId _ now

theorem view_taskOffered (offer : TaskOffer) (now : Int) :
    Offered (s.view taskId) ((s.taskOffered offer now).view taskId) :=
  view_settleTasks taskId _ now

theorem view_cancelTask (reason : String) : (s.cancelTask id reason).view taskId =
    if id = taskId then { s.view taskId with task := none } else s.view taskId := by
  rw [cancelTask]
  split
  case h_1 absent =>
    split
    case isTrue same =>
      rw [same] at absent
      simp [view, absent]
    case isFalse => rfl
  case h_2 task here => rw [view_messageRunner, if_neg (by simp [Sent.concerns]), view_deleteTask]

theorem view_failTask (error : JsValue) : (s.failTask id error).view taskId =
    if id = taskId then (s.view taskId).failed s.requesters taskId error else s.view taskId := by
  rw [failTask]
  split
  case h_1 absent =>
    split
    case isTrue same =>
      rw [same] at absent
      simp [view, TaskView.failed, absent]
    case isFalse => rfl
  case h_2 task here =>
    rw [view_messageRequester, view_deleteTask]
    by_cases same : id = taskId
    · rw [same] at here
      simp [same, view, TaskView.failed, here, Sent.concerns]
    · simp [same, Sent.concerns]

theorem view_finishTask {message : BrokerMessage.ToRequester}
    (names : ∀ requesterId, (Sent.toRequester requesterId message).concerns taskId = (id = taskId)) :
    (s.finishTask id message).view taskId =
      if id = taskId then (s.view taskId).finishing s.requesters message else s.view taskId := by
  rw [finishTask]
  split
  case h_1 absent =>
    split
    case isTrue same =>
      rw [same] at absent
      simp [view, TaskView.finishing, absent]
    case isFalse => rfl
  case h_2 task here =>
    rw [view_suspend, view_messageRequester, view_clearTimeout]
    by_cases same : id = taskId
    · rw [same] at here
      simp [same, names, view, TaskView.finishing, TaskView.hears, here, Suspended.ends]
      rfl
    · simp [same, names, Suspended.ends]

theorem TaskView.failed_failed (requesters : OrderedSet String) (error : JsValue) (v : TaskView) :
    (v.failed requesters taskId error).failed requesters taskId error =
      v.failed requesters taskId error := by
  cases here : v.task <;> simp [TaskView.failed, TaskView.hears, here]

theorem requesters_failTask (error : JsValue) :
    (s.failTask id error).requesters = s.requesters := by
  rw [failTask]
  split <;> rfl

theorem requesters_answerRunnerAccept (result : RunnerAccept) :
    (s.answerRunnerAccept id result).requesters = s.requesters := by
  rw [answerRunnerAccept]
  split <;> rfl

variable (runnerId error : String)

theorem requesters_failTaskOfRunner (task : Task) :
    (s.failTaskOfRunner runnerId error task).requesters = s.requesters := by
  rw [failTaskOfRunner]
  split
  case isTrue => rw [handleRunnerReject, requesters_answerRunnerAccept, requesters_failTask]
  case isFalse => rfl

theorem view_failTaskOfRunner (task : Task) :
    (s.failTaskOfRunner runnerId error task).view taskId =
      if task.id = taskId ∧ task.runnerId = runnerId
      then (s.view taskId).failed s.requesters taskId (.string error) else s.view taskId := by
  rw [failTaskOfRunner]
  by_cases its : task.runnerId = runnerId
  · simp [its, handleRunnerReject, view_failTask]
  · simp [its]

theorem view_foldl_failTaskOfRunner (tasks : List Task) (s : State) :
    (tasks.foldl (failTaskOfRunner runnerId error) s).view taskId =
      if ∃ task ∈ tasks, task.id = taskId ∧ task.runnerId = runnerId
      then (s.view taskId).failed s.requesters taskId (.string error) else s.view taskId := by
  induction tasks generalizing s with
  | nil => simp
  | cons task rest ih =>
    rw [List.foldl_cons, ih, requesters_failTaskOfRunner, view_failTaskOfRunner]
    by_cases first : task.id = taskId ∧ task.runnerId = runnerId
    · simp [first, TaskView.failed_failed]
    · simp [first]

theorem view_deregisterRunner (keyed : ∀ id task, s.tasks.get id = some task → task.id = id)
    (runnerId error : String) : (s.deregisterRunner runnerId error).view taskId =
      if ∃ task, s.tasks.get taskId = some task ∧ task.runnerId = runnerId
      then (s.view taskId).failed s.requesters taskId (.string error) else s.view taskId := by
  have same : (∃ task ∈ s.tasks.values, task.id = taskId ∧ task.runnerId = runnerId) ↔
      ∃ task, s.tasks.get taskId = some task ∧ task.runnerId = runnerId := by
    refine ⟨fun h => ?_, fun h => ?_⟩
    · obtain ⟨task, member, own, its⟩ := h
      obtain ⟨id, here⟩ := (OrderedMap.mem_values_iff s.tasks task).1 member
      rw [← keyed id task here, own] at here
      exact ⟨task, here, its⟩
    · obtain ⟨task, here, its⟩ := h
      have member := (OrderedMap.mem_values_iff s.tasks task).2 ⟨taskId, here⟩
      exact ⟨task, member, keyed taskId task here, its⟩
  rw [deregisterRunner, view_foldl_failTaskOfRunner]
  simp only [same]
  rfl

theorem view_acceptFailed (request : Nat) :
    (s.acceptFailed id request).view taskId =
      if id = taskId then { s.view taskId with stage := (s.view taskId).stage.map fun _ => .finished }
      else s.view taskId := by
  rw [acceptFailed, view_setStage, view_setAcceptInProgress]

theorem view_acceptDeferred (request : Nat) :
    (s.acceptDeferred id request).view taskId = s.view taskId ∨
      (s.acceptDeferred id request).view taskId = (s.acceptFailed id request).view taskId := by
  rw [acceptDeferred]
  split
  case h_1 => exact .inl rfl
  case h_2 =>
    refine .inr ?_
    rw [view_acceptFailed, view_acceptFailed]
    rfl

theorem view_readyFailed : (s.readyFailed id).view taskId =
    if id = taskId then
      { s.view taskId with task := none, stage := (s.view taskId).stage.map fun _ => .cancelling }
    else s.view taskId := by
  rw [readyFailed, view_setStage, view_cancelTask]
  split <;> rfl

theorem view_runnerAccepted_of_ne {id : TaskId} (other : id ≠ taskId) (offer request : Nat) :
    (s.runnerAccepted id offer request).view taskId = s.view taskId := by
  rw [runnerAccepted]
  split
  case h_1 o r atOffer atRequest =>
    dsimp only
    split
    case h_1 => rw [view_setStage, if_neg other, view_setTask, if_neg other, view_clearTimeout]
    case h_2 =>
      rw [view_setStage, if_neg other, view_messageRequester, if_neg (by simp [Sent.concerns, other])]
      exact (view_setTask taskId _ id _).trans (if_neg other)
  case h_2 => rfl

theorem view_sendTaskSettings_of_ne {id : TaskId} (other : id ≠ taskId) (settings : JsValue) :
    (s.sendTaskSettings id settings).view taskId = s.view taskId := by
  rw [sendTaskSettings]
  split
  case h_1 => rw [view_setStage, if_neg other]
  case h_2 =>
    split
    case isTrue => rw [view_setStage, if_neg other]
    case isFalse => rw [view_setStage, if_neg other, view_failTask, if_neg other]

theorem view_gotRunner_of_ne {id : TaskId} (other : id ≠ taskId) (settings : JsValue)
    (runnerId : String) : (s.gotRunner id settings runnerId).view taskId = s.view taskId := by
  rw [gotRunner]
  split
  case h_1 => rw [view_setStage, if_neg other]
  case h_2 =>
    rw [view_setStage, if_neg other, view_messageRunner, if_neg (by simp [Sent.concerns, other])]
    exact (view_setTask taskId _ id _).trans (if_neg other)

theorem view_resumeAcceptOffer_of_ne {id : TaskId} (other : id ≠ taskId) (ok : Bool) :
    (s.resumeAcceptOffer id ok).view taskId = s.view taskId := by
  have stage (stage : AcceptStage) : (s.setStage id stage).view taskId = s.view taskId := by
    rw [view_setStage, if_neg other]
  have failed (request : Nat) : (s.acceptFailed id request).view taskId = s.view taskId := by
    rw [view_acceptFailed, if_neg other]
  have unready : (s.readyFailed id).view taskId = s.view taskId := by
    rw [view_readyFailed, if_neg other]
  rw [resumeAcceptOffer]
  split
  case h_1 => rfl
  case h_2 call here =>
    split
    case h_1 => split <;> simp only [stage, failed]
    case h_2 =>
      split
      case h_1 => rfl
      case h_2 => exact view_runnerAccepted_of_ne taskId s other call.offer call.request
      case h_3 =>
        cases view_acceptDeferred taskId s id call.request with
        | inl same => exact same
        | inr same => exact same.trans (failed call.request)
      case h_4 => exact failed call.request
      case h_5 => exact failed call.request
    case h_3 => split <;> simp only [stage, unready]
    case h_4 =>
      split
      case h_1 => rfl
      case h_2 => exact view_sendTaskSettings_of_ne taskId s other _
      case h_3 => exact unready
    case h_5 => exact view_gotRunner_of_ne taskId s other _ _
    case h_6 => exact unready
    case h_7 => split <;> simp only [stage, unready]
    case h_8 => exact stage .finished
    case h_9 => rfl

end State

def endsTask (mode : Mode) (s : State) (taskId : TaskId) (action : Action) : Bool :=
  (s.tasks.get taskId).any fun task => task.requesterId ∈ s.requesters && match action with
    | .runnerMessage runnerId (.taskdone id _) _ | .runnerMessage runnerId (.taskerror id _) _ =>
      runnerId ∈ s.knownRunners && id = taskId
    | .timerFires timeout => mode = .internal && s.timers.lookup timeout = some (.task taskId)
    | .resume call ok => ok && s.suspended[call]? = some (.timingOut taskId)
    | .deregisterRunner runnerId _ => task.runnerId = runnerId
    | .requesterMessage _ (.taskdataresponse id _ _) _
    | .requesterMessage _ (.nodetypesresponse id _ _) _
    | .requesterMessage _ (.rpcresponse id _ _ _) _ =>
      id = taskId && task.runnerId ∉ s.knownRunners
    | .resumeAcceptOffer id _ => id = taskId && task.runnerId ∉ s.knownRunners
    | _ => false

/-- `acceptOffer` goes on after its runner has accepted, and its request is not pending. -/
def losesRequest (s : State) : Action → Bool
  | .resumeAcceptOffer taskId _ => s.acceptOffers[taskId]?.any fun call =>
      call.stage = .awaitingRunner && call.runnerAccept = .accepted &&
        s.requests[call.request]?.any fun request =>
          (s.pendingTaskRequests.find? (s.hasRequestId request.requestId)).isNone
  | _ => false

def Sent.isReady : Sent → Bool
  | .toRequester _ (.taskready _ _) => true
  | _ => false

/-- Settings are taken for a task whose requester was not told that it is ready. -/
def answersUntold (s : State) : Action → Bool
  | .requesterMessage _ (.tasksettings taskId _) _ =>
    taskId ∈ s.requesterAcceptRejects && !(s.view taskId).sent.any Sent.isReady
  | _ => false

inductive Change (mode : Mode) (s : State) (action : Action) (taskId : TaskId) : TaskView → Prop
  | same : Change mode s action taskId (s.view taskId)
  | offered (unused : (s.view taskId).stage = none) :
      Change mode s action taskId { s.view taskId with stage := some .offering }
  | delivered (offering : (s.view taskId).stage = some .offering) :
      Change mode s action taskId { s.view taskId with stage := some .awaitingRunner }
  | refused (unaccepted : (s.view taskId).Unaccepted) :
      Change mode s action taskId { s.view taskId with stage := some .finished }
  | orphaned (task : Task) (own : task.id = taskId) (lost : losesRequest s action = true)
      (awaiting : (s.view taskId).stage = some .awaitingRunner) :
      Change mode s action taskId { s.view taskId with task := some task, stage := some .finished }
  | readied (task : Task) (requestId : String) (own : task.id = taskId)
      (awaiting : (s.view taskId).stage = some .awaitingRunner) :
      Change mode s action taskId
        (({ s.view taskId with task := some task, stage := some .readying } : TaskView).hears
          (task.requesterId ∈ s.requesters)
          (.toRequester task.requesterId (.taskready requestId taskId)))
  | accepted (settings : JsValue)
      (told : answersUntold s action = true ∨ (s.view taskId).sent.any Sent.isReady = true) :
      Change mode s action taskId { s.view taskId with requesterAccept := .accepted settings }
  | timedOut : Change mode s action taskId { s.view taskId with requesterAccept := .timedOut }
  | awaited (readying : (s.view taskId).stage = some .readying) :
      Change mode s action taskId { s.view taskId with stage := some .awaitingRequester }
  | abandoned : Change mode s action taskId
      { s.view taskId with task := none, stage := some .cancelling }
  | absent (gone : (s.view taskId).task = none) :
      Change mode s action taskId { s.view taskId with stage := some .finished }
  | runnerFound (task : Task) (settings : JsValue) (here : (s.view taskId).task = some task)
      (awaiting : (s.view taskId).stage = some .awaitingRequester)
      (accepted : (s.view taskId).requesterAccept = .accepted settings)
      (known : task.runnerId ∈ s.knownRunners) :
      Change mode s action taskId
        { s.view taskId with stage := some (.gettingRunner settings task.runnerId) }
  | runnerNotFound (error : JsValue)
      (ends : ∀ task, (s.view taskId).task = some task → task.requesterId ∈ s.requesters →
        endsTask mode s taskId action = true) :
      Change mode s action taskId
        { (s.view taskId).failed s.requesters taskId error with stage := some .failingTask }
  | settingsSent (task : Task) (settings : JsValue) (runnerId : String) (timeout : Option Nat)
      (here : (s.view taskId).task = some task)
      (getting : (s.view taskId).stage = some (.gettingRunner settings runnerId)) :
      Change mode s action taskId
        (({ s.view taskId with
            task := some { task with timeout := timeout }
            stage := some .sendingSettings } : TaskView).hears
          (runnerId ∈ s.knownRunners) (.toRunner runnerId (.tasksettings taskId settings)))
  | completed (stage : (s.view taskId).stage = some .sendingSettings ∨
        (s.view taskId).stage = some .cancelling) :
      Change mode s action taskId { s.view taskId with stage := some .finished }
  | dropped (ending : Bool) :
      Change mode s action taskId { s.view taskId with task := none, ending := ending }
  | failed (error : JsValue)
      (ends : ∀ task, (s.view taskId).task = some task → task.requesterId ∈ s.requesters →
        endsTask mode s taskId action = true) :
      Change mode s action taskId ((s.view taskId).failed s.requesters taskId error)
  | finishing (message : BrokerMessage.ToRequester)
      (names : ∀ requesterId, (Sent.toRequester requesterId message).concerns taskId = true)
      (unready : ∀ requesterId, (Sent.toRequester requesterId message).isReady = false)
      (ends : ∀ task, (s.view taskId).task = some task → task.requesterId ∈ s.requesters →
        endsTask mode s taskId action = true) :
      Change mode s action taskId ((s.view taskId).finishing s.requesters message)

namespace Change

variable {mode : Mode} {s s' : State} {action : Action} {taskId : TaskId}

theorem of_same (same : s'.view taskId = s.view taskId) :
    Change mode s action taskId (s'.view taskId) := by
  rw [same]
  exact .same

theorem of_offered (offered : State.Offered (s.view taskId) (s'.view taskId)) :
    Change mode s action taskId (s'.view taskId) := by
  cases offered with
  | inl same => exact of_same same
  | inr offered =>
    rw [offered.2]
    exact .offered offered.1

section

variable {call : AcceptOffer} {ok : Bool} (here : s.acceptOffers[taskId]? = some call)

include here

theorem stage_view : (s.view taskId).stage = some call.stage := by simp [State.view, here]

theorem of_setStage {stage : AcceptStage}
    (change : Change mode s action taskId { s.view taskId with stage := some stage }) :
    Change mode s action taskId ((s.setStage taskId stage).view taskId) := by
  rw [State.view_setStage, if_pos rfl, stage_view here]
  exact change

section

variable (unaccepted : call.stage = .offering ∨ call.stage = .awaitingRunner)
include unaccepted

theorem of_acceptFailed
    (request : Nat) :
    Change mode s action taskId ((s.acceptFailed taskId request).view taskId) := by
  rw [State.view_acceptFailed, if_pos rfl, stage_view here]
  refine .refused (.inr ?_)
  rw [stage_view here, Option.some.injEq, Option.some.injEq]
  exact unaccepted

theorem of_acceptDeferred
    (request : Nat) :
    Change mode s action taskId ((s.acceptDeferred taskId request).view taskId) := by
  cases State.view_acceptDeferred taskId s taskId request with
  | inl same => exact of_same same
  | inr same =>
    rw [same]
    exact of_acceptFailed here unaccepted request

end

theorem of_readyFailed : Change mode s action taskId ((s.readyFailed taskId).view taskId) := by
  rw [State.view_readyFailed, if_pos rfl, stage_view here]
  exact .abandoned

theorem of_readied {task : Task} {requestId : String} (own : task.id = taskId)
    (awaiting : call.stage = .awaitingRunner)
    (kept : s'.view taskId = { s.view taskId with task := some task })
    (requesters : s'.requesters = s.requesters) :
    Change mode s action taskId
      (((s'.messageRequester task.requesterId (.taskready requestId taskId)).setStage taskId
        .readying).view taskId) := by
  have stage := awaiting ▸ stage_view here
  rw [State.view_setStage, if_pos rfl, State.view_messageRequester, if_pos (by simp [Sent.concerns]),
    kept]
  simp only [TaskView.hears, requesters, stage, Option.map_some]
  exact .readied task requestId own stage

theorem of_settingsSent {task : Task} {settings : JsValue} {runnerId : String} {timeout : Option Nat}
    (there : (s.view taskId).task = some task)
    (getting : call.stage = .gettingRunner settings runnerId)
    (kept : s'.view taskId = { s.view taskId with task := some { task with timeout := timeout } })
    (knownRunners : s'.knownRunners = s.knownRunners) :
    Change mode s action taskId
      (((s'.messageRunner runnerId (.tasksettings taskId settings)).setStage taskId
        .sendingSettings).view taskId) := by
  have stage := getting ▸ stage_view here
  rw [State.view_setStage, if_pos rfl, State.view_messageRunner, if_pos (by simp [Sent.concerns]),
    kept]
  simp only [TaskView.hears, knownRunners, stage, Option.map_some]
  exact .settingsSent task settings runnerId timeout there stage

theorem of_runnerAccepted (awaiting : call.stage = .awaitingRunner)
    (accepted : call.runnerAccept = .accepted) :
    Change mode s (.resumeAcceptOffer taskId ok) taskId
      ((s.runnerAccepted taskId call.offer call.request).view taskId) := by
  have stage := awaiting ▸ stage_view here
  rw [State.runnerAccepted]
  split
  case h_1 o r atOffer atRequest =>
    dsimp only
    split
    case h_1 lost =>
      rw [State.view_setStage, if_pos rfl, State.view_setTask, if_pos rfl, State.view_clearTimeout,
        stage]
      refine .orphaned _ rfl ?_ stage
      have none : s.pendingTaskRequests.find? (s.hasRequestId r.requestId) = none := lost
      simp only [losesRequest, here, awaiting, accepted, atRequest, Option.any_some, none]
      decide
    case h_2 =>
      exact of_readied here rfl awaiting ((State.view_setTask taskId _ taskId _).trans (if_pos rfl)) rfl
  case h_2 => exact .same

theorem of_sendTaskSettings {settings : JsValue} (awaiting : call.stage = .awaitingRequester)
    (accepted : call.requesterAccept = .accepted settings) :
    Change mode s (.resumeAcceptOffer taskId ok) taskId
      ((s.sendTaskSettings taskId settings).view taskId) := by
  have stage := awaiting ▸ stage_view here
  rw [State.sendTaskSettings]
  split
  case h_1 gone => exact of_setStage here (.absent gone)
  case h_2 task there =>
    split
    case isTrue known =>
      have answered : (s.view taskId).requesterAccept = .accepted settings := by
        simp [State.view, here, accepted]
      exact of_setStage here (.runnerFound task settings there stage answered known)
    case isFalse unknown =>
      rw [State.view_setStage, if_pos rfl, State.view_failTask, if_pos rfl, TaskView.stage_failed, stage]
      refine .runnerNotFound _ fun other same known => ?_
      rw [Option.some.inj (same.symm.trans there)] at known
      simp [endsTask, there, known, unknown]

theorem of_gotRunner {settings : JsValue} {runnerId : String}
    (getting : call.stage = .gettingRunner settings runnerId) :
    Change mode s action taskId ((s.gotRunner taskId settings runnerId).view taskId) := by
  rw [State.gotRunner]
  split
  case h_1 gone => exact of_setStage here (.absent gone)
  case h_2 task there =>
    exact of_settingsSent here there getting
      ((State.view_setTask taskId _ taskId _).trans (if_pos rfl)) rfl

end

theorem of_resumeAcceptOffer (id : TaskId) (ok : Bool) :
    Change mode s (.resumeAcceptOffer id ok) taskId ((s.resumeAcceptOffer id ok).view taskId) := by
  by_cases same : id = taskId
  case neg => exact of_same (State.view_resumeAcceptOffer_of_ne taskId s same ok)
  rw [same, State.resumeAcceptOffer]
  split
  case h_1 => exact .same
  case h_2 call here =>
    split
    case h_1 offering =>
      have stage := offering ▸ stage_view here
      split
      case isTrue => exact of_setStage here (.delivered stage)
      case isFalse => exact of_acceptFailed here (.inl offering) call.request
    case h_2 awaiting =>
      split
      case h_1 => exact .same
      case h_2 accepted => exact of_runnerAccepted here awaiting accepted
      case h_3 => exact of_acceptDeferred here (.inr awaiting) call.request
      case h_4 => exact of_acceptFailed here (.inr awaiting) call.request
      case h_5 => exact of_acceptFailed here (.inr awaiting) call.request
    case h_3 readying =>
      have stage := readying ▸ stage_view here
      split
      case isTrue => exact of_setStage here (.awaited stage)
      case isFalse => exact of_readyFailed here
    case h_4 awaiting =>
      split
      case h_1 => exact .same
      case h_2 settings accepted => exact of_sendTaskSettings here awaiting accepted
      case h_3 => exact of_readyFailed here
    case h_5 settings runnerId getting => exact of_gotRunner here getting
    case h_6 => exact of_readyFailed here
    case h_7 sending =>
      have stage := sending ▸ stage_view here
      split
      case isTrue => exact of_setStage here (.completed (.inl stage))
      case isFalse => exact of_readyFailed here
    case h_8 cancelling =>
      have stage := cancelling ▸ stage_view here
      exact of_setStage here (.completed (.inr stage))
    case h_9 => exact .same

variable {id : TaskId}

theorem of_finishTask {message : BrokerMessage.ToRequester}
    (view : s'.view taskId = s.view taskId) (requesters : s'.requesters = s.requesters)
    (names : ∀ requesterId, (Sent.toRequester requesterId message).concerns taskId = (id = taskId))
    (unready : ∀ requesterId, (Sent.toRequester requesterId message).isReady = false)
    (ends : id = taskId → ∀ task, (s.view taskId).task = some task →
      task.requesterId ∈ s.requesters → endsTask mode s taskId action = true) :
    Change mode s action taskId ((s'.finishTask id message).view taskId) := by
  rw [State.view_finishTask taskId s' id names, view, requesters]
  split
  case isTrue same => exact .finishing message (fun q => by rw [names]; exact same) unready (ends same)
  case isFalse => exact .same

theorem of_taskDoneHandler {data : JsValue}
    (ends : id = taskId → ∀ task, (s.view taskId).task = some task →
      task.requesterId ∈ s.requesters → endsTask mode s taskId action = true) :
    Change mode s action taskId ((s.taskDoneHandler id data).view taskId) :=
  of_finishTask rfl rfl (fun _ => decide_eq_true_eq) (fun _ => rfl) ends

theorem of_taskErrorHandler {error : JsValue}
    (view : s'.view taskId = s.view taskId) (requesters : s'.requesters = s.requesters)
    (ends : id = taskId → ∀ task, (s.view taskId).task = some task →
      task.requesterId ∈ s.requesters → endsTask mode s taskId action = true) :
    Change mode s action taskId ((s'.taskErrorHandler id error).view taskId) :=
  of_finishTask view requesters (fun _ => decide_eq_true_eq) (fun _ => rfl) ends

theorem of_handleRunnerRequest {message : BrokerMessage.ToRequester}
    (other : ∀ requesterId, (Sent.toRequester requesterId message).concerns taskId = false) :
    Change mode s action taskId ((s.handleRunnerRequest id message).view taskId) := by
  rw [State.handleRunnerRequest]
  split
  case h_1 => exact .same
  case h_2 => exact of_same (by rw [State.view_messageRequester, if_neg (by simp [other])])

theorem of_handleRequesterResponse {message : BrokerMessage.Response}
    (ends : id = taskId → ∀ task, (s.view taskId).task = some task →
      task.requesterId ∈ s.requesters → task.runnerId ∉ s.knownRunners →
        endsTask mode s taskId action = true) :
    Change mode s action taskId ((s.handleRequesterResponse id message).view taskId) := by
  rw [State.handleRequesterResponse]
  split
  case h_1 => exact .same
  case h_2 task there =>
    split
    case isTrue => exact of_same (by simp [State.view_suspend, Suspended.ends])
    case isFalse unknown =>
      rw [State.view_failTask]
      split
      case isTrue same =>
        refine .failed _ fun other here known => ?_
        rw [same] at there
        have equal := Option.some.inj (there.symm.trans here)
        exact ends same other here known (equal ▸ unknown)
      case isFalse => exact .same

theorem of_onRunnerMessage (runnerId : String) (message : RunnerMessage) (now : Int) :
    Change mode s (.runnerMessage runnerId message now) taskId
      ((s.onRunnerMessage runnerId message now).view taskId) := by
  rw [State.onRunnerMessage.eq_def]
  split
  case isFalse => exact .same
  case isTrue sender =>
    cases message with
    | taskaccepted id => exact of_same (State.view_answerRunnerAccept taskId s id .accepted)
    | taskrejected id reason =>
      exact of_same (State.view_answerRunnerAccept taskId s id (.rejected reason))
    | taskdeferred id => exact of_same (State.view_answerRunnerAccept taskId s id .deferred)
    | taskoffer offerId taskType validFor =>
      exact of_offered (State.view_taskOffered taskId s _ now)
    | taskdone id data =>
      refine of_taskDoneHandler fun same task here known => ?_
      have there : s.tasks.get taskId = some task := here
      simp [endsTask, there, known, sender, same]
    | taskerror id error =>
      refine of_taskErrorHandler rfl rfl fun same task here known => ?_
      have there : s.tasks.get taskId = some task := here
      simp [endsTask, there, known, sender, same]
    | taskdatarequest id requestId requestParams => exact of_handleRunnerRequest fun _ => rfl
    | nodetypesrequest id requestId requestParams => exact of_handleRunnerRequest fun _ => rfl
    | rpc id callId name params => exact of_handleRunnerRequest fun _ => rfl
    | info => exact .same

theorem of_handleRequesterAccept (requesterId : String) (id : TaskId) (settings : JsValue)
    (now : Int) :
    Change mode s (.requesterMessage requesterId (.tasksettings id settings) now) taskId
      ((s.handleRequesterAccept id settings).view taskId) := by
  rw [State.handleRequesterAccept]
  split
  case isFalse => exact .same
  case isTrue member =>
    cases State.view_settleRequesterAccept taskId s id (.accepted settings) with
    | inl same => exact of_same same
    | inr answered =>
      have view := answered.2
      refine Eq.subst view.symm (.accepted settings ?_)
      cases told : (s.view taskId).sent.any Sent.isReady with
      | true => exact .inr rfl
      | false =>
        refine .inl ?_
        rw [answered.1] at member
        simp [answersUntold, answered.1, member, told]

theorem of_onRequesterMessage (requesterId : String) (message : RequesterMessage) (now : Int) :
    Change mode s (.requesterMessage requesterId message now) taskId
      ((s.onRequesterMessage requesterId message now).view taskId) := by
  cases message with
  | tasksettings id settings => exact of_handleRequesterAccept requesterId id settings now
  | taskcancel id reason =>
    rw [State.onRequesterMessage, State.view_cancelTask]
    split
    case isTrue => exact .dropped (s.view taskId).ending
    case isFalse => exact .same
  | taskrequest requestId taskType =>
    exact of_offered (State.view_taskRequested taskId s requestId requesterId taskType now)
  | taskdataresponse id requestId data =>
    refine of_handleRequesterResponse fun same task here known unknown => ?_
    have there : s.tasks.get taskId = some task := here
    simp [endsTask, there, known, unknown, same]
  | nodetypesresponse id requestId nodeTypes =>
    refine of_handleRequesterResponse fun same task here known unknown => ?_
    have there : s.tasks.get taskId = some task := here
    simp [endsTask, there, known, unknown, same]
  | rpcresponse id callId status data =>
    refine of_handleRequesterResponse fun same task here known unknown => ?_
    have there : s.tasks.get taskId = some task := here
    simp [endsTask, there, known, unknown, same]

theorem of_timerFires (timeout : Nat) :
    Change mode s (.timerFires timeout) taskId ((s.timerFires mode timeout).view taskId) := by
  rw [State.timerFires]
  split
  case h_1 => exact .same
  case h_2 timer fired =>
    split
    case h_1 requestId => exact of_same (State.view_handleRequestTimeout taskId _ requestId)
    case h_2 id => exact of_same (State.view_settleRunnerAccept taskId _ id .timedOut)
    case h_3 id =>
      cases State.view_settleRequesterAccept taskId (s.clearTimeout (some timeout)) id .timedOut with
      | inl same => exact of_same same
      | inr answered => exact Eq.subst answered.2.symm .timedOut
    case h_4 id =>
      rw [State.handleTaskTimeout]
      split
      case h_1 => exact .same
      case h_2 task there =>
        cases mode with
        | internal =>
          refine of_taskErrorHandler rfl rfl fun same task here known => ?_
          have there : s.tasks.get taskId = some task := here
          simp [endsTask, there, known, fired, same]
        | external =>
          refine of_same ?_
          rw [State.view_suspend, State.view_messageRunner, if_neg (by simp [Sent.concerns])]
          simp [Suspended.ends]

theorem of_resume (call : Nat) (ok : Bool) :
    Change mode s (.resume call ok) taskId ((s.resume call ok).view taskId) := by
  rw [State.resume]
  split
  case h_1 id here =>
    split
    case isTrue =>
      have view := State.view_deleteTask taskId
        { s with suspended := s.suspended.set call .returned } id
      dsimp only at view
      rw [view]
      split
      case isTrue same => exact .dropped _
      case isFalse other =>
        exact of_same (State.view_setSuspended taskId s here (by simp [Suspended.ends, other]))
    case isFalse => exact of_same (State.view_setSuspended taskId s here rfl)
  case h_2 id here =>
    have view : ({ s with suspended := s.suspended.set call .returned } : State).view taskId =
        s.view taskId := State.view_setSuspended taskId s here rfl
    split
    case isTrue going =>
      refine of_taskErrorHandler view rfl fun same task there known => ?_
      have there : s.tasks.get taskId = some task := there
      simp [endsTask, there, known, here, going, same]
    case isFalse => exact of_same view
  case h_3 runnerId message here =>
    have other : (Sent.toRunner runnerId message.1).concerns taskId = false := by
      obtain ⟨message, response⟩ := message
      cases message <;> simp [BrokerMessage.ToRunner.isResponse, Sent.concerns] at response ⊢
    rw [State.view_messageRunner, if_neg (by simp [other])]
    exact of_same (State.view_setSuspended taskId s here rfl)
  case h_4 => exact .same
  case h_5 => exact .same
  case h_6 => exact .same

end Change

theorem view_step {mode : Mode} {s : State} (action : Action) (taskId : TaskId)
    (keyed : ∀ id task, s.tasks.get id = some task → task.id = id) :
    Change mode s action taskId ((step mode s action).view taskId) := by
  cases action with
  | registerRunner runnerId =>
    refine Change.of_same ?_
    rw [step, State.registerRunner, State.view_messageRunner, if_neg (by simp [Sent.concerns])]
    rfl
  | deregisterRunner runnerId error =>
    rw [step, State.view_deregisterRunner taskId s keyed]
    split
    case isTrue its =>
      obtain ⟨task, there, its⟩ := its
      refine .failed _ fun other here known => ?_
      have here : s.tasks.get taskId = some other := here
      rw [Option.some.inj (there.symm.trans here)] at its
      simp [endsTask, here, known, its]
    case isFalse => exact .same
  | registerRequester requesterId => exact .same
  | deregisterRequester requesterId => exact .same
  | runnerMessage runnerId message now => exact Change.of_onRunnerMessage runnerId message now
  | requesterMessage requesterId message now => exact Change.of_onRequesterMessage requesterId message now
  | timerFires timeout => exact Change.of_timerFires timeout
  | resumeAcceptOffer id ok => exact Change.of_resumeAcceptOffer id ok
  | resume call ok => exact Change.of_resume call ok
  | startDraining => exact .same

namespace TaskView.Sound

variable {mode : Mode} {s : State} {action : Action} {taskId : TaskId} {v : TaskView}

theorem of_absent (absent : v.task = none) : v.Sound taskId :=
  ⟨fun _ here => absurd (absent.symm.trans here) (by simp), fun _ => absent⟩

theorem not_unaccepted (sound : v.Sound taskId) {task : Task} (here : v.task = some task) :
    ¬ v.Unaccepted :=
  fun early => absurd (here.symm.trans (sound.accepted early)) (by simp)

theorem of_change (sound : (s.view taskId).Sound taskId) (change : Change mode s action taskId v) :
    v.Sound taskId := by
  cases change with
  | same => exact sound
  | offered unused => exact of_absent (sound.accepted (.inl unused))
  | delivered offering => exact of_absent (sound.accepted (.inr (.inl offering)))
  | refused unaccepted => exact of_absent (sound.accepted unaccepted)
  | orphaned task own => exact ⟨fun _ here => Option.some.inj here ▸ own, by simp [Unaccepted]⟩
  | readied task requestId own => exact ⟨fun _ here => Option.some.inj here ▸ own, by simp [Unaccepted, hears]⟩
  | accepted => exact ⟨sound.own, sound.accepted⟩
  | timedOut => exact ⟨sound.own, sound.accepted⟩
  | awaited => exact ⟨sound.own, by simp [Unaccepted]⟩
  | abandoned => exact of_absent rfl
  | absent gone => exact of_absent gone
  | runnerFound => exact ⟨sound.own, by simp [Unaccepted]⟩
  | runnerNotFound => exact of_absent (task_failed _ _ _ _)
  | settingsSent task settings runnerId timeout here =>
    refine ⟨fun other kept => ?_, by simp [Unaccepted, hears]⟩
    rw [← Option.some.inj kept]
    exact sound.own task here
  | completed => exact ⟨sound.own, by simp [Unaccepted]⟩
  | dropped => exact of_absent rfl
  | failed => exact of_absent (task_failed _ _ _ _)
  | finishing message =>
    obtain ⟨task, stage⟩ := finishing_keeps s.requesters message (s.view taskId)
    refine ⟨fun other here => sound.own other (task ▸ here), fun unaccepted => ?_⟩
    rw [Unaccepted, stage] at unaccepted
    rw [task]
    exact sound.accepted unaccepted

end TaskView.Sound

theorem view_step_of_sound {mode : Mode} {s : State} (sound : ∀ id, (s.view id).Sound id)
    (action : Action) (taskId : TaskId) :
    Change mode s action taskId ((step mode s action).view taskId) :=
  view_step action taskId fun id task here => (sound id).own task here

theorem sound_initial (taskId : TaskId) : (({} : State).view taskId).Sound taskId :=
  .of_absent rfl

end NodeAutomation.TaskBroker
