import NodeAutomation.Cli.TaskView
import NodeAutomation.Lib.Runs

/-! The handshake of `acceptOffer`: a task is kept once its runner has accepted it, then
its requester is told that it is ready, then its runner is sent the settings. -/

namespace NodeAutomation.TaskBroker

def Sent.tellsReady (task : Task) : Sent → Bool
  | .toRequester requesterId (.taskready _ id) => requesterId = task.requesterId && id = task.id
  | _ => false

def Sent.tellsSettings (task : Task) : Sent → Bool
  | .toRunner runnerId (.tasksettings id _) => runnerId = task.runnerId && id = task.id
  | _ => false

namespace State

/-- The requester of the task was told that it is ready, and its runner has the settings. -/
def Real (s : State) (task : Task) : Prop :=
  s.sent.any (Sent.tellsReady task) = true ∧ s.sent.any (Sent.tellsSettings task) = true

instance (s : State) (task : Task) : Decidable (s.Real task) :=
  inferInstanceAs (Decidable (_ ∧ _))

/-- What `tasks` keeps once `acceptOffer` has returned is real; so nothing is active when
nothing real is left. -/
structure OrphanFree (s : State) : Prop where
  real : ∀ taskId call task, s.acceptOffers[taskId]? = some call → call.stage = .finished →
    s.tasks.get taskId = some task → s.Real task
  inactive : (∀ call ∈ s.acceptOffers, call.stage = .finished) →
    (∀ task ∈ s.tasks.values, ¬ s.Real task) → s.hasActiveTasks = false

end State

/-- `acceptOffer` finds its request when its runner has accepted, and settings are sent
only for tasks that the requester was told are ready. -/
def Orderly (s : State) (action : Action) : Prop :=
  losesRequest s action = false ∧ answersUntold s action = false

instance (s : State) (action : Action) : Decidable (Orderly s action) :=
  inferInstanceAs (Decidable (_ ∧ _))

namespace TaskView

structure Shaken (knownRunners : OrderedSet String) (v : TaskView) : Prop where
  untold : v.Unaccepted → v.sent.any Sent.isReady = false
  addressed : ∀ task, v.task = some task → v.sent.any Sent.isReady = true →
    v.sent.any (Sent.tellsReady task) = true
  answered : ∀ settings, v.requesterAccept = .accepted settings → v.sent.any Sent.isReady = true
  getting : ∀ settings runnerId task, v.stage = some (.gettingRunner settings runnerId) →
    v.task = some task → v.sent.any Sent.isReady = true ∧ runnerId = task.runnerId ∧
      runnerId ∈ knownRunners
  settled : ∀ task, v.stage = some .sendingSettings ∨ v.stage = some .finished →
    v.task = some task → v.sent.any Sent.isReady = true ∧
      v.sent.any (Sent.tellsSettings task) = true
  failing : v.stage = some .failingTask ∨ v.stage = some .cancelling → v.task = none

variable {mode : Mode} {s : State} {action : Action} {taskId : TaskId} {v w : TaskView}
  {knownRunners : OrderedSet String}

theorem any_hears (heard : Prop) [Decidable heard] (message : Sent) (p : Sent → Bool) :
    (v.hears heard message).sent.any p = (v.sent.any p || (decide heard && p message)) := by
  by_cases h : heard <;> simp [hears, h]

namespace Shaken

theorem of_gone (gone : v.task = none)
    (untold : v.Unaccepted → v.sent.any Sent.isReady = false)
    (answered : ∀ settings, v.requesterAccept = .accepted settings →
      v.sent.any Sent.isReady = true) : v.Shaken knownRunners := by
  have absent (task : Task) (here : v.task = some task) : False :=
    absurd (gone.symm.trans here) (by simp)
  exact ⟨untold, fun task here => (absent task here).elim, answered,
    fun _ _ task _ here => (absent task here).elim, fun task _ here => (absent task here).elim,
    fun _ => gone⟩

section

variable (h : v.Shaken knownRunners)
include h

theorem of_hears (heard : Prop) [Decidable heard] {message : Sent}
    (unready : message.isReady = false) : (v.hears heard message).Shaken knownRunners := by
  have ready : (v.hears heard message).sent.any Sent.isReady = v.sent.any Sent.isReady := by
    simp [any_hears, unready]
  have more (p : Sent → Bool) (said : v.sent.any p = true) :
      (v.hears heard message).sent.any p = true := by
    rw [any_hears, said, Bool.true_or]
  refine ⟨fun early => ready.trans (h.untold early), fun task here told => ?_,
    fun settings accepted => ready.trans (h.answered settings accepted),
    fun settings runnerId task stage here => ?_, fun task stage here => ?_, h.failing⟩
  · exact more _ (h.addressed task here (ready.symm.trans told))
  · rw [ready]
    exact h.getting settings runnerId task stage here
  · have both := h.settled task stage here
    exact ⟨ready.trans both.1, more _ both.2⟩

theorem of_failed (requesters : OrderedSet String) (error : JsValue) :
    (v.failed requesters taskId error).Shaken knownRunners := by
  rw [failed]
  split
  case h_1 => exact h
  case h_2 task here =>
    refine of_hears ?_ _ rfl
    exact of_gone rfl h.untold h.answered

theorem of_finishing (requesters : OrderedSet String)
    {message : BrokerMessage.ToRequester}
    (unready : ∀ requesterId, (Sent.toRequester requesterId message).isReady = false) :
    (v.finishing requesters message).Shaken knownRunners := by
  rw [finishing]
  split
  case h_1 => exact h
  case h_2 task here =>
    refine of_hears ?_ _ (unready task.requesterId)
    exact ⟨h.untold, h.addressed, h.answered, h.getting, h.settled, h.failing⟩

theorem of_readied (early : v.Unaccepted) {task : Task}
    {requestId : String} (own : task.id = taskId) (heard : Prop) [Decidable heard] :
    (({ v with task := some task, stage := some .readying } : TaskView).hears heard
      (.toRequester task.requesterId (.taskready requestId taskId))).Shaken knownRunners := by
  have none := h.untold early
  have pending (settings : JsValue) : v.requesterAccept ≠ .accepted settings :=
    fun accepted => absurd (none.symm.trans (h.answered settings accepted)) (by decide)
  refine ⟨by simp [Unaccepted, hears], fun other here told => ?_,
    fun settings accepted => absurd accepted (pending settings), by simp [hears], by simp [hears],
    by simp [hears]⟩
  have same : task = other := Option.some.inj here
  rw [any_hears, none] at told
  rw [any_hears, ← same]
  simp only [Bool.false_or, Bool.and_eq_true] at told
  simp [told.1, Sent.tellsReady, own]

theorem of_settingsSent {task : Task} {settings : JsValue}
    {runnerId : String} (timeout : Option Nat) (own : task.id = taskId) (here : v.task = some task)
    (getting : v.stage = some (.gettingRunner settings runnerId)) :
    (({ v with
        task := some { task with timeout := timeout }
        stage := some .sendingSettings } : TaskView).hears (runnerId ∈ knownRunners)
      (.toRunner runnerId (.tasksettings taskId settings))).Shaken knownRunners := by
  obtain ⟨ready, same, known⟩ := h.getting settings runnerId task getting here
  have told := h.addressed task here ready
  refine ⟨by simp [Unaccepted, hears], fun other kept _ => ?_, fun settings accepted => ?_,
    by simp [hears], fun other _ kept => ?_, by simp [hears]⟩
  · rw [any_hears, ← Option.some.inj kept]
    exact (Bool.or_eq_true _ _).symm ▸ .inl told
  · rw [any_hears]
    exact (Bool.or_eq_true _ _).symm ▸ .inl ready
  · rw [any_hears, any_hears, ← Option.some.inj kept]
    rw [same] at known
    simp [ready, known, Sent.tellsSettings, own, same]

end

theorem of_change (h : (s.view taskId).Shaken s.knownRunners)
    (sound : (s.view taskId).Sound taskId) (orderly : Orderly s action)
    (change : Change mode s action taskId v) : v.Shaken s.knownRunners := by
  cases change with
  | same => exact h
  | offered unused =>
    exact of_gone (sound.accepted (.inl unused)) (fun _ => h.untold (.inl unused)) h.answered
  | delivered offering =>
    exact of_gone (sound.accepted (.inr (.inl offering))) (fun _ => h.untold (.inr (.inl offering)))
      h.answered
  | refused unaccepted =>
    exact of_gone (sound.accepted unaccepted) (fun _ => h.untold unaccepted) h.answered
  | orphaned task own lost => exact absurd lost (by simp [orderly.1])
  | readied task requestId own awaiting => exact h.of_readied (.inr (.inr awaiting)) own _
  | accepted settings told =>
    have ready := told.resolve_left (by simp [orderly.2])
    exact ⟨h.untold, h.addressed, fun _ _ => ready, h.getting, h.settled, h.failing⟩
  | timedOut => exact ⟨h.untold, h.addressed, by simp, h.getting, h.settled, h.failing⟩
  | awaited =>
    exact ⟨by simp [Unaccepted], h.addressed, h.answered, by simp, by simp, by simp⟩
  | abandoned => exact of_gone rfl (by simp [Unaccepted]) h.answered
  | absent gone => exact of_gone gone (by simp [Unaccepted]) h.answered
  | runnerFound task settings here awaiting accepted known =>
    refine ⟨by simp [Unaccepted], h.addressed, h.answered, fun _ _ other stage there => ?_, by simp,
      by simp⟩
    have same := Option.some.inj (here.symm.trans there)
    simp only [Option.some.injEq, AcceptStage.gettingRunner.injEq] at stage
    rw [← stage.2, ← same]
    exact ⟨h.answered settings accepted, rfl, known⟩
  | runnerNotFound error =>
    have failed : ((s.view taskId).failed s.requesters taskId error).Shaken s.knownRunners :=
      h.of_failed s.requesters error
    exact of_gone (task_failed _ _ _ _) (by simp [Unaccepted]) failed.answered
  | settingsSent task settings runnerId timeout here getting =>
    exact h.of_settingsSent timeout (sound.own task here) here getting
  | completed stage =>
    cases stage with
    | inl sending =>
      exact ⟨by simp [Unaccepted], h.addressed, h.answered, by simp,
        fun task _ here => h.settled task (.inl sending) here, by simp⟩
    | inr cancelling =>
      exact of_gone (h.failing (.inr cancelling)) (by simp [Unaccepted]) h.answered
  | dropped => exact of_gone rfl h.untold h.answered
  | failed error => exact h.of_failed s.requesters error
  | finishing message names unready => exact h.of_finishing s.requesters unready

theorem of_knownRunners (h : v.Shaken knownRunners) {others : OrderedSet String}
    (still : ∀ task, v.task = some task → task.runnerId ∈ knownRunners → task.runnerId ∈ others) :
    v.Shaken others := by
  refine ⟨h.untold, h.addressed, h.answered, fun settings runnerId task stage here => ?_, h.settled,
    h.failing⟩
  obtain ⟨ready, same, known⟩ := h.getting settings runnerId task stage here
  rw [same] at known ⊢
  exact ⟨ready, rfl, still task here known⟩

end Shaken

end TaskView

/-! Only registrations change which runners are known -/

namespace State

variable (s : State)

theorem knownRunners_foldl {α : Type*} {f : State → α → State}
    (same : ∀ s a, (f s a).knownRunners = s.knownRunners) (l : List α) (s : State) :
    (l.foldl f s).knownRunners = s.knownRunners := by
  induction l generalizing s with
  | nil => rfl
  | cons a rest ih => rw [List.foldl_cons, ih, same]

theorem knownRunners_handleRequestTimeout (requestId : String) :
    (s.handleRequestTimeout requestId).knownRunners = s.knownRunners := by
  rw [handleRequestTimeout]
  split
  case h_1 => rfl
  case h_2 => split <;> rfl

theorem knownRunners_settleRequest (request : Nat) :
    (s.settleRequest request).knownRunners = s.knownRunners := by
  have accept (s : State) (offer : Nat) :
      (s.acceptOffer offer request).knownRunners = s.knownRunners := by
    rw [acceptOffer]
    split <;> rfl
  rw [settleRequest]
  split
  case h_1 => rfl
  case h_2 =>
    split
    case isTrue => rfl
    case isFalse =>
      split
      case h_1 => rfl
      case h_2 offer found => exact accept _ offer

theorem knownRunners_settleTasks (now : Int) : (s.settleTasks now).knownRunners = s.knownRunners :=
  knownRunners_foldl knownRunners_settleRequest _ (s.expireTasks now)

theorem knownRunners_taskRequested (requestId requesterId taskType : String) (now : Int) :
    (s.taskRequested requestId requesterId taskType now).knownRunners = s.knownRunners := by
  rw [taskRequested]
  split
  case isTrue => rfl
  case isFalse => exact knownRunners_settleTasks _ now

theorem knownRunners_taskOffered (offer : TaskOffer) (now : Int) :
    (s.taskOffered offer now).knownRunners = s.knownRunners := knownRunners_settleTasks _ now

variable (id : TaskId)

theorem knownRunners_answerRunnerAccept (result : RunnerAccept) :
    (s.answerRunnerAccept id result).knownRunners = s.knownRunners := by
  rw [answerRunnerAccept]
  split <;> rfl

theorem knownRunners_cancelTask (reason : String) :
    (s.cancelTask id reason).knownRunners = s.knownRunners := by
  rw [cancelTask]
  split <;> rfl

theorem knownRunners_failTask (error : JsValue) :
    (s.failTask id error).knownRunners = s.knownRunners := by
  rw [failTask]
  split <;> rfl

theorem knownRunners_finishTask (message : BrokerMessage.ToRequester) :
    (s.finishTask id message).knownRunners = s.knownRunners := by
  rw [finishTask]
  split <;> rfl

theorem knownRunners_handleRunnerRequest (message : BrokerMessage.ToRequester) :
    (s.handleRunnerRequest id message).knownRunners = s.knownRunners := by
  rw [handleRunnerRequest]
  split <;> rfl

theorem knownRunners_handleRequesterResponse (message : BrokerMessage.Response) :
    (s.handleRequesterResponse id message).knownRunners = s.knownRunners := by
  rw [handleRequesterResponse]
  split
  case h_1 => rfl
  case h_2 =>
    split
    case isTrue => rfl
    case isFalse => exact knownRunners_failTask s id _

theorem knownRunners_handleTaskTimeout (mode : Mode) (id : TaskId) :
    (s.handleTaskTimeout mode id).knownRunners = s.knownRunners := by
  rw [handleTaskTimeout]
  split
  case h_1 => rfl
  case h_2 =>
    cases mode with
    | internal => exact knownRunners_finishTask s id _
    | external => rfl

theorem knownRunners_acceptDeferred (request : Nat) :
    (s.acceptDeferred id request).knownRunners = s.knownRunners := by
  rw [acceptDeferred]
  split <;> rfl

theorem knownRunners_runnerAccepted (offer request : Nat) :
    (s.runnerAccepted id offer request).knownRunners = s.knownRunners := by
  rw [runnerAccepted]
  split
  case h_1 =>
    dsimp only
    split <;> rfl
  case h_2 => rfl

theorem knownRunners_readyFailed : (s.readyFailed id).knownRunners = s.knownRunners :=
  knownRunners_cancelTask s id _

theorem knownRunners_sendTaskSettings (settings : JsValue) :
    (s.sendTaskSettings id settings).knownRunners = s.knownRunners := by
  rw [sendTaskSettings]
  split
  case h_1 => rfl
  case h_2 =>
    split
    case isTrue => rfl
    case isFalse => exact knownRunners_failTask s id _

theorem knownRunners_gotRunner (settings : JsValue) (runnerId : String) :
    (s.gotRunner id settings runnerId).knownRunners = s.knownRunners := by
  rw [gotRunner]
  split <;> rfl

theorem knownRunners_resumeAcceptOffer (ok : Bool) :
    (s.resumeAcceptOffer id ok).knownRunners = s.knownRunners := by
  rw [resumeAcceptOffer]
  split
  case h_1 => rfl
  case h_2 call here =>
    split
    case h_1 => split <;> rfl
    case h_2 =>
      split
      case h_1 => rfl
      case h_2 => exact knownRunners_runnerAccepted s id call.offer call.request
      case h_3 => exact knownRunners_acceptDeferred s id call.request
      case h_4 => rfl
      case h_5 => rfl
    case h_3 => split <;> simp only [setStage, knownRunners_readyFailed]
    case h_4 =>
      split
      case h_1 => rfl
      case h_2 => exact knownRunners_sendTaskSettings s id _
      case h_3 => exact knownRunners_readyFailed s id
    case h_5 => exact knownRunners_gotRunner s id _ _
    case h_6 => exact knownRunners_readyFailed s id
    case h_7 => split <;> simp only [setStage, knownRunners_readyFailed]
    case h_8 => rfl
    case h_9 => rfl

theorem knownRunners_onRunnerMessage (runnerId : String) (message : RunnerMessage) (now : Int) :
    (s.onRunnerMessage runnerId message now).knownRunners = s.knownRunners := by
  rw [onRunnerMessage.eq_def]
  split
  case isFalse => rfl
  case isTrue =>
    cases message with
    | taskaccepted id => exact knownRunners_answerRunnerAccept s id _
    | taskrejected id reason => exact knownRunners_answerRunnerAccept s id _
    | taskdeferred id => exact knownRunners_answerRunnerAccept s id _
    | taskoffer offerId taskType validFor => exact knownRunners_taskOffered s _ now
    | taskdone id data => exact knownRunners_finishTask s id _
    | taskerror id error => exact knownRunners_finishTask s id _
    | taskdatarequest id => exact knownRunners_handleRunnerRequest s id _
    | nodetypesrequest id => exact knownRunners_handleRunnerRequest s id _
    | rpc id => exact knownRunners_handleRunnerRequest s id _
    | info => rfl

theorem knownRunners_onRequesterMessage (requesterId : String) (message : RequesterMessage)
    (now : Int) : (s.onRequesterMessage requesterId message now).knownRunners = s.knownRunners := by
  cases message with
  | tasksettings id settings =>
    rw [onRequesterMessage, handleRequesterAccept]
    split <;> rfl
  | taskcancel id reason => exact knownRunners_cancelTask s id reason
  | taskrequest requestId taskType => exact knownRunners_taskRequested s requestId requesterId taskType now
  | taskdataresponse id => exact knownRunners_handleRequesterResponse s id _
  | nodetypesresponse id => exact knownRunners_handleRequesterResponse s id _
  | rpcresponse id => exact knownRunners_handleRequesterResponse s id _

theorem knownRunners_timerFires (mode : Mode) (timeout : Nat) :
    (s.timerFires mode timeout).knownRunners = s.knownRunners := by
  rw [timerFires]
  split
  case h_1 => rfl
  case h_2 =>
    split
    case h_1 requestId _ => exact knownRunners_handleRequestTimeout _ requestId
    case h_2 => rfl
    case h_3 => rfl
    case h_4 id _ => exact knownRunners_handleTaskTimeout _ mode id

theorem knownRunners_resume (call : Nat) (ok : Bool) :
    (s.resume call ok).knownRunners = s.knownRunners := by
  rw [resume]
  split
  case h_1 => split <;> rfl
  case h_2 id here =>
    split
    case isTrue => exact knownRunners_finishTask _ id _
    case isFalse => rfl
  case h_3 => rfl
  case h_4 => rfl
  case h_5 => rfl
  case h_6 => rfl

theorem knownRunners_deregisterRunner (runnerId error : String) :
    (s.deregisterRunner runnerId error).knownRunners =
      s.knownRunners.difference (.ofList [runnerId]) := by
  refine knownRunners_foldl (fun s task => ?_) _ _
  rw [failTaskOfRunner]
  split
  case isTrue =>
    rw [handleRunnerReject, knownRunners_answerRunnerAccept, knownRunners_failTask]
  case isFalse => rfl

end State

theorem known_step {mode : Mode} {s : State} (action : Action) {runnerId : String}
    (known : runnerId ∈ s.knownRunners) (kept : ∀ error, action ≠ .deregisterRunner runnerId error) :
    runnerId ∈ (step mode s action).knownRunners := by
  cases action with
  | registerRunner other => exact (OrderedSet.mem_add s.knownRunners other runnerId).2 (.inl known)
  | deregisterRunner other error =>
    rw [step, State.knownRunners_deregisterRunner, OrderedSet.mem_difference]
    refine ⟨known, fun same => kept error ?_⟩
    rw [OrderedSet.mem_ofList, List.mem_singleton] at same
    rw [same]
  | registerRequester => exact known
  | deregisterRequester => exact known
  | runnerMessage other message now =>
    rw [step, State.knownRunners_onRunnerMessage]
    exact known
  | requesterMessage other message now =>
    rw [step, State.knownRunners_onRequesterMessage]
    exact known
  | timerFires timeout =>
    rw [step, State.knownRunners_timerFires]
    exact known
  | resumeAcceptOffer id ok =>
    rw [step, State.knownRunners_resumeAcceptOffer]
    exact known
  | resume call ok =>
    rw [step, State.knownRunners_resume]
    exact known
  | startDraining => exact known

theorem ne_of_deregistered {s : State} (sound : ∀ id, (s.view id).Sound id) {taskId : TaskId}
    {runnerId error : String} {task : Task}
    (kept : ((s.deregisterRunner runnerId error).view taskId).task = some task) :
    task.runnerId ≠ runnerId := by
  have keyed (id : TaskId) (task : Task) (here : s.tasks.get id = some task) : task.id = id :=
    (sound id).own task here
  rw [State.view_deregisterRunner taskId s keyed] at kept
  split at kept
  case isTrue => exact absurd ((TaskView.task_failed _ _ _ _).symm.trans kept) (by simp)
  case isFalse others => exact fun its => others ⟨task, kept, its⟩

def HandsShaken (s : State) : Prop :=
  ∀ taskId, (s.view taskId).Sound taskId ∧ (s.view taskId).Shaken s.knownRunners

theorem handsShaken_initial : HandsShaken {} :=
  fun taskId => ⟨sound_initial taskId, .of_gone rfl (fun _ => rfl) (by simp [State.view])⟩

theorem handsShaken_step {mode : Mode} {s : State} {action : Action} (h : HandsShaken s)
    (orderly : Orderly s action) : HandsShaken (step mode s action) := by
  have sound (id : TaskId) := (h id).1
  have change (id : TaskId) : Change mode s action id ((step mode s action).view id) :=
    view_step_of_sound sound action id
  refine fun taskId => ⟨(sound taskId).of_change (change taskId), ?_⟩
  have shaken := (h taskId).2.of_change (sound taskId) orderly (change taskId)
  refine shaken.of_knownRunners fun task here known => known_step action known fun error same => ?_
  rw [same, step] at here
  exact ne_of_deregistered sound here rfl

theorem any_view {s : State} {taskId : TaskId} {p : Sent → Bool}
    (concerns : ∀ message, p message = true → message.concerns taskId = true) :
    (s.view taskId).sent.any p = s.sent.any p := by
  rw [State.view, List.any_filter]
  refine Bool.eq_iff_iff.2 ?_
  simp only [List.any_eq_true, Bool.and_eq_true]
  refine exists_congr fun message => and_congr_right fun _ => ?_
  exact ⟨fun both => both.2, fun here => ⟨concerns message here, here⟩⟩

theorem Sent.concerns_of_tellsReady {task : Task} {message : Sent}
    (tells : message.tellsReady task = true) : message.concerns task.id = true := by
  cases message with
  | toRunner => exact absurd tells (by simp [Sent.tellsReady])
  | toRequester requesterId message => cases message <;> simp_all [Sent.tellsReady, Sent.concerns]

theorem Sent.concerns_of_tellsSettings {task : Task} {message : Sent}
    (tells : message.tellsSettings task = true) : message.concerns task.id = true := by
  cases message with
  | toRunner runnerId message => cases message <;> simp_all [Sent.tellsSettings, Sent.concerns]
  | toRequester => exact absurd tells (by simp [Sent.tellsSettings])

theorem HandsShaken.real {s : State} (h : HandsShaken s) {taskId : TaskId} {call : AcceptOffer}
    {task : Task} (here : s.acceptOffers[taskId]? = some call) (finished : call.stage = .finished)
    (kept : s.tasks.get taskId = some task) : s.Real task := by
  obtain ⟨sound, shaken⟩ := h taskId
  have own : task.id = taskId := sound.own task kept
  have stage : (s.view taskId).stage = some .finished := by simp [State.view, here, finished]
  obtain ⟨ready, settings⟩ := shaken.settled task (.inr stage) kept
  have told := shaken.addressed task kept ready
  rw [← own, any_view fun _ => Sent.concerns_of_tellsSettings] at settings
  rw [← own, any_view fun _ => Sent.concerns_of_tellsReady] at told
  exact ⟨told, settings⟩

theorem HandsShaken.orphanFree {s : State} (h : HandsShaken s) : s.OrphanFree := by
  refine ⟨fun taskId call task here finished kept => h.real here finished kept,
    fun finished unreal => ?_⟩
  rw [State.hasActiveTasks, decide_eq_false_iff_not]
  intro active
  obtain ⟨task, member⟩ := List.exists_mem_of_length_pos (l := s.tasks.values)
    (by rw [OrderedMap.values, List.length_map]; exact active)
  obtain ⟨taskId, kept⟩ := (OrderedMap.mem_values_iff s.tasks task).1 member
  have accepted := (h taskId).1.not_unaccepted (show (s.view taskId).task = some task from kept)
  cases here : s.acceptOffers[taskId]? with
  | none => exact accepted (.inl (by simp [State.view, here]))
  | some call =>
    exact unreal task member (h.real here (finished call (List.mem_of_getElem? here)) kept)

/-- A run in which every request is still pending when its runner has accepted, and in
which settings are sent for ready tasks only, leaves no orphans. -/
theorem orphanFree_of_orderly {mode : Mode} {actions : List Action}
    (orderly : Runs.Along (step mode) Orderly {} actions) :
    (Runs.after (step mode) {} actions).OrphanFree :=
  (Runs.holds_after (fun _ _ h orderly => handsShaken_step h orderly) handsShaken_initial
    orderly).orphanFree

theorem orphanFree_after_handshake :
    (Runs.after (step .internal) {} (handshake "runner" "requester")).OrphanFree :=
  orphanFree_of_orderly (by decide)

/-- The request expires while its runner makes up its mind, and the runner accepts. -/
theorem expired_request_leaves_orphan : ¬ ∀ (mode : Mode) (actions : List Action),
    (Runs.after (step mode) {} actions).OrphanFree := fun orphanFree => absurd
  ((orphanFree .internal [.registerRunner "runner", .registerRequester "requester",
      .requesterMessage "requester" (.taskrequest "request" "javascript") 0,
      .runnerMessage "runner" (.taskoffer "offer" "javascript" (-1)) 0,
      .resumeAcceptOffer 0 true, .timerFires 0, .runnerMessage "runner" (.taskaccepted 0) 0,
      .resumeAcceptOffer 0 true]).inactive (by decide) (by decide))
  (by decide)

end NodeAutomation.TaskBroker
