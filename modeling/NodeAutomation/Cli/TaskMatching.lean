import NodeAutomation.Cli.TaskBroker
import NodeAutomation.Lib.MatchBoard
import NodeAutomation.Lib.Runs

/-! The matching of offers and requests: the broker works on a board on which they are
matched one to one. -/

namespace NodeAutomation.TaskBroker

open MatchBoard Places

def Sent.answers : Sent → Option String
  | .toRequester _ (.taskready requestId _) => some requestId
  | .toRequester _ (.requestexpired requestId reason) =>
    if reason = "timeout" then some requestId else none
  | _ => none

namespace State

variable (s : State)

def board : MatchBoard String String where
  openOffers := s.pendingTaskOffers
  openRequests := s.pendingTaskRequests
  offers := s.offers.map TaskOffer.taskType
  requests := s.requests.map fun r => ⟨r.requestId, r.taskType, r.acceptInProgress⟩
  deals := s.acceptOffers.map fun call => ⟨call.offer, call.request, call.stage = .finished⟩
  answered := s.sent.filterMap Sent.answers

@[simp] theorem board_messageRunner (runnerId : String) (message : BrokerMessage.ToRunner) :
    (s.messageRunner runnerId message).board = s.board := by
  by_cases known : runnerId ∈ s.knownRunners <;> simp [board, messageRunner, known, Sent.answers]

theorem board_messageRequester (requesterId : String) (message : BrokerMessage.ToRequester) :
    (s.messageRequester requesterId message).board =
      { s.board with
        answered := s.board.answered ++ if requesterId ∈ s.requesters
          then (Sent.toRequester requesterId message).answers.toList else [] } := by
  by_cases known : requesterId ∈ s.requesters
  · cases here : (Sent.toRequester requesterId message).answers <;>
      simp [board, messageRequester, known, here]
  · simp [board, messageRequester, known]

variable {message : BrokerMessage.ToRequester}

theorem board_messageRequester_of_none {requesterId : String}
    (none : (Sent.toRequester requesterId message).answers = none) :
    (s.messageRequester requesterId message).board = s.board := by
  rw [board_messageRequester, none]
  simp

@[simp] theorem board_setTimeout (timer : Timer) : (s.setTimeout timer).board = s.board := rfl

@[simp] theorem board_clearTimeout (timeout : Option Nat) : (s.clearTimeout timeout).board = s.board :=
  rfl

@[simp] theorem board_suspend (call : Suspended) : (s.suspend call).board = s.board := rfl

theorem board_setAcceptInProgress (request : Nat) (acceptInProgress : Bool) :
    (s.setAcceptInProgress request acceptInProgress).board =
      { s.board with requests := setBusy request acceptInProgress s.board.requests } := by
  have requests : (s.requests.modify request fun r => { r with acceptInProgress := acceptInProgress }).map
      (fun r => (⟨r.requestId, r.taskType, r.acceptInProgress⟩ : MatchBoard.Request String String)) =
      setBusy request acceptInProgress s.board.requests := by
    refine List.ext_getElem? fun i => ?_
    simp only [setBusy, board, List.getElem?_map, List.getElem?_modify]
    split <;> cases s.requests[i]? <;> rfl
  simp only [board, setAcceptInProgress] at requests ⊢
  rw [requests]

theorem board_modifyCall {id : TaskId} {f : AcceptOffer → AcceptOffer}
    (keeps : ∀ call, s.acceptOffers[id]? = some call → (f call).offer = call.offer ∧
      (f call).request = call.request ∧ ((f call).stage = .finished ↔ call.stage = .finished)) :
    ({ s with acceptOffers := s.acceptOffers.modify id f } : State).board = s.board := by
  have deals : (s.acceptOffers.modify id f).map
      (fun call => (⟨call.offer, call.request, call.stage = .finished⟩ : Deal)) = s.board.deals := by
    refine List.ext_getElem? fun i => ?_
    simp only [board, List.getElem?_map, List.getElem?_modify]
    split
    case isTrue same =>
      cases here : s.acceptOffers[i]? with
      | none => rfl
      | some call =>
        obtain ⟨offer, request, stage⟩ := keeps call (same ▸ here)
        simp [offer, request, stage]
    case isFalse => cases s.acceptOffers[i]? <;> rfl
  simp only [board] at deals ⊢
  rw [deals]

theorem board_setStage_finished (id : TaskId) :
    (s.setStage id .finished).board = { s.board with deals := close id s.board.deals } := by
  have deals : (s.acceptOffers.modify id fun call => { call with stage := .finished }).map
      (fun call => (⟨call.offer, call.request, call.stage = .finished⟩ : Deal)) =
      close id s.board.deals := by
    refine List.ext_getElem? fun i => ?_
    simp only [close, board, List.getElem?_map, List.getElem?_modify]
    split <;> cases s.acceptOffers[i]? <;> simp
  simp only [board, setStage] at deals ⊢
  rw [deals]

theorem board_setStage {id : TaskId} {stage : AcceptStage} (going : stage ≠ .finished)
    (pending : ∀ call, s.acceptOffers[id]? = some call → call.stage ≠ .finished) :
    (s.setStage id stage).board = s.board :=
  board_modifyCall s fun call here => ⟨rfl, rfl, by simp [going, pending call here]⟩

abbrev Changes (s' : State) : Prop := Relation.ReflTransGen MatchBoard.Change s.board s'.board

variable {s} {s' : State}

theorem changes_of_same (same : s'.board = s.board) : s.Changes s' := by
  rw [Changes, same]

theorem changes_of_change {b : MatchBoard String String} (change : MatchBoard.Change s.board b)
    (same : s'.board = b) : s.Changes s' := by
  rw [Changes, same]
  exact .single change

theorem board_request {request : Nat} {r : TaskRequest} (here : s.requests[request]? = some r) :
    s.board.requests[request]? = some ⟨r.requestId, r.taskType, r.acceptInProgress⟩ := by
  rw [board, List.getElem?_map, here]
  rfl

theorem requestId_of_find? {requestId : String} {request : Nat} {r : TaskRequest}
    (found : s.pendingTaskRequests.find? (s.hasRequestId requestId) = some request)
    (here : s.requests[request]? = some r) : r.requestId = requestId := by
  have has := List.find?_some found
  simpa [hasRequestId, here] using has

theorem changes_of_answer {requestId requesterId : String} {request : Nat} {r : TaskRequest}
    (found : s.pendingTaskRequests.find? (s.hasRequestId requestId) = some request)
    (here : s.requests[request]? = some r)
    (answers : (Sent.toRequester requesterId message).answers = some requestId)
    (taken : s'.board = { s.board with
      openRequests := s.pendingTaskRequests.eraseP (s.hasRequestId requestId) }) :
    s.Changes (s'.messageRequester requesterId message) := by
  rw [Changes, board_messageRequester, taken, answers]
  refine .single (.answer (perm_of_find? found) (board_request here) ?_)
  by_cases known : requesterId ∈ s'.requesters
  · refine .inr ?_
    rw [if_pos known, requestId_of_find? found here]
    rfl
  · exact .inl (if_neg known)

theorem changes_handleRequestTimeout (requestId : String) :
    s.Changes (s.handleRequestTimeout requestId) := by
  rw [handleRequestTimeout]
  split
  case h_1 => exact .refl
  case h_2 request found =>
    split
    case h_1 => exact .refl
    case h_2 r here =>
      refine changes_of_answer found here ?_ rfl
      rw [requestId_of_find? found here]
      rfl

theorem board_acceptOffer (s : State) {offer : Nat} {o : TaskOffer}
    (there : s.offers[offer]? = some o) (request : Nat) : (s.acceptOffer offer request).board =
      { s.board with deals := s.board.deals ++ [⟨offer, request, false⟩] } := by
  rw [acceptOffer, there]
  rw [board_messageRunner, board_setTimeout]
  simp [board]

theorem changes_settleRequest (s : State) (request : Nat) : s.Changes (s.settleRequest request) := by
  rw [settleRequest]
  split
  case h_1 => exact .refl
  case h_2 r here =>
    split
    case isTrue => exact .refl
    case isFalse idle =>
      split
      case h_1 => exact .refl
      case h_2 offer found =>
        have has := List.find?_some found
        cases there : s.offers[offer]? with
        | none => simp [offerHasType, there] at has
        | some o =>
          have kind : o.taskType = r.taskType := by simpa [offerHasType, there] using has
          have deal := MatchBoard.Change.deal (perm_of_find? found) (board_request here)
            (Bool.eq_false_iff.2 idle) (by rw [board, List.getElem?_map, there, ← kind]; rfl)
          let rest := s.pendingTaskOffers.eraseP (s.offerHasType r.taskType)
          let taken : State := { s.setAcceptInProgress request true with pendingTaskOffers := rest }
          refine changes_of_change deal ((board_acceptOffer taken there request).trans ?_)
          exact congrArg
            (fun b : MatchBoard String String =>
              { b with openOffers := rest, deals := b.deals ++ [(⟨offer, request, false⟩ : Deal)] })
            (board_setAcceptInProgress s request true)

theorem changes_foldl {α : Type*} {f : State → α → State}
    (each : ∀ (s : State) a, s.Changes (f s a))
    (l : List α) (s : State) : s.Changes (l.foldl f s) := by
  induction l generalizing s with
  | nil => exact .refl
  | cons a rest ih => exact (each s a).trans (ih (f s a))

theorem changes_settleTasks (now : Int) : s.Changes (s.settleTasks now) := by
  refine Relation.ReflTransGen.trans ?_ (changes_foldl changes_settleRequest _ _)
  exact changes_of_change (.withdraw List.filter_sublist) rfl

theorem changes_taskRequested (s : State) (requestId requesterId taskType : String) (now : Int) :
    s.Changes (s.taskRequested requestId requesterId taskType now) := by
  rw [taskRequested]
  split
  case isTrue =>
    refine changes_of_change (.turnDown ⟨requestId, taskType, false⟩) ?_
    rw [board_messageRequester_of_none _ (by simp [Sent.answers])]
    simp [board, clearTimeout, setTimeout]
  case isFalse =>
    refine Relation.ReflTransGen.trans ?_ (changes_settleTasks now)
    refine changes_of_change (.request ⟨requestId, taskType, false⟩) ?_
    simp [board, setTimeout]

theorem changes_taskOffered (offer : TaskOffer) (now : Int) : s.Changes (s.taskOffered offer now) := by
  refine Relation.ReflTransGen.trans ?_ (changes_settleTasks now)
  refine changes_of_change (.offer offer.taskType) ?_
  simp [board]

@[simp] theorem board_answerRunnerAccept (s : State) (id : TaskId) (result : RunnerAccept) :
    (s.answerRunnerAccept id result).board = s.board := by
  rw [answerRunnerAccept]
  split
  case isTrue => exact board_modifyCall s fun call _ => by split <;> exact ⟨rfl, rfl, .rfl⟩
  case isFalse => rfl

@[simp] theorem board_settleRunnerAccept (s : State) (id : TaskId) (result : RunnerAccept) :
    (s.settleRunnerAccept id result).board = s.board :=
  board_modifyCall s fun call _ => by split <;> exact ⟨rfl, rfl, .rfl⟩

@[simp] theorem board_settleRequesterAccept (s : State) (id : TaskId) (result : RequesterAccept) :
    (s.settleRequesterAccept id result).board = s.board :=
  board_modifyCall s fun call _ => by split <;> exact ⟨rfl, rfl, .rfl⟩

@[simp] theorem board_handleRequesterAccept (s : State) (id : TaskId) (settings : JsValue) :
    (s.handleRequesterAccept id settings).board = s.board := by
  rw [handleRequesterAccept]
  split
  case isTrue => exact board_settleRequesterAccept s id (.accepted settings)
  case isFalse => rfl

@[simp] theorem board_cancelTask (s : State) (id : TaskId) (reason : String) :
    (s.cancelTask id reason).board = s.board := by
  rw [cancelTask]
  split
  case h_1 => rfl
  case h_2 => exact board_messageRunner _ _ _

@[simp] theorem board_failTask (s : State) (id : TaskId) (error : JsValue) :
    (s.failTask id error).board = s.board := by
  rw [failTask]
  split
  case h_1 => rfl
  case h_2 => exact board_messageRequester_of_none _ rfl

theorem board_finishTask (s : State) (id : TaskId)
    (none : ∀ requesterId, (Sent.toRequester requesterId message).answers = none) :
    (s.finishTask id message).board = s.board := by
  rw [finishTask]
  split
  case h_1 => rfl
  case h_2 task here =>
    rw [board_suspend, board_messageRequester_of_none _ (none task.requesterId), board_clearTimeout]

@[simp] theorem board_taskDoneHandler (s : State) (id : TaskId) (data : JsValue) :
    (s.taskDoneHandler id data).board = s.board := board_finishTask s id fun _ => rfl

@[simp] theorem board_taskErrorHandler (s : State) (id : TaskId) (error : JsValue) :
    (s.taskErrorHandler id error).board = s.board := board_finishTask s id fun _ => rfl

theorem board_handleRunnerRequest (s : State) (id : TaskId)
    (none : ∀ requesterId, (Sent.toRequester requesterId message).answers = none) :
    (s.handleRunnerRequest id message).board = s.board := by
  rw [handleRunnerRequest]
  split
  case h_1 => rfl
  case h_2 task here => exact board_messageRequester_of_none _ (none task.requesterId)

@[simp] theorem board_handleRequesterResponse (s : State) (id : TaskId)
    (message : BrokerMessage.Response) : (s.handleRequesterResponse id message).board = s.board := by
  rw [handleRequesterResponse]
  split
  case h_1 => rfl
  case h_2 =>
    split
    case isTrue => rfl
    case isFalse => exact board_failTask s id _

@[simp] theorem board_handleTaskTimeout (s : State) (mode : Mode) (id : TaskId) :
    (s.handleTaskTimeout mode id).board = s.board := by
  rw [handleTaskTimeout]
  split
  case h_1 => rfl
  case h_2 =>
    cases mode with
    | internal => exact board_taskErrorHandler s id executionTimeoutError
    | external => exact board_messageRunner s _ _

theorem board_resume (s : State) (call : Nat) (ok : Bool) : (s.resume call ok).board = s.board := by
  rw [resume]
  split
  case h_1 => split <;> rfl
  case h_2 id here =>
    split
    case isTrue => exact board_taskErrorHandler _ id executionTimeoutError
    case isFalse => rfl
  case h_3 => exact board_messageRunner _ _ _
  case h_4 => rfl
  case h_5 => rfl
  case h_6 => rfl

theorem changes_deregisterRunner (s : State) (runnerId error : String) :
    s.Changes (s.deregisterRunner runnerId error) := by
  refine Relation.ReflTransGen.trans ?_ (changes_foldl (fun s task => changes_of_same ?_) _ _)
  · exact changes_of_change (.withdraw List.filter_sublist) rfl
  · rw [failTaskOfRunner]
    split
    case isTrue => rw [handleRunnerReject, board_answerRunnerAccept, board_failTask]
    case isFalse => rfl

section

variable {id : TaskId} {call : AcceptOffer} (here : s.acceptOffers[id]? = some call)

include here

theorem changes_setStage {stage : AcceptStage} (pending : call.stage ≠ .finished) :
    s.Changes (s.setStage id stage) := by
  by_cases last : stage = .finished
  · rw [last]
    exact changes_of_change (.close id) (board_setStage_finished s id)
  · refine changes_of_same (board_setStage s last fun other there => ?_)
    rw [Option.some.inj (there.symm.trans here)]
    exact pending

theorem changes_acceptFailed (pending : call.stage ≠ .finished) :
    s.Changes (s.acceptFailed id call.request) := by
  have deal : s.board.deals[id]? = some ⟨call.offer, call.request, false⟩ := by
    rw [board, List.getElem?_map, here]
    simp [pending]
  refine changes_of_change (.breakOff deal rfl) ?_
  rw [acceptFailed, board_setStage_finished, board_setAcceptInProgress]

theorem changes_acceptDeferred (pending : call.stage ≠ .finished) :
    s.Changes (s.acceptDeferred id call.request) := by
  rw [acceptDeferred]
  split
  case h_1 => exact .refl
  case h_2 r there =>
    refine Relation.ReflTransGen.trans (changes_of_same ?_) (changes_acceptFailed here pending)
    have requests (timeout : Option Nat) :
        (s.requests.modify call.request fun r => { r with timeout := timeout }).map
          (fun r => (⟨r.requestId, r.taskType, r.acceptInProgress⟩ :
            MatchBoard.Request String String)) = s.board.requests := by
      refine List.ext_getElem? fun i => ?_
      simp only [board, List.getElem?_map, List.getElem?_modify]
      split <;> cases s.requests[i]? <;> rfl
    simp only [board, MatchBoard.mk.injEq]
    exact ⟨rfl, rfl, rfl, requests _, rfl, rfl⟩

theorem changes_then_setStage {stage : AcceptStage} (before : s.Changes s')
    (calls : s'.acceptOffers = s.acceptOffers) (pending : call.stage ≠ .finished) :
    s.Changes (s'.setStage id stage) :=
  before.trans (changes_setStage (calls ▸ here) pending)

theorem changes_readyFailed (pending : call.stage ≠ .finished) : s.Changes (s.readyFailed id) := by
  have calls : (s.cancelTask id "Unknown reason").acceptOffers = s.acceptOffers := by
    rw [cancelTask]
    split <;> rfl
  exact changes_then_setStage here (changes_of_same (board_cancelTask s id _)) calls pending

theorem changes_runnerAccepted (pending : call.stage ≠ .finished) :
    s.Changes (s.runnerAccepted id call.offer call.request) := by
  rw [runnerAccepted]
  split
  case h_1 o r atOffer atRequest =>
    dsimp only
    split
    case h_1 => exact changes_then_setStage here (changes_of_same rfl) rfl pending
    case h_2 request found =>
      have has := List.find?_some found
      cases there : s.requests[request]? with
      | none => exact absurd has (by simp [hasRequestId, clearTimeout, there])
      | some other =>
        refine changes_then_setStage here ?_ rfl pending
        exact changes_of_answer found there rfl rfl
  case h_2 => exact .refl

theorem changes_sendTaskSettings (pending : call.stage ≠ .finished) (settings : JsValue) :
    s.Changes (s.sendTaskSettings id settings) := by
  have calls (error : JsValue) : (s.failTask id error).acceptOffers = s.acceptOffers := by
    rw [failTask]
    split <;> rfl
  rw [sendTaskSettings]
  split
  case h_1 => exact changes_setStage here pending
  case h_2 =>
    split
    case isTrue => exact changes_setStage here pending
    case isFalse =>
      exact changes_then_setStage here (changes_of_same (board_failTask s id _)) (calls _) pending

theorem changes_gotRunner (pending : call.stage ≠ .finished) (settings : JsValue)
    (runnerId : String) : s.Changes (s.gotRunner id settings runnerId) := by
  rw [gotRunner]
  split
  case h_1 => exact changes_setStage here pending
  case h_2 => exact changes_then_setStage here (changes_of_same (board_messageRunner _ _ _)) rfl pending

end

theorem changes_resumeAcceptOffer (s : State) (id : TaskId) (ok : Bool) :
    s.Changes (s.resumeAcceptOffer id ok) := by
  rw [resumeAcceptOffer]
  split
  case h_1 => exact .refl
  case h_2 call here =>
    by_cases pending : call.stage = .finished
    case pos => simp only [pending]; exact .refl
    split
    case h_1 =>
      split
      case isTrue => exact changes_setStage here pending
      case isFalse => exact changes_acceptFailed here pending
    case h_2 =>
      split
      case h_1 => exact .refl
      case h_2 => exact changes_runnerAccepted here pending
      case h_3 => exact changes_acceptDeferred here pending
      case h_4 => exact changes_acceptFailed here pending
      case h_5 => exact changes_acceptFailed here pending
    case h_3 =>
      split
      case isTrue => exact changes_setStage here pending
      case isFalse => exact changes_readyFailed here pending
    case h_4 =>
      split
      case h_1 => exact .refl
      case h_2 => exact changes_sendTaskSettings here pending _
      case h_3 => exact changes_readyFailed here pending
    case h_5 => exact changes_gotRunner here pending _ _
    case h_6 => exact changes_readyFailed here pending
    case h_7 =>
      split
      case isTrue => exact changes_setStage here pending
      case isFalse => exact changes_readyFailed here pending
    case h_8 => exact changes_setStage here pending
    case h_9 => exact .refl

theorem changes_onRunnerMessage (s : State) (runnerId : String) (message : RunnerMessage)
    (now : Int) : s.Changes (s.onRunnerMessage runnerId message now) := by
  rw [onRunnerMessage.eq_def]
  split
  case isFalse => exact .refl
  case isTrue =>
    cases message with
    | taskaccepted id => exact changes_of_same (board_answerRunnerAccept s id _)
    | taskrejected id reason => exact changes_of_same (board_answerRunnerAccept s id _)
    | taskdeferred id => exact changes_of_same (board_answerRunnerAccept s id _)
    | taskoffer offerId taskType validFor => exact changes_taskOffered _ now
    | taskdone id data => exact changes_of_same (board_taskDoneHandler s id data)
    | taskerror id error => exact changes_of_same (board_taskErrorHandler s id error)
    | taskdatarequest id => exact changes_of_same (board_handleRunnerRequest s id fun _ => rfl)
    | nodetypesrequest id => exact changes_of_same (board_handleRunnerRequest s id fun _ => rfl)
    | rpc id => exact changes_of_same (board_handleRunnerRequest s id fun _ => rfl)
    | info => exact .refl

theorem changes_timerFires (s : State) (mode : Mode) (timeout : Nat) :
    s.Changes (s.timerFires mode timeout) := by
  rw [timerFires]
  split
  case h_1 => exact .refl
  case h_2 =>
    refine Relation.ReflTransGen.trans
      (changes_of_same (board_clearTimeout s (some timeout))) ?_
    split
    case h_1 requestId _ => exact changes_handleRequestTimeout requestId
    case h_2 => exact changes_of_same (board_settleRunnerAccept _ _ _)
    case h_3 => exact changes_of_same (board_settleRequesterAccept _ _ _)
    case h_4 => exact changes_of_same (board_handleTaskTimeout _ _ _)

end State

theorem changes_step (mode : Mode) (s : State) (action : Action) :
    s.Changes (step mode s action) := by
  cases action with
  | registerRunner runnerId => exact State.changes_of_same (State.board_messageRunner _ _ _)
  | deregisterRunner runnerId error => exact s.changes_deregisterRunner runnerId error
  | registerRequester => exact .refl
  | deregisterRequester => exact .refl
  | runnerMessage runnerId message now => exact s.changes_onRunnerMessage runnerId message now
  | requesterMessage requesterId message now =>
    cases message with
    | tasksettings id settings => exact State.changes_of_same (s.board_handleRequesterAccept id settings)
    | taskcancel id reason => exact State.changes_of_same (s.board_cancelTask id reason)
    | taskrequest requestId taskType => exact s.changes_taskRequested requestId requesterId taskType now
    | taskdataresponse id => exact State.changes_of_same (s.board_handleRequesterResponse id _)
    | nodetypesresponse id => exact State.changes_of_same (s.board_handleRequesterResponse id _)
    | rpcresponse id => exact State.changes_of_same (s.board_handleRequesterResponse id _)
  | timerFires timeout => exact s.changes_timerFires mode timeout
  | resumeAcceptOffer id ok => exact s.changes_resumeAcceptOffer id ok
  | resume call ok => exact State.changes_of_same (s.board_resume call ok)
  | startDraining => exact .refl

namespace State

/-- Offers and requests are matched one to one. A request is told apart by its id, which
its requester draws; nothing is said of an id that two requests have. -/
structure MatchedOneToOne (s : State) : Prop where
  offer : ∀ (i j : TaskId) (call other : AcceptOffer), s.acceptOffers[i]? = some call →
    s.acceptOffers[j]? = some other → call.offer = other.offer → i = j
  inProgress : ∀ (i j : TaskId) (call other : AcceptOffer), s.acceptOffers[i]? = some call →
    s.acceptOffers[j]? = some other → call.stage ≠ .finished → other.stage ≠ .finished →
      call.request = other.request → i = j
  answered : ∀ requestId, s.requests.countP (fun r => r.requestId = requestId) ≤ 1 →
    s.sent.countP (fun message => message.answers = some requestId) ≤ 1
  taskType : ∀ call ∈ s.acceptOffers, ∃ o r, s.offers[call.offer]? = some o ∧
    s.requests[call.request]? = some r ∧ o.taskType = r.taskType

end State

theorem oneToOne_initial : ({} : State).board.OneToOne where
  offers := List.nodup_nil
  offered := by simp [State.board]
  requests := List.nodup_nil
  requested := by simp [State.board]
  busy := by simp [State.board]
  single := by simp [State.board]
  kinds := by simp [State.board]
  known := by simp [State.board]
  once := by simp [State.board]
  answered := by simp [State.board]

theorem oneToOne_after (mode : Mode) (actions : List Action) :
    (Runs.after (step mode) {} actions).board.OneToOne :=
  Runs.holds_after (I := fun s : State => s.board.OneToOne)
    (fun s action h _ => h.of_changes (changes_step mode s action)) oneToOne_initial
    (Runs.along_of_forall (R := fun _ => True) fun _ _ => trivial)

theorem unique_of_countP {s : State} {requestId : String}
    (alone : s.requests.countP (fun r => r.requestId = requestId) ≤ 1) : s.board.Unique requestId := by
  intro i j r t atI atJ sameR sameT
  simp only [State.board, List.getElem?_map, Option.map_eq_some_iff] at atI atJ
  obtain ⟨requestI, hereI, boardI⟩ := atI
  obtain ⟨requestJ, hereJ, boardJ⟩ := atJ
  refine eq_of_countP_le_one alone hereI hereJ ?_ ?_
  · rw [← sameR, ← boardI]
    exact decide_eq_true rfl
  · rw [← sameT, ← boardJ]
    exact decide_eq_true rfl

theorem matchedOneToOne_of_board {s : State} (h : s.board.OneToOne) : s.MatchedOneToOne := by
  have deal {i : Nat} {call : AcceptOffer} (here : s.acceptOffers[i]? = some call) :
      s.board.deals[i]? = some ⟨call.offer, call.request, call.stage = .finished⟩ := by
    rw [State.board, List.getElem?_map, here]
    rfl
  refine ⟨fun i j call other atI atJ same => ?_, fun i j call other atI atJ pendingI pendingJ same => ?_,
    fun requestId alone => ?_, fun call member => ?_⟩
  · have used := (List.nodup_append.1 h.offers).2.1
    have short := (List.getElem?_eq_some_iff.1 (deal atI)).1
    refine (List.getElem?_inj (by rw [List.length_map]; exact short) used).1 ?_
    rw [List.getElem?_map, List.getElem?_map, deal atI, deal atJ, Option.map_some, Option.map_some, same]
  · exact h.single i j _ _ (deal atI) (deal atJ) (by simp [pendingI]) (by simp [pendingJ]) same
  · have once := h.once requestId (unique_of_countP alone)
    rw [State.board, List.count_filterMap] at once
    refine Nat.le_trans (Nat.le_of_eq (List.countP_congr fun message _ => ?_)) once
    rw [decide_eq_true_iff, beq_iff_eq]
  · obtain ⟨i, here⟩ := List.mem_iff_getElem?.1 member
    obtain ⟨r, request, kind⟩ := h.kinds _ (List.mem_of_getElem? (deal here))
    simp only [State.board, List.getElem?_map, Option.map_eq_some_iff] at request kind
    obtain ⟨there, atRequest, same⟩ := request
    obtain ⟨o, atOffer, type⟩ := kind
    rw [← same] at type
    exact ⟨o, there, atOffer, atRequest, type⟩

/-- In every state reached, whatever the order of offers, requests, answers and timers. -/
theorem matchedOneToOne_after (mode : Mode) (actions : List Action) :
    (Runs.after (step mode) {} actions).MatchedOneToOne :=
  matchedOneToOne_of_board (oneToOne_after mode actions)

end NodeAutomation.TaskBroker
