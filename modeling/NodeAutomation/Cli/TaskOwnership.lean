import NodeAutomation.Cli.TaskBroker
import NodeAutomation.Lib.Runs

/-! Who may act on a task: `onRunnerMessage` looks up its sender among the known runners,
and never looks at it again. -/

namespace NodeAutomation.TaskBroker

def RunnerMessage.taskId : RunnerMessage → Option TaskId
  | .taskaccepted id | .taskrejected id _ | .taskdeferred id | .taskdone id _ | .taskerror id _
  | .taskdatarequest id _ _ | .nodetypesrequest id _ _ | .rpc id _ _ _ => some id
  | .taskoffer .. | .info => none

def RunnerMessage.isAnswer : RunnerMessage → Bool
  | .taskaccepted .. | .taskrejected .. | .taskdeferred .. => true
  | _ => false

def RunnerMessage.isRequest : RunnerMessage → Bool
  | .taskdatarequest .. | .nodetypesrequest .. | .rpc .. => true
  | _ => false

def BrokerMessage.ToRunner.taskId : BrokerMessage.ToRunner → Option TaskId
  | .taskofferaccept _ id | .taskcancel id _ | .tasksettings id _ | .rpcresponse id _ _ _
  | .taskdataresponse id _ _ | .nodetypes id _ _ => some id
  | .runnerregistered => none

def Suspended.taskId : Suspended → Option TaskId
  | .finishing id _ | .timingOut id => some id
  | .responding _ message => message.1.taskId
  | .returned => none

structure TaskState where
  task : Option Task
  acceptOffer : Option AcceptOffer
  runnerAcceptRejects : Bool
  requesterAcceptRejects : Bool
  suspended : List Suspended
  deriving DecidableEq

namespace State

variable (s : State)

def taskState (taskId : TaskId) : TaskState where
  task := s.tasks.get taskId
  acceptOffer := s.acceptOffers[taskId]?
  runnerAcceptRejects := taskId ∈ s.runnerAcceptRejects
  requesterAcceptRejects := taskId ∈ s.requesterAcceptRejects
  suspended := s.suspended.filter fun call => call.taskId = some taskId

def runnerOf (taskId : TaskId) : Option String :=
  match s.tasks.get taskId with
  | some task => some task.runnerId
  | none => do
    let call ← s.acceptOffers[taskId]?
    let offer ← s.offers[call.offer]?
    pure offer.runnerId

def requesterOf (taskId : TaskId) : Option String :=
  match s.tasks.get taskId with
  | some task => some task.requesterId
  | none => do
    let call ← s.acceptOffers[taskId]?
    let request ← s.requests[call.request]?
    pure request.requesterId

def sentTo (requesterId : String) : List Sent :=
  s.sent.filter fun
    | .toRequester id _ => id = requesterId
    | .toRunner _ _ => false

/-- The broker as it is for everybody but the tasks and what is said. -/
structure SameElsewhere (s' : State) : Prop where
  knownRunners : s'.knownRunners = s.knownRunners
  requesters : s'.requesters = s.requesters
  isDraining : s'.isDraining = s.isDraining
  pendingTaskOffers : s'.pendingTaskOffers = s.pendingTaskOffers
  pendingTaskRequests : s'.pendingTaskRequests = s.pendingTaskRequests
  offers : s'.offers = s.offers
  requests : s'.requests = s.requests
  nextTimer : s'.nextTimer = s.nextTimer

/-- The step concerns one task only: its state, its timer, and its requester. -/
structure Confined (taskId : TaskId) (s' : State) : Prop where
  elsewhere : s.SameElsewhere s'
  others : ∀ other, other ≠ taskId → s'.taskState other = s.taskState other
  timers : ∀ timer, (∀ task, s.tasks.get taskId = some task → some timer.1 ≠ task.timeout) →
    (timer ∈ s'.timers ↔ timer ∈ s.timers)
  sent : ∃ new, s'.sent = s.sent ++ new ∧ ∀ message ∈ new, ∃ task said,
    s.tasks.get taskId = some task ∧ message = .toRequester task.requesterId said

end State

/-- What becomes of a message about a task: an answer is taken where one is pending, a
request is passed on, and the end of a task ends it, where it is there. -/
structure HandledForTask (s : State) (message : RunnerMessage) (taskId : TaskId) (s' : State) :
    Prop where
  confined : s.Confined taskId s'
  answer : message.isAnswer = true → s'.sent = s.sent ∧ s'.tasks = s.tasks
  request : message.isRequest = true → s'.taskState taskId = s.taskState taskId
  absent : s.tasks.get taskId = none → taskId ∉ s.runnerAcceptRejects → s' = s

namespace State

variable {s : State}

theorem SameElsewhere.refl (s : State) : s.SameElsewhere s := ⟨rfl, rfl, rfl, rfl, rfl, rfl, rfl, rfl⟩

theorem Confined.refl (s : State) (taskId : TaskId) : s.Confined taskId s where
  elsewhere := .refl s
  others _ _ := rfl
  timers _ _ := .rfl
  sent := ⟨[], (List.append_nil _).symm, fun _ member => absurd member List.not_mem_nil⟩

theorem confined_answerRunnerAccept (s : State) (taskId : TaskId) (result : RunnerAccept) :
    s.Confined taskId (s.answerRunnerAccept taskId result) := by
  rw [answerRunnerAccept]
  split
  case isTrue member =>
    refine { Confined.refl s taskId with
      elsewhere := ⟨rfl, rfl, rfl, rfl, rfl, rfl, rfl, rfl⟩
      others := fun other apart => ?_ }
    have call : (s.settleRunnerAccept taskId result).acceptOffers[other]? = s.acceptOffers[other]? := by
      simp [settleRunnerAccept, apart.symm]
    have pending : other ∈ s.runnerAcceptRejects.difference (.ofList [taskId]) ↔
        other ∈ s.runnerAcceptRejects := by simp [apart]
    simp only [taskState, call, decide_eq_decide.2 pending]
    rfl
  case isFalse => exact .refl s taskId

theorem confined_finishTask (s : State) (taskId : TaskId) (message : BrokerMessage.ToRequester) :
    s.Confined taskId (s.finishTask taskId message) := by
  rw [finishTask]
  split
  case h_1 => exact .refl s taskId
  case h_2 task here =>
    refine ⟨⟨rfl, rfl, rfl, rfl, rfl, rfl, rfl, rfl⟩, fun other apart => ?_, fun timer apart => ?_,
      _, rfl, fun said member => ?_⟩
    · simp [taskState, suspend, messageRequester, clearTimeout, Suspended.taskId, apart.symm]
    · have kept := apart task here
      simp [suspend, messageRequester, clearTimeout, kept]
    · split at member
      case isTrue => exact ⟨task, message, here, List.mem_singleton.1 member⟩
      case isFalse => exact absurd member List.not_mem_nil

theorem confined_handleRunnerRequest (s : State) (taskId : TaskId)
    (message : BrokerMessage.ToRequester) : s.Confined taskId (s.handleRunnerRequest taskId message) := by
  rw [handleRunnerRequest]
  split
  case h_1 => exact .refl s taskId
  case h_2 task here =>
    refine ⟨⟨rfl, rfl, rfl, rfl, rfl, rfl, rfl, rfl⟩, fun _ _ => rfl, fun _ _ => .rfl, _, rfl,
      fun said member => ?_⟩
    split at member
    case isTrue => exact ⟨task, message, here, List.mem_singleton.1 member⟩
    case isFalse => exact absurd member List.not_mem_nil

theorem taskState_handleRunnerRequest (s : State) (taskId : TaskId)
    (message : BrokerMessage.ToRequester) :
    (s.handleRunnerRequest taskId message).taskState taskId = s.taskState taskId := by
  rw [handleRunnerRequest]
  split <;> rfl

end State

variable {s : State} {message : RunnerMessage} {taskId : TaskId}

theorem handledForTask_answer (request : message.isRequest = false) (result : RunnerAccept) :
    HandledForTask s message taskId (s.answerRunnerAccept taskId result) where
  confined := s.confined_answerRunnerAccept taskId result
  answer _ := by
    rw [State.answerRunnerAccept]
    split <;> exact ⟨rfl, rfl⟩
  request asks := absurd (request.symm.trans asks) (by decide)
  absent _ idle := by rw [State.answerRunnerAccept, if_neg idle]

theorem handledForTask_finish (answer : message.isAnswer = false) (request : message.isRequest = false)
    (said : BrokerMessage.ToRequester) :
    HandledForTask s message taskId (s.finishTask taskId said) where
  confined := s.confined_finishTask taskId said
  answer answers := absurd (answer.symm.trans answers) (by decide)
  request asks := absurd (request.symm.trans asks) (by decide)
  absent none _ := by rw [State.finishTask, none]

theorem handledForTask_request (answer : message.isAnswer = false) (said : BrokerMessage.ToRequester) :
    HandledForTask s message taskId (s.handleRunnerRequest taskId said) where
  confined := s.confined_handleRunnerRequest taskId said
  answer answers := absurd (answer.symm.trans answers) (by decide)
  request _ := s.taskState_handleRunnerRequest taskId said
  absent none _ := by rw [State.handleRunnerRequest, none]

/-- A runner that is not known changes nothing; a known one may name any task, and the
broker handles what it says as if the task's own runner had said it. -/
theorem onRunnerMessage_of_any_known_runner (s : State) (runnerId : String) (message : RunnerMessage)
    (now : Int) : (runnerId ∉ s.knownRunners → s.onRunnerMessage runnerId message now = s) ∧
      ∀ taskId, message.taskId = some taskId → runnerId ∈ s.knownRunners →
        (∀ other ∈ s.knownRunners,
          s.onRunnerMessage other message now = s.onRunnerMessage runnerId message now) ∧
        HandledForTask s message taskId (s.onRunnerMessage runnerId message now) := by
  refine ⟨fun unknown => ?_, fun taskId names known => ⟨fun other also => ?_, ?_⟩⟩
  · rw [State.onRunnerMessage.eq_def, if_neg unknown]
  · rw [State.onRunnerMessage.eq_def, State.onRunnerMessage.eq_def, if_pos known, if_pos also]
    cases message with
    | taskoffer => exact absurd names (by simp [RunnerMessage.taskId])
    | _ => rfl
  · rw [State.onRunnerMessage.eq_def, if_pos known]
    cases message with
    | taskaccepted id =>
      rw [Option.some.inj names]
      exact handledForTask_answer rfl .accepted
    | taskrejected id reason =>
      rw [Option.some.inj names]
      exact handledForTask_answer rfl (.rejected reason)
    | taskdeferred id =>
      rw [Option.some.inj names]
      exact handledForTask_answer rfl .deferred
    | taskoffer => exact absurd names (by simp [RunnerMessage.taskId])
    | taskdone id data =>
      rw [Option.some.inj names]
      exact handledForTask_finish rfl rfl (.taskdone taskId data)
    | taskerror id error =>
      rw [Option.some.inj names]
      exact handledForTask_finish rfl rfl (.taskerror taskId error)
    | taskdatarequest id requestId params =>
      rw [Option.some.inj names]
      exact handledForTask_request rfl (.taskdatarequest taskId requestId params)
    | nodetypesrequest id requestId params =>
      rw [Option.some.inj names]
      exact handledForTask_request rfl (.nodetypesrequest taskId requestId params)
    | rpc id callId name params =>
      rw [Option.some.inj names]
      exact handledForTask_request rfl (.rpc taskId callId name params)
    | info => exact absurd names (by simp [RunnerMessage.taskId])

/-- Another runner ends a task: its requester hears of it. -/
theorem taskdone_of_other_runner : ¬ ∀ (s : State) (runnerId owner : String)
    (message : RunnerMessage) (now : Int) (taskId : TaskId), runnerId ∈ s.knownRunners →
      message.taskId = some taskId → s.runnerOf taskId = some owner → owner ≠ runnerId →
        (s.onRunnerMessage runnerId message now).taskState taskId = s.taskState taskId ∧
          ∀ requesterId, s.requesterOf taskId = some requesterId →
            (s.onRunnerMessage runnerId message now).sentTo requesterId = s.sentTo requesterId := by
  intro own
  have untouched := own
    (Runs.after (step .internal) {} (handshake "runner" "requester" ++ [.registerRunner "other"]))
    "other" "runner" (.taskdone 0 .null) 0 0 (by decide) rfl (by decide) (by decide)
  exact absurd (untouched.2 "requester" (by decide)) (by decide)

end NodeAutomation.TaskBroker
