import NodeAutomation.Interfaces
import NodeAutomation.Lib.OrderedSet

/-! The broker between the runners that execute tasks and the requesters that want
them executed (`packages/cli/src/task-runners/task-broker/task-broker.service.ts`).
A call suspended at an `await` is part of the state, and its resumption is a step of
its own, so a run is any interleaving of messages, timers and resumptions. -/

namespace NodeAutomation.TaskBroker

/-- `nanoid(8)`: the ids drawn are different, so they are numbered in their order. -/
abbrev TaskId := Nat

inductive Mode where
  | internal
  | external
  deriving DecidableEq

structure Task where
  id : TaskId
  runnerId : String
  requesterId : String
  taskType : String
  timeout : Option Nat := none
  deriving DecidableEq

structure TaskOffer where
  offerId : String
  runnerId : String
  taskType : String
  validFor : Int
  validUntil : Int
  deriving DecidableEq

structure TaskRequest where
  requestId : String
  requesterId : String
  taskType : String
  timeout : Option Nat := none
  acceptInProgress : Bool := false
  deriving DecidableEq

namespace BrokerMessage

inductive ToRunner where
  | runnerregistered
  | taskofferaccept (offerId : String) (taskId : TaskId)
  | taskcancel (taskId : TaskId) (reason : String)
  | tasksettings (taskId : TaskId) (settings : JsValue)
  | rpcresponse (taskId : TaskId) (callId status : String) (data : JsValue)
  | taskdataresponse (taskId : TaskId) (requestId : String) (data : JsValue)
  | nodetypes (taskId : TaskId) (requestId : String) (nodeTypes : JsValue)
  deriving DecidableEq

def ToRunner.isResponse : ToRunner → Bool
  | .rpcresponse .. | .taskdataresponse .. | .nodetypes .. => true
  | _ => false

abbrev Response := { message : ToRunner // message.isResponse = true }

inductive ToRequester where
  | taskready (requestId : String) (taskId : TaskId)
  | taskdone (taskId : TaskId) (data : JsValue)
  | taskerror (taskId : TaskId) (error : JsValue)
  | requestexpired (requestId reason : String)
  | rpc (taskId : TaskId) (callId name : String) (params : JsValue)
  | taskdatarequest (taskId : TaskId) (requestId : String) (requestParams : JsValue)
  | nodetypesrequest (taskId : TaskId) (requestId : String) (requestParams : JsValue)
  deriving DecidableEq

end BrokerMessage

inductive RunnerMessage where
  | taskaccepted (taskId : TaskId)
  | taskrejected (taskId : TaskId) (reason : String)
  | taskdeferred (taskId : TaskId)
  | taskoffer (offerId taskType : String) (validFor : Int)
  | taskdone (taskId : TaskId) (data : JsValue)
  | taskerror (taskId : TaskId) (error : JsValue)
  | taskdatarequest (taskId : TaskId) (requestId : String) (requestParams : JsValue)
  | nodetypesrequest (taskId : TaskId) (requestId : String) (requestParams : JsValue)
  | rpc (taskId : TaskId) (callId name : String) (params : JsValue)
  | info

inductive RequesterMessage where
  | tasksettings (taskId : TaskId) (settings : JsValue)
  | taskcancel (taskId : TaskId) (reason : String)
  | taskrequest (requestId taskType : String)
  | taskdataresponse (taskId : TaskId) (requestId : String) (data : JsValue)
  | nodetypesresponse (taskId : TaskId) (requestId : String) (nodeTypes : JsValue)
  | rpcresponse (taskId : TaskId) (callId status : String) (data : JsValue)

/-- What a message callback has been called with. -/
inductive Sent where
  | toRunner (runnerId : String) (message : BrokerMessage.ToRunner)
  | toRequester (requesterId : String) (message : BrokerMessage.ToRequester)
  deriving DecidableEq

/-- `acceptPromise` of the first phase. -/
inductive RunnerAccept where
  | pending
  | accepted
  | rejected (reason : String)
  | deferred
  | timedOut
  deriving DecidableEq

/-- `acceptPromise` of the second phase. Nothing calls `handleRequesterReject`. -/
inductive RequesterAccept where
  | pending
  | accepted (settings : JsValue)
  | timedOut
  deriving DecidableEq

/-- Where a call of `acceptOffer` is suspended. -/
inductive AcceptStage where
  /-- `await this.messageRunner(.. 'broker:taskofferaccept' ..)` -/
  | offering
  /-- `await acceptPromise`, for the runner -/
  | awaitingRunner
  /-- `await this.messageRequester(.. 'broker:taskready' ..)` -/
  | readying
  /-- `await acceptPromise`, for the requester -/
  | awaitingRequester
  /-- in `sendTaskSettings`, at `await this.getRunnerOrFailTask(taskId)`, with the runner found -/
  | gettingRunner (settings : JsValue) (runnerId : String)
  /-- the same, in `failTask` -/
  | failingTask
  /-- in `sendTaskSettings`, at `await this.messageRunner(..)` -/
  | sendingSettings
  /-- `await this.cancelTask(..)`, in the second handler -/
  | cancelling
  | finished
  deriving DecidableEq

/-- A call of `acceptOffer`; its offer and its request are objects, and its task id is
its place among the calls. -/
structure AcceptOffer where
  offer : Nat
  request : Nat
  stage : AcceptStage := .offering
  runnerAccept : RunnerAccept := .pending
  requesterAccept : RequesterAccept := .pending
  deriving DecidableEq

/-- The other calls that do something after an `await`. -/
inductive Suspended where
  /-- `taskDoneHandler` or `taskErrorHandler`, at the callback of the requester; left by
  an exception once the callback has thrown -/
  | finishing (taskId : TaskId) (thrown : Bool)
  /-- `handleTaskTimeout`, before it calls `taskErrorHandler` -/
  | timingOut (taskId : TaskId)
  /-- a response of a requester, before it is sent to the runner -/
  | responding (runnerId : String) (message : BrokerMessage.Response)
  /-- nothing is left to do -/
  | returned
  deriving DecidableEq

inductive Timer where
  | request (requestId : String)
  | runnerAccept (taskId : TaskId)
  | requesterAccept (taskId : TaskId)
  | task (taskId : TaskId)
  deriving DecidableEq

/-- The fields of the broker; then the objects they and the suspended calls refer to,
numbered in the order in which they were made, the calls, the live timers, and the
messages sent so far. -/
structure State where
  knownRunners : OrderedSet String := ∅
  requesters : OrderedSet String := ∅
  tasks : OrderedMap TaskId Task := ∅
  isDraining : Bool := false
  runnerAcceptRejects : OrderedSet TaskId := ∅
  requesterAcceptRejects : OrderedSet TaskId := ∅
  pendingTaskOffers : List Nat := []
  pendingTaskRequests : List Nat := []
  offers : List TaskOffer := []
  requests : List TaskRequest := []
  acceptOffers : List AcceptOffer := []
  suspended : List Suspended := []
  timers : List (Nat × Timer) := []
  nextTimer : Nat := 0
  sent : List Sent := []

namespace State

def messageRunner (runnerId : String) (message : BrokerMessage.ToRunner) (s : State) : State :=
  { s with sent := s.sent ++ if runnerId ∈ s.knownRunners then [.toRunner runnerId message] else [] }

def messageRequester (requesterId : String) (message : BrokerMessage.ToRequester) (s : State) :
    State :=
  { s with sent := s.sent ++
      if requesterId ∈ s.requesters then [.toRequester requesterId message] else [] }

def setTimeout (timer : Timer) (s : State) : State :=
  { s with timers := s.timers ++ [(s.nextTimer, timer)], nextTimer := s.nextTimer + 1 }

def clearTimeout (timeout : Option Nat) (s : State) : State :=
  { s with timers := s.timers.filter fun timer => some timer.1 ≠ timeout }

def suspend (call : Suspended) (s : State) : State := { s with suspended := s.suspended ++ [call] }

def setStage (taskId : TaskId) (stage : AcceptStage) (s : State) : State :=
  { s with acceptOffers := s.acceptOffers.modify taskId fun call => { call with stage := stage } }

def hasRequestId (s : State) (requestId : String) (request : Nat) : Bool :=
  s.requests[request]?.any fun r => r.requestId = requestId

def offerHasType (s : State) (taskType : String) (offer : Nat) : Bool :=
  s.offers[offer]?.any fun o => o.taskType = taskType

def handleRequestTimeout (requestId : String) (s : State) : State :=
  match s.pendingTaskRequests.find? (s.hasRequestId requestId) with
  | none => s
  | some index =>
    match s.requests[index]? with
    | none => s
    | some request =>
      ({ s with
        pendingTaskRequests := s.pendingTaskRequests.eraseP (s.hasRequestId requestId) } : State)
      |>.clearTimeout request.timeout
      |>.messageRequester request.requesterId (.requestexpired request.requestId "timeout")

def expireTasks (now : Int) (s : State) : State :=
  { s with pendingTaskOffers := s.pendingTaskOffers.filter fun offer =>
      !(s.offers[offer]?.any fun o => o.validFor ≠ -1 && o.validUntil < now) }

/-- `acceptOffer`, up to its first `await`. -/
def acceptOffer (offer request : Nat) (s : State) : State :=
  match s.offers[offer]? with
  | none => s
  | some o =>
    let taskId := s.acceptOffers.length
    ({ s with
      acceptOffers := s.acceptOffers ++ [{ offer := offer, request := request }]
      runnerAcceptRejects := s.runnerAcceptRejects.add taskId } : State)
    |>.setTimeout (.runnerAccept taskId)
    |>.messageRunner o.runnerId (.taskofferaccept o.offerId taskId)

def setAcceptInProgress (request : Nat) (acceptInProgress : Bool) (s : State) : State :=
  { s with requests := s.requests.modify request fun r =>
      { r with acceptInProgress := acceptInProgress } }

/-- One turn of the loop of `settleTasks`. -/
def settleRequest (s : State) (request : Nat) : State :=
  match s.requests[request]? with
  | none => s
  | some r =>
    if r.acceptInProgress then s
    else match s.pendingTaskOffers.find? (s.offerHasType r.taskType) with
      | none => s
      | some offer =>
        ({ s.setAcceptInProgress request true with
          pendingTaskOffers := s.pendingTaskOffers.eraseP (s.offerHasType r.taskType) } : State)
        |>.acceptOffer offer request

def settleTasks (now : Int) (s : State) : State :=
  let s := s.expireTasks now
  s.pendingTaskRequests.foldl settleRequest s

/-- `createRequestTimeout` and the new request object, then `taskRequested`. -/
def taskRequested (requestId requesterId taskType : String) (now : Int) (s : State) : State :=
  let request := s.requests.length
  let timeout := s.nextTimer
  let s : State := { s.setTimeout (.request requestId) with
    requests := s.requests ++ [{ requestId, requesterId, taskType, timeout := some timeout }] }
  if s.isDraining then
    s.clearTimeout (some timeout)
    |>.messageRequester requesterId (.requestexpired requestId "draining")
  else ({ s with pendingTaskRequests := s.pendingTaskRequests ++ [request] } : State).settleTasks now

def taskOffered (offer : TaskOffer) (now : Int) (s : State) : State :=
  ({ s with
    offers := s.offers ++ [offer]
    pendingTaskOffers := s.pendingTaskOffers ++ [s.offers.length] } : State).settleTasks now

def settleRunnerAccept (taskId : TaskId) (result : RunnerAccept) (s : State) : State :=
  { s with acceptOffers := s.acceptOffers.modify taskId fun call =>
      if call.runnerAccept = .pending then { call with runnerAccept := result } else call }

def answerRunnerAccept (taskId : TaskId) (result : RunnerAccept) (s : State) : State :=
  if taskId ∈ s.runnerAcceptRejects then
    { s.settleRunnerAccept taskId result with
      runnerAcceptRejects := s.runnerAcceptRejects.difference (.ofList [taskId]) }
  else s

def handleRunnerAccept (taskId : TaskId) : State → State := answerRunnerAccept taskId .accepted

def handleRunnerReject (taskId : TaskId) (reason : String) : State → State :=
  answerRunnerAccept taskId (.rejected reason)

def handleRunnerDeferred (taskId : TaskId) : State → State := answerRunnerAccept taskId .deferred

def settleRequesterAccept (taskId : TaskId) (result : RequesterAccept) (s : State) : State :=
  { s with acceptOffers := s.acceptOffers.modify taskId fun call =>
      if call.requesterAccept = .pending then { call with requesterAccept := result } else call }

def handleRequesterAccept (taskId : TaskId) (settings : JsValue) (s : State) : State :=
  if taskId ∈ s.requesterAcceptRejects then
    { s.settleRequesterAccept taskId (.accepted settings) with
      requesterAcceptRejects := s.requesterAcceptRejects.difference (.ofList [taskId]) }
  else s

def cancelTask (taskId : TaskId) (reason : String) (s : State) : State :=
  match s.tasks.get taskId with
  | none => s
  | some task =>
    ({ s with tasks := s.tasks.delete taskId } : State)
    |>.messageRunner task.runnerId (.taskcancel taskId reason)

def failTask (taskId : TaskId) (error : JsValue) (s : State) : State :=
  match s.tasks.get taskId with
  | none => s
  | some task =>
    ({ s with tasks := s.tasks.delete taskId } : State)
    |>.messageRequester task.requesterId (.taskerror taskId error)

/-- `taskDoneHandler` and `taskErrorHandler`, up to their `await`; the task is deleted
behind it. -/
def finishTask (taskId : TaskId) (message : BrokerMessage.ToRequester) (s : State) : State :=
  match s.tasks.get taskId with
  | none => s
  | some task =>
    s.clearTimeout task.timeout
    |>.messageRequester task.requesterId message
    |>.suspend (.finishing taskId false)

def taskDoneHandler (taskId : TaskId) (data : JsValue) : State → State :=
  finishTask taskId (.taskdone taskId data)

def taskErrorHandler (taskId : TaskId) (error : JsValue) : State → State :=
  finishTask taskId (.taskerror taskId error)

def executionTimeoutError : JsValue := .string "Task execution timed out"

def handleTaskTimeout (mode : Mode) (taskId : TaskId) (s : State) : State :=
  match s.tasks.get taskId with
  | none => s
  | some task =>
    match mode with
    | .internal => s.taskErrorHandler taskId executionTimeoutError
    | .external =>
      s.messageRunner task.runnerId (.taskcancel taskId "Task execution timed out")
      |>.suspend (.timingOut taskId)

def runnerNotFound (runnerId : String) : JsValue :=
  .string s!"Cannot find runner, failed to find runner ({runnerId})"

def handleRequesterResponse (taskId : TaskId) (message : BrokerMessage.Response) (s : State) :
    State :=
  match s.tasks.get taskId with
  | none => s
  | some task =>
    if task.runnerId ∈ s.knownRunners then s.suspend (.responding task.runnerId message)
    else s.failTask taskId (runnerNotFound task.runnerId)

def handleRequesterRpcResponse (taskId : TaskId) (callId status : String) (data : JsValue) :
    State → State := handleRequesterResponse taskId ⟨.rpcresponse taskId callId status data, rfl⟩

def handleRequesterDataResponse (taskId : TaskId) (requestId : String) (data : JsValue) :
    State → State := handleRequesterResponse taskId ⟨.taskdataresponse taskId requestId data, rfl⟩

def handleRequesterNodeTypesResponse (taskId : TaskId) (requestId : String) (nodeTypes : JsValue) :
    State → State := handleRequesterResponse taskId ⟨.nodetypes taskId requestId nodeTypes, rfl⟩

def handleRunnerRequest (taskId : TaskId) (message : BrokerMessage.ToRequester) (s : State) : State :=
  match s.tasks.get taskId with
  | none => s
  | some task => s.messageRequester task.requesterId message

def handleRpcRequest (taskId : TaskId) (callId name : String) (params : JsValue) : State → State :=
  handleRunnerRequest taskId (.rpc taskId callId name params)

def handleDataRequest (taskId : TaskId) (requestId : String) (requestParams : JsValue) :
    State → State := handleRunnerRequest taskId (.taskdatarequest taskId requestId requestParams)

def handleNodeTypesRequest (taskId : TaskId) (requestId : String) (requestParams : JsValue) :
    State → State := handleRunnerRequest taskId (.nodetypesrequest taskId requestId requestParams)

def acceptFailed (taskId : TaskId) (request : Nat) (s : State) : State :=
  s.setAcceptInProgress request false |>.setStage taskId .finished

/-- The same for `TaskDeferredError`: the request also gets a new timeout. -/
def acceptDeferred (taskId : TaskId) (request : Nat) (s : State) : State :=
  match s.requests[request]? with
  | none => s
  | some r =>
    let timeout := s.nextTimer
    let s := s.clearTimeout r.timeout |>.setTimeout (.request r.requestId)
    ({ s with requests := s.requests.modify request fun r => { r with timeout := some timeout } } : State)
    |>.acceptFailed taskId request

/-- Behind `await acceptPromise`: the task is kept, and its request is taken out to be
told that it is ready. -/
def runnerAccepted (taskId : TaskId) (offer request : Nat) (s : State) : State :=
  match s.offers[offer]?, s.requests[request]? with
  | some o, some r =>
    let s := s.clearTimeout r.timeout
    let task : Task :=
      { id := taskId, taskType := o.taskType, runnerId := o.runnerId, requesterId := r.requesterId }
    let s : State := { s with tasks := s.tasks.set taskId task }
    match s.pendingTaskRequests.find? (s.hasRequestId r.requestId) with
    | none => s.setStage taskId .finished
    | some _ =>
      ({ s with
        pendingTaskRequests := s.pendingTaskRequests.eraseP (s.hasRequestId r.requestId)
        requesterAcceptRejects := s.requesterAcceptRejects.add taskId } : State)
      |>.setTimeout (.requesterAccept taskId)
      |>.messageRequester r.requesterId (.taskready r.requestId taskId)
      |>.setStage taskId .readying
  | _, _ => s

/-- The second handler, for what is not a `TaskRejectError`. -/
def readyFailed (taskId : TaskId) (s : State) : State :=
  s.cancelTask taskId "Unknown reason" |>.setStage taskId .cancelling

/-- `sendTaskSettings`, up to its first `await`. -/
def sendTaskSettings (taskId : TaskId) (settings : JsValue) (s : State) : State :=
  match s.tasks.get taskId with
  | none => s.setStage taskId .finished
  | some task =>
    if task.runnerId ∈ s.knownRunners then s.setStage taskId (.gettingRunner settings task.runnerId)
    else s.failTask taskId (runnerNotFound task.runnerId) |>.setStage taskId .failingTask

/-- The rest of `sendTaskSettings`, with the runner found. -/
def gotRunner (taskId : TaskId) (settings : JsValue) (runnerId : String) (s : State) : State :=
  match s.tasks.get taskId with
  | none => s.setStage taskId .finished
  | some task =>
    let timeout := s.nextTimer
    let s := s.setTimeout (.task taskId)
    ({ s with tasks := s.tasks.set taskId { task with timeout := some timeout } } : State)
    |>.messageRunner runnerId (.tasksettings taskId settings)
    |>.setStage taskId .sendingSettings

/-- A call of `acceptOffer` goes on; `ok` says whether the callback it waits for has
returned, and a promise it waits for has to be settled. -/
def resumeAcceptOffer (taskId : TaskId) (ok : Bool) (s : State) : State :=
  match s.acceptOffers[taskId]? with
  | none => s
  | some call =>
    match call.stage with
    | .offering =>
      if ok then s.setStage taskId .awaitingRunner else s.acceptFailed taskId call.request
    | .awaitingRunner =>
      match call.runnerAccept with
      | .pending => s
      | .accepted => s.runnerAccepted taskId call.offer call.request
      | .deferred => s.acceptDeferred taskId call.request
      | .rejected _ | .timedOut => s.acceptFailed taskId call.request
    | .readying => if ok then s.setStage taskId .awaitingRequester else s.readyFailed taskId
    | .awaitingRequester =>
      match call.requesterAccept with
      | .pending => s
      | .accepted settings => s.sendTaskSettings taskId settings
      | .timedOut => s.readyFailed taskId
    | .gettingRunner settings runnerId => s.gotRunner taskId settings runnerId
    | .failingTask => s.readyFailed taskId
    | .sendingSettings => if ok then s.setStage taskId .finished else s.readyFailed taskId
    | .cancelling => s.setStage taskId .finished
    | .finished => s

def registerRunner (runnerId : String) (s : State) : State :=
  ({ s with knownRunners := s.knownRunners.add runnerId } : State)
  |>.messageRunner runnerId .runnerregistered

/-- One turn of the loop of `deregisterRunner` over the tasks. -/
def failTaskOfRunner (runnerId error : String) (s : State) (task : Task) : State :=
  if task.runnerId = runnerId then
    s.failTask task.id (.string error)
    |>.handleRunnerReject task.id s!"The Task Runner ({runnerId}) has disconnected: {error}"
  else s

def deregisterRunner (runnerId error : String) (s : State) : State :=
  let s : State := { s with
    knownRunners := s.knownRunners.difference (.ofList [runnerId])
    pendingTaskOffers := s.pendingTaskOffers.filter fun offer =>
      !(s.offers[offer]?.any fun o => o.runnerId = runnerId) }
  s.tasks.values.foldl (failTaskOfRunner runnerId error) s

def registerRequester (requesterId : String) (s : State) : State :=
  { s with requesters := s.requesters.add requesterId }

def deregisterRequester (requesterId : String) (s : State) : State :=
  { s with requesters := s.requesters.difference (.ofList [requesterId]) }

def onRunnerMessage (runnerId : String) (message : RunnerMessage) (now : Int) (s : State) : State :=
  if runnerId ∈ s.knownRunners then
    match message with
    | .taskaccepted taskId => s.handleRunnerAccept taskId
    | .taskrejected taskId reason => s.handleRunnerReject taskId reason
    | .taskdeferred taskId => s.handleRunnerDeferred taskId
    | .taskoffer offerId taskType validFor =>
      let validUntil := if validFor = -1 then 0 else now + validFor * 1000000
      s.taskOffered { offerId, runnerId, taskType, validFor, validUntil } now
    | .taskdone taskId data => s.taskDoneHandler taskId data
    | .taskerror taskId error => s.taskErrorHandler taskId error
    | .taskdatarequest taskId requestId requestParams =>
      s.handleDataRequest taskId requestId requestParams
    | .nodetypesrequest taskId requestId requestParams =>
      s.handleNodeTypesRequest taskId requestId requestParams
    | .rpc taskId callId name params => s.handleRpcRequest taskId callId name params
    | .info => s
  else s

def onRequesterMessage (requesterId : String) (message : RequesterMessage) (now : Int) (s : State) :
    State :=
  match message with
  | .tasksettings taskId settings => s.handleRequesterAccept taskId settings
  | .taskcancel taskId reason => s.cancelTask taskId reason
  | .taskrequest requestId taskType => s.taskRequested requestId requesterId taskType now
  | .taskdataresponse taskId requestId data => s.handleRequesterDataResponse taskId requestId data
  | .nodetypesresponse taskId requestId nodeTypes =>
    s.handleRequesterNodeTypesResponse taskId requestId nodeTypes
  | .rpcresponse taskId callId status data => s.handleRequesterRpcResponse taskId callId status data

def timerFires (mode : Mode) (timeout : Nat) (s : State) : State :=
  match s.timers.lookup timeout with
  | none => s
  | some timer =>
    let s := s.clearTimeout (some timeout)
    match timer with
    | .request requestId => s.handleRequestTimeout requestId
    | .runnerAccept taskId => s.settleRunnerAccept taskId .timedOut
    | .requesterAccept taskId => s.settleRequesterAccept taskId .timedOut
    | .task taskId => s.handleTaskTimeout mode taskId

def resume (call : Nat) (ok : Bool) (s : State) : State :=
  let returned := { s with suspended := s.suspended.set call .returned }
  match s.suspended[call]? with
  | some (.finishing taskId false) =>
    if ok then { returned with tasks := returned.tasks.delete taskId }
    else { s with suspended := s.suspended.set call (.finishing taskId true) }
  | some (.timingOut taskId) =>
    if ok then returned.taskErrorHandler taskId executionTimeoutError else returned
  | some (.responding runnerId message) => returned.messageRunner runnerId message.1
  | some (.finishing _ true) | some .returned | none => s

def hasActiveTasks (s : State) : Bool := s.tasks.size > 0

end State

inductive Action where
  | registerRunner (runnerId : String)
  | deregisterRunner (runnerId error : String)
  | registerRequester (requesterId : String)
  | deregisterRequester (requesterId : String)
  | runnerMessage (runnerId : String) (message : RunnerMessage) (now : Int)
  | requesterMessage (requesterId : String) (message : RequesterMessage) (now : Int)
  | timerFires (timeout : Nat)
  | resumeAcceptOffer (taskId : TaskId) (ok : Bool)
  | resume (call : Nat) (ok : Bool)
  | startDraining

def step (mode : Mode) (s : State) : Action → State
  | .registerRunner runnerId => s.registerRunner runnerId
  | .deregisterRunner runnerId error => s.deregisterRunner runnerId error
  | .registerRequester requesterId => s.registerRequester requesterId
  | .deregisterRequester requesterId => s.deregisterRequester requesterId
  | .runnerMessage runnerId message now => s.onRunnerMessage runnerId message now
  | .requesterMessage requesterId message now => s.onRequesterMessage requesterId message now
  | .timerFires timeout => s.timerFires mode timeout
  | .resumeAcceptOffer taskId ok => s.resumeAcceptOffer taskId ok
  | .resume call ok => s.resume call ok
  | .startDraining => { s with isDraining := true }

def handshake (runnerId requesterId : String) : List Action :=
  [.registerRunner runnerId, .registerRequester requesterId,
    .requesterMessage requesterId (.taskrequest "request" "javascript") 0,
    .runnerMessage runnerId (.taskoffer "offer" "javascript" (-1)) 0,
    .resumeAcceptOffer 0 true, .runnerMessage runnerId (.taskaccepted 0) 0,
    .resumeAcceptOffer 0 true, .resumeAcceptOffer 0 true,
    .requesterMessage requesterId (.tasksettings 0 .null) 0, .resumeAcceptOffer 0 true,
    .resumeAcceptOffer 0 true, .resumeAcceptOffer 0 true]

end NodeAutomation.TaskBroker
