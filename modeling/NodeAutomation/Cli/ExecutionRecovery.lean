import NodeAutomation.Cli.ActiveExecutions
import NodeAutomation.Interfaces

/-! Recovery of an execution that was cut short (`amend` and what it calls in
`packages/cli/src/executions/execution-recovery.service.ts`): the missing runs of its nodes are told
from the messages of the event log. -/

namespace NodeAutomation.ExecutionRecovery
open ActiveExecutions (ExecutionStatus)

inductive EventNamesNodeType where
  | started
  | finished
  deriving DecidableEq

inductive EventNamesWorkflowType where
  | started
  | success
  | failed
  | cancelled
  | crashed
  deriving DecidableEq

/-- `n8n.node.…`. Times are in milliseconds. -/
structure EventMessageNode where
  eventName : EventNamesNodeType
  nodeName : String
  ts : Nat
  deriving DecidableEq

/-- `n8n.workflow.…` -/
structure EventMessageWorkflow where
  eventName : EventNamesWorkflowType
  ts : Nat
  deriving DecidableEq

inductive EventMessageTypes where
  | node (message : EventMessageNode)
  | workflow (message : EventMessageWorkflow)
  | other (eventName : String)
  deriving DecidableEq

def EventMessageTypes.node? : EventMessageTypes → Option EventMessageNode
  | node message => some message
  | workflow _ => none
  | other _ => none

def EventMessageTypes.workflow? : EventMessageTypes → Option EventMessageWorkflow
  | node _ => none
  | workflow message => some message
  | other _ => none

structure RelevantMessages where
  nodeMessagesByName : OrderedMap String (List EventMessageNode)
  workflowMessages : List EventMessageWorkflow

def toRelevantMessages (messages : List EventMessageTypes) : RelevantMessages where
  nodeMessagesByName := OrderedMap.groupBy EventMessageNode.nodeName (messages.filterMap EventMessageTypes.node?)
  workflowMessages := messages.filterMap EventMessageTypes.workflow?

inductive ExecutionError where
  | nodeCrashed (nodeName : String)
  | workflowCrashed
  | other (name message : String)
  deriving DecidableEq

structure ITaskData where
  startTime : Nat
  executionIndex : Nat := 0
  executionTime : Int := -1
  source : List (Option ISourceData) := [none]
  executionStatus : Option ExecutionStatus := none
  data : Option ITaskDataConnections := none
  error : Option ExecutionError := none
  deriving DecidableEq

abbrev IRunData := OrderedMap String (List ITaskData)

structure ResultData where
  error : Option ExecutionError := none
  runData : Option IRunData := some ∅
  lastNodeExecuted : Option String := none
  deriving DecidableEq

structure IRunExecutionData where
  resultData : ResultData := {}
  deriving DecidableEq

structure IExecutionResponse where
  status : ExecutionStatus
  stoppedAt : Option Nat := none
  data : Option IRunExecutionData := none
  nodes : List INode
  deriving DecidableEq

def ARTIFICIAL_TASK_DATA : ITaskDataConnections :=
  mainOnly [.value [{ json := [("isArtificialRecoveredEventItem", .bool true)] }]]

/-- The data of the execution while the loop goes over the nodes. -/
structure Amending where
  error : Option ExecutionError
  runData : IRunData
  lastNodeExecuted : Option String
  lastNodeRunTimestamp : Option Nat := none

/-- The body of the loop over `execution.workflowData.nodes`. -/
def amendNode (nodeMessagesByName : OrderedMap String (List EventMessageNode)) (amending : Amending) (node : INode) :
    Amending :=
  let nodeMessages := (nodeMessagesByName.get node.name).getD []
  match nodeMessages.find? fun m => m.nodeName = node.name ∧ m.eventName = .started with
  | none => amending
  | some nodeStartedMessage =>
    if (amending.runData.get node.name).isSome then amending
    else
      let taskData : ITaskData := { startTime := nodeStartedMessage.ts / 1000 }
      match nodeMessages.find? fun m => m.nodeName = node.name ∧ m.eventName = .finished with
      | some nodeFinishedMessage =>
        let taskData := { taskData with
          executionStatus := some .success
          data := some ARTIFICIAL_TASK_DATA
          executionTime := nodeFinishedMessage.ts - nodeStartedMessage.ts }
        { amending with
          lastNodeRunTimestamp := some nodeFinishedMessage.ts
          lastNodeExecuted := some node.name
          runData := amending.runData.set node.name [taskData] }
      | none =>
        let taskData := { taskData with
          executionStatus := some .crashed
          error := some (.nodeCrashed node.name)
          executionTime := 0 }
        { error := some .workflowCrashed
          lastNodeRunTimestamp := some nodeStartedMessage.ts
          lastNodeExecuted := some node.name
          runData := amending.runData.set node.name [taskData] }

def EventMessageWorkflow.ends (m : EventMessageWorkflow) : Bool :=
  match m.eventName with
  | .success | .crashed | .failed => true
  | .started | .cancelled => false

def toStoppedAt (timestamp : Option Nat) (messages : List EventMessageWorkflow) : Option Nat :=
  match timestamp with
  | some timestamp => some timestamp
  | none =>
    (messages.find? EventMessageWorkflow.ends <|> messages.find? fun m => m.eventName = .started).map
      EventMessageWorkflow.ts

/-- `markAsCrashed` leaves an execution alone that is not in progress. -/
def amendWithoutLogs (now : Nat) (execution : Option IExecutionResponse) : Option IExecutionResponse :=
  execution.map fun execution =>
    match execution.status with
    | .new | .running | .unknown => { execution with status := .crashed, stoppedAt := some now }
    | .canceled | .crashed | .error | .success | .waiting => execution

def IExecutionResponse.isFinished (execution : IExecutionResponse) : Bool :=
  execution.status ∈ [.success, .error, .canceled] ∧ execution.data.isSome

def IExecutionResponse.amending (execution : IExecutionResponse) : Amending :=
  let resultData := (execution.data.getD {}).resultData
  { error := resultData.error
    runData := resultData.runData.getD ∅
    lastNodeExecuted := resultData.lastNodeExecuted }

/-- `amend`, with the execution that is stored under the id. -/
def amend (now : Nat) (execution : Option IExecutionResponse) (messages : List EventMessageTypes) :
    Option IExecutionResponse :=
  if messages = [] then amendWithoutLogs now execution
  else
    let relevant := toRelevantMessages messages
    if relevant.nodeMessagesByName.size = 0 then none
    else
      match execution with
      | none => none
      | some execution =>
        if execution.isFinished then none
        else
          let amended := execution.nodes.foldl (amendNode relevant.nodeMessagesByName) execution.amending
          some { execution with
            status := if execution.status = .error then .error else .crashed
            stoppedAt := toStoppedAt amended.lastNodeRunTimestamp relevant.workflowMessages
            data := some { resultData := {
              error := amended.error
              runData := some amended.runData
              lastNodeExecuted := amended.lastNodeExecuted } } }

def nodeLog (messages : List EventMessageTypes) : List EventMessageNode :=
  messages.filterMap EventMessageTypes.node?

def firstOf (log : List EventMessageNode) (eventName : EventNamesNodeType) (nodeName : String) :
    Option EventMessageNode :=
  log.find? fun m => m.nodeName = nodeName ∧ m.eventName = eventName

/-- The last start of the node has no later finish. -/
def LeftRunning (log : List EventMessageNode) (nodeName : String) : Prop :=
  ∃ before start later, log = before ++ start :: later ∧ start.nodeName = nodeName ∧ start.eventName = .started ∧
    ∀ m ∈ later, m.nodeName = nodeName → m.eventName ≠ .started ∧ m.eventName ≠ .finished

/-- The node was started, and none of its runs is stored. -/
def IExecutionResponse.Lacks (execution : IExecutionResponse) (log : List EventMessageNode) (nodeName : String) : Prop :=
  (firstOf log .started nodeName).isSome ∧ execution.amending.runData.get nodeName = none

instance (execution : IExecutionResponse) (log : List EventMessageNode) : DecidablePred (execution.Lacks log) :=
  fun nodeName => inferInstanceAs (Decidable (_ ∧ execution.amending.runData.get nodeName = none))

/-- The amendment tells the end of the run as the log does, whose latest message is `m`. -/
def Reconstructs (now : Nat) (execution : IExecutionResponse) (messages : List EventMessageTypes)
    (m : EventMessageNode) : Prop :=
  ∃ amended data runData, amend now (some execution) messages = some amended ∧ amended.data = some data ∧
    data.resultData.runData = some runData ∧ data.resultData.lastNodeExecuted = some m.nodeName ∧
    amended.stoppedAt = some m.ts ∧
    ∀ node ∈ execution.nodes, execution.Lacks (nodeLog messages) node.name →
      ∃ taskData, runData.get node.name = some [taskData] ∧
        (taskData.executionStatus = some .crashed ↔ LeftRunning (nodeLog messages) node.name)

def lastLacking (execution : IExecutionResponse) (log : List EventMessageNode) (names : List String) : Option String :=
  (names.filter (execution.Lacks log)).eraseDups.getLast?

def firstEnd (log : List EventMessageNode) (nodeName : String) : Option Nat :=
  (firstOf log .finished nodeName <|> firstOf log .started nodeName).map EventMessageNode.ts

/-- The list of nodes ends with the node of the latest message, or with nodes that lack no run; the
first finish of a node tells its end. -/
structure EndsInOrder (execution : IExecutionResponse) (messages : List EventMessageTypes) (m : EventMessageNode) :
    Prop where
  last : (lastLacking execution (nodeLog messages) (execution.nodes.map INode.name) <|>
    execution.amending.lastNodeExecuted) = some m.nodeName
  time : toStoppedAt ((lastLacking execution (nodeLog messages) (execution.nodes.map INode.name)).bind
    (firstEnd (nodeLog messages))) (messages.filterMap EventMessageTypes.workflow?) = some m.ts
  once : ∀ node ∈ execution.nodes, execution.Lacks (nodeLog messages) node.name →
    (firstOf (nodeLog messages) .finished node.name).isSome → ¬ LeftRunning (nodeLog messages) node.name

variable {execution : IExecutionResponse} {messages : List EventMessageTypes} {log : List EventMessageNode}
variable {amending : Amending} {node : INode} {nodeName : String} {m : EventMessageNode}

theorem firstOf_spec {eventName : EventNamesNodeType} (first : firstOf log eventName nodeName = some m) :
    m ∈ log ∧ m.nodeName = nodeName ∧ m.eventName = eventName := by
  rw [firstOf] at first
  exact ⟨List.mem_of_find?_eq_some first, by simpa using List.find?_some first⟩

theorem firstOf_eq_none_iff {eventName : EventNamesNodeType} :
    firstOf log eventName nodeName = none ↔ ∀ m ∈ log, m.nodeName = nodeName → m.eventName ≠ eventName := by
  rw [firstOf, List.find?_eq_none]
  simp

theorem find_ofNode (log : List EventMessageNode) (nodeName : String) (eventName : EventNamesNodeType) :
    (((OrderedMap.groupBy EventMessageNode.nodeName log).get nodeName).getD []).find?
        (fun m => m.nodeName = nodeName ∧ m.eventName = eventName) = firstOf log eventName nodeName := by
  have ofNode : ((OrderedMap.groupBy EventMessageNode.nodeName log).get nodeName).getD [] =
      log.filter (EventMessageNode.nodeName · = nodeName) := by
    rw [OrderedMap.get_groupBy]
    split
    case isTrue none => exact none.symm
    case isFalse => rfl
  rw [ofNode, List.find?_filter, firstOf]
  congr
  funext m
  simp

theorem amendNode_stays (stays : firstOf log .started node.name = none ∨ (amending.runData.get node.name).isSome) :
    amendNode (OrderedMap.groupBy EventMessageNode.nodeName log) amending node = amending := by
  rw [amendNode]
  simp only [find_ofNode]
  split
  case h_1 => rfl
  case h_2 m started =>
    rcases stays with unstarted | ran
    · simp [unstarted] at started
    · exact if_pos ran

theorem amendNode_recovers (started : (firstOf log .started node.name).isSome)
    (lacks : amending.runData.get node.name = none) :
    ∃ taskData, (taskData.executionStatus = some .crashed ↔ firstOf log .finished node.name = none) ∧
      let amended := amendNode (OrderedMap.groupBy EventMessageNode.nodeName log) amending node
      amended.lastNodeExecuted = some node.name ∧ amended.lastNodeRunTimestamp = firstEnd log node.name ∧
        amended.runData = amending.runData.set node.name [taskData] := by
  obtain ⟨start, here⟩ := Option.isSome_iff_exists.1 started
  have absent : ¬ (amending.runData.get node.name).isSome := by
    rw [lacks]
    exact Bool.false_ne_true
  simp only [amendNode, find_ofNode, here, if_neg absent, firstEnd]
  cases firstOf log .finished node.name with
  | none => exact ⟨_, ⟨fun _ => rfl, fun _ => rfl⟩, rfl, rfl, rfl⟩
  | some finish => exact ⟨_, ⟨fun never => (by cases never), fun never => (by cases never)⟩, rfl, rfl, rfl⟩

theorem lastLacking_concat (execution : IExecutionResponse) (log : List EventMessageNode) (names : List String)
    (nodeName : String) :
    lastLacking execution log (names ++ [nodeName]) =
      if execution.Lacks log nodeName ∧ nodeName ∉ names then some nodeName else lastLacking execution log names := by
  rw [lastLacking, List.filter_append, List.eraseDups_append]
  by_cases lacks : execution.Lacks log nodeName
  · have single : [nodeName].filter (fun name => decide (execution.Lacks log name)) = [nodeName] := by simp [lacks]
    rw [single]
    by_cases seen : nodeName ∈ names
    · have gone : [nodeName].removeAll (names.filter (execution.Lacks log)) = [] := by
        simp [List.removeAll, seen, lacks]
      rw [if_neg fun both => both.2 seen, gone]
      simp [lastLacking]
    · rw [if_pos ⟨lacks, seen⟩]
      simp [List.removeAll, seen, List.eraseDups_cons]
  · have none : [nodeName].filter (fun name => decide (execution.Lacks log name)) = [] := by simp [lacks]
    rw [none, if_neg fun both => lacks both.1]
    simp [List.removeAll, lastLacking]

structure Amended (execution : IExecutionResponse) (log : List EventMessageNode) (names : List String)
    (amending : Amending) : Prop where
  last : amending.lastNodeExecuted = (lastLacking execution log names <|> execution.amending.lastNodeExecuted)
  time : amending.lastNodeRunTimestamp = (lastLacking execution log names).bind (firstEnd log)
  recovered : ∀ nodeName ∈ names, execution.Lacks log nodeName →
    ∃ taskData, amending.runData.get nodeName = some [taskData] ∧
      (taskData.executionStatus = some .crashed ↔ firstOf log .finished nodeName = none)
  others : ∀ nodeName, ¬ (nodeName ∈ names ∧ execution.Lacks log nodeName) →
    amending.runData.get nodeName = execution.amending.runData.get nodeName

variable {names : List String}

theorem Amended.next (h : Amended execution log names amending) (node : INode) :
    Amended execution log (names ++ [node.name])
      (amendNode (OrderedMap.groupBy EventMessageNode.nodeName log) amending node) := by
  by_cases fresh : execution.Lacks log node.name ∧ node.name ∉ names
  · obtain ⟨lacks, unseen⟩ := fresh
    have still : amending.runData.get node.name = none :=
      (h.others node.name fun both => unseen both.1).trans lacks.2
    obtain ⟨taskData, status, last, time, runData⟩ := amendNode_recovers lacks.1 still
    refine ⟨?_, ?_, fun nodeName member of => ?_, fun nodeName other => ?_⟩
    · rw [last, lastLacking_concat, if_pos ⟨lacks, unseen⟩]
      rfl
    · rw [time, lastLacking_concat, if_pos ⟨lacks, unseen⟩]
      rfl
    · rw [runData, OrderedMap.get_set]
      by_cases same : nodeName = node.name
      · rw [if_pos same, same]
        exact ⟨taskData, rfl, status⟩
      · rw [if_neg same]
        rcases List.mem_append.1 member with before | here
        · exact h.recovered nodeName before of
        · exact absurd (List.mem_singleton.1 here) same
    · have apart : nodeName ≠ node.name := by
        rintro rfl
        exact other ⟨List.mem_append_right _ (List.mem_singleton_self _), lacks⟩
      rw [runData, OrderedMap.get_set_of_ne _ _ apart]
      exact h.others nodeName fun both => other ⟨List.mem_append_left _ both.1, both.2⟩
  · have stays : firstOf log .started node.name = none ∨ (amending.runData.get node.name).isSome := by
      by_cases started : (firstOf log .started node.name).isSome
      · right
        by_cases lacks : execution.Lacks log node.name
        · obtain ⟨taskData, here, -⟩ := h.recovered node.name (not_not.1 fun unseen => fresh ⟨lacks, unseen⟩) lacks
          rw [here]
          rfl
        · rw [h.others node.name fun both => lacks both.2]
          exact Option.isSome_iff_ne_none.2 fun none => lacks ⟨started, none⟩
      · left
        simpa using started
    rw [amendNode_stays stays]
    refine ⟨?_, ?_, fun nodeName member of => ?_, fun nodeName other => ?_⟩
    · rw [lastLacking_concat, if_neg fresh]
      exact h.last
    · rw [lastLacking_concat, if_neg fresh]
      exact h.time
    · rcases List.mem_append.1 member with before | here
      · exact h.recovered nodeName before of
      · rw [List.mem_singleton.1 here] at of ⊢
        exact h.recovered node.name (not_not.1 fun unseen => fresh ⟨of, unseen⟩) of
    · exact h.others nodeName fun both => other ⟨List.mem_append_left _ both.1, both.2⟩

theorem Amended.nodes (h : Amended execution log names amending) (nodes : List INode) :
    Amended execution log (names ++ nodes.map INode.name)
      (nodes.foldl (amendNode (OrderedMap.groupBy EventMessageNode.nodeName log)) amending) := by
  induction nodes generalizing names amending with
  | nil => simpa using h
  | cons node nodes ih =>
    have next := ih (h.next node)
    rwa [List.append_assoc] at next

theorem amended (execution : IExecutionResponse) (log : List EventMessageNode) :
    Amended execution log (execution.nodes.map INode.name)
      (execution.nodes.foldl (amendNode (OrderedMap.groupBy EventMessageNode.nodeName log)) execution.amending) := by
  have nothing : Amended execution log [] execution.amending :=
    ⟨rfl, rfl, fun _ never => absurd never List.not_mem_nil, fun _ _ => rfl⟩
  simpa using nothing.nodes execution.nodes

theorem leftRunning_iff : LeftRunning log nodeName ↔
    ∃ start, (log.filter (EventMessageNode.nodeName · = nodeName)).getLast? = some start ∧ start.eventName = .started := by
  constructor
  · rintro ⟨before, start, later, rfl, ofNode, starts, after⟩
    have none : later.filter (EventMessageNode.nodeName · = nodeName) = [] := by
      refine List.filter_eq_nil_iff.2 fun m among of => ?_
      have neither := after m among (of_decide_eq_true of)
      cases event : m.eventName with
      | started => exact neither.1 event
      | finished => exact neither.2 event
    refine ⟨start, ?_, starts⟩
    rw [List.filter_append, List.filter_cons_of_pos (by simpa using ofNode), none, List.getLast?_append]
    rfl
  · rintro ⟨start, last, starts⟩
    obtain ⟨earlier, split⟩ := List.getLast?_eq_some_iff.1 last
    obtain ⟨before, later, rfl, -, single⟩ := List.filter_eq_append_iff.1 split
    obtain ⟨between, later, rfl, -, ofNode, none⟩ := List.filter_eq_cons_iff.1 single
    refine ⟨before ++ between, start, later, by simp, of_decide_eq_true ofNode, starts, fun m among of => ?_⟩
    exact absurd (decide_eq_true of) (List.filter_eq_nil_iff.1 none m among)

instance (log : List EventMessageNode) : DecidablePred (LeftRunning log) := fun nodeName =>
  decidable_of_iff ((log.filter (EventMessageNode.nodeName · = nodeName)).getLast?.map EventMessageNode.eventName =
    some .started) (by rw [leftRunning_iff, Option.map_eq_some_iff])

theorem leftRunning_of_unfinished (started : (firstOf log .started nodeName).isSome)
    (unfinished : firstOf log .finished nodeName = none) : LeftRunning log nodeName := by
  obtain ⟨start, here⟩ := Option.isSome_iff_exists.1 started
  obtain ⟨member, ofNode, -⟩ := firstOf_spec here
  have some : log.filter (EventMessageNode.nodeName · = nodeName) ≠ [] :=
    List.ne_nil_of_mem (List.mem_filter.2 ⟨member, decide_eq_true ofNode⟩)
  refine leftRunning_iff.2 ⟨_, List.getLast?_eq_some_getLast some, ?_⟩
  obtain ⟨among, of⟩ := List.mem_filter.1 (List.getLast_mem some)
  have unlike := firstOf_eq_none_iff.1 unfinished _ among (of_decide_eq_true of)
  cases event : (List.getLast _ some).eventName with
  | started => rfl
  | finished => exact absurd event unlike

theorem amend_eq (now : Nat) (unfinished : execution.isFinished = false)
    (latest : (nodeLog messages).getLast? = some m) :
    let amended := execution.nodes.foldl (amendNode (OrderedMap.groupBy EventMessageNode.nodeName (nodeLog messages)))
      execution.amending
    amend now (some execution) messages = some { execution with
      status := if execution.status = .error then .error else .crashed
      stoppedAt := toStoppedAt amended.lastNodeRunTimestamp (messages.filterMap EventMessageTypes.workflow?)
      data := some { resultData := {
        error := amended.error
        runData := some amended.runData
        lastNodeExecuted := amended.lastNodeExecuted } } } := by
  have member := List.mem_of_getLast? latest
  have some : messages ≠ [] := by
    rintro rfl
    cases member
  have grouped : (toRelevantMessages messages).nodeMessagesByName.size ≠ 0 := by
    intro none
    have absent := (OrderedMap.size_eq_zero_iff_get _).1 none m.nodeName
    rw [toRelevantMessages, OrderedMap.get_groupBy, if_neg] at absent
    · cases absent
    · exact List.ne_nil_of_mem (List.mem_filter.2 ⟨member, decide_eq_true rfl⟩)
  simp only [amend, if_neg some, if_neg grouped, unfinished]
  rfl

/-- The amendment reconstructs the end of the run exactly where the list of nodes follows the log. -/
theorem reconstructs_iff (now : Nat) (execution : IExecutionResponse) (messages : List EventMessageTypes)
    (m : EventMessageNode) (unfinished : execution.isFinished = false)
    (latest : (nodeLog messages).getLast? = some m) :
    Reconstructs now execution messages m ↔ EndsInOrder execution messages m := by
  have spec := amended execution (nodeLog messages)
  have result := amend_eq now unfinished latest
  constructor
  · rintro ⟨done, data, runData, went, isData, isRunData, last, time, runs⟩
    rw [result] at went
    cases went
    cases isData
    cases isRunData
    rw [spec.last] at last
    rw [spec.time] at time
    refine ⟨last, time, fun node member lacks finished running => ?_⟩
    obtain ⟨taskData, here, crashed⟩ := runs node member lacks
    obtain ⟨taskData', here', crashed'⟩ := spec.recovered node.name (List.mem_map_of_mem member) lacks
    rw [here] at here'
    cases here'
    simp [crashed'.1 (crashed.2 running)] at finished
  · intro inOrder
    refine ⟨_, _, _, result, rfl, rfl, ?_, ?_, fun node member lacks => ?_⟩
    · exact spec.last.trans inOrder.last
    · rw [spec.time]
      exact inOrder.time
    · obtain ⟨taskData, here, crashed⟩ := spec.recovered node.name (List.mem_map_of_mem member) lacks
      refine ⟨taskData, here, crashed.trans ⟨leftRunning_of_unfinished lacks.1, fun running => ?_⟩⟩
      by_contra finished
      exact inOrder.once node member lacks (Option.isSome_iff_ne_none.2 finished) running

/-- A trigger has run, and the node after it was started. -/
def crashedLog : List EventMessageTypes :=
  [.workflow ⟨.started, 0⟩, .node ⟨.started, "Trigger", 1000⟩, .node ⟨.finished, "Trigger", 2000⟩,
    .node ⟨.started, "DebugHelper", 3000⟩]

def crashed (nodes : List INode) : IExecutionResponse := { status := .running, nodes }

theorem reconstructs_crashedLog :
    Reconstructs 9000 (crashed [{ name := "Trigger" }, { name := "DebugHelper" }]) crashedLog
      ⟨.started, "DebugHelper", 3000⟩ :=
  (reconstructs_iff 9000 _ _ _ rfl rfl).2 ⟨by decide, by decide, by decide⟩

/-- The list of nodes need not follow the log: the trigger, which is listed last, is taken for the
node executed last. -/
theorem not_reconstructs_listedFirst :
    ¬ ∀ (now : Nat) (execution : IExecutionResponse) (messages : List EventMessageTypes) (m : EventMessageNode),
      execution.isFinished = false → (nodeLog messages).getLast? = some m → Reconstructs now execution messages m := by
  intro always
  obtain ⟨amended, data, runData, went, isData, -, last, -⟩ :=
    always 9000 (crashed [{ name := "DebugHelper" }, { name := "Trigger" }]) crashedLog
      ⟨.started, "DebugHelper", 3000⟩ rfl rfl
  have trigger : (amend 9000 (some (crashed [{ name := "DebugHelper" }, { name := "Trigger" }])) crashedLog).bind
      (fun amended => amended.data.bind fun data => data.resultData.lastNodeExecuted) = some "Trigger" := by decide
  rw [went] at trigger
  rw [Option.bind_some, isData, Option.bind_some, last] at trigger
  revert trigger
  decide

end NodeAutomation.ExecutionRecovery
