import NodeAutomation.Core.CleanRunData
import NodeAutomation.Core.RecreateStack

/-! The nodes that a partial execution starts from (`find-start-nodes.ts` and
`get-incoming-data.ts` of `packages/core/src/execution-engine/partial-execution-utils`): the first
nodes on the way from the trigger that have to run again. -/

namespace NodeAutomation.FindStartNodes

open DepthFirst Fallible RecreateStack

section

variable (graph : DirectedGraph) (destination : INode) (runData : IRunData) (pinData : IPinData)

/-- The checks that are not implemented yet are left out. -/
def isDirty (node : INode) : Bool :=
  let hasAnError := ((runData.get node.name).getD []).any (·.error.isSome)
  if hasAnError then true
  else if pinData.contains node.name then false
  else if runData.contains node.name then false
  else true

def isALoop (node : INode) : Except JsError Bool := do
  let children ← graph.getChildren node
  return decide (node ∈ children)

/-- `getIncomingData` for the last run, which has the index -1. -/
def getLastIncomingData (nodeName : String) (connectionType : NodeConnectionType) (outputIndex : Nat) :
    Except JsError (Option (List INodeExecutionData)) :=
  getIncomingData runData nodeName (((runData.get nodeName).getD []).length - 1) connectionType outputIndex

/-- The output of a loop node that is checked: `done`, unless the node is not in a loop. -/
def checkedOutput (loop : Bool) : Nat := if loop then 0 else 1

def startsLoop (current : INode) : Except JsError Bool :=
  if current.type = "n8n-nodes-base.splitInBatches" then do
    let loop ← isALoop graph current
    let nodeRunData ← getLastIncomingData runData current.name .main (checkedOutput loop)
    return (nodeRunData.getD []).isEmpty
  else .ok false

def hasData (connection : GraphConnection) : Except JsError Bool := do
  let nodeRunData ← getIncomingDataFromAnyRun runData connection.fromNode.name connection.type connection.outputIndex
  let hasNoRunData := nodeRunData.isNone
  let hasNoPinnedData := !pinData.contains connection.fromNode.name
  return !(hasNoRunData && hasNoPinnedData)

def findStartNodesRecursive : Nat → INode → OrderedSet INode → OrderedSet INode → Except JsError (OrderedSet INode)
  | 0, _, _, _ => .error .rangeError
  | fuel + 1, current, startNodes, seen =>
    if isDirty runData pinData current then .ok (startNodes.add current)
    else if current = destination then .ok (startNodes.add current)
    else do
      let unfinished ← startsLoop graph runData current
      if unfinished then return startNodes.add current
      else if current ∈ seen then return startNodes
      else
        let outGoingConnections ← graph.getDirectChildConnections current
        outGoingConnections.foldlM (fun startNodes connection => do
          let follow ← hasData runData pinData connection
          if follow then findStartNodesRecursive fuel connection.toNode startNodes (seen.add current)
          else return startNodes) startNodes

def findStartNodes (trigger : INode) : Except JsError (OrderedSet INode) :=
  findStartNodesRecursive graph destination runData pinData (graph.nodes.size + 1) trigger ∅ ∅

def HasItems (connection : GraphConnection) : Prop :=
  ∃ runIndex item items, getIncomingData runData connection.fromNode.name runIndex connection.type
    connection.outputIndex = .ok (some (item :: items))

def CarriesData (connection : GraphConnection) : Prop :=
  HasItems runData connection ∨ pinData.contains connection.fromNode.name = true

/-- A connection that carries data leads from a node to another. -/
def Feeds (a b : INode) : Prop :=
  ∃ connection ∈ graph.getConnections, connection.fromNode = a ∧ connection.toNode = b ∧
    CarriesData runData pinData connection

/-- Neither dirty nor with such an output left open. -/
def FeedsClean (a b : INode) : Prop := isDirty runData pinData a = false ∧ Feeds graph runData pinData a b

def NothingOnLastRun (node : INode) (outputIndex : Nat) : Prop :=
  ∀ items, getLastIncomingData runData node.name .main outputIndex = .ok (some items) → items = []

/-- A loop node without data at `done`, or at output 1 where it is not in a loop. -/
structure UnfinishedLoop (node : INode) : Prop where
  type : node.type = "n8n-nodes-base.splitInBatches"
  looping : graph.Below node node → NothingOnLastRun runData node 0
  alone : ¬graph.Below node node → NothingOnLastRun runData node 1

def MayStart (node : INode) : Prop :=
  isDirty runData pinData node = true ∨ node = destination ∨ UnfinishedLoop graph runData node

structure DataPath (first last : INode) (path : List INode) : Prop where
  head : path.head? = some first
  last : path.getLast? = some last
  once : path.Nodup
  fed : path.IsChain (Feeds graph runData pinData)

/-- Every start node may be one and is reached along clean nodes, and no path to the destination
avoids them all. -/
structure Frontier (MayStart : INode → Prop) (trigger : INode) (startNodes : OrderedSet INode) : Prop where
  sound : ∀ node ∈ startNodes, MayStart node ∧ Relation.ReflTransGen (FeedsClean graph runData pinData) trigger node
  cut : ∀ path, DataPath graph runData pinData trigger destination path → ∃ node ∈ path, node ∈ startNodes

def LacksType (node : INode) : Prop :=
  ∃ task ∈ (runData.get node.name).getD [], ∃ data, task.data = some data ∧
    (node.type = "n8n-nodes-base.splitInBatches" ∧ data.get .main = none ∨
      ∃ connection ∈ graph.getConnections, connection.fromNode = node ∧ data.get connection.type = none)

end

variable {graph : DirectedGraph} {destination : INode} {runData : IRunData} {pinData : IPinData}
variable {connection : GraphConnection} {node current trigger : INode}

variable {nodeName : String} {outputIndex : Nat} {type : NodeConnectionType}

theorem firstIncomingData_ok {runIndexes : List Nat}
    {found : Option (List INodeExecutionData × Nat)}
    (went : firstIncomingData runData nodeName type outputIndex runIndexes = .ok found) :
    found.isSome = true ↔ ∃ runIndex ∈ runIndexes, ∃ item items,
      getIncomingData runData nodeName runIndex type outputIndex = .ok (some (item :: items)) := by
  induction runIndexes with
  | nil =>
    cases went
    simp
  | cons runIndex runIndexes ih =>
    rw [firstIncomingData] at went
    split at went
    case h_1 => cases went
    case h_2 item items here =>
      cases went
      exact iff_of_true rfl ⟨runIndex, List.mem_cons_self, item, items, here⟩
    case h_3 other nothing here =>
      rw [ih went]
      constructor
      · intro later
        obtain ⟨next, member, brought⟩ := later
        exact ⟨next, List.mem_cons_of_mem _ member, brought⟩
      · intro some
        obtain ⟨next, member, item, items, brought⟩ := some
        cases List.mem_cons.1 member with
        | inl same =>
          rw [same, here] at brought
          exact absurd (Except.ok.inj brought) (nothing item items)
        | inr later => exact ⟨next, later, item, items, brought⟩

theorem firstIncomingData_error
    {runIndexes : List Nat} {e : JsError}
    (thrown : firstIncomingData runData nodeName type outputIndex runIndexes = .error e) :
    ∃ runIndex, getIncomingData runData nodeName runIndex type outputIndex = .error e := by
  induction runIndexes with
  | nil => cases thrown
  | cons runIndex runIndexes ih =>
    rw [firstIncomingData] at thrown
    split at thrown
    case h_1 error here =>
      cases thrown
      exact ⟨runIndex, here⟩
    case h_2 => cases thrown
    case h_3 => exact ih thrown

theorem getIncomingData_error {runIndex : Nat}
    {e : JsError} (thrown : getIncomingData runData nodeName runIndex type outputIndex = .error e) :
    e = .typeError ∧ ∃ task ∈ (runData.get nodeName).getD [], ∃ data, task.data = some data ∧ data.get type = none := by
  unfold getIncomingData at thrown
  split at thrown
  case h_1 => cases thrown
  case h_2 data found =>
    split at thrown
    case h_2 => cases thrown
    case h_1 missing =>
      cases thrown
      obtain ⟨task, there, stored⟩ := Option.bind_eq_some_iff.1 found
      exact ⟨rfl, task, List.mem_of_getElem? there, data, stored, missing⟩

theorem lt_of_brought {runIndex : Nat}
    {items : List INodeExecutionData}
    (brought : getIncomingData runData nodeName runIndex type outputIndex = .ok (some items)) :
    runIndex < ((runData.get nodeName).getD []).length := by
  unfold getIncomingData at brought
  split at brought
  case h_1 => cases brought
  case h_2 data found =>
    obtain ⟨task, there, _⟩ := Option.bind_eq_some_iff.1 found
    exact (List.getElem?_eq_some_iff.1 there).1

theorem hasData_ok {follow : Bool} (went : hasData runData pinData connection = .ok follow) :
    follow = true ↔ CarriesData runData pinData connection := by
  obtain ⟨found, any, rest⟩ := (bind_eq_ok_iff _ _ _).1 went
  have some := firstIncomingData_ok any
  have items : found.isSome = true ↔ HasItems runData connection := by
    rw [some]
    constructor
    · exact fun ⟨runIndex, _, brought⟩ => ⟨runIndex, brought⟩
    · intro brought
      obtain ⟨runIndex, item, items, here⟩ := brought
      exact ⟨runIndex, List.mem_range.2 (lt_of_brought here), item, items, here⟩
  rw [CarriesData, ← items, ← Except.ok.inj rest]
  cases found <;> simp

theorem hasData_error {e : JsError} (thrown : hasData runData pinData connection = .error e) :
    e = .typeError ∧ ∃ task ∈ (runData.get connection.fromNode.name).getD [], ∃ data, task.data = some data ∧
      data.get connection.type = none := by
  have any : getIncomingDataFromAnyRun runData connection.fromNode.name connection.type connection.outputIndex =
      .error e := by
    cases found : getIncomingDataFromAnyRun runData connection.fromNode.name connection.type connection.outputIndex with
    | ok _ =>
      simp [hasData, found] at thrown
    | error _ =>
      rw [hasData, found, error_bind] at thrown
      cases thrown
      rfl
  obtain ⟨runIndex, here⟩ := firstIncomingData_error any
  exact getIncomingData_error here

theorem isALoop_spec (closed : graph.Closed) (has : graph.Has node) :
    ∃ loop, isALoop graph node = .ok loop ∧ (loop = true ↔ graph.Below node node) := by
  obtain ⟨found, went, below⟩ := DirectedGraph.getChildren_spec closed.childrenPresent has
  refine ⟨decide (node ∈ found), by rw [isALoop, went]; rfl, ?_⟩
  rw [decide_eq_true_iff, below]

theorem startsLoop_ok (closed : graph.Closed) (has : graph.Has node) (went : startsLoop graph runData node = .ok true) :
    UnfinishedLoop graph runData node := by
  unfold startsLoop at went
  split at went
  case isFalse => cases went
  case isTrue type =>
    obtain ⟨loop, looped, below⟩ := isALoop_spec closed has
    rw [looped, ok_bind] at went
    obtain ⟨found, last, rest⟩ := (bind_eq_ok_iff _ _ _).1 went
    have nothing : NothingOnLastRun runData node (checkedOutput loop) := by
      intro items brought
      rw [last] at brought
      cases brought
      exact List.isEmpty_iff.1 (Except.ok.inj rest)
    refine ⟨type, fun looping => ?_, fun alone => ?_⟩
    · rw [below.2 looping] at nothing
      exact nothing
    · have off : loop = false := Bool.eq_false_iff.2 fun on => alone (below.1 on)
      rw [off] at nothing
      exact nothing

theorem startsLoop_error (closed : graph.Closed) (has : graph.Has node) {e : JsError}
    (thrown : startsLoop graph runData node = .error e) : e = .typeError ∧ LacksType graph runData node := by
  unfold startsLoop at thrown
  split at thrown
  case isFalse => cases thrown
  case isTrue type =>
    obtain ⟨loop, looped, _⟩ := isALoop_spec closed has
    rw [looped, ok_bind] at thrown
    cases last : getLastIncomingData runData node.name .main (checkedOutput loop) with
    | ok found =>
      simp [last] at thrown
    | error e' =>
      rw [last] at thrown
      cases thrown
      obtain ⟨same, task, member, data, stored, missing⟩ := getIncomingData_error last
      exact ⟨same, task, member, data, stored, .inl ⟨type, missing⟩⟩

/-- What a call has found: nodes that may be started from, and one on every path to the destination
that avoids what has been seen. -/
structure Found (graph : DirectedGraph) (destination : INode) (runData : IRunData) (pinData : IPinData)
    (current : INode) (seen before after : OrderedSet INode) : Prop where
  kept : ∀ x ∈ before, x ∈ after
  sound : ∀ x ∈ after, x ∈ before ∨
    MayStart graph destination runData pinData x ∧ Relation.ReflTransGen (FeedsClean graph runData pinData) current x
  cut : ∀ rest, (current :: rest).IsChain (Feeds graph runData pinData) → (current :: rest).Nodup →
    (∀ x ∈ current :: rest, x ∉ seen) → (current :: rest).getLast? = some destination →
    ∃ x ∈ current :: rest, x ∈ after

variable {seen before after startNodes : OrderedSet INode} {fuel : Nat}

theorem found_add (may : MayStart graph destination runData pinData current) :
    Found graph destination runData pinData current seen before (before.add current) where
  kept x inside := (OrderedSet.mem_add _ _ _).2 (.inl inside)
  sound x inside := by
    cases (OrderedSet.mem_add _ _ _).1 inside with
    | inl old => exact .inl old
    | inr same =>
      rw [same]
      exact .inr ⟨may, .refl⟩
  cut _ _ _ _ _ := ⟨current, List.mem_cons_self, (OrderedSet.mem_add _ _ _).2 (.inr rfl)⟩

theorem found_loop (other : current ≠ destination)
    {visited : List GraphConnection} (all : ∀ c ∈ graph.getConnections, c.fromNode = current → c ∈ visited)
    (kept : ∀ x ∈ before, x ∈ after)
    (sound : ∀ x ∈ after, x ∈ before ∨ MayStart graph destination runData pinData x ∧
      Relation.ReflTransGen (FeedsClean graph runData pinData) current x)
    (cut : ∀ c ∈ visited, CarriesData runData pinData c → ∀ rest, (c.toNode :: rest).IsChain (Feeds graph runData pinData) →
      (c.toNode :: rest).Nodup → (∀ x ∈ c.toNode :: rest, x ∉ seen.add current) →
      (c.toNode :: rest).getLast? = some destination → ∃ x ∈ c.toNode :: rest, x ∈ after) :
    Found graph destination runData pinData current seen before after where
  kept := kept
  sound := sound
  cut rest chain once fresh last := by
    cases rest with
    | nil => exact absurd (Option.some.inj last) other
    | cons next rest =>
      obtain ⟨feeds, chain⟩ := List.isChain_cons_cons.1 chain
      obtain ⟨c, real, from_, rfl, carries⟩ := feeds
      obtain ⟨apart, once⟩ := List.nodup_cons.1 once
      obtain ⟨x, inside, found⟩ := cut c (all c real from_) carries rest chain once (fun x inside added => by
        cases (OrderedSet.mem_add _ _ _).1 added with
        | inl old => exact fresh x (List.mem_cons_of_mem _ inside) old
        | inr same => exact apart (same ▸ inside)) (by rw [← last, List.getLast?_cons_cons])
      exact ⟨x, List.mem_cons_of_mem _ inside, found⟩

/-- Where a call returns, it has found what it should. -/
theorem findStartNodesRecursive_found (closed : graph.Closed) (has : graph.Has current)
    (went : findStartNodesRecursive graph destination runData pinData fuel current before seen = .ok after) :
    Found graph destination runData pinData current seen before after := by
  induction fuel generalizing current before seen after with
  | zero => cases went
  | succ fuel ih =>
    rw [findStartNodesRecursive] at went
    split at went
    case isTrue dirty =>
      cases went
      exact found_add (.inl dirty)
    case isFalse clean =>
      split at went
      case isTrue here =>
        cases went
        exact found_add (.inr (.inl here))
      case isFalse other =>
        obtain ⟨unfinished, starts, went⟩ := (bind_eq_ok_iff _ _ _).1 went
        split at went
        case isTrue loop =>
          cases went
          exact found_add (.inr (.inr (startsLoop_ok closed has (by rw [starts, loop]))))
        case isFalse =>
          split at went
          case isTrue old =>
            cases went
            exact ⟨fun _ => id, fun _ => .inl, fun _ _ _ fresh _ => absurd old (fresh current List.mem_cons_self)⟩
          case isFalse =>
            rw [DirectedGraph.getDirectChildConnections_eq has, ok_bind] at went
            have clean' : isDirty runData pinData current = false := Bool.eq_false_iff.2 clean
            have held := foldlM_kept (P := fun visited after => (∀ x ∈ before, x ∈ after) ∧
              (∀ x ∈ after, x ∈ before ∨ MayStart graph destination runData pinData x ∧
                Relation.ReflTransGen (FeedsClean graph runData pinData) current x) ∧
              ∀ c ∈ visited, CarriesData runData pinData c → ∀ rest,
                (c.toNode :: rest).IsChain (Feeds graph runData pinData) → (c.toNode :: rest).Nodup →
                (∀ x ∈ c.toNode :: rest, x ∉ seen.add current) → (c.toNode :: rest).getLast? = some destination →
                ∃ x ∈ c.toNode :: rest, x ∈ after) went ⟨fun _ => id, fun _ => .inl, by simp⟩ ?_
            · refine found_loop other (fun c real from_ => ?_) held.1 held.2.1 held.2.2
              exact List.mem_filter.2 ⟨real, decide_eq_true from_⟩
            · intro visited c middle next member before' body
              obtain ⟨kept, sound, cut⟩ := before'
              have real := (List.mem_filter.1 member).1
              have from_ : c.fromNode = current := of_decide_eq_true (List.mem_filter.1 member).2
              obtain ⟨follow, data, body⟩ := (bind_eq_ok_iff _ _ _).1 body
              have carries := hasData_ok data
              split at body
              case isTrue on =>
                have found := ih (closed c real).2 body
                have feeds : FeedsClean graph runData pinData current c.toNode :=
                  ⟨clean', c, real, from_, rfl, carries.1 on⟩
                refine ⟨fun x inside => found.kept x (kept x inside), fun x inside => ?_, fun d among carried => ?_⟩
                · cases found.sound x inside with
                  | inl earlier => exact sound x earlier
                  | inr further => exact .inr ⟨further.1, .head feeds further.2⟩
                · intro rest chain once fresh last
                  cases List.mem_append.1 among with
                  | inl earlier =>
                    obtain ⟨x, inside, there⟩ := cut d earlier carried rest chain once fresh last
                    exact ⟨x, inside, found.kept x there⟩
                  | inr here =>
                    rw [List.mem_singleton.1 here] at chain once fresh last ⊢
                    exact found.cut rest chain once fresh last
              case isFalse off =>
                cases body
                refine ⟨kept, sound, fun d among carried => ?_⟩
                cases List.mem_append.1 among with
                | inl earlier => exact cut d earlier carried
                | inr here =>
                  rw [List.mem_singleton.1 here] at carried
                  exact absurd (carries.2 carried) off

/-- Where a call throws, stored data lacks a type. -/
theorem findStartNodesRecursive_error (closed : graph.Closed) (has : graph.Has current)
    (enough : unmet graph.nodes.values seen.elems < fuel) {e : JsError}
    (thrown : findStartNodesRecursive graph destination runData pinData fuel current before seen = .error e) :
    e = .typeError ∧ ∃ node, Relation.ReflTransGen (FeedsClean graph runData pinData) current node ∧
      LacksType graph runData node := by
  induction fuel generalizing current before seen with
  | zero => exact absurd enough (Nat.not_lt_zero _)
  | succ fuel ih =>
    rw [findStartNodesRecursive] at thrown
    split at thrown
    case isTrue => cases thrown
    case isFalse clean =>
      split at thrown
      case isTrue => cases thrown
      case isFalse =>
        cases starts : startsLoop graph runData current with
        | error e' =>
          rw [starts, error_bind] at thrown
          cases thrown
          obtain ⟨same, lacks⟩ := startsLoop_error closed has starts
          exact ⟨same, current, .refl, lacks⟩
        | ok unfinished =>
          rw [starts, ok_bind] at thrown
          split at thrown
          case isTrue => cases thrown
          case isFalse =>
            split at thrown
            case isTrue => cases thrown
            case isFalse new =>
              rw [DirectedGraph.getDirectChildConnections_eq has, ok_bind] at thrown
              obtain ⟨_, c, middle, member, _, body⟩ := foldlM_error (P := fun _ _ => True) thrown trivial
                fun _ _ _ _ _ _ _ => trivial
              have real := (List.mem_filter.1 member).1
              have from_ : c.fromNode = current := of_decide_eq_true (List.mem_filter.1 member).2
              cases data : hasData runData pinData c with
              | error e' =>
                rw [data, error_bind] at body
                cases body
                obtain ⟨same, task, there, stored, found, missing⟩ := hasData_error data
                rw [from_] at there
                exact ⟨same, current, .refl, task, there, stored, found, .inr ⟨c, real, from_, missing⟩⟩
              | ok follow =>
                rw [data, ok_bind] at body
                split at body
                case isFalse => cases body
                case isTrue on =>
                  have inside := (DirectedGraph.has_iff_mem_values current).1 has
                  have fewer : unmet graph.nodes.values (seen.add current).elems < fuel := by
                    have entered := unmet_enter_lt inside (show current ∉ seen.elems from new)
                    rw [DirectedGraph.elems_add new]
                    omega
                  have feeds : FeedsClean graph runData pinData current c.toNode :=
                    ⟨Bool.eq_false_iff.2 clean, c, real, from_, rfl, (hasData_ok data).1 on⟩
                  obtain ⟨same, node, path, lacks⟩ := ih (closed c real).2 fewer body
                  exact ⟨same, node, .head feeds path, lacks⟩

/-- The start nodes are a frontier between the trigger and the destination, unless stored data that
the search comes across lacks a type. -/
theorem findStartNodes_frontier (closed : graph.Closed) (has : graph.Has trigger) (destination : INode)
    (runData : IRunData) (pinData : IPinData) :
    (∃ startNodes, findStartNodes graph destination runData pinData trigger = .ok startNodes ∧
      Frontier graph destination runData pinData (MayStart graph destination runData pinData) trigger startNodes) ∨
    findStartNodes graph destination runData pinData trigger = .error .typeError ∧
      ∃ node, Relation.ReflTransGen (FeedsClean graph runData pinData) trigger node ∧ LacksType graph runData node := by
  cases went : findStartNodes graph destination runData pinData trigger with
  | error e =>
    obtain ⟨same, lacking⟩ := findStartNodesRecursive_error closed has (graph.unmet_values_lt _) went
    exact .inr ⟨congrArg Except.error same, lacking⟩
  | ok startNodes =>
    have found := findStartNodesRecursive_found closed has went
    refine .inl ⟨startNodes, rfl, fun node inside => ?_, fun path along => ?_⟩
    · exact (found.sound node inside).resolve_left (OrderedSet.not_mem_empty node)
    · cases path with
      | nil => cases along.head
      | cons first rest =>
        have self : first = trigger := Option.some.inj along.head
        subst self
        exact found.cut rest along.fed along.once (fun x _ => OrderedSet.not_mem_empty x) along.last

def startTrigger : INode := { name := "Trigger" }

def batches : INode := { name := "Batches", type := "n8n-nodes-base.splitInBatches" }

def target : INode := { name := "Target" }

/-- `Batches` is not in a loop. -/
def batchesGraph : DirectedGraph :=
  [(⟨startTrigger, batches, .main, 0, 0⟩ : GraphConnection), ⟨batches, target, .main, 0, 0⟩].foldl
    DirectedGraph.setConnection (DirectedGraph.addNodes {} [startTrigger, batches, target])

/-- `Batches` has brought an item on its output `done`. -/
def batchesRan : IRunData :=
  let run : ITaskData := { data := some (mainOnly [.value [{}]]) }
  OrderedMap.ofList [("Trigger", [run]), ("Batches", [run])]

theorem batchesGraph_frontier : ∃ startNodes, findStartNodes batchesGraph target batchesRan ∅ startTrigger = .ok startNodes ∧
    Frontier batchesGraph target batchesRan ∅ (MayStart batchesGraph target batchesRan ∅) startTrigger startNodes :=
  (findStartNodes_frontier (by decide) (by decide) target batchesRan ∅).resolve_right
    fun thrown => absurd thrown.1 (by decide)

/-- A loop node without data at `done`. -/
def MayStartAtDone (destination : INode) (runData : IRunData) (pinData : IPinData) (node : INode) : Prop :=
  isDirty runData pinData node = true ∨ node = destination ∨
    node.type = "n8n-nodes-base.splitInBatches" ∧ NothingOnLastRun runData node 0

/-- `Trigger` has another output type than its run. -/
def toolGraph : DirectedGraph :=
  [(⟨startTrigger, target, .aiTool, 0, 0⟩ : GraphConnection)].foldl DirectedGraph.setConnection
    (DirectedGraph.addNodes {} [startTrigger, target])

/-- The search starts from `Batches` although it has data at `done`; and for `Trigger` it throws. -/
theorem findStartNodes_no_frontier :
    (¬∃ startNodes, findStartNodes batchesGraph target batchesRan ∅ startTrigger = .ok startNodes ∧
      Frontier batchesGraph target batchesRan ∅ (MayStartAtDone target batchesRan ∅) startTrigger startNodes) ∧
    ¬∃ startNodes, findStartNodes toolGraph target batchesRan ∅ startTrigger = .ok startNodes := by
  constructor
  · intro frontier
    obtain ⟨startNodes, went, frontier⟩ := frontier
    have found : findStartNodes batchesGraph target batchesRan ∅ startTrigger = .ok (OrderedSet.ofList [batches]) := by
      decide
    rw [found] at went
    cases went
    obtain ⟨may, _⟩ := frontier.sound batches (by decide)
    rcases may with dirty | last | unfinished
    · exact absurd dirty (by decide)
    · exact absurd last (by decide)
    · have brought : getLastIncomingData batchesRan "Batches" .main 0 = .ok (some [{}]) := by decide
      exact absurd (unfinished.2 _ brought) (List.cons_ne_nil _ _)
  · intro returned
    obtain ⟨startNodes, went⟩ := returned
    have thrown : findStartNodes toolGraph target batchesRan ∅ startTrigger = .error .typeError := by decide
    simp [thrown] at went

end NodeAutomation.FindStartNodes
