import NodeAutomation.Cli.ParentResults
import NodeAutomation.Lib.History

/-! Which writes of children a waiting parent keeps: those of the last child, and none of a
child that finds the parent resumed. -/

namespace NodeAutomation.ParentResults

open ActiveExecutions (ExecutionStatus)
open Interleaving History

def replay (row : ExecutionRow) : List Event → ExecutionRow
  | [] => row
  | .read _ _ :: log => replay row log
  | .updated _ _ execution :: log => replay (row.apply execution) log

def readers : List Event → List Nat
  | [] => []
  | .read call _ :: log => call :: readers log
  | .updated _ _ _ :: log => readers log

def childData : List Event → List IRunExecutionData
  | [] => []
  | .updated _ (.child _ _) execution :: log => execution.data.toList ++ childData log
  | .updated _ (.resume _) _ :: log | .updated _ (.save _ _) _ :: log => childData log
  | .read _ _ :: log => childData log

def Event.fromChild : Event → Bool
  | .read _ _ | .updated _ (.child _ _) _ => true
  | .updated _ (.resume _) _ | .updated _ (.save _ _) _ => false

def Event.isChildUpdate : Event → Bool
  | .updated _ (.child _ _) _ => true
  | .read _ _ | .updated _ (.resume _) _ | .updated _ (.save _ _) _ => false

def Event.call : Event → Nat
  | .read call _ | .updated call _ _ => call

def Event.isReadOf (call : Nat) : Event → Bool
  | .read call' _ => call' = call
  | .updated _ _ _ => false

variable {row initial : ExecutionRow} {s : Shared} {log before : List Event} {event : Event}

theorem replay_append (row : ExecutionRow) (log later : List Event) :
    replay row (log ++ later) = replay (replay row log) later := by
  induction log generalizing row with
  | nil => rfl
  | cons event log ih =>
    cases event with
    | read call seen => exact ih row
    | updated call caller execution => exact ih (row.apply execution)

theorem readers_append (log later : List Event) : readers (log ++ later) = readers log ++ readers later := by
  induction log with
  | nil => rfl
  | cons event log ih =>
    cases event with
    | read call seen => exact congrArg (call :: ·) ih
    | updated call caller execution => exact ih

theorem mem_readers {call : Nat} (member : .read call row ∈ log) : call ∈ readers log := by
  obtain ⟨before, later, split⟩ := List.append_of_mem member
  rw [split, readers_append]
  exact List.mem_append_right _ List.mem_cons_self

def ComesOfRead (call : Nat) (subworkflowResults : IRun) (childExecution : Option WaitTracker.RelatedExecution)
    (execution : ExecutionUpdate) (log : List Event) : Prop :=
  ∃ row lastExecutedNodeData, .read call row ∈ log ∧ row.status = .waiting ∧
    getLastExecutedNodeData subworkflowResults = .ok lastExecutedNodeData ∧
    childUpdate row subworkflowResults.data.resultData.error lastExecutedNodeData childExecution =
      some execution

def Explained (initial : ExecutionRow) (before : List Event) : Event → Prop
  | .read call row => row = replay initial before ∧ call ∉ readers before
  | .updated call (.child subworkflowResults childExecution) execution =>
    ComesOfRead call subworkflowResults childExecution execution before
  | .updated _ (.resume executionData) execution =>
    (replay initial before).status = .waiting ∧
      execution = { data := some executionData, status := some .running }
  | .updated _ (.save execution' _) execution => execution = execution'

structure Logged (initial : ExecutionRow) (s : Shared) (made : Nat) : Prop where
  row : s.row = replay initial s.log
  each : Each (Explained initial) s.log
  readers : ∀ call ∈ readers s.log, call < made

/-- What a call is about to write. -/
def Pending (number : Nat) (log : List Event) (execution : ExecutionUpdate)
    (conditions : UpdateExecutionConditions) : Caller → Prop
  | .child subworkflowResults childExecution =>
    ComesOfRead number subworkflowResults childExecution execution log
  | .resume executionData =>
    conditions = { requireStatus := some .waiting } ∧
      execution = { data := some executionData, status := some .running }
  | .save execution' _ => execution = execution'

def CallKnown (s : Shared) (number : Nat) (call : Call) : Prop :=
  match call.stage with
  | .finding lastExecutedNodeData =>
    (∃ subworkflowResults childExecution, call.caller = .child subworkflowResults childExecution ∧
      getLastExecutedNodeData subworkflowResults = .ok lastExecutedNodeData) ∧ number ∉ readers s.log
  | .locating execution conditions | .updating execution conditions =>
    Pending number s.log execution conditions call.caller
  | .returned _ | .thrown _ => True

variable {execution : ExecutionUpdate}

theorem ComesOfRead.later {call : Nat} {subworkflowResults : IRun}
    {childExecution : Option WaitTracker.RelatedExecution}
    (h : ComesOfRead call subworkflowResults childExecution execution log) (later : List Event) :
    ComesOfRead call subworkflowResults childExecution execution (log ++ later) := by
  obtain ⟨row, last, read, rest⟩ := h
  exact ⟨row, last, List.mem_append_left later read, rest⟩

variable {conditions : UpdateExecutionConditions}

theorem Pending.later {number : Nat} {caller : Caller}
    (h : Pending number log execution conditions caller) (later : List Event) :
    Pending number (log ++ later) execution conditions caller := by
  cases caller with
  | child subworkflowResults childExecution => exact ComesOfRead.later h later
  | resume executionData => exact h
  | save execution' conditions' => exact h

theorem CallKnown.later {number : Nat} {call : Call} (h : CallKnown s number call) {s' : Shared}
    {later : List Event} (grown : s'.log = s.log ++ later) (apart : number ∉ ParentResults.readers later) :
    CallKnown s' number call := by
  unfold CallKnown at h ⊢
  split at h
  case h_1 =>
    refine ⟨h.1, fun member => ?_⟩
    rw [grown, readers_append] at member
    cases List.mem_append.1 member with
    | inl old => exact h.2 old
    | inr new => exact apart new
  case h_2 execution conditions _ =>
    rw [grown]
    exact Pending.later h later
  case h_3 execution conditions _ =>
    rw [grown]
    exact Pending.later h later
  case h_4 => trivial
  case h_5 => trivial

theorem callKnown_updateExistingExecution {number : Nat} {caller : Caller}
    (pending : Pending number s.log execution conditions caller) :
    CallKnown s number ⟨caller, updateExistingExecution execution conditions⟩ := by
  rw [updateExistingExecution]
  split
  · trivial
  · split
    · exact pending
    · split
      · trivial
      · exact pending

theorem buildEntityWhereCondition_waiting {condition : ExecutionRow → Bool}
    (built : buildEntityWhereCondition { requireStatus := some .waiting } = .ok condition)
    (met : condition row = true) : row.status = .waiting := by
  rw [← Except.ok.inj built] at met
  simpa using met

theorem invoke_log (s : Shared) (made : Nat) (caller : Caller) : (invoke s made caller).1 = s := by
  unfold invoke
  split
  · split
    · rfl
    · split
      · rfl
      · rfl
  · rfl
  · rfl

theorem invoke_known (made : Nat) (caller : Caller) (h : Logged initial s made) :
    CallKnown s made (invoke s made caller).2 := by
  unfold invoke
  split
  case h_1 subworkflowResults childExecution =>
    split
    case h_1 => trivial
    case h_2 lastExecutedNodeData found =>
      split
      case isTrue => trivial
      case isFalse =>
        exact ⟨⟨subworkflowResults, childExecution, rfl, found⟩,
          fun member => Nat.lt_irrefl made (h.readers made member)⟩
  case h_2 executionData => exact callKnown_updateExistingExecution ⟨rfl, rfl⟩
  case h_3 execution conditions => exact callKnown_updateExistingExecution rfl

theorem Logged.read {made number : Nat} (h : Logged initial s made) (old : number < made)
    (first : number ∉ ParentResults.readers s.log) :
    Logged initial { s with log := s.log ++ [.read number s.row] } made where
  row := by
    rw [replay_append]
    exact h.row
  each := h.each.concat ⟨h.row, first⟩
  readers := fun call member => by
    rw [readers_append] at member
    cases List.mem_append.1 member with
    | inl before => exact h.readers call before
    | inr last => rwa [List.mem_singleton.1 last]

theorem Logged.update {made number : Nat} {caller : Caller} {condition : ExecutionRow → Bool}
    (h : Logged initial s made) (pending : Pending number s.log execution conditions caller)
    (built : buildEntityWhereCondition conditions = .ok condition) (met : condition s.row = true) :
    Logged initial ⟨s.row.apply execution, s.log ++ [.updated number caller execution]⟩ made where
  row := by
    rw [replay_append, ← h.row]
    rfl
  each := by
    refine h.each.concat ?_
    cases caller with
    | child subworkflowResults childExecution => exact pending
    | resume executionData =>
      refine ⟨?_, pending.2⟩
      rw [pending.1] at built
      rw [← h.row]
      exact buildEntityWhereCondition_waiting built met
    | save execution' conditions' => exact pending
  readers := fun call member => by
    rw [readers_append, ParentResults.readers, ParentResults.readers, List.append_nil] at member
    exact h.readers call member

theorem proceed_log (s : Shared) (number : Nat) (call : Call) :
    ∃ later, (proceed s number call ()).1.log = s.log ++ later ∧
      ∀ other, number ≠ other → other ∉ readers later := by
  have same : ∃ later, s.log = s.log ++ later ∧ ∀ other, number ≠ other → other ∉ readers later :=
    ⟨[], (List.append_nil s.log).symm, fun other _ => List.not_mem_nil⟩
  have read : ∃ later, s.log ++ [.read number s.row] = s.log ++ later ∧
      ∀ other, number ≠ other → other ∉ readers later :=
    ⟨_, rfl, fun other apart member => apart (List.mem_singleton.1 member).symm⟩
  unfold proceed
  split
  · split
    · split
      · exact read
      · exact read
    · exact same
    · exact same
  · split
    · exact same
    · split
      · exact same
      · exact same
  · split
    · exact same
    · split
      · exact ⟨_, rfl, fun other _ => List.not_mem_nil⟩
      · exact same
  · exact same
  · exact same

theorem proceed_known {made number : Nat} {call : Call} (h : Logged initial s made)
    (old : number < made) (known : CallKnown s number call) :
    Logged initial (proceed s number call ()).1 made ∧
      CallKnown (proceed s number call ()).1 number (proceed s number call ()).2 := by
  obtain ⟨caller, stage⟩ := call
  cases stage with
  | finding lastExecutedNodeData =>
    obtain ⟨⟨subworkflowResults, childExecution, isChild, last⟩, first⟩ := known
    change caller = _ at isChild
    simp only [isChild, proceed]
    have logged := h.read old first
    split
    case h_1 => exact ⟨logged, trivial⟩
    case h_2 execution made_ =>
      refine ⟨logged, callKnown_updateExistingExecution ?_⟩
      refine ⟨s.row, lastExecutedNodeData, ?_, ?_, last, made_⟩
      · exact List.mem_append_right _ (List.mem_singleton.2 rfl)
      · rw [childUpdate] at made_
        by_contra apart
        rw [if_pos apart] at made_
        exact absurd made_ (by simp)
  | locating execution conditions =>
    simp only [proceed]
    split
    case h_1 => exact ⟨h, trivial⟩
    case h_2 condition built =>
      split
      case isTrue => exact ⟨h, known⟩
      case isFalse => exact ⟨h, trivial⟩
  | updating execution conditions =>
    simp only [proceed]
    split
    case h_1 => exact ⟨h, trivial⟩
    case h_2 condition built =>
      split
      case isTrue met => exact ⟨h.update known built met, trivial⟩
      case isFalse => exact ⟨h, trivial⟩
  | returned updated => exact ⟨h, trivial⟩
  | thrown error => exact ⟨h, trivial⟩

theorem keeps_logged (initial : ExecutionRow) : Keeps system (Logged initial) CallKnown where
  invoke s made caller h := by
    change Logged initial (invoke s made caller).1 _ ∧ CallKnown (invoke s made caller).1 _ _
    rw [invoke_log]
    exact ⟨⟨h.row, h.each, fun call member => Nat.lt_succ_of_lt (h.readers call member)⟩,
      invoke_known made caller h⟩
  invoke_other s made caller other otherCall _ _ known := by
    change CallKnown (invoke s made caller).1 _ _
    rwa [invoke_log]
  proceed s made number call _ h old known := proceed_known h old known
  proceed_other s made number call _ other otherCall _ _ apart known := by
    obtain ⟨later, grown, others⟩ := proceed_log s number call
    exact known.later grown (others other apart)
  environment _ _ event := event.elim
  environment_call _ _ event := event.elim

theorem logged_run (initial : ExecutionRow) (actions : List (Action Caller Unit Empty)) :
    ∃ made, Logged initial (system.run { shared := { row := initial } } actions).shared made :=
  ⟨_, ((Holds.initial ⟨rfl, each_nil, fun _ member => absurd member List.not_mem_nil⟩).run
    (keeps_logged initial) actions).shared⟩

theorem Logged.read_unique {made call : Nat} {row row' : ExecutionRow} (h : Logged initial s made)
    (first : .read call row ∈ s.log) (second : .read call row' ∈ s.log) : row = row' := by
  obtain ⟨before, later, split, -, fresh⟩ := h.each.of_mem first
  rw [split] at second
  cases List.mem_append.1 second with
  | inl earlier => exact absurd (mem_readers earlier) fresh
  | inr rest =>
    cases List.mem_cons.1 rest with
    | inl same => exact (Event.read.inj same).2.symm
    | inr after =>
      obtain ⟨between, later', split'⟩ := List.append_of_mem after
      have again : s.log = (before ++ .read call row :: between) ++ .read call row' :: later' := by
        rw [split, split', List.append_assoc, List.cons_append]
      have here := (h.each.at_ again).2
      have member : .read call row ∈ before ++ .read call row :: between :=
        List.mem_append_right before List.mem_cons_self
      exact absurd (mem_readers member) here

theorem childUpdate_status {subworkflowError : Option ExecutionError}
    {lastExecutedNodeData : Option ITaskData} {childExecution : Option WaitTracker.RelatedExecution}
    (made : childUpdate row subworkflowError lastExecutedNodeData childExecution = some execution) :
    execution.status = none ∧ execution.data.isSome := by
  rw [childUpdate] at made
  split at made
  · exact absurd made (by simp)
  · split at made
    · exact absurd made (by simp)
    · exact absurd made (by simp)
    · rw [← Option.some.inj made]
      exact ⟨rfl, rfl⟩

theorem replay_fromChild {later : List Event} (each : Each (Explained initial) (before ++ later))
    (children : ∀ event ∈ later, event.fromChild) :
    (replay initial (before ++ later)).status = (replay initial before).status ∧
      (replay initial (before ++ later)).data =
        (childData later).getLast?.getD (replay initial before).data := by
  induction later generalizing before with
  | nil =>
    rw [List.append_nil]
    exact ⟨rfl, rfl⟩
  | cons event later ih =>
    have here := each.at_ rfl
    have split : before ++ event :: later = (before ++ [event]) ++ later := by
      rw [List.append_assoc, List.singleton_append]
    rw [split] at each ⊢
    have rest := ih each fun other member => children other (List.mem_cons_of_mem event member)
    rw [rest.1, rest.2, replay_append]
    cases event with
    | read call seen => exact ⟨rfl, rfl⟩
    | updated call caller execution =>
      cases caller with
      | child subworkflowResults childExecution =>
        obtain ⟨row, last, -, -, -, made⟩ := here
        have shape := childUpdate_status made
        obtain ⟨data, isData⟩ := Option.isSome_iff_exists.1 shape.2
        simp only [replay, ExecutionRow.apply, shape.1, isData, childData, Option.getD_none,
          Option.getD_some, Option.toList_some, List.singleton_append, true_and]
        cases childData later with
        | nil => rfl
        | cons first others => rw [List.getLast?_cons_cons]; rfl
      | resume executionData => exact absurd (children _ List.mem_cons_self) (by simp [Event.fromChild])
      | save execution' conditions =>
        exact absurd (children _ List.mem_cons_self) (by simp [Event.fromChild])

/-- Out of `waiting`, only a save brings the row back there. -/
theorem saved_of_waiting {later : List Event} (each : Each (Explained initial) (before ++ later))
    (left : (replay initial before).status ≠ .waiting)
    (back : (replay initial (before ++ later)).status = .waiting) :
    ∃ call execution conditions, .updated call (.save execution conditions) execution ∈ later ∧
      execution.status = some .waiting := by
  induction later generalizing before with
  | nil =>
    rw [List.append_nil] at back
    exact absurd back left
  | cons event later ih =>
    have here := each.at_ rfl
    have split : before ++ event :: later = (before ++ [event]) ++ later := by
      rw [List.append_assoc, List.singleton_append]
    rw [split] at each back
    by_cases still : (replay initial (before ++ [event])).status = .waiting
    · rw [replay_append] at still
      cases event with
      | read call seen => exact absurd still left
      | updated call caller execution =>
        change (execution.status.getD (replay initial before).status) = .waiting at still
        cases caller with
        | child subworkflowResults childExecution =>
          obtain ⟨row, last, -, -, -, made⟩ := here
          rw [(childUpdate_status made).1] at still
          exact absurd still left
        | resume executionData =>
          rw [here.2] at still
          exact absurd still (by simp)
        | save execution' conditions =>
          change execution = execution' at here
          rw [← here]
          refine ⟨call, execution, conditions, List.mem_cons_self, ?_⟩
          cases status : execution.status with
          | none =>
            rw [status] at still
            exact absurd still left
          | some value =>
            rw [status] at still
            exact congrArg some still
    · obtain ⟨call, execution, conditions, member, status⟩ := ih each still back
      exact ⟨call, execution, conditions, List.mem_cons_of_mem event member, status⟩

structure LastChildWins (initial : ExecutionRow) (s : Shared) : Prop where
  /-- A child writes what it has made of its own read, which found the parent waiting. -/
  child : ∀ before call subworkflowResults childExecution execution later,
    s.log = before ++ .updated call (.child subworkflowResults childExecution) execution :: later →
    ComesOfRead call subworkflowResults childExecution execution before
  /-- A child whose read finds the parent out of `waiting` writes nothing. -/
  late : ∀ before call row later, s.log = before ++ .read call row :: later →
    (replay initial before).status ≠ .waiting →
    ∀ subworkflowResults childExecution execution,
      .updated call (.child subworkflowResults childExecution) execution ∉ s.log
  /-- While children alone write, the last of them wins. -/
  last : ∀ before later, s.log = before ++ later → (∀ event ∈ later, event.fromChild) →
    s.row.status = (replay initial before).status ∧
      s.row.data = (childData later).getLast?.getD (replay initial before).data
  /-- A resume moves a waiting row out of `waiting`, and the next one needs a save in between. -/
  resume : ∀ before call executionData execution later,
    s.log = before ++ .updated call (.resume executionData) execution :: later →
    (replay initial before).status = .waiting ∧
      ∀ between call' executionData' execution' later',
        later = between ++ .updated call' (.resume executionData') execution' :: later' →
        ∃ saver saved conditions, .updated saver (.save saved conditions) saved ∈ between ∧
          saved.status = some .waiting

theorem Logged.lastChildWins {made : Nat} (h : Logged initial s made) : LastChildWins initial s where
  child before call subworkflowResults childExecution execution later split := h.each.at_ split
  late before call row later split left subworkflowResults childExecution execution member := by
    obtain ⟨before', later', split', row', last, read, waiting, -⟩ := h.each.of_mem member
    have old : .read call row' ∈ s.log := by
      rw [split']
      exact List.mem_append_left _ read
    have here : .read call row ∈ s.log := by
      rw [split]
      exact List.mem_append_right _ List.mem_cons_self
    rw [← (h.each.at_ split).1, h.read_unique here old] at left
    exact left waiting
  last before later split children := by
    have each := h.each
    rw [h.row, split]
    rw [split] at each
    exact replay_fromChild each children
  resume before call executionData execution later split := by
    have here := h.each.at_ split
    refine ⟨here.1, fun between call' executionData' execution' later' split' => ?_⟩
    have whole : s.log = ((before ++ [.updated call (.resume executionData) execution]) ++ between) ++
        .updated call' (.resume executionData') execution' :: later' := by
      simp only [split, split', List.append_assoc, List.cons_append, List.nil_append]
    have next := h.each.at_ whole
    refine saved_of_waiting ?_ ?_ next.1
    · have each := h.each
      rw [whole] at each
      exact each.of_append
    · rw [replay_append, here.2]
      change ExecutionStatus.running ≠ ExecutionStatus.waiting
      decide

/-- In every run of children, resumes and saves the last child to write wins, and a child
that finds the parent resumed leaves it alone. -/
theorem lastChildWins_run (initial : ExecutionRow) (actions : List (Action Caller Unit Empty)) :
    LastChildWins initial (system.run { shared := { row := initial } } actions).shared := by
  obtain ⟨made, logged⟩ := logged_run initial actions
  exact logged.lastChildWins

/-- No child writes after the parent has left `waiting`. -/
def ResumedParentKept (initial : ExecutionRow) (log : List Event) : Prop :=
  Each (fun before event => event.isChildUpdate = true → (replay initial before).status = .waiting) log

def ChildWritesKept (log : List Event) : Prop :=
  Each (fun before event => event.isChildUpdate = true →
    ∀ other ∈ before.dropWhile fun earlier => !earlier.isReadOf event.call, other.isChildUpdate = false) log

instance : Decidable (ResumedParentKept initial log) := inferInstanceAs (Decidable (Each _ log))

instance : Decidable (ChildWritesKept log) := inferInstanceAs (Decidable (Each _ log))

def waitingParent : ExecutionRow where
  status := .waiting
  data :=
    { resultData := {}
      nodeExecutionStack := some
        [{ node := { name := "Execute Workflow" }, data := mainOnly [], source := none }] }

def childAnswering (answer : String) : IRun where
  data :=
    { resultData :=
        { runData := OrderedMap.set ∅ "Answer"
            [{ data := some (mainOnly [.value [{ json := [("answer", .string answer)] }]]) }]
          lastNodeExecuted := some "Answer" } }

def resumedBetween : List (Action Caller Unit Empty) :=
  [.invoke (.child (childAnswering "first") none), .proceed 0 (),
    .invoke (.resume waitingParent.data), .proceed 1 (), .proceed 1 (),
    .proceed 0 (), .proceed 0 ()]

def readTogether : List (Action Caller Unit Empty) :=
  [.invoke (.child (childAnswering "first") none), .invoke (.child (childAnswering "second") none),
    .proceed 0 (), .proceed 1 (), .proceed 1 (), .proceed 1 (), .proceed 0 (), .proceed 0 ()]

theorem child_writes_unguarded :
    ¬ ResumedParentKept waitingParent
        (system.run { shared := { row := waitingParent } } resumedBetween).shared.log ∧
      ¬ ChildWritesKept (system.run { shared := { row := waitingParent } } readTogether).shared.log := by
  decide

end NodeAutomation.ParentResults
