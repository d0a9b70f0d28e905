import NodeAutomation.Core.ExecutionLoop
import NodeAutomation.Lib.Runs

/-! When the execution loop runs out of entries, nothing that waits could run:
the search at the end of an iteration sees to it, unless the iteration that
empties the stack is left before the search. -/

namespace NodeAutomation.SettledExecution
open RunNodeFilter WorkflowExecute RequestsResponse WaitingScan ExecutionLoop Runs

def runs (turn : Turn) : List NodeRun := turn.run :: turn.retries

section

variable (env : Environment) (workflow : Workflow) (loop : LoopState) (turn : Turn)

/-- The loop goes on after the iteration: no error, no wait, no cancellation, and
the destination was not reached. -/
def goesOn : Bool :=
  match iterate env workflow loop turn with
  | .ok (exit, _) => exit.goesOn
  | .error _ => false

/-- The iteration is left before the search, with the queues as they are: the
node is filtered out, answers `null`, or makes a request that is ignored. -/
def LeavesEarly (entry : IExecuteData) : Prop :=
  passesRunFilter loop.data.runNodeFilter entry.node.name = false ∨
  pinnedData entry loop.data = none ∧
    (entry.node.alwaysOutputData = false ∧ (∃ run ∈ runs turn, run.answer = .data none) ∨
      requestParent entry = none ∧ ∃ run ∈ runs turn, ∃ request, run.answer = .request request)

/-- The iteration that takes the last entry off the stack reaches the search, or
there is nothing to find; a node that asks for others there has one main input. -/
structure ReachesSearch : Prop where
  leaves : ∀ entry, loop.data.nodeExecutionStack = [entry] → LeavesEarly loop turn entry →
    ∀ nodeName, releasable env workflow loop.data nodeName = false
  requests : ∀ entry, loop.data.nodeExecutionStack = [entry] → ∀ run ∈ runs turn, ∀ request,
    run.answer = .request request → requestParent entry = none ∨
      numberOfInputs workflow entry.node.name ≤ 1 ∧
        ∃ node, workflow.nodes.get entry.node.name = some node

end

section

variable {env : Environment} {workflow : Workflow} {executionData : IExecuteData} {runIndex : Nat}
  {state : IRunExecutionData}

theorem alwaysOutputData_some {outputs : Outputs} {output : Option Outputs}
    (always : alwaysOutputData executionData (some outputs) = .ok output) : output.isSome := by
  unfold alwaysOutputData at always
  split at always
  · split at always
    · cases always
    · rw [← Except.ok.inj always]
      rfl
  · rw [← Except.ok.inj always]
    rfl

variable {after : IRunExecutionData}

theorem finishTry_noData {nodeSuccessData : Option Outputs}
    (nothing : finishTry env executionData state nodeSuccessData = .noData after) :
    nodeSuccessData = none ∧ executionData.node.alwaysOutputData = false := by
  unfold finishTry at nothing
  split at nothing
  · cases nothing
  · rename_i output always
    split at nothing
    · rename_i none_
      cases nodeSuccessData with
      | some outputs =>
        have given := alwaysOutputData_some always
        simp [Option.isNone_iff_eq_none.1 none_.1] at given
      | none =>
        refine ⟨rfl, Bool.eq_false_iff.2 fun insists => ?_⟩
        rw [alwaysOutputData, if_pos ⟨rfl, insists⟩] at always
        split at always
        · cases always
        · rw [← Except.ok.inj always] at none_
          cases none_.1
    · cases nothing

theorem finishTry_not_requested {nodeSuccessData : Option Outputs} :
    finishTry env executionData state nodeSuccessData ≠ .requested after := by
  unfold finishTry
  split
  · nofun
  · split <;> nofun

theorem tryNode_noData {run : NodeRun}
    (nothing : tryNode env workflow executionData runIndex state run = .noData after) :
    pinnedData executionData state = none ∧ executionData.node.alwaysOutputData = false ∧
      run.answer = .data none := by
  unfold tryNode at nothing
  split at nothing
  · cases (finishTry_noData nothing).1
  · rename_i unpinned
    simp only at nothing
    split at nothing
    · rename_i answered
      have finished := finishTry_noData nothing
      rw [finished.1] at answered
      exact ⟨unpinned, finished.2, answered⟩
    · cases nothing
    · split at nothing <;> cases nothing

theorem tryNode_requested {run : NodeRun}
    (asked : tryNode env workflow executionData runIndex state run = .requested after) :
    pinnedData executionData state = none ∧ ∃ request, run.answer = .request request := by
  unfold tryNode at asked
  split at asked
  · exact absurd asked finishTry_not_requested
  · rename_i unpinned
    simp only at asked
    split at asked
    · exact absurd asked finishTry_not_requested
    · cases asked
    · rename_i request answered
      exact ⟨unpinned, request, answered⟩

theorem tries_decided (env : Environment) (workflow : Workflow) (executionData : IExecuteData)
    (runIndex : Nat) (state : IRunExecutionData) (run : NodeRun) (retries : List NodeRun) :
    ∃ last ∈ run :: retries, ∃ before,
      (pinnedData executionData before = none → pinnedData executionData state = none) ∧
      tries env workflow executionData runIndex state run retries =
        tryNode env workflow executionData runIndex before last := by
  induction retries generalizing run state with
  | nil => exact ⟨run, List.mem_cons_self, state, id, rfl⟩
  | cons again retries ih =>
    cases attempt : tryNode env workflow executionData runIndex state run with
    | failed left message output =>
      obtain ⟨last, member, before, unpinned, same⟩ := ih left again
      refine ⟨last, List.mem_cons_of_mem run member, before, fun free => ?_, ?_⟩
      · cases pinned : pinnedData executionData state with
        | none => rfl
        | some items =>
          have kept : SameQueues state left := by
            have finished := sameQueues_finishTry env executionData state
              (some [.value items])
            rw [tryNode, pinned] at attempt
            simp only at attempt
            rw [attempt] at finished
            exact finished
          have still := unpinned free
          rw [pinnedData, kept.pinData] at still
          rw [← pinned]
          exact still
      · simp only [tries, attempt, same]
    | requested left => exact ⟨run, List.mem_cons_self, state, id, by simp only [tries, attempt]⟩
    | noData left => exact ⟨run, List.mem_cons_self, state, id, by simp only [tries, attempt]⟩
    | succeeded left output =>
      exact ⟨run, List.mem_cons_self, state, id, by simp only [tries, attempt]⟩

theorem tryNode_requested_occupied (v1 : workflow.isLegacyExecutionOrder = false)
    (executionData : IExecuteData) {run : NodeRun} {parentNode : String}
    (known : requestParent executionData = some parentNode) {node : INode}
    (stored : workflow.nodes.get executionData.node.name = some node)
    (single : numberOfInputs workflow executionData.node.name ≤ 1)
    (asked : tryNode env workflow executionData runIndex state run = .requested after) :
    after.nodeExecutionStack ≠ [] := by
  unfold tryNode at asked
  split at asked
  · exact absurd asked finishTry_not_requested
  · simp only at asked
    split at asked
    · exact absurd asked finishTry_not_requested
    · cases asked
    · rename_i request _
      split at asked
      · rename_i scheduled
        rw [← Attempt.requested.inj asked]
        have through_ := scheduled
        unfold handleEngineRequest at through_
        split at through_
        · cases through_
        · rename_i handled
          have occupied := occupied_of_handleRequest v1 known stored single handled
          rw [scheduled] at occupied
          exact occupied
      · cases asked

theorem tries_quiet (env : Environment) (v1 : workflow.isLegacyExecutionOrder = false)
    (executionData : IExecuteData) (runIndex : Nat) (state : IRunExecutionData) (run : NodeRun)
    (retries : List NodeRun)
    (requests : ∀ try_ ∈ run :: retries, ∀ request, try_.answer = .request request →
      requestParent executionData = none ∨
        numberOfInputs workflow executionData.node.name ≤ 1 ∧
          ∃ node, workflow.nodes.get executionData.node.name = some node) :
    let after := (tries env workflow executionData runIndex state run retries).state
    SameQueues state after ∨ after.nodeExecutionStack ≠ [] := by
  refine tries_kept (P := fun now => SameQueues state now ∨ now.nodeExecutionStack ≠ []) run retries
    (fun now try_ member held => ?_) (.inl (.refl state))
  cases held with
  | inr occupied => exact .inr ((stacked_tryNode env workflow executionData runIndex now v1 try_).occupied occupied)
  | inl same =>
    cases tryNode_state env workflow executionData runIndex now try_ with
    | inl kept => exact .inl (same.trans kept)
    | inr asked =>
      obtain ⟨waiting, request, answer, before, after⟩ := asked
      cases requests try_ member request answer with
      | inl unknown =>
        exact .inl (same.trans (before.trans ((sameQueues_handleEngineRequest unknown).trans after)))
      | inr known =>
        obtain ⟨single, node, stored⟩ := known
        cases handleEngineRequest_quiet v1 stored single runIndex waiting request with
        | inl quiet => exact .inl (same.trans (before.trans (quiet.trans after)))
        | inr occupied => exact .inr (after.stacked.occupied occupied)

end

section

variable {env : Environment} {workflow : Workflow} {loop : LoopState} {turn : Turn}

theorem releasable_sameQueues {state after : IRunExecutionData}
    (waiting : after.waitingExecution = state.waitingExecution)
    (filter : after.runNodeFilter = state.runNodeFilter) (nodeName : String) :
    releasable env workflow after nodeName = releasable env workflow state nodeName := by
  have data : (nodeWaiting after nodeName).data = (nodeWaiting state nodeName).data := by
    simp only [nodeWaiting, waiting]
    split <;> rfl
  have first : earliest after nodeName = earliest state nodeName := by
    simp only [earliest, firstRunIndex, data]
  simp only [releasable, first, waiting, filter]

theorem settled_next (v1 : workflow.isLegacyExecutionOrder = false)
    (goes : goesOn env workflow loop turn = true) (reaches : ReachesSearch env workflow loop turn) :
    Settled env workflow (next env workflow loop turn).data := by
  unfold goesOn at goes
  unfold next
  cases went : iterate env workflow loop turn with
  | error error => simp [went] at goes
  | ok result =>
    obtain ⟨exit, after⟩ := result
    simp only [went] at goes ⊢
    intro empty nodeName
    cases stack : loop.data.nodeExecutionStack with
    | nil =>
      simp only [iterate, stack] at went
      rw [← (Prod.mk.inj (Except.ok.inj went)).1] at goes
      cases goes
    | cons entry rest =>
      cases running : turn.canceled with
      | true =>
        simp only [iterate, stack, running, if_true] at went
        rw [← (Prod.mk.inj (Except.ok.inj went)).1] at goes
        cases goes
      | false =>
        have unchanged : SameQueues { loop.data with nodeExecutionStack := rest } after.data →
            (rest = [] → LeavesEarly loop turn entry) →
            releasable env workflow after.data nodeName = false := by
          intro same early
          have last : rest = [] := same.stack.symm.trans empty
          rw [releasable_sameQueues same.waiting same.filter]
          exact reaches.leaves entry (by rw [stack, last]) (early last) nodeName
        cases iterate_iterated v1 stack running went with
        | filtered _ refused same =>
          exact unchanged (by rw [same]; exact .refl _) fun _ => .inl refused
        | deferred _ same =>
          rw [same] at empty
          simp at empty
        | ran runIndex _ _ finished =>
          have tried := stacked_tries env workflow (updatePairedItems entry) runIndex
            { loop.data with nodeExecutionStack := rest } v1 turn.run turn.retries
          obtain ⟨last, member, before, unpinned, decided⟩ := tries_decided env workflow
            (updatePairedItems entry) runIndex { loop.data with nodeExecutionStack := rest }
            turn.run turn.retries
          cases finished with
          | requested _ attempted =>
            rw [attempted] at tried
            cases rest with
            | cons other rest => exact absurd empty (tried.occupied (List.cons_ne_nil _ _))
            | nil =>
              have quiet := tries_quiet env v1 (updatePairedItems entry) runIndex
                { loop.data with nodeExecutionStack := [] } turn.run turn.retries (reaches.requests entry stack)
              rw [attempted] at quiet
              rw [attempted] at decided
              obtain ⟨free, request, answer⟩ := tryNode_requested decided.symm
              cases parent : requestParent entry with
              | none =>
                exact unchanged (quiet.resolve_right (not_not_intro empty)) fun _ =>
                  .inr ⟨unpinned free, .inr ⟨parent, last, member, request, answer⟩⟩
              | some parentNode =>
                obtain ⟨single, node, stored⟩ := (reaches.requests entry stack last member request
                  answer).resolve_left (by rw [parent]; nofun)
                exact absurd empty
                  (tryNode_requested_occupied v1 (updatePairedItems entry) parent stored single decided.symm)
          | noData _ attempted =>
            rw [attempted] at tried
            cases rest with
            | cons other rest => exact absurd empty (tried.occupied (List.cons_ne_nil _ _))
            | nil =>
              have quiet := tries_quiet env v1 (updatePairedItems entry) runIndex
                { loop.data with nodeExecutionStack := [] } turn.run turn.retries (reaches.requests entry stack)
              rw [attempted] at quiet
              rw [attempted] at decided
              obtain ⟨free, sparse, answer⟩ := tryNode_noData decided.symm
              exact unchanged (quiet.resolve_right (not_not_intro empty)) fun _ =>
                .inr ⟨unpinned free, .inl ⟨sparse, last, member, answer⟩⟩
          | restored _ state _ leaves same shape nextRef =>
            cases leaves with
            | inl stops =>
              rw [stops] at goes
              cases goes
            | inr waits =>
              rw [waits] at goes
              cases goes
          | destination _ same => cases goes
          | completed _ stacked settled => exact settled empty nodeName

end

/-- In every run that goes on, and whose iterations all reach the search or leave
nothing to it, no runnable work is left waiting once the stack is empty. -/
theorem settled_after (env : Environment) (workflow : Workflow)
    (v1 : workflow.isLegacyExecutionOrder = false) (loop : LoopState)
    (starts : Settled env workflow loop.data) (turns : List Turn)
    (goes : Along (next env workflow) (fun l t => goesOn env workflow l t = true) loop turns)
    (reaches : Along (next env workflow) (ReachesSearch env workflow) loop turns) :
    Settled env workflow (after (next env workflow) loop turns).data :=
  holds_after (I := fun l => Settled env workflow l.data)
    (fun _ _ _ step => settled_next v1 step.1 step.2) starts (along_and goes reaches)

/-- `Start` feeds `Merge` directly and through `B`. -/
def mergeAfterBranch : Workflow :=
  Workflow.new (fun _ => none)
    { nodes := [{ name := "Start" }, { name := "B" }, { name := "Merge" }]
      connections := .ofList [
        ("Start", .ofList [(.main, [some [⟨"Merge", .main, 0⟩, ⟨"B", .main, 0⟩]])]),
        ("B", .ofList [(.main, [some [⟨"Merge", .main, 1⟩]])])]
      executionOrder := some .v1 }

def plainNodes : Environment where
  getByNameAndVersion := fun _ _ => some { inputs := 2 }
  getSimpleParameterValue := fun _ _ => .undefined
  message := fun _ => ""

def fromStart : LoopState where
  data :=
    { nodeExecutionStack :=
        [{ ref := 0, node := { name := "Start" }, data := mainOnly [.value [{}]], source := none }]
      nextRef := 1 }

def answers (nodeSuccessData : Option Outputs) : Turn where
  run := ⟨.data nodeSuccessData, false⟩

/-- `B` answers `null`, and `Merge` is left waiting with the item of `Start`. -/
theorem null_leaves_merge_waiting :
    Along (next plainNodes mergeAfterBranch)
      (fun l t => goesOn plainNodes mergeAfterBranch l t = true) fromStart
      [answers (some [.value [{}]]), answers none] ∧
    ¬ Settled plainNodes mergeAfterBranch
      (after (next plainNodes mergeAfterBranch) fromStart
        [answers (some [.value [{}]]), answers none]).data := by
  refine ⟨⟨by decide, by decide, trivial⟩, fun settled => ?_⟩
  have strands := settled (by decide) "Merge"
  exact absurd strands (by decide)

/-- `B` answers with no items: the search finds `Merge`, which then runs. -/
theorem empty_releases_merge :
    Settled plainNodes mergeAfterBranch
      (after (next plainNodes mergeAfterBranch) fromStart
        [answers (some [.value [{}]]), answers (some [.value []]),
          answers (some [.value [{}]])]).data := by
  have reaches : ∀ loop outputs, loop.data.runNodeFilter = none →
      ReachesSearch plainNodes mergeAfterBranch loop (answers (some outputs)) := by
    intro loop outputs unfiltered
    refine ⟨fun entry _ early => ?_, fun entry _ run member request answer => ?_⟩
    · simp [LeavesEarly, unfiltered, passesRunFilter, runs, answers] at early
    · simp [runs, answers] at member
      simp [member] at answer
  refine settled_after plainNodes mergeAfterBranch (by decide) fromStart (fun empty => by cases empty)
    _ ⟨by decide, by decide, by decide, trivial⟩ ?_
  exact ⟨reaches _ _ (by decide), reaches _ _ (by decide), reaches _ _ (by decide), trivial⟩

end NodeAutomation.SettledExecution
