import NodeAutomation.Core.ExecutionLoop

/-! The order in which the execution loop takes entries off its stack once a
node asked for others to run. In the order `v1` the stack grows at its top only,
so what lies above the requesting node runs before it. -/

namespace NodeAutomation.RequestOrder
open WorkflowExecute RequestsResponse WaitingScan ExecutionLoop

section

variable (env : Environment) (workflow : Workflow)

/-- The entries a run takes off the stack, by number. An execution that stopped
at a node, for an error or to wait, may be taken up again. -/
def dequeued : LoopState → List Turn → List Nat
  | _, [] => []
  | loop, turn :: turns =>
    match loop.data.nodeExecutionStack with
    | [] => []
    | entry :: _ =>
      if turn.canceled then []
      else entry.ref :: match iterate env workflow loop turn with
        | .ok (_, after) => dequeued after turns
        | .error _ => []

def ResumesAfter (loop : LoopState) (requested : List IExecuteData) (resumed : IExecuteData) :
    Prop :=
  ∀ turns before later, dequeued env workflow loop turns = before ++ resumed.ref :: later →
    ∀ entry ∈ requested, entry.ref ∈ before

end

section

variable {env : Environment} {workflow : Workflow} {loop after : LoopState} {turn : Turn}
  {entry resumed : IExecuteData} {rest above below : List IExecuteData} {exit : Exit}

/-- What lies above an entry stays above it. -/
theorem iterate_keeps_above (v1 : workflow.isLegacyExecutionOrder = false)
    (stack : loop.data.nodeExecutionStack = entry :: (above ++ resumed :: below))
    (distinct : ∀ other ∈ entry :: above, other.ref ≠ resumed.ref)
    (old : resumed.ref < loop.data.nextRef) (running : turn.canceled = false)
    (went : iterate env workflow loop turn = .ok (exit, after)) :
    resumed.ref < after.data.nextRef ∧
      ∃ top bottom, after.data.nodeExecutionStack = top ++ resumed :: bottom ∧
        (∀ other ∈ top, other.ref ≠ resumed.ref) ∧ ∀ other ∈ above, other ∈ top := by
  have head := distinct entry List.mem_cons_self
  have kept : ∀ other ∈ above, other.ref ≠ resumed.ref :=
    fun other member => distinct other (List.mem_cons_of_mem entry member)
  have grown : ∀ state, Stacked { loop.data with nodeExecutionStack := above ++ resumed :: below }
      state → resumed.ref < state.nextRef ∧ ∃ top bottom,
        state.nodeExecutionStack = top ++ resumed :: bottom ∧
        (∀ other ∈ top, other.ref ≠ resumed.ref) ∧ ∀ other ∈ above, other ∈ top := by
    intro state stacked
    obtain ⟨added, shape, grows, numbered⟩ := stacked
    refine ⟨Nat.lt_of_lt_of_le old grows, added ++ above, below, ?_, fun other member => ?_,
      fun other member => List.mem_append_right added member⟩
    · rw [shape, List.append_assoc]
    · cases List.mem_append.1 member with
      | inl new => exact (Nat.lt_of_lt_of_le old (numbered other new).1).ne'
      | inr present => exact kept other present
  cases iterate_iterated v1 stack running went with
  | filtered _ _ same =>
    rw [same]
    exact grown _ (.refl _)
  | deferred _ same =>
    rw [same]
    refine ⟨old, above, below ++ [updatePairedItems entry], ?_, kept, fun _ member => member⟩
    simp only [List.append_assoc, List.cons_append]
  | ran runIndex _ _ finished =>
    have tried := stacked_tries env workflow (updatePairedItems entry) runIndex
      { loop.data with nodeExecutionStack := above ++ resumed :: below } v1 turn.run turn.retries
    cases finished with
    | requested _ attempted =>
      rw [attempted] at tried
      exact grown _ tried
    | noData _ attempted =>
      rw [attempted] at tried
      exact grown _ tried
    | restored _ state _ _ same stack nextRef =>
      obtain ⟨older, top, bottom, shape, others, contained⟩ := grown state (tried.trans same.stacked)
      refine ⟨by rw [nextRef]; exact older, updatePairedItems entry :: top, bottom, ?_,
        fun other member => ?_, fun other member => List.mem_cons_of_mem _ (contained other member)⟩
      · rw [stack, shape, List.cons_append]
      · cases List.mem_cons.1 member with
        | inl first =>
          rw [first]
          exact head
        | inr later => exact others other later
    | destination _ same => exact grown _ (tried.trans same.stacked)
    | completed _ stacked _ => exact grown _ (tried.trans stacked)

theorem above_dequeued_first (v1 : workflow.isLegacyExecutionOrder = false)
    (stack : loop.data.nodeExecutionStack = above ++ resumed :: below)
    (distinct : ∀ other ∈ above, other.ref ≠ resumed.ref)
    (old : resumed.ref < loop.data.nextRef) (turns : List Turn) (before later : List Nat)
    (split_ : dequeued env workflow loop turns = before ++ resumed.ref :: later) :
    ∀ other ∈ above, other.ref ∈ before := by
  induction turns generalizing loop above below before with
  | nil => simp [dequeued] at split_
  | cons turn turns ih =>
    cases above with
    | nil => simp
    | cons entry above =>
      rw [List.cons_append] at stack
      simp only [dequeued, stack] at split_
      cases running : turn.canceled with
      | true => simp [running] at split_
      | false =>
        simp only [running, Bool.false_eq_true, if_false] at split_
        cases before with
        | nil => exact absurd (List.cons.inj split_).1 (distinct entry List.mem_cons_self)
        | cons first before =>
          obtain ⟨same, rest⟩ := List.cons.inj split_
          cases went : iterate env workflow loop turn with
          | error error => simp [went] at rest
          | ok result =>
            simp only [went] at rest
            obtain ⟨older, top, bottom, shape, others, contained⟩ :=
              iterate_keeps_above v1 stack distinct old running went
            have found := ih shape others older before rest
            intro other member
            cases List.mem_cons.1 member with
            | inl here =>
              rw [here, same]
              exact List.mem_cons_self
            | inr deeper => exact List.mem_cons_of_mem first (found other (contained other deeper))

end

/-- A node of the workflow with one main input at most, whose source is known,
runs again only after every node it asked for, each with one main input at most. -/
theorem requested_dequeued_first (env : Environment) (workflow : Workflow)
    (v1 : workflow.isLegacyExecutionOrder = false) (state next : IRunExecutionData)
    (executionData : IExecuteData) (runIndex : Nat) (request : EngineRequest) (parentNode : String)
    (known : requestParent executionData = some parentNode) (node : INode)
    (stored : workflow.nodes.get executionData.node.name = some node)
    (single : numberOfInputs workflow executionData.node.name ≤ 1)
    (tools : ∀ action ∈ request.actions, numberOfInputs workflow action.nodeName ≤ 1)
    (went : handleEngineRequest workflow executionData runIndex state request = .ok next)
    (lastExecutionTry : String) :
    ∃ requested resumed,
      next.nodeExecutionStack = requested ++ resumed :: state.nodeExecutionStack ∧
      requested.map (·.node.name) = (request.actions.map (·.nodeName)).reverse ∧
      resumed.node.name = executionData.node.name ∧
      resumed.metadata.map (·.nodeWasResumed) = some true ∧
      ResumesAfter env workflow ⟨next, lastExecutionTry⟩ requested resumed := by
  obtain ⟨requested, resumed, stack, names, name, metadata, ref, grows, numbered⟩ :=
    handleEngineRequest_stack v1 known stored single tools went
  refine ⟨requested, resumed, stack, names, name, metadata, ?_⟩
  intro turns before later split_
  exact above_dequeued_first v1 stack (fun other member => (numbered other member).1.ne')
    (by rw [ref]; exact grows) turns before later split_

/-- `Start` feeds `Agent`, which may call `Tool`. -/
def agentWithTool (executionOrder : Option ExecutionOrder) : Workflow :=
  Workflow.new (fun _ => none)
    { nodes := [{ name := "Start" }, { name := "Agent" }, { name := "Tool" }]
      connections := .ofList [("Start", .ofList [(.main, [some [⟨"Agent", .main, 0⟩]])]),
        ("Tool", .ofList [(.aiTool, [some [⟨"Agent", .aiTool, 0⟩]])])]
      executionOrder := executionOrder }

def plainNodes : Environment where
  getByNameAndVersion := fun _ _ => some { inputs := 1 }
  getSimpleParameterValue := fun _ _ => .undefined
  message := fun _ => ""

def agentEntry : IExecuteData where
  ref := 1
  node := { name := "Agent" }
  data := mainOnly [.value [{}]]
  source := some (mainOnly [.value ⟨"Start", some 0, some 0⟩])

def toolRequest : EngineRequest where
  actions := [{ nodeName := "Tool" }]

/-- In the legacy order the agent comes first off the stack, before its tool. -/
theorem legacy_agent_resumes_first :
    ∃ next requested resumed,
      handleEngineRequest (agentWithTool none) agentEntry 0 { nextRef := 2 } toolRequest = .ok next ∧
      next.nodeExecutionStack = [resumed, requested] ∧
      requested.node.name = "Tool" ∧ resumed.node.name = "Agent" ∧
      ¬ ResumesAfter plainNodes (agentWithTool none) ⟨next, ""⟩ [requested] resumed := by
  refine ⟨_, _, _, rfl, rfl, rfl, rfl, fun resumes => ?_⟩
  have order : dequeued plainNodes (agentWithTool none)
      ⟨leftBy (handleEngineRequest (agentWithTool none) agentEntry 0 { nextRef := 2 } toolRequest), ""⟩
      [{ run := ⟨.data (some [.value [{}]]), false⟩ },
        { run := ⟨.data (some [.value [{}]]), false⟩ }] = [2, 3] := by decide
  exact absurd (resumes _ [] [3] order _ List.mem_cons_self) (by simp)

/-- In the order `v1` the tool runs first. -/
theorem v1_tool_dequeued_first :
    ∃ requested resumed,
      (leftBy (handleEngineRequest (agentWithTool (some .v1)) agentEntry 0 { nextRef := 2 }
        toolRequest)).nodeExecutionStack = requested ++ resumed :: [] ∧
      requested.map (·.node.name) = ["Tool"] ∧ resumed.node.name = "Agent" ∧
      resumed.metadata.map (·.nodeWasResumed) = some true ∧
      ResumesAfter plainNodes (agentWithTool (some .v1))
        ⟨leftBy (handleEngineRequest (agentWithTool (some .v1)) agentEntry 0 { nextRef := 2 }
          toolRequest), ""⟩ requested resumed :=
  requested_dequeued_first plainNodes (agentWithTool (some .v1)) (by decide) { nextRef := 2 } _
    agentEntry 0 toolRequest "Start" (by decide) { name := "Agent" } (by decide) (by decide)
    (by decide) rfl ""

end NodeAutomation.RequestOrder
