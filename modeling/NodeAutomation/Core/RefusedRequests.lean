import NodeAutomation.Core.RequestProvenance

/-! Requests that are not carried out (`requests-response.ts`): an action names a node the workflow does
not have, or the requesting entry has no parent. The actions are prepared one by one, and each of them
writes to the run data and to a node before the next one is looked at. -/

namespace NodeAutomation.RequestsResponse

variable (workflow : Workflow) (executionData : IExecuteData) (runIndex : Nat) (state : IRunExecutionData)
  (request : EngineRequest)

def missingNode (nodeName : String) : JsError :=
  .unexpectedError ("Workflow does not contain a node with the name of \"" ++ nodeName ++ "\".")

/-- The run data is what it was, and so is `rewireOutputLogTo` of every node. -/
structure Untouched (next : IRunExecutionData) : Prop where
  runData : next.runData = state.runData
  rewireOutputLogTo : next.rewireOutputLogTo = state.rewireOutputLogTo

/-- A request that is thrown out for a missing node, or ignored for want of a parent, leaves no trace. -/
structure LeavesNoTrace : Prop where
  thrown : ∀ nodeName next, handleRequest workflow executionData runIndex state request =
    .error (missingNode nodeName, next) → Untouched state next
  ignored : requestParent executionData = none → ∀ next,
    handleRequest workflow executionData runIndex state request = .ok (next, []) → Untouched state next

/-- Nothing is in the way of the request, or the first of its actions is. -/
def CarriedOutOrRefusedAtOnce : Prop :=
  (requestParent executionData).isSome ∧ (∀ action ∈ request.actions, (workflow.getNode action.nodeName).isSome) ∨
    ∀ action ∈ request.actions.head?, workflow.getNode action.nodeName = none

section

def runsOf (nodeName : String) : Nat := ((state.runData.get nodeName).getD []).length

def stateLeft : Except Thrown Preparation → IRunExecutionData
  | .ok preparation => preparation.state
  | .error (_, state) => state

variable {workflow executionData runIndex state request}

theorem runsOf_prepareAction (preparation : Preparation) (node : INode) (action : ExecuteNodeAction) (nodeName : String) :
    runsOf (prepareAction executionData runIndex preparation node action).state nodeName =
      runsOf preparation.state nodeName + if nodeName = node.name then 1 else 0 := by
  have stored : (prepareAction executionData runIndex preparation node action).state.runData =
      preparation.state.runData.set node.name ((preparation.state.runData.get node.name).getD [] ++ [_]) := rfl
  rw [runsOf, stored, OrderedMap.get_set]
  by_cases same : nodeName = node.name
  · rw [if_pos same, if_pos same, Option.getD_some, List.length_append, runsOf, same]
    rfl
  · rw [if_neg same, if_neg same]
    rfl

theorem runsOf_le_stateLeft (actions : List ExecuteNodeAction) (preparation : Preparation) (nodeName : String) :
    runsOf preparation.state nodeName ≤
      runsOf (stateLeft (actions.foldlM (prepareRequestedNode workflow executionData runIndex) preparation)) nodeName := by
  induction actions generalizing preparation with
  | nil => exact le_rfl
  | cons action actions ih =>
    rw [List.foldlM_cons, prepareRequestedNode]
    cases workflow.getNode action.nodeName with
    | none => exact le_rfl
    | some node =>
      refine Nat.le_trans ?_ (ih (prepareAction executionData runIndex preparation node action))
      rw [runsOf_prepareAction]
      exact Nat.le_add_right _ _

theorem not_untouched_of_first {action : ExecuteNodeAction} {rest : List ExecuteNodeAction} {node : INode}
    (listed : request.actions = action :: rest) (found : workflow.getNode action.nodeName = some node) :
    ¬ Untouched state (stateLeft (prepareRequestedNodesForExecution workflow executionData runIndex state request)) := by
  intro untouched
  have less : runsOf state node.name < runsOf
      (prepareAction executionData runIndex { state := state } node action).state node.name := by
    rw [runsOf_prepareAction, if_pos rfl]
    exact Nat.lt_succ_self _
  have kept := @runsOf_le_stateLeft workflow executionData runIndex rest
    (prepareAction executionData runIndex { state := state } node action) node.name
  have same : runsOf (stateLeft (prepareRequestedNodesForExecution workflow executionData runIndex state request))
      node.name = runsOf state node.name := by rw [runsOf, untouched.runData, runsOf]
  rw [prepareRequestedNodesForExecution, listed, List.foldlM_cons, prepareRequestedNode, found] at same
  exact absurd same (Nat.lt_of_lt_of_le less kept).ne'

end

section

variable {workflow executionData runIndex state request}

theorem prepareRequestedNodes_missing {thrown : Thrown}
    (went : prepareRequestedNodesForExecution workflow executionData runIndex state request = .error thrown) :
    ∃ action ∈ request.actions, workflow.getNode action.nodeName = none ∧ thrown.1 = missingNode action.nodeName := by
  obtain ⟨_, action, before, member, _, step⟩ := Fallible.foldlM_error went (P := fun _ _ => True) trivial
    fun _ _ _ _ _ _ _ => trivial
  unfold prepareRequestedNode at step
  split at step
  · rename_i absent
    cases step
    exact ⟨action, member, absent, rfl⟩
  · cases step

theorem handleRequest_missing_iff {nodeName : String} {next : IRunExecutionData} :
    handleRequest workflow executionData runIndex state request = .error (missingNode nodeName, next) ↔
      prepareRequestedNodesForExecution workflow executionData runIndex state request =
        .error (missingNode nodeName, next) := by
  unfold handleRequest
  cases prepareRequestedNodesForExecution workflow executionData runIndex state request with
  | error thrown => simp
  | ok preparation =>
    simp only [reduceCtorEq, iff_false]
    cases requestParent executionData with
    | none => nofun
    | some parentNode => cases executionData.data.get .main <;> simp [missingNode]

theorem handleRequest_ignored_eq (unknown : requestParent executionData = none) {preparation : Preparation}
    (went : prepareRequestedNodesForExecution workflow executionData runIndex state request = .ok preparation) :
    handleRequest workflow executionData runIndex state request = .ok (preparation.state, []) := by
  rw [handleRequest, went]
  rw [unknown]

theorem leavesNoTrace_first {action : ExecuteNodeAction} {rest : List ExecuteNodeAction} {node : INode}
    (h : LeavesNoTrace workflow executionData runIndex state request) (listed : request.actions = action :: rest)
    (found : workflow.getNode action.nodeName = some node) :
    (requestParent executionData).isSome ∧ ∀ action ∈ request.actions, (workflow.getNode action.nodeName).isSome := by
  have trace := @not_untouched_of_first workflow executionData runIndex state request _ _ _ listed found
  cases went : prepareRequestedNodesForExecution workflow executionData runIndex state request with
  | error thrown =>
    obtain ⟨absent, _, _, missing⟩ := prepareRequestedNodes_missing went
    obtain ⟨error, next⟩ := thrown
    cases missing
    rw [went] at trace
    exact absurd (h.thrown absent.nodeName next (handleRequest_missing_iff.2 went)) trace
  | ok preparation =>
    rw [went] at trace
    refine ⟨?_, fun action member => ?_⟩
    · by_contra unknown
      have none_ := Option.not_isSome_iff_eq_none.1 unknown
      exact trace (h.ignored none_ _ (handleRequest_ignored_eq none_ went))
    · obtain ⟨node, there⟩ := (prepareRequestedNodes_kept went).2.2 action member
      exact Option.isSome_iff_exists.2 ⟨node, there⟩

theorem stateLeft_of_first_missing (first : ∀ action ∈ request.actions.head?, workflow.getNode action.nodeName = none) :
    stateLeft (prepareRequestedNodesForExecution workflow executionData runIndex state request) = state := by
  rw [prepareRequestedNodesForExecution]
  cases listed : request.actions with
  | nil => rfl
  | cons action rest =>
    have missing := first action (by rw [listed]; rfl)
    rw [List.foldlM_cons, prepareRequestedNode, missing]
    rfl

end

/-- Nothing is left of a request that is not carried out exactly where it failed at its first action, or
had none. -/
theorem handleRequest_leavesNoTrace_iff : LeavesNoTrace workflow executionData runIndex state request ↔
    CarriedOutOrRefusedAtOnce workflow executionData request := by
  constructor
  · intro h
    cases listed : request.actions with
    | nil => exact .inr (by rw [listed]; nofun)
    | cons action rest =>
      cases found : workflow.getNode action.nodeName with
      | none =>
        refine .inr ?_
        rw [listed]
        intro first same
        cases same
        exact found
      | some node => exact .inl (leavesNoTrace_first h listed found)
  · intro h
    refine ⟨fun nodeName next went => ?_, fun unknown next went => ?_⟩
    · have prepared := handleRequest_missing_iff.1 went
      cases h with
      | inl carriedOut =>
        obtain ⟨action, member, absent, _⟩ := prepareRequestedNodes_missing prepared
        have there := carriedOut.2 action member
        simp [absent] at there
      | inr first =>
        have left := @stateLeft_of_first_missing workflow executionData runIndex state request first
        rw [prepared] at left
        cases left
        exact ⟨rfl, rfl⟩
    · cases h with
      | inl carriedOut =>
        have known := carriedOut.1
        simp [unknown] at known
      | inr first =>
        have left := @stateLeft_of_first_missing workflow executionData runIndex state request first
        cases prepared : prepareRequestedNodesForExecution workflow executionData runIndex state request with
        | error thrown =>
          simp [handleRequest, prepared] at went
        | ok preparation =>
          rw [handleRequest_ignored_eq unknown prepared] at went
          rw [prepared] at left
          cases went
          cases left
          exact ⟨rfl, rfl⟩

def askTwoTools : EngineRequest where
  actions := [{ nodeName := "Tool", id := "first" }, { nodeName := "Gone", id := "second" }]

/-- By the time it is refused, the run of the first is there. -/
theorem askTwoTools_leaves_trace :
    ¬ LeavesNoTrace agentBehindIf (agentEntry ⟨"If", some 0, some 0⟩) 0 {} askTwoTools := by
  intro h
  have all := leavesNoTrace_first h rfl (by rfl : agentBehindIf.getNode "Tool" = some { name := "Tool" })
  have there := all.2 _ (List.mem_cons_of_mem _ List.mem_cons_self)
  exact absurd there (by decide)

end NodeAutomation.RequestsResponse
