import NodeAutomation.Core.WaitingExecution

/-! The search for a waiting node that may run without data on all its inputs,
made at the end of an iteration of the execution loop when nothing else is left
to run. -/

namespace NodeAutomation.WaitingScan
open RunNodeFilter WorkflowExecute

/-! Node types, as far as the execution loop reads them. -/

/-- `requiredInputs`: an expression, input indexes or a number of inputs. -/
inductive RequiredInputs where
  | expression (text : String)
  | indexes (inputs : List Nat)
  | count (number : Nat)
  deriving DecidableEq

/-- `requiredInputs` once evaluated; any other value demands nothing. -/
inductive Requirement where
  | undefined
  | indexes (inputs : List Nat)
  | count (number : Nat)
  | other
  deriving DecidableEq

/-- `inputs` is the length of the list of inputs, or of the expression for it. -/
structure INodeTypeDescription where
  requiredInputs : Option RequiredInputs := none
  inputs : Nat

structure Environment where
  getByNameAndVersion : String → Nat → Option INodeTypeDescription
  getSimpleParameterValue : INode → String → Requirement
  message : JsError → String

section

variable (env : Environment) (workflow : Workflow)

/-- The requirement of the node's type, which only counts in the order `v1`. -/
def requirementOf (node : INode) : Except JsError Requirement :=
  if workflow.isLegacyExecutionOrder then .ok .undefined
  else match env.getByNameAndVersion node.type node.typeVersion with
    | none => .error .typeError
    | some description => match description.requiredInputs with
      | none => .ok .undefined
      | some (.expression text) => .ok (env.getSimpleParameterValue node text)
      | some (.indexes inputs) => .ok (.indexes inputs)
      | some (.count number) => .ok (.count number)

def inputsLength (node : INode) : Option Nat :=
  (env.getByNameAndVersion node.type node.typeVersion).map INodeTypeDescription.inputs

def Requirement.isAll (inputs : Option Nat) : Requirement → Bool
  | .indexes required => some required.length = inputs
  | .count number => some number = inputs
  | .undefined | .other => false

def Requirement.isMet (inputsWithData : List Nat) : Requirement → Bool
  | .indexes required => required.all inputsWithData.contains
  | .count number => decide (number ≤ inputsWithData.length)
  | .undefined | .other => true

def inputsWithData (main : List (Slot (List INodeExecutionData))) : List Nat :=
  (List.range main.length).filter fun index => (Slot.at_ main index).isValue

def firstRunIndex (waiting : NodeWaiting) : Option Nat :=
  (waiting.data.keys.insertionSort fun a b => toString a ≤ toString b).head?

def parentIsWaiting (waitingNodes : List String) (nodeName : String) : Bool :=
  (workflow.getParentNodes nodeName).any waitingNodes.contains

def nullToEmpty : Slot (List INodeExecutionData) → Slot (List INodeExecutionData)
  | .null => .value []
  | slot => slot

def holdsItems : Slot (List INodeExecutionData) → Bool
  | .value (_ :: _) => true
  | _ => false

def padInputs (main : List (Slot (List INodeExecutionData))) (inputs : Nat) :
    List (Slot (List INodeExecutionData)) :=
  main ++ List.replicate (inputs - main.length) (.value [])

end

inductive Checked where
  | skipped
  | removed (state : IRunExecutionData)
  | released (state : IRunExecutionData)

section

variable (env : Environment) (workflow : Workflow)

/-- `nodeExecutionStack.push(entry)`, with a fresh identity. -/
def pushEntry (state : IRunExecutionData) (entry : IExecuteData) : IRunExecutionData :=
  { state with
    nodeExecutionStack := state.nodeExecutionStack ++ [{ entry with ref := state.nextRef }]
    nextRef := state.nextRef + 1 }

/-- The earliest entry of the node leaves `waitingExecution`, for the stack where
it holds any item. -/
def takeEntry (state : IRunExecutionData) (node : INode) (nodeName : String) (runIndex : Nat)
    (main : List (Slot (List INodeExecutionData))) : Except JsError Checked :=
  if state.waitingExecutionSource.contains nodeName = false then .error .typeError
  else if (main.map nullToEmpty).any holdsItems then
    match inputsLength env node with
    | none => .error .typeError
    | some inputs => .ok <| .released <|
      storeWaiting
        (pushEntry state
          { ref := 0
            node := node
            data := mainOnly (padInputs (main.map nullToEmpty) inputs)
            source := (nodeWaiting state nodeName).source.get runIndex })
        nodeName ((nodeWaiting state nodeName).remove runIndex)
  else .ok (.removed (storeWaiting state nodeName ((nodeWaiting state nodeName).remove runIndex)))

def checkNode (state : IRunExecutionData) (nodeName : String) : Except JsError Checked :=
  match workflow.getNode nodeName with
  | none => .ok .skipped
  | some node =>
    match requirementOf env workflow node with
    | .error error => .error error
    | .ok requirement =>
      if requirement.isAll (inputsLength env node) then .ok .skipped
      else if parentIsWaiting workflow state.waitingExecution.keys nodeName then .ok .skipped
      else match firstRunIndex (nodeWaiting state nodeName) with
        | none => .error .typeError
        | some runIndex =>
          match NodeWaiting.mainOf (nodeWaiting state nodeName).data runIndex with
          | .error error => .error error
          | .ok main =>
            if requirement.isMet (inputsWithData main) then
              takeEntry env state node nodeName runIndex main
            else .ok .skipped

def checkNodes (state : IRunExecutionData) : List String → Except JsError Checked
  | [] => .ok .skipped
  | nodeName :: waitingNodes =>
    match checkNode env workflow state nodeName with
    | .ok .skipped => checkNodes state waitingNodes
    | checked => checked

def search : Nat → IRunExecutionData → Except JsError IRunExecutionData
  | 0, state => .ok state
  | fuel + 1, state =>
    match checkNodes env workflow state state.waitingExecution.keys with
    | .error error => .error error
    | .ok .skipped => .ok state
    | .ok (.released next) => .ok next
    | .ok (.removed next) => search fuel next

def entriesWaiting (state : IRunExecutionData) : Nat :=
  (state.waitingExecution.values.map OrderedMap.size).sum

/-- The search starts anew once for each entry at most. -/
def releaseWaiting (state : IRunExecutionData) : Except JsError IRunExecutionData :=
  if state.nodeExecutionStack.isEmpty then
    search env workflow (entriesWaiting state + 1) state
  else .ok state

end

/-! The release condition, and what the search makes of it. -/

section

variable (env : Environment) (workflow : Workflow)

def earliest (state : IRunExecutionData) (nodeName : String) :
    Option (List (Slot (List INodeExecutionData))) :=
  (firstRunIndex (nodeWaiting state nodeName)).bind fun runIndex =>
    (NodeWaiting.mainOf (nodeWaiting state nodeName).data runIndex).toOption

def requiredInputsAreThere (node : INode) (main : List (Slot (List INodeExecutionData))) : Bool :=
  match requirementOf env workflow node with
  | .error _ => false
  | .ok requirement =>
    !requirement.isAll (inputsLength env node) && requirement.isMet (inputsWithData main)

/-- A waiting node that the search should have put on the stack: it may run, the
inputs it requires have data, none of its ancestors waits, and there is an item. -/
def releasable (state : IRunExecutionData) (nodeName : String) : Bool :=
  match workflow.getNode nodeName, earliest state nodeName with
  | some node, some main =>
    passesRunFilter state.runNodeFilter nodeName && requiredInputsAreThere env workflow node main &&
      !parentIsWaiting workflow state.waitingExecution.keys nodeName && main.any holdsItems
  | _, _ => false

/-- With nothing left to run, nothing waits that could run. -/
def Settled (state : IRunExecutionData) : Prop :=
  state.nodeExecutionStack = [] → ∀ nodeName, releasable env workflow state nodeName = false

end

section

variable {env : Environment} {workflow : Workflow} {state next : IRunExecutionData}

variable {main : List (Slot (List INodeExecutionData))} {nodeName : String}

theorem takeEntry_not_skipped {node : INode} {runIndex : Nat} :
    takeEntry env state node nodeName runIndex main ≠ .ok .skipped := by
  unfold takeEntry
  intro skipped
  split at skipped
  · cases skipped
  · split at skipped
    · split at skipped
      · cases skipped
      · cases skipped
    · cases skipped

theorem checkNode_skipped
    (skipped : checkNode env workflow state nodeName = .ok .skipped) :
    releasable env workflow state nodeName = false := by
  unfold checkNode at skipped
  unfold releasable
  split
  · rename_i node main found first
    unfold requiredInputsAreThere
    cases required : requirementOf env workflow node with
    | error error => simp
    | ok requirement =>
      simp only [found, required] at skipped
      simp only
      cases all : requirement.isAll (inputsLength env node) with
      | true => simp
      | false =>
        cases parent : parentIsWaiting workflow state.waitingExecution.keys nodeName with
        | true => simp
        | false =>
          simp only [all, parent, Bool.false_eq_true, if_false] at skipped
          cases run : firstRunIndex (nodeWaiting state nodeName) with
          | none => simp [earliest, run] at first
          | some runIndex =>
            simp only [run] at skipped
            simp only [earliest, run, Option.bind_some] at first
            cases held : NodeWaiting.mainOf (nodeWaiting state nodeName).data runIndex with
            | error error => simp [held, Except.toOption] at first
            | ok slots =>
              simp only [held] at skipped
              simp only [held, Except.toOption, Option.some.injEq] at first
              rw [← first]
              split at skipped
              · exact absurd skipped takeEntry_not_skipped
              · rename_i unmet
                simp [Bool.eq_false_of_not_eq_true unmet]
  · rfl

theorem releasable_of_not_waiting
    (absent : nodeName ∉ state.waitingExecution.keys) :
    releasable env workflow state nodeName = false := by
  have nothing : earliest state nodeName = none := by
    rw [earliest, nodeWaiting, (OrderedMap.get_eq_none_iff _ _).2 absent]
    rfl
  rw [releasable, nothing]
  split <;> simp_all

theorem checkNodes_skipped {waitingNodes : List String}
    (skipped : checkNodes env workflow state waitingNodes = .ok .skipped) (nodeName : String)
    (member : nodeName ∈ waitingNodes) : releasable env workflow state nodeName = false := by
  induction waitingNodes with
  | nil => simp at member
  | cons first waitingNodes ih =>
    unfold checkNodes at skipped
    split at skipped
    · rename_i here
      cases List.mem_cons.1 member with
      | inl same =>
        rw [same]
        exact checkNode_skipped here
      | inr later => exact ih skipped later
    · rename_i other
      exact absurd skipped other

inductive Took (state : IRunExecutionData) : Checked → Prop
  | removed (next : IRunExecutionData) (stack : next.nodeExecutionStack = state.nodeExecutionStack)
      (nextRef : next.nextRef = state.nextRef)
      (fewer : entriesWaiting next < entriesWaiting state) : Took state (.removed next)
  | released (next : IRunExecutionData) (entry : IExecuteData)
      (stack : next.nodeExecutionStack = state.nodeExecutionStack ++ [entry])
      (ref : entry.ref = state.nextRef) (nextRef : next.nextRef = state.nextRef + 1) :
      Took state (.released next)

theorem mainOf_ok {rows : OrderedMap Nat ITaskDataConnections} {index : Nat}
    (held : NodeWaiting.mainOf rows index = .ok main) : ∃ row, rows.get index = some row := by
  unfold NodeWaiting.mainOf at held
  cases stored : rows.get index with
  | none => simp [stored] at held
  | some row => exact ⟨row, rfl⟩

theorem entriesWaiting_remove {runIndex : Nat} {row : ITaskDataConnections}
    (held : (nodeWaiting state nodeName).data.get runIndex = some row) :
    entriesWaiting
      (storeWaiting state nodeName ((nodeWaiting state nodeName).remove runIndex)) <
      entriesWaiting state := by
  cases stored : state.waitingExecution.get nodeName with
  | none =>
    simp [nodeWaiting, stored] at held
  | some data =>
    have same : (nodeWaiting state nodeName).data = data := by
      rw [nodeWaiting, stored]
    rw [same] at held
    have whole := state.waitingExecution.sum_values_of_get OrderedMap.size stored
    have smaller := data.size_of_get held
    have left : ((nodeWaiting state nodeName).remove runIndex).data = data.delete runIndex := by
      rw [NodeWaiting.remove, same]
    unfold storeWaiting
    rw [left]
    split
    · simp only [entriesWaiting]
      omega
    · have after := (state.waitingExecution.set nodeName (data.delete runIndex)).sum_values_of_get
        OrderedMap.size (OrderedMap.get_set_self _ _ _)
      rw [OrderedMap.delete_set] at after
      simp only [entriesWaiting]
      omega

theorem takeEntry_took {node : INode} {runIndex : Nat} {checked : Checked}
    (held : NodeWaiting.mainOf (nodeWaiting state nodeName).data runIndex = .ok main)
    (took : takeEntry env state node nodeName runIndex main = .ok checked) :
    Took state checked := by
  obtain ⟨row, stored⟩ := mainOf_ok held
  unfold takeEntry at took
  split at took
  · cases took
  · split at took
    · split at took
      · cases took
      · rw [← Except.ok.inj took]
        refine .released _ _ (nodeExecutionStack_storeWaiting _ _ _) ?_
          (nextRef_storeWaiting _ _ _)
        rfl
    · rw [← Except.ok.inj took]
      exact .removed _ (nodeExecutionStack_storeWaiting _ _ _) (nextRef_storeWaiting _ _ _)
        (entriesWaiting_remove stored)

theorem checkNode_took {checked : Checked}
    (went : checkNode env workflow state nodeName = .ok checked) :
    checked = .skipped ∨ Took state checked := by
  unfold checkNode at went
  split at went
  · exact .inl (Except.ok.inj went).symm
  · split at went
    · cases went
    · split at went
      · exact .inl (Except.ok.inj went).symm
      · split at went
        · exact .inl (Except.ok.inj went).symm
        · split at went
          · cases went
          · split at went
            · cases went
            · rename_i held
              split at went
              · exact .inr (takeEntry_took held went)
              · exact .inl (Except.ok.inj went).symm

theorem checkNodes_took {waitingNodes : List String} {checked : Checked}
    (went : checkNodes env workflow state waitingNodes = .ok checked) :
    checked = .skipped ∨ Took state checked := by
  induction waitingNodes with
  | nil => exact .inl (Except.ok.inj went).symm
  | cons nodeName waitingNodes ih =>
    unfold checkNodes at went
    split at went
    · exact ih went
    · exact checkNode_took went

/-- With fuel for every entry, the search ends by releasing one or by finding none. -/
theorem search_settles {fuel : Nat} (enough : entriesWaiting state < fuel)
    (empty : state.nodeExecutionStack = []) (went : search env workflow fuel state = .ok next) :
    Settled env workflow next ∧ Stacked state next := by
  induction fuel generalizing state with
  | zero => omega
  | succ fuel ih =>
    unfold search at went
    split at went
    · cases went
    · rename_i skipped
      rw [← Except.ok.inj went]
      refine ⟨fun _ nodeName => ?_, .refl state⟩
      by_cases waits : nodeName ∈ state.waitingExecution.keys
      · exact checkNodes_skipped skipped nodeName waits
      · exact releasable_of_not_waiting waits
    · rename_i after checked
      rw [← Except.ok.inj went]
      cases checkNodes_took checked with
      | inl skipped => cases skipped
      | inr took =>
        cases took with
        | released next entry stack ref nextRef =>
          rw [empty] at stack
          refine ⟨fun gone => ?_, [entry], ?_, ?_, fun new member => ?_⟩
          · simp [stack] at gone
          · rw [stack, empty]
            rfl
          · omega
          · rw [List.mem_singleton.1 member]
            omega
    · rename_i after checked
      cases checkNodes_took checked with
      | inl skipped => cases skipped
      | inr took =>
        cases took with
        | removed next stack nextRef fewer =>
          obtain ⟨settled, added, grown, grows, numbered⟩ := ih (by omega) (stack.trans empty) went
          rw [stack] at grown
          rw [nextRef] at grows numbered
          exact ⟨settled, added, grown, grows, numbered⟩

theorem releaseWaiting_settles (went : releaseWaiting env workflow state = .ok next) :
    Settled env workflow next ∧ Stacked state next := by
  unfold releaseWaiting at went
  split at went
  · rename_i empty
    exact search_settles (Nat.lt_succ_self _) (List.isEmpty_iff.1 empty) went
  · rename_i occupied
    rw [← Except.ok.inj went]
    refine ⟨fun empty => ?_, .refl state⟩
    rw [empty] at occupied
    exact absurd rfl occupied

end
end NodeAutomation.WaitingScan
