import NodeAutomation.Core.HighestNodes
import NodeAutomation.Lib.Places

/-! When a stack entry has the data its node waits for (`WorkflowExecute.ensureInputData`, in the
order of execution of old workflows). An input that no enabled node feeds ends the check, and so do
inputs that the data has no place for but the first of them. -/

namespace NodeAutomation.ExecutionLoop
open Places Relation Connections RunNodeFilter SearchTops WaitingScan WorkflowExecute

/-- `ensureInputData` with what it does to the stack. -/
def ensureInputDataOrDefer (workflow : Workflow) (state : IRunExecutionData) (executionData : IExecuteData) :
    Bool × IRunExecutionData :=
  if ensureInputData workflow executionData then (true, state)
  else (false, { state with nodeExecutionStack := state.nodeExecutionStack ++ [executionData] })

section

variable (workflow : Workflow) (name : String)

def Connected (index : Nat) : Prop := ((mainInputs workflow name).getD index none).getD [] ≠ []

/-- Some enabled node is above the input. -/
def HasEnabledAncestor (index : Nat) : Prop :=
  ∃ parent ∈ parentsAt workflow name index, ∃ above, isEnabled workflow above = true ∧
    ReflTransGen (MainParent workflow) parent above

def Past (a b : String) : Prop := MainParent workflow a b ∧ b ≠ name

/-- Some enabled node is above the input, on a way that does not pass the node itself. -/
def FedFromElsewhere (index : Nat) : Prop :=
  name ∈ workflow.nodes.keys ∧ ∃ parent ∈ parentsAt workflow name index, parent ≠ name ∧
    ∃ above, isEnabled workflow above = true ∧ ReflTransGen (Past workflow name) parent above

variable {workflow name} {index : Nat}

theorem connected_of_fed (fed : FedFromElsewhere workflow name index) : Connected workflow name index := by
  obtain ⟨-, parent, member, -⟩ := fed
  obtain ⟨-, group, inside, connection, there, -⟩ := mem_existing.1 member
  rw [Connected, ← List.mem_singleton.1 inside]
  exact List.ne_nil_of_mem there

theorem getHighestNode_at (member : name ∈ workflow.nodes.keys) (inputs : hasInputs workflow name = true)
    (index : Nat) : ∃ new, Gleaned (isEnabled workflow) (parents workflow) (hasInputs workflow)
      (parentsAt workflow name index) [name] new
      (getHighestNode workflow (workflow.nodes.size + 1) name (some index) []).1 := by
  obtain ⟨node, stored⟩ := (workflow.nodes.mem_keys_iff name).1 member
  obtain ⟨groups, connected⟩ := Option.isSome_iff_exists.1 inputs
  have start : Gleaned (isEnabled workflow) (parents workflow) (hasInputs workflow) [] [name] [] [] :=
    gleaned_nil (List.nodup_singleton name) (by simpa using inputs)
  have enough : DepthFirst.unmet workflow.nodes.keys [name] < workflow.nodes.size :=
    Nat.lt_of_lt_of_le (DepthFirst.unmet_enter_lt member List.not_mem_nil)
      (Nat.le_of_lt_succ (unmet_keys_lt []))
  obtain ⟨new, -, gleaned⟩ := foldl_gleaned
    (tops_searches (fun _ _ _ parent => parents_mem_keys parent) workflow.nodes.size)
    (parentsAt workflow name index) (fun b there => (mem_existing.1 there).1) ([], [name]) enough rfl start
  refine ⟨new, ?_⟩
  have groups_eq : mainInputs workflow name = groups := by
    rw [mainInputs, connected]
    rfl
  rw [parentsAt, groups_eq, ← getHighestNode_loop _ _ _ fun b key met fresh =>
    getHighestNode_eq_tops _ b key met fresh] at gleaned
  rw [getHighestNode, stored, connected, parentsAt, groups_eq]
  exact gleaned

theorem getHighestNode_isEmpty_iff (inputs : hasInputs workflow name = true) :
    (getHighestNode workflow (workflow.nodes.size + 1) name (some index) []).1.isEmpty = true ↔
      ¬ FedFromElsewhere workflow name index := by
  by_cases member : name ∈ workflow.nodes.keys
  · obtain ⟨new, gleaned⟩ := getHighestNode_at member inputs index
    rw [List.isEmpty_iff, ← not_iff_not, not_not, ← ne_eq, gleaned.ne_nil_iff]
    have other {a : String} (met : a ∈ new) : a ≠ name := by
      rintro rfl
      exact (List.nodup_append.1 gleaned.once).2.2 a List.mem_cons_self a met rfl
    have otherLeaf {a : String} (leaf : hasInputs workflow a = false) : a ≠ name := by
      rintro rfl
      simp [inputs] at leaf
    have past : StepWithin (parents workflow) new ≤ Past workflow name :=
      fun _ _ step => ⟨step.1, other step.2⟩
    constructor
    · rintro ⟨a, enabled, met | ⟨leaf, target | ⟨b, met, step⟩⟩⟩
      · obtain ⟨t, target, there, path⟩ := gleaned.reached a met
        exact ⟨member, t, target, other there, a, enabled, ReflTransGen.mono past _ _ path⟩
      · exact ⟨member, a, target, otherLeaf leaf, a, enabled, .refl⟩
      · obtain ⟨t, target, there, path⟩ := gleaned.reached b met
        exact ⟨member, t, target, other there, a, enabled,
          (ReflTransGen.mono past _ _ path).tail ⟨step, otherLeaf leaf⟩⟩
    · rintro ⟨-, parent, target, differ, above, enabled, path⟩
      refine ⟨above, enabled, gleaned.found (fun _ => parents_eq_nil) target (by simpa using differ) ?_⟩
      have same : Past workflow name = fun x y => y ∈ parents workflow x ∧ y ∉ [name] := by
        funext x y
        simp [Past, MainParent]
      exact same ▸ path
  · have missing : workflow.nodes.get name = none := (OrderedMap.get_eq_none_iff _ name).2 member
    rw [getHighestNode, missing]
    simp [FedFromElsewhere, member]

end

section

variable (workflow : Workflow) (executionData : IExecuteData)

/-- The entry holds data for the input. -/
def HasData (index : Nat) : Prop :=
  ∃ main items, executionData.data.get .main = some main ∧ Slot.at_ main index = .value items

/-- What the check for one input refuses: no data at all, an array that ends before the input before,
or `null`. -/
def Lacks (index : Nat) : Prop :=
  match executionData.data.get .main with
  | none => True
  | some main => main.length < index ∨ Slot.at_ main index = .null

variable {workflow executionData}

section

variable (legacy : workflow.isLegacyExecutionOrder = true)
include legacy

theorem inputsAreThere_cons_iff
    (inputs : hasInputs workflow executionData.node.name = true) {index : Nat} {indexes : List Nat}
    (fed : FedFromElsewhere workflow executionData.node.name index) :
    inputsAreThere workflow executionData (index :: indexes) = false ↔
      Lacks executionData index ∨ inputsAreThere workflow executionData indexes = false := by
  have found : ¬ (getHighestNode workflow (workflow.nodes.size + 1) executionData.node.name (some index)
      []).1.isEmpty = true := fun empty => (getHighestNode_isEmpty_iff inputs).1 empty fed
  rw [inputsAreThere, if_neg found, Lacks]
  cases executionData.data.get .main with
  | none => simp
  | some main =>
    simp only [legacy, true_and]
    by_cases lacks : main.length < index ∨ Slot.at_ main index = .null <;> simp [lacks]

theorem inputsAreThere_eq_false_iff
    (inputs : hasInputs workflow executionData.node.name = true) (indexes : List Nat) :
    inputsAreThere workflow executionData indexes = false ↔
      ∃ before index after, indexes = before ++ index :: after ∧
        (∀ earlier ∈ before, FedFromElsewhere workflow executionData.node.name earlier) ∧
        FedFromElsewhere workflow executionData.node.name index ∧ Lacks executionData index := by
  induction indexes with
  | nil => simp [inputsAreThere]
  | cons first indexes ih =>
    by_cases fed : FedFromElsewhere workflow executionData.node.name first
    · rw [inputsAreThere_cons_iff legacy inputs fed, ih]
      constructor
      · rintro (lacks | ⟨before, index, after, split, earlier, rest⟩)
        · exact ⟨[], first, indexes, rfl, by simp, fed, lacks⟩
        · exact ⟨first :: before, index, after, by rw [split]; rfl, by simpa [fed] using earlier, rest⟩
      · rintro ⟨before, index, after, split, earlier, fed', lacks⟩
        cases before with
        | nil => exact .inl ((List.cons.inj split).1 ▸ lacks)
        | cons other before =>
          exact .inr ⟨before, index, after, (List.cons.inj split).2,
            fun e member => earlier e (List.mem_cons_of_mem _ member), fed', lacks⟩
    · rw [inputsAreThere, if_pos ((getHighestNode_isEmpty_iff inputs).2 fed)]
      refine ⟨nofun, ?_⟩
      rintro ⟨before, index, after, split, earlier, fed', -⟩
      cases before with
      | nil => exact absurd ((List.cons.inj split).1 ▸ fed') fed
      | cons other before =>
        exact absurd ((List.cons.inj split).1 ▸ earlier other List.mem_cons_self) fed

theorem ensureInputData_eq_false_iff :
    ensureInputData workflow executionData = false ↔
      ∃ index < numberOfInputs workflow executionData.node.name,
        (∀ earlier ≤ index, FedFromElsewhere workflow executionData.node.name earlier) ∧
        Lacks executionData index := by
  rw [ensureInputData]
  cases connected : outputsOf workflow.connectionsByDestinationNode executionData.node.name .main with
  | none =>
    have none_ : numberOfInputs workflow executionData.node.name = 0 := by
      rw [numberOfInputs, connected]
      rfl
    simp [none_, inputsAreThere]
  | some groups =>
    have inputs : hasInputs workflow executionData.node.name = true := by
      rw [hasInputs, connected]
      rfl
    rw [inputsAreThere_eq_false_iff legacy inputs]
    constructor
    · rintro ⟨before, index, after, split, earlier, fed, lacks⟩
      obtain ⟨inside, same, -⟩ := range_eq_append_cons_iff.1 split
      refine ⟨index, inside, fun e le => ?_, lacks⟩
      rcases Nat.eq_or_lt_of_le le with here | less
      · exact here ▸ fed
      · exact earlier e (same ▸ List.mem_range.2 less)
    · rintro ⟨index, inside, fed, lacks⟩
      exact ⟨List.range index, index, _, range_eq_append_cons_iff.2 ⟨inside, rfl, rfl⟩,
        fun e member => fed e (Nat.le_of_lt (List.mem_range.1 member)), fed index (Nat.le_refl _), lacks⟩

end

theorem not_lacks_of_hasData {index : Nat} (data : HasData executionData index) :
    ¬ Lacks executionData index := by
  obtain ⟨main, items, stored, value⟩ := data
  rw [Lacks, stored]
  rintro (short | null)
  · rw [Slot.at_, List.getD_eq_default _ _ (by omega)] at value
    cases value
  · rw [value] at null
    cases null

/-- An entry that all connected inputs have data in is admitted; one that lacks data is put back unchanged
exactly when all inputs up to one that the check refuses are fed by an enabled node, past the node itself. -/
theorem ensureInputData_admits_iff (legacy : workflow.isLegacyExecutionOrder = true)
    (state : IRunExecutionData) :
    let name := executionData.node.name
    let there := ∀ index, Connected workflow name index → HasData executionData index
    ((∀ index, Connected workflow name index → HasEnabledAncestor workflow name index) →
      (there → ensureInputDataOrDefer workflow state executionData = (true, state)) ∧
      (¬ there → ensureInputDataOrDefer workflow state executionData =
        (false, { state with nodeExecutionStack := state.nodeExecutionStack ++ [executionData] }))) ↔
    ((∀ index, Connected workflow name index → HasEnabledAncestor workflow name index) →
      there ∨ ∃ index < numberOfInputs workflow name,
        (∀ earlier ≤ index, FedFromElsewhere workflow name earlier) ∧ Lacks executionData index) := by
  intro name there
  refine imp_congr_right fun _ => ?_
  rw [← ensureInputData_eq_false_iff legacy, ensureInputDataOrDefer]
  have admitted (all : there) : ensureInputData workflow executionData = true := by
    by_contra refused
    obtain ⟨index, -, fed, lacks⟩ := (ensureInputData_eq_false_iff legacy).1 (by simpa using refused)
    exact not_lacks_of_hasData (all index (connected_of_fed (fed index (Nat.le_refl _)))) lacks
  cases answer : ensureInputData workflow executionData with
  | true => simp
  | false =>
    have missing : ¬ there := fun all => by
      simp [admitted all] at answer
    simp [missing]

end

def twoSources : Workflow :=
  Workflow.new (fun _ => none)
    { nodes := [{ name := "A" }, { name := "B" }, { name := "Merge" }]
      connections := .ofList [("A", .ofList [(.main, [some [{ node := "Merge" }]])]),
        ("B", .ofList [(.main, [some [{ node := "Merge", index := 1 }]])])] }

def mergeEntry (main : List (Slot (List INodeExecutionData))) : IExecuteData :=
  { ref := 0, node := { name := "Merge" }, data := mainOnly main, source := none }

theorem ensureInputData_admits_iff_merge :
    ((∀ index, Connected twoSources "Merge" index → HasEnabledAncestor twoSources "Merge" index) →
      ((∀ index, Connected twoSources "Merge" index → HasData (mergeEntry [.value [{}], .null]) index) →
        ensureInputDataOrDefer twoSources {} (mergeEntry [.value [{}], .null]) = (true, {})) ∧
      (¬ (∀ index, Connected twoSources "Merge" index → HasData (mergeEntry [.value [{}], .null]) index) →
        ensureInputDataOrDefer twoSources {} (mergeEntry [.value [{}], .null]) =
          (false, { nodeExecutionStack := [mergeEntry [.value [{}], .null]] }))) ↔
    ((∀ index, Connected twoSources "Merge" index → HasEnabledAncestor twoSources "Merge" index) →
      (∀ index, Connected twoSources "Merge" index → HasData (mergeEntry [.value [{}], .null]) index) ∨
        ∃ index < numberOfInputs twoSources "Merge",
          (∀ earlier ≤ index, FedFromElsewhere twoSources "Merge" earlier) ∧
            Lacks (mergeEntry [.value [{}], .null]) index) :=
  @ensureInputData_admits_iff twoSources (mergeEntry [.value [{}], .null]) (by decide) {}

theorem twoSources_fed (index : Nat) (connected : Connected twoSources "Merge" index) :
    HasEnabledAncestor twoSources "Merge" index := by
  have inputs : mainInputs twoSources "Merge" = [some [{ node := "A" }], some [{ node := "B" }]] := by
    decide +kernel
  match index with
  | 0 => exact ⟨"A", by decide +kernel, "A", by decide +kernel, .refl⟩
  | 1 => exact ⟨"B", by decide +kernel, "B", by decide +kernel, .refl⟩
  | index + 2 =>
    rw [Connected, inputs] at connected
    exact absurd rfl connected

/-- The second input is missing from the data, and the node is run. -/
theorem short_data_admitted :
    twoSources.isLegacyExecutionOrder = true ∧
      ¬ ((∀ index, Connected twoSources "Merge" index → HasEnabledAncestor twoSources "Merge" index) →
        ((∀ index, Connected twoSources "Merge" index → HasData (mergeEntry [.value [{}]]) index) →
          ensureInputDataOrDefer twoSources {} (mergeEntry [.value [{}]]) = (true, {})) ∧
        (¬ (∀ index, Connected twoSources "Merge" index → HasData (mergeEntry [.value [{}]]) index) →
          ensureInputDataOrDefer twoSources {} (mergeEntry [.value [{}]]) =
            (false, { nodeExecutionStack := [mergeEntry [.value [{}]]] }))) := by
  refine ⟨by decide, fun claimed => ?_⟩
  have missing : ¬ ∀ index, Connected twoSources "Merge" index → HasData (mergeEntry [.value [{}]]) index := by
    intro there
    obtain ⟨main, items, stored, value⟩ := there 1 (by rw [Connected]; decide +kernel)
    cases stored
    cases value
  have refused := congrArg Prod.fst ((claimed twoSources_fed).2 missing)
  revert refused
  decide +kernel

end NodeAutomation.ExecutionLoop
