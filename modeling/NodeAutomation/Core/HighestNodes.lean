import NodeAutomation.Core.ExecutionLoop
import NodeAutomation.Lib.SearchTops

/-! Which nodes `Workflow.getHighestNode` finds above a node. The search remembers the
nodes it has checked across all branches, and a node above which everything has been
checked before looks like one with nothing above it. -/

namespace NodeAutomation.ExecutionLoop
open Relation Connections SearchTops

section

variable (workflow : Workflow)

def hasInputs (name : String) : Bool :=
  (outputsOf workflow.connectionsByDestinationNode name .main).isSome

def mainInputs (name : String) : NodeInputConnections :=
  (outputsOf workflow.connectionsByDestinationNode name .main).getD []

def existing (groups : List (Option (List IConnection))) : List String :=
  (groups.flatMap fun group => group.getD []).filterMap fun connection =>
    (workflow.nodes.get connection.node).map fun _ => connection.node

def parents (name : String) : List String := existing workflow (mainInputs workflow name)

/-- The nodes that one main input is connected to. -/
def parentsAt (name : String) (index : Nat) : List String :=
  existing workflow [(mainInputs workflow name).getD index none]

def isEnabled (name : String) : Bool := (workflow.nodes.get name).any fun node => !node.disabled

def MainParent (name parent : String) : Prop := parent ∈ parents workflow name

variable {workflow}

theorem mem_existing {groups : List (Option (List IConnection))} {name : String} :
    name ∈ existing workflow groups ↔ name ∈ workflow.nodes.keys ∧
      ∃ group, some group ∈ groups ∧ ∃ connection ∈ group, connection.node = name := by
  simp only [existing, List.mem_filterMap, List.mem_flatMap, Option.map_eq_some_iff,
    OrderedMap.mem_keys_iff]
  constructor
  · rintro ⟨connection, ⟨group, member, inside⟩, node, stored, rfl⟩
    cases group with
    | none => cases inside
    | some group => exact ⟨⟨node, stored⟩, group, member, connection, inside, rfl⟩
  · rintro ⟨⟨node, stored⟩, group, member, connection, inside, rfl⟩
    exact ⟨connection, ⟨some group, member, inside⟩, node, stored, rfl⟩

theorem parents_mem_keys {name parent : String} (h : parent ∈ parents workflow name) :
    parent ∈ workflow.nodes.keys := (mem_existing.1 h).1

theorem visitTop_congr {gather gather' : String → List String → List String × List String}
    {found : List String × List String} {b : String}
    (same : b ∉ found.2 → gather b found.2 = gather' b found.2) :
    visitTop (isEnabled workflow) gather found b = visitTop (isEnabled workflow) gather' found b := by
  unfold visitTop
  split
  · rfl
  · rename_i fresh
    rw [same fresh]

theorem getHighestNode_loop (fuel : Nat) (groups : List (Option (List IConnection)))
    (found : List String × List String)
    (same : ∀ b ∈ workflow.nodes.keys, ∀ met, b ∉ met → getHighestNode workflow fuel b none met =
      tops (isEnabled workflow) (parents workflow) (hasInputs workflow) fuel b met) :
    (groups.flatMap fun group => group.getD []).foldl
        (fun found connection =>
          match workflow.nodes.get connection.node with
          | none => found
          | some parent =>
            if found.2.contains connection.node then found
            else
              let above := getHighestNode workflow fuel connection.node none found.2
              let addNodes :=
                if above.1.isEmpty ∧ parent.disabled = false then [connection.node]
                else above.1
              (found.1 ++ addNodes.filter fun name => !found.1.contains name, above.2)) found =
      (existing workflow groups).foldl
        (visitTop (isEnabled workflow)
          (tops (isEnabled workflow) (parents workflow) (hasInputs workflow) fuel)) found := by
  rw [existing, List.foldl_filterMap]
  refine List.foldl_ext _ _ _ fun found connection _ => ?_
  cases stored : workflow.nodes.get connection.node with
  | none => rfl
  | some parent =>
    have key : connection.node ∈ workflow.nodes.keys := (workflow.nodes.mem_keys_iff _).2 ⟨parent, stored⟩
    have searched := @visitTop_congr workflow _ (getHighestNode workflow fuel · none) found
      connection.node fun fresh => (same connection.node key found.2 fresh).symm
    rw [Option.map_some]
    dsimp only
    rw [searched]
    have enabled : isEnabled workflow connection.node = !parent.disabled := by
      rw [isEnabled, stored]
      rfl
    simp only [visitTop, enabled, Bool.not_eq_true', List.contains_eq_mem, decide_not,
      decide_eq_true_eq]

theorem getHighestNode_eq_tops (fuel : Nat) (name : String) (member : name ∈ workflow.nodes.keys)
    (checkedNodes : List String) (fresh : name ∉ checkedNodes) :
    getHighestNode workflow fuel name none checkedNodes =
      tops (isEnabled workflow) (parents workflow) (hasInputs workflow) fuel name checkedNodes := by
  induction fuel generalizing name checkedNodes with
  | zero => rfl
  | succ fuel ih =>
    obtain ⟨node, stored⟩ := (workflow.nodes.mem_keys_iff name).1 member
    rw [getHighestNode, tops, stored]
    cases connected : outputsOf workflow.connectionsByDestinationNode name .main with
    | none =>
      have leaf : hasInputs workflow name = false := by
        rw [hasInputs, connected]
        rfl
      rw [leaf, isEnabled, stored]
      simp only [Option.any_some, Bool.false_eq_true, if_false]
      by_cases off : node.disabled = true <;> simp [off]
    | some inputs =>
      have steps : hasInputs workflow name = true := by
        rw [hasInputs, connected]
        rfl
      have inputs_eq : mainInputs workflow name = inputs := by
        rw [mainInputs, connected]
        rfl
      have new : checkedNodes.contains name = false := by simpa using fresh
      simp only [new, Bool.false_eq_true, if_false, steps, if_true]
      rw [parents, inputs_eq]
      exact getHighestNode_loop fuel inputs _ fun b key met new => ih b key met new

/-- The nodes in the order in which a depth-first search through the main inputs meets
them; nodes without main inputs are left out. -/
def metOrder (workflow : Workflow) (name : String) : List String :=
  (DepthFirst.visit (fun node => (parents workflow node).filter (hasInputs workflow))
    (workflow.nodes.size + 1) {} name).met

theorem unmet_keys_lt (met : List String) :
    DepthFirst.unmet workflow.nodes.keys met < workflow.nodes.size + 1 := by
  have bound := DepthFirst.unmet_le_length workflow.nodes.keys met
  rw [OrderedMap.keys, List.length_map] at bound
  exact Nat.lt_succ_of_le bound

theorem getHighestNode_gleaned {name : String} (member : name ∈ workflow.nodes.keys)
    (inputs : hasInputs workflow name = true) :
    ∃ new, metOrder workflow name = name :: new ∧
      Gleaned (isEnabled workflow) (parents workflow) (hasInputs workflow) (parents workflow name) [name] new
        (getHighestNode workflow (workflow.nodes.size + 1) name none []).1 := by
  have spec := @tops_searches _ (isEnabled workflow) (parents workflow) (hasInputs workflow) _ workflow.nodes.keys
    (fun _ _ _ parent => parents_mem_keys parent) (workflow.nodes.size + 1) name member []
    List.not_mem_nil List.nodup_nil (by simp) (unmet_keys_lt [])
  rw [if_pos inputs] at spec
  obtain ⟨new, met, gleaned⟩ := spec
  rw [getHighestNode_eq_tops _ name member [] List.not_mem_nil]
  refine ⟨new, ?_, gleaned⟩
  have order := @tops_met _ (isEnabled workflow) (parents workflow) _ name _ (workflow.nodes.size + 1) {}
    List.not_mem_nil inputs
  rw [metOrder, ← order]
  exact met

end

section

variable (workflow : Workflow)

/-- An enabled node above `name` with no enabled node above itself. -/
def Root (name root : String) : Prop :=
  isEnabled workflow root = true ∧ TransGen (MainParent workflow) name root ∧
    ¬ ∃ above, isEnabled workflow above = true ∧ TransGen (MainParent workflow) root above

variable {workflow}

theorem parents_eq_nil {name : String} (leaf : hasInputs workflow name = false) :
    parents workflow name = [] := by
  have unconnected : outputsOf workflow.connectionsByDestinationNode name .main = none := by
    simpa [hasInputs] using leaf
  rw [parents, mainInputs, unconnected]
  rfl

theorem transGen_of_onward {places : List String} {a b : String}
    (h : Onward (parents workflow) (hasInputs workflow) places a b) : TransGen (MainParent workflow) a b := by
  have plain : StepWithin (parents workflow) places ≤ MainParent workflow := fun _ _ step => step.1
  rcases h with path | ⟨-, c, path, step⟩
  · exact TransGen.mono plain _ _ path
  · exact .tail' (ReflTransGen.mono plain _ _ path) step

theorem transGen_iff_met {name a : String} {new gathered : List String}
    (acyclic : ∀ x, ¬ TransGen (MainParent workflow) x x)
    (gleaned : Gleaned (isEnabled workflow) (parents workflow) (hasInputs workflow) (parents workflow name)
      [name] new gathered) :
    TransGen (MainParent workflow) name a ↔ a ∈ new ∨ hasInputs workflow a = false ∧
      (a ∈ parents workflow name ∨ ∃ b ∈ new, a ∈ parents workflow b) := by
  have plain : StepWithin (parents workflow) new ≤ MainParent workflow := fun _ _ step => step.1
  have above {b : String} (met : b ∈ new) : TransGen (MainParent workflow) name b := by
    obtain ⟨t, target, -, path⟩ := gleaned.reached b met
    exact .head' target (ReflTransGen.mono plain _ _ path)
  have off {b : String} (path : TransGen (MainParent workflow) name b) : b ∉ [name] := fun here =>
    acyclic b (by rwa [← List.mem_singleton.1 here] at path)
  constructor
  · intro path
    obtain ⟨t, target, path⟩ := TransGen.head'_iff.1 path
    refine gleaned.found (fun _ => parents_eq_nil) target (off (.single target)) ?_
    have kept : TransGen (MainParent workflow) name t := .single target
    clear target
    induction path using ReflTransGen.head_induction_on with
    | refl => exact .refl
    | head step _ ih => exact .head ⟨step, off (kept.tail step)⟩ (ih (kept.tail step))
  · rintro (met | ⟨-, step | ⟨b, met, step⟩⟩)
    · exact above met
    · exact .single step
    · exact (above met).tail step

/-- The search finds exactly the roots above a node when from every other enabled node
above it one gets to an enabled node without coming to a node that was met earlier. -/
theorem getHighestNode_roots_iff (workflow : Workflow) (name : String)
    (member : name ∈ workflow.nodes.keys) (inputs : hasInputs workflow name = true)
    (acyclic : ∀ x, ¬ TransGen (MainParent workflow) x x) :
    let found := (getHighestNode workflow (workflow.nodes.size + 1) name none []).1
    (found.Nodup ∧ ∀ root, root ∈ found ↔ Root workflow name root) ↔
      ∀ node, isEnabled workflow node = true → TransGen (MainParent workflow) name node →
        (∃ above, isEnabled workflow above = true ∧ TransGen (MainParent workflow) node above) →
        ∃ above, isEnabled workflow above = true ∧ Onward (parents workflow) (hasInputs workflow)
          (metAfter (metOrder workflow name) node) node above := by
  obtain ⟨new, order, gleaned⟩ := getHighestNode_gleaned member inputs
  have above {a : String} := @transGen_iff_met workflow name a new _ acyclic gleaned
  have once : (name :: new).Nodup := gleaned.once
  have ofNew {node : String} (met : node ∈ new) :
      metAfter (metOrder workflow name) node = metAfter new node := by
    have differ : name ≠ node := fun same => (List.nodup_cons.1 once).1 (same ▸ met)
    rw [order, metAfter, metAfter, List.idxOf_cons_ne _ differ]
    rfl
  have top {node : String} := @top_iff _ (isEnabled workflow) (parents workflow) (hasInputs workflow) _ new
    (List.nodup_cons.1 once).2 node
  have bare {node : String} (leaf : hasInputs workflow node = false) :
      ¬ ∃ above, isEnabled workflow above = true ∧ TransGen (MainParent workflow) node above := by
    rintro ⟨z, -, path⟩
    obtain ⟨parent, step, -⟩ := TransGen.head'_iff.1 path
    simp [MainParent, parents_eq_nil leaf] at step
  constructor
  · rintro ⟨-, exact_⟩ node enabled path higher
    by_contra none_
    rcases above.1 path with met | ⟨leaf, -⟩
    · rw [ofNew met] at none_
      have found := (gleaned.mem node).2 ⟨enabled, .inl (top.2 ⟨met, none_⟩)⟩
      exact ((exact_ node).1 found).2.2 higher
    · exact bare leaf higher
  · intro further
    refine ⟨gleaned.nodup, fun root => ⟨fun found => ?_, ?_⟩⟩
    · rcases (gleaned.mem root).1 found with ⟨enabled, isTop | leaf⟩
      · obtain ⟨met, none_⟩ := top.1 isTop
        have path := above.2 (.inl met)
        refine ⟨enabled, path, fun higher => none_ ?_⟩
        rw [← ofNew met]
        exact further root enabled path higher
      · exact ⟨enabled, above.2 (.inr leaf), bare leaf.1⟩
    · rintro ⟨enabled, path, none_⟩
      refine (gleaned.mem root).2 ⟨enabled, (above.1 path).imp_left fun met => ?_⟩
      refine top.2 ⟨met, ?_⟩
      rintro ⟨z, enabled', onward⟩
      exact none_ ⟨z, enabled', transGen_of_onward onward⟩

theorem acyclic_of_rank (rank : String → Nat)
    (falls : ∀ name ∈ workflow.connectionsByDestinationNode.keys, ∀ parent ∈ parents workflow name,
      rank parent < rank name) : ∀ x, ¬ TransGen (MainParent workflow) x x := by
  have step {a b : String} (h : MainParent workflow a b) : rank b < rank a := by
    refine falls a ?_ b h
    by_contra missing
    have leaf : hasInputs workflow a = false := by
      rw [hasInputs, outputsOf, (OrderedMap.get_eq_none_iff _ a).2 missing]
      rfl
    simp [MainParent, parents_eq_nil leaf] at h
  have falling {a b : String} (path : TransGen (MainParent workflow) a b) : rank b < rank a := by
    induction path with
    | single h => exact step h
    | tail _ h ih => exact (step h).trans ih
  exact fun x path => Nat.lt_irrefl _ (falling path)

end

def wired (targets : List (String × List String)) : IConnections :=
  .ofList (targets.map fun (source, names) =>
    (source, .ofList [(.main, [some (names.map fun name => { node := name })])]))

def enabledNodes (targets : List (String × List String)) : Workflow :=
  Workflow.new (fun _ => none) { nodes := targets.map fun (name, _) => { name }, connections := wired targets }

/-- `Merge` gets the items of `Filter` along two branches, which both begin at `Filter`. -/
def twoBranches : Workflow :=
  enabledNodes [("Webhook", ["Filter"]), ("Filter", ["Left", "Right"]), ("Left", ["Merge"]),
    ("Right", ["Merge"]), ("Merge", [])]

def depth : String → Nat
  | "Webhook" => 0
  | "Filter" => 1
  | "Left" => 2
  | "Right" => 2
  | _ => 3

theorem twoBranches_acyclic : ∀ x, ¬ TransGen (MainParent twoBranches) x x :=
  acyclic_of_rank depth (by decide +kernel)

theorem getHighestNode_roots_iff_branch :
    let found := (getHighestNode twoBranches (twoBranches.nodes.size + 1) "Left" none []).1
    (found.Nodup ∧ ∀ root, root ∈ found ↔ Root twoBranches "Left" root) ↔
      ∀ node, isEnabled twoBranches node = true → TransGen (MainParent twoBranches) "Left" node →
        (∃ above, isEnabled twoBranches above = true ∧ TransGen (MainParent twoBranches) node above) →
        ∃ above, isEnabled twoBranches above = true ∧ Onward (parents twoBranches) (hasInputs twoBranches)
          (metAfter (metOrder twoBranches "Left") node) node above :=
  getHighestNode_roots_iff twoBranches "Left" (by decide +kernel) (by decide +kernel) twoBranches_acyclic

/-- The second branch has nothing above it that was not checked for the first one. -/
theorem twoBranches_not_roots :
    (∀ x, ¬ TransGen (MainParent twoBranches) x x) ∧ hasInputs twoBranches "Merge" = true ∧
      ¬ ((getHighestNode twoBranches (twoBranches.nodes.size + 1) "Merge" none []).1.Nodup ∧
        ∀ root, root ∈ (getHighestNode twoBranches (twoBranches.nodes.size + 1) "Merge" none []).1 ↔
          Root twoBranches "Merge" root) := by
  refine ⟨twoBranches_acyclic, by decide +kernel, fun ⟨_, roots⟩ => ?_⟩
  have found : "Right" ∈ (getHighestNode twoBranches (twoBranches.nodes.size + 1) "Merge" none []).1 := by
    decide +kernel
  have step : MainParent twoBranches "Right" "Filter" := by
    rw [MainParent]
    decide +kernel
  exact ((roots "Right").1 found).2.2 ⟨"Filter", by decide +kernel, .single step⟩

end NodeAutomation.ExecutionLoop
