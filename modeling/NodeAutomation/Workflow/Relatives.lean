import NodeAutomation.Workflow.ConnectedWithin
import NodeAutomation.Workflow.Workflow

/-! Parents and children: `getParentNodes` reads the index by destination, `getChildNodes` the one
by source, and while the two are in step they tell the same of any two nodes. -/

namespace NodeAutomation.Workflow
open Connections ConnectedNodes

/-- The filter treats both ends of a connection alike. -/
def FiltersAlike (workflow : Workflow) (filter : ConnectionFilter) : Prop :=
  ∀ link ∈ links workflow.connectionsBySourceNode, filter.Admits link.type ↔ filter.Admits link.target.type

variable {workflow : Workflow} {filter : ConnectionFilter}

theorem next_byDestination_iff (inStep : workflow.InStep) (alike : workflow.FiltersAlike filter) (a b : String) :
    Next workflow.connectionsByDestinationNode filter b a ↔ Next workflow.connectionsBySourceNode filter a b := by
  have stored (link : Link) : link ∈ links workflow.connectionsByDestinationNode ↔
      ⟨link.target.node, link.target.type, link.target.index, link.origin⟩ ∈
        links workflow.connectionsBySourceNode := by
    rw [mem_links_iff_mem_bucket, (inStep.bucket_perm link.origin).mem_iff, mem_bucket_iff]
  simp only [next_iff]
  constructor
  · rintro ⟨link, member, rfl, admitted, rfl⟩
    rw [stored] at member
    exact ⟨_, member, rfl, (alike _ member).2 admitted, rfl⟩
  · rintro ⟨link, member, rfl, admitted, rfl⟩
    exact ⟨⟨link.target.node, link.target.type, link.target.index, link.origin⟩, (stored _).2 member, rfl,
      (alike _ member).1 admitted, rfl⟩

/-- One node is above another within so many steps just where that one is below it. -/
theorem mem_getParentNodes_iff (inStep : workflow.InStep) (alike : workflow.FiltersAlike filter)
    (depth : Int) (a b : String) :
    a ∈ workflow.getParentNodes b filter depth ↔ b ∈ workflow.getChildNodes a filter depth := by
  have swapped (k : Nat) : Hops (Next workflow.connectionsByDestinationNode filter) k b a ↔
      Hops (Next workflow.connectionsBySourceNode filter) k a b :=
    ⟨.swap fun x y => (next_byDestination_iff inStep alike y x).1,
      .swap fun x y => (next_byDestination_iff inStep alike x y).2⟩
  rw [getParentNodes, getChildNodes, mem_getConnectedNodes_within, mem_getConnectedNodes_within, ne_comm]
  simp only [Within, swapped]

theorem mem_getParentNodes_tool :
    let workflow := new (fun _ => none) ⟨[{ name := "Tool" }, { name := "Agent" }],
      .ofList [("Tool", .ofList [(.aiTool, [some [⟨"Agent", .aiTool, 0⟩]])])], none, none⟩
    "Tool" ∈ workflow.getParentNodes "Agent" .all 1 ↔
      "Agent" ∈ workflow.getChildNodes "Tool" .all 1 :=
  mem_getParentNodes_iff (new_inStep _ _) (fun _ _ => Iff.rfl) 1 "Tool" "Agent"

end NodeAutomation.Workflow
