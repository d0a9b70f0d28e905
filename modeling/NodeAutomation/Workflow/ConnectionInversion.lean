import NodeAutomation.Workflow.Connections
import Mathlib.Data.List.Count

/-! The index by destination loses no connection, makes none up and keeps every
repetition: it is the index by source read backwards. -/

namespace NodeAutomation.Connections

/-- The connection as the other index stores it. -/
def Link.reversed (link : Link) : Link :=
  ⟨link.target.node, link.target.type, link.target.index, link.origin⟩

theorem Link.reversed_reversed (link : Link) : link.reversed.reversed = link := rfl

theorem Link.reversed_injective : Function.Injective Link.reversed := by
  intro a b same
  rw [← a.reversed_reversed, same, b.reversed_reversed]

theorem count_flatMap_entries {κ ν β : Type*} [DecidableEq κ] [DecidableEq β]
    (map : OrderedMap κ ν) (f : κ × ν → List β) (k : κ) (x : β)
    (elsewhere : ∀ entry, entry.1 ≠ k → x ∉ f entry) :
    (map.entries.flatMap f).count x = ((map.get k).map fun v => (f (k, v)).count x).getD 0 := by
  obtain ⟨entries, nodup⟩ := map
  change (entries.flatMap f).count x =
    ((OrderedMap.lookup k entries).map fun v => (f (k, v)).count x).getD 0
  induction entries with
  | nil => rfl
  | cons entry rest ih =>
    obtain ⟨key, v⟩ := entry
    rw [List.map_cons, List.nodup_cons] at nodup
    rw [List.flatMap_cons, List.count_append, ih nodup.2]
    by_cases here : key = k
    · subst here
      have gone : OrderedMap.lookup key rest = none := by
        rw [← OrderedMap.lookup_eq_none_iff] at nodup
        exact nodup.1
      simp [OrderedMap.lookup, gone]
    · rw [List.count_eq_zero.2 (elsewhere (key, v) here), Nat.zero_add]
      simp [OrderedMap.lookup, here]

theorem count_flatMap_zipIdx {α β : Type*} [DecidableEq β] (groups : List α)
    (f : α × Nat → List β) (index : Nat) (x : β)
    (elsewhere : ∀ group, group.2 ≠ index → x ∉ f group) (start : Nat) (reached : start ≤ index) :
    ((groups.zipIdx start).flatMap f).count x =
      (groups[index - start]?.map fun group => (f (group, index)).count x).getD 0 := by
  induction groups generalizing start with
  | nil => rfl
  | cons group groups ih =>
    rw [List.zipIdx_cons, List.flatMap_cons, List.count_append]
    rcases Nat.eq_or_lt_of_le reached with here | later
    · subst here
      have none_after : ((groups.zipIdx (start + 1)).flatMap f).count x = 0 := by
        rw [List.count_eq_zero, List.mem_flatMap]
        rintro ⟨entry, member, found⟩
        have after := List.le_snd_of_mem_zipIdx member
        exact elsewhere entry (by omega) found
      simp [none_after]
    · rw [List.count_eq_zero.2 (elsewhere (group, start) (by simp; omega)), Nat.zero_add,
        ih (start + 1) later]
      obtain ⟨further, eq⟩ : ∃ further, index - start = further + 1 := ⟨index - start - 1, by omega⟩
      rw [eq, List.getElem?_cons_succ, show index - (start + 1) = further by omega]

theorem count_linksOfOutputs (link : Link) (outputs : NodeInputConnections) :
    (linksOfOutputs link.source link.type outputs).count link =
      ((outputs[link.outputIndex]?.join).getD []).count link.target := by
  rw [linksOfOutputs, count_flatMap_zipIdx outputs _ link.outputIndex link ?_ 0 (Nat.zero_le _)]
  · rw [Nat.sub_zero]
    have pointed (group : List IConnection) :
        (group.map fun target => (⟨link.source, link.type, link.outputIndex, target⟩ : Link)).count
          link = group.count link.target :=
      List.count_map_of_injective group _ (fun _ _ same => (Link.mk.inj same).2.2.2) link.target
    cases outputs[link.outputIndex]? with
    | none => rfl
    | some group =>
      cases group with
      | none => rfl
      | some group => exact pointed group
  · intro group other member
    simp only [List.mem_map] at member
    obtain ⟨target, -, eq⟩ := member
    exact other (congrArg Link.outputIndex eq)

theorem count_links (connections : IConnections) (link : Link) :
    (links connections).count link = (bucket connections link.origin).count link.target := by
  have ofNode (byType : INodeConnections) : (linksOfNode link.source byType).count link =
      ((((byType.get link.type).getD [])[link.outputIndex]?.join).getD []).count link.target := by
    rw [linksOfNode, count_flatMap_entries byType _ link.type link]
    · cases byType.get link.type with
      | none => rfl
      | some outputs => exact count_linksOfOutputs link outputs
    · intro entry other member
      exact other (mem_linksOfOutputs.1 member).2.1.symm
  rw [links, count_flatMap_entries connections _ link.source link, bucket_eq, outputsOf]
  · change _ = ((((connections.get link.source).bind (·.get link.type)).getD
      [])[link.outputIndex]?.join.getD []).count link.target
    cases connections.get link.source with
    | none => rfl
    | some byType => exact ofNode byType
  · intro entry other member
    simp only [linksOfNode, List.mem_flatMap] at member
    obtain ⟨_, -, found⟩ := member
    exact other (mem_linksOfOutputs.1 found).1.symm

theorem count_bucket_mapConnectionsByDestination (connections : IConnections)
    (target origin : IConnection) :
    (bucket (mapConnectionsByDestination connections) target).count origin =
      (links connections).count ⟨origin.node, origin.type, origin.index, target⟩ := by
  rw [bucket_mapConnectionsByDestination]
  induction links connections with
  | nil => rfl
  | cons link rest ih =>
    rw [List.count_cons, ← ih]
    by_cases hit : link.target = target
    · have same : (link == ⟨origin.node, origin.type, origin.index, target⟩) =
          (link.origin == origin) := by
        rw [beq_eq_decide, beq_eq_decide, decide_eq_decide]
        constructor
        · rintro rfl
          rfl
        · rintro rfl
          rw [← hit]
          rfl
      rw [List.filter_cons_of_pos (by simpa using hit), List.map_cons, List.count_cons, same]
    · have other : (link == ⟨origin.node, origin.type, origin.index, target⟩) = false := by
        rw [beq_eq_false_iff_ne]
        rintro rfl
        exact hit rfl
      rw [List.filter_cons_of_neg (by simpa using hit), other]
      rfl

theorem links_mapConnectionsByDestination (connections : IConnections) :
    (links (mapConnectionsByDestination connections)).Perm
      ((links connections).map Link.reversed) := by
  rw [List.perm_iff_count]
  intro link
  rw [count_links, count_bucket_mapConnectionsByDestination]
  have counted := List.count_map_of_injective (links connections) _ Link.reversed_injective
    link.reversed
  rw [link.reversed_reversed] at counted
  exact counted.symm

/-- The index by destination has each connection under its target, pointing back
to its source, as often as the connections have it, and nothing else; inverting
it again gives the connections back. -/
theorem mapConnectionsByDestination_lossless (connections : IConnections) :
    (∀ link : Link, (bucket (mapConnectionsByDestination connections) link.target).count
        link.origin = (bucket connections link.origin).count link.target) ∧
      (links (mapConnectionsByDestination connections)).Perm
        ((links connections).map Link.reversed) ∧
      (links (mapConnectionsByDestination (mapConnectionsByDestination connections))).Perm
        (links connections) := by
  refine ⟨fun link => ?_, links_mapConnectionsByDestination connections, ?_⟩
  · rw [count_bucket_mapConnectionsByDestination]
    exact count_links connections link
  · have twice := (links_mapConnectionsByDestination connections).map Link.reversed
    rw [List.map_map] at twice
    have identity : Link.reversed ∘ Link.reversed = id := funext Link.reversed_reversed
    rw [identity, List.map_id] at twice
    exact (links_mapConnectionsByDestination _).trans twice

end NodeAutomation.Connections
