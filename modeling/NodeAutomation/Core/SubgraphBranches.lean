import NodeAutomation.Core.CleanRunData
import NodeAutomation.Lib.EdgeWalks
import Mathlib.Data.List.Induction

/-! Which connections `findSubgraph` keeps
(`packages/core/src/execution-engine/partial-execution-utils/find-subgraph.ts`). A branch is followed
from the destination against the connections. It is kept where it comes to the trigger, but also
where it comes to a node a second time. -/

namespace NodeAutomation.SubgraphBranches

open DirectedGraph EdgeWalks Fallible

/-- Connections of the type `Main` that lead from one node to another. -/
def MainWalk (graph : DirectedGraph) (a : INode) (walk : List GraphConnection) (b : INode) : Prop :=
  Leads (·.fromNode) (·.toNode) a walk b ∧ ∀ c ∈ walk, c ∈ graph.getConnections ∧ c.type = .main

/-- The trigger is passed at the start only, and the destination at the end only. -/
def Inner (trigger destination : INode) (walk : List GraphConnection) : Prop :=
  ∀ c ∈ walk, c.toNode ≠ trigger ∧ c.fromNode ≠ destination

instance (graph : DirectedGraph) (a b : INode) (walk : List GraphConnection) : Decidable (MainWalk graph a walk b) :=
  inferInstanceAs (Decidable (_ ∧ ∀ c ∈ walk, _ ∧ _))

instance (trigger destination : INode) (walk : List GraphConnection) : Decidable (Inner trigger destination walk) :=
  inferInstanceAs (Decidable (∀ c ∈ walk, _ ∧ _))

def Between (graph : DirectedGraph) (trigger destination : INode) (connection : GraphConnection) : Prop :=
  ∃ before after, MainWalk graph trigger (before ++ connection :: after) destination ∧
    Inner trigger destination (before ++ connection :: after)

/-- The `Main` part of the result is what lies between, and can be reached in the result itself. -/
structure KeepsBetween (graph : DirectedGraph) (trigger destination : INode) (result : DirectedGraph) : Prop where
  between : ∀ c, c.type = .main → (c ∈ result.getConnections ↔ Between graph trigger destination c)
  reached : ∀ c ∈ result.getConnections, c.type = .main →
    (∃ walk, MainWalk result trigger walk c.fromNode) ∧ ∃ walk, MainWalk result trigger walk c.toNode

def CyclesReached (graph : DirectedGraph) (trigger destination : INode) : Prop :=
  ∀ node, (∃ cycle, cycle ≠ [] ∧ MainWalk graph node cycle node ∧ Inner trigger destination cycle) →
    (∃ walk, MainWalk graph node walk destination ∧ Inner trigger destination walk) →
    ∃ walk, MainWalk graph trigger walk node ∧ Inner trigger destination walk

variable {graph part next result : DirectedGraph} {trigger destination current : INode}
  {branch whole connections : List GraphConnection} {c connection : GraphConnection}

inductive Kept (graph : DirectedGraph) (trigger destination : INode) :
    INode → List GraphConnection → List GraphConnection → Prop where
  | trigger {current : INode} {branch : List GraphConnection} : current = trigger →
    Kept graph trigger destination current branch branch
  | cycle {current : INode} {branch : List GraphConnection} : current ≠ trigger → current ≠ destination →
    (∃ c ∈ branch, c.toNode = current) → Kept graph trigger destination current branch branch
  | step {current : INode} {branch whole : List GraphConnection} {connection : GraphConnection} :
    current ≠ trigger → (∀ c ∈ branch, c.toNode ≠ current) → connection ∈ graph.getConnections →
    connection.type = .main → connection.toNode = current →
    Kept graph trigger destination connection.fromNode (branch ++ [connection]) whole →
    Kept graph trigger destination current branch whole

section

theorem kept_trigger_iff (same : current = trigger) : Kept graph trigger destination current branch whole ↔ whole = branch := by
  constructor
  · intro kept
    cases kept with
    | trigger => rfl
    | cycle other => exact absurd same other
    | step other => exact absurd same other
  · intro equal
    exact equal ▸ .trigger same

theorem kept_cycle_iff (other : current ≠ trigger) (met : ∃ c ∈ branch, c.toNode = current) :
    Kept graph trigger destination current branch whole ↔ current ≠ destination ∧ whole = branch := by
  constructor
  · intro kept
    cases kept with
    | trigger same => exact absurd same other
    | cycle _ elsewhere => exact ⟨elsewhere, rfl⟩
    | step _ new =>
      obtain ⟨c, member, into⟩ := met
      exact absurd into (new c member)
  · intro h
    rw [h.2]
    exact .cycle other h.1 met

theorem kept_step_iff (other : current ≠ trigger) (new : ∀ c ∈ branch, c.toNode ≠ current) :
    Kept graph trigger destination current branch whole ↔
      ∃ connection ∈ graph.getConnections.filter (·.toNode = current), connection.type = .main ∧
        Kept graph trigger destination connection.fromNode (branch ++ [connection]) whole := by
  simp only [List.mem_filter, decide_eq_true_eq]
  constructor
  · intro kept
    cases kept with
    | trigger same => exact absurd same other
    | cycle _ _ met =>
      obtain ⟨c, member, into⟩ := met
      exact absurd into (new c member)
    | step _ _ real main into further => exact ⟨_, ⟨real, into⟩, main, further⟩
  · intro h
    obtain ⟨connection, ⟨real, into⟩, main, further⟩ := h
    exact .step other new real main into further

end

def Inside (graph part : DirectedGraph) : Prop := ∀ c ∈ part.getConnections, c ∈ graph.getConnections

theorem getConnections_addNodes (part : DirectedGraph) (nodes : List INode) :
    (part.addNodes nodes).getConnections = part.getConnections := by
  rw [getConnections, connections_addNodes]
  rfl

theorem mem_of_addWithNodes (inside : Inside graph part) (real : connection ∈ graph.getConnections)
    (went : part.addWithNodes connection = .ok next) :
    c ∈ next.getConnections ↔ c = connection ∨ c ∈ part.getConnections := by
  obtain ⟨_, rfl⟩ := (addConnection_eq_ok_iff _ _ _).1 went
  have separate : Separate fun c => c ∈ graph.getConnections := fun a b ha hb same => eq_of_makeKey_eq ha hb same
  have before := getConnections_addNodes part [connection.fromNode, connection.toNode]
  have members := mem_setConnection_of_separate separate (by rw [before]; exact inside) real c
  rw [before] at members
  exact members

theorem mem_of_foldlM_addWithNodes (inside : Inside graph part) (real : ∀ c ∈ connections, c ∈ graph.getConnections)
    (went : connections.foldlM addWithNodes part = .ok next) :
    Inside graph next ∧ ∀ c, c ∈ next.getConnections ↔ c ∈ part.getConnections ∨ c ∈ connections := by
  refine foldlM_kept (P := fun visited now => Inside graph now ∧
    ∀ c, c ∈ now.getConnections ↔ c ∈ part.getConnections ∨ c ∈ visited) went ⟨inside, fun c => by simp⟩ ?_
  intro visited connection now after member held step
  have members (c : GraphConnection) : c ∈ after.getConnections ↔ c = connection ∨ c ∈ now.getConnections :=
    mem_of_addWithNodes held.1 (real connection member) step
  refine ⟨fun c there => ?_, fun c => ?_⟩
  · cases (members c).1 there with
    | inl same => exact same ▸ real connection member
    | inr old => exact held.1 c old
  · rw [members, held.2, List.mem_append, List.mem_singleton]
    tauto

structure KeepsBranches (graph : DirectedGraph) (trigger destination current : INode) (branch : List GraphConnection)
    (part next : DirectedGraph) : Prop where
  inside : Inside graph next
  members : ∀ c, c ∈ next.getConnections ↔ c ∈ part.getConnections ∨
    ∃ whole, Kept graph trigger destination current branch whole ∧ c ∈ whole

theorem keepBranch_keeps (inside : Inside graph part) (real : ∀ c ∈ branch, c ∈ graph.getConnections)
    (kept : ∀ whole, Kept graph trigger destination current branch whole ↔ whole = branch)
    (went : keepBranch part branch = .ok next) :
    KeepsBranches graph trigger destination current branch part next := by
  obtain ⟨inside', members⟩ := mem_of_foldlM_addWithNodes inside real went
  refine ⟨inside', fun c => ?_⟩
  simp only [members, kept, exists_eq_left]

theorem findSubgraphRecursive_keeps {fuel : Nat} (inside : Inside graph part)
    (real : ∀ c ∈ branch, c ∈ graph.getConnections)
    (went : graph.findSubgraphRecursive destination trigger fuel current part branch = .ok next) :
    KeepsBranches graph trigger destination current branch part next := by
  induction fuel generalizing current part branch next with
  | zero => cases went
  | succ fuel ih =>
    have nothing (none : ∀ whole, ¬ Kept graph trigger destination current branch whole) :
        KeepsBranches graph trigger destination current branch part part := ⟨inside, fun c => by simp [none]⟩
    rw [findSubgraphRecursive] at went
    split at went
    case isTrue same =>
      have kept := @keepBranch_keeps graph (part.addNode trigger) next trigger destination current branch inside real
        (fun whole => kept_trigger_iff same) went
      exact ⟨kept.inside, kept.members⟩
    case isFalse other =>
      obtain ⟨parents, direct, went⟩ := (bind_eq_ok_iff _ _ _).1 went
      cases ((getDirectParentConnections_eq_ok_iff graph current _).1 direct).2
      have met_iff : (branch.any fun c => c.toNode = current) = true ↔ ∃ c ∈ branch, c.toNode = current := by
        simp [List.any_eq_true]
      have new_of (absent : ¬ ∃ c ∈ branch, c.toNode = current) : ∀ c ∈ branch, c.toNode ≠ current :=
        fun c member into => absent ⟨c, member, into⟩
      split at went
      case isTrue empty =>
        cases went
        refine nothing fun whole kept => ?_
        by_cases met : ∃ c ∈ branch, c.toNode = current
        · obtain ⟨c, member, into⟩ := met
          have parent : c ∈ graph.getConnections.filter (·.toNode = current) :=
            List.mem_filter.2 ⟨real c member, decide_eq_true into⟩
          simp [empty] at parent
        · obtain ⟨c, parent, _⟩ := (kept_step_iff other (new_of met)).1 kept
          simp [empty] at parent
      case isFalse =>
        split at went
        case isTrue back =>
          cases went
          exact nothing fun whole kept => ((kept_cycle_iff other (met_iff.1 (back.1 ▸ back.2))).1 kept).1 back.1
        case isFalse notBack =>
          split at went
          case isTrue met =>
            have elsewhere : current ≠ destination := fun same => notBack ⟨same, same ▸ met⟩
            refine keepBranch_keeps inside real (fun whole => ?_) went
            rw [kept_cycle_iff other (met_iff.1 met)]
            exact and_iff_right elsewhere
          case isFalse absent =>
            have new := new_of fun met => absent (met_iff.2 met)
            have loop := foldlM_kept (P := fun visited now => Inside graph now ∧ ∀ c, c ∈ now.getConnections ↔
              c ∈ part.getConnections ∨ ∃ connection ∈ visited, connection.type = .main ∧
                ∃ whole, Kept graph trigger destination connection.fromNode (branch ++ [connection]) whole ∧ c ∈ whole)
              went ⟨inside, fun c => by simp⟩ ?_
            · refine ⟨loop.1, fun c => (loop.2 c).trans (or_congr_right ?_)⟩
              simp only [kept_step_iff other new]
              constructor
              · intro h
                obtain ⟨connection, parent, main, whole, kept, inWhole⟩ := h
                exact ⟨whole, ⟨connection, parent, main, kept⟩, inWhole⟩
              · intro h
                obtain ⟨whole, ⟨connection, parent, main, kept⟩, inWhole⟩ := h
                exact ⟨connection, parent, main, whole, kept, inWhole⟩
            · intro visited connection now after member held step
              have there := (List.mem_filter.1 member).1
              split at step
              case isTrue notMain =>
                cases step
                refine ⟨held.1, fun c => (held.2 c).trans (or_congr_right ?_)⟩
                simp [or_and_right, exists_or, notMain]
              case isFalse main =>
                have realNext : ∀ c ∈ branch ++ [connection], c ∈ graph.getConnections := fun c inside =>
                  (List.mem_append.1 inside).elim (real c) fun same => List.mem_singleton.1 same ▸ there
                have keeps := ih held.1 realNext step
                refine ⟨keeps.inside, fun c => ?_⟩
                rw [keeps.members, held.2, or_assoc]
                refine or_congr_right ?_
                simp [or_and_right, exists_or, not_not.1 main]

theorem addUtilityNodes_keeps {node : INode} (inside : Inside graph part)
    (went : graph.addUtilityNodes part node = .ok next) :
    Inside graph next ∧ ∀ c, c.type = .main → (c ∈ next.getConnections ↔ c ∈ part.getConnections) := by
  obtain ⟨parents, climbed, went⟩ := (bind_eq_ok_iff _ _ _).1 went
  have real : ∀ c ∈ parents.filter (·.type ≠ .main), c ∈ graph.getConnections := fun c member =>
    ((getParentConnectionsRecursive_leads climbed c (List.mem_filter.1 member).1).resolve_left List.not_mem_nil).1
  obtain ⟨inside', members⟩ := mem_of_foldlM_addWithNodes inside real went
  refine ⟨inside', fun c main => ?_⟩
  rw [members]
  refine or_iff_left fun member => ?_
  exact of_decide_eq_true (List.mem_filter.1 member).2 main

theorem findSubgraph_members (went : graph.findSubgraph destination trigger = .ok result) (main : c.type = .main) :
    c ∈ result.getConnections ↔ ∃ whole, Kept graph trigger destination destination [] whole ∧ c ∈ whole := by
  obtain ⟨branches, found, went⟩ := (bind_eq_ok_iff _ _ _).1 went
  have keeps : KeepsBranches graph trigger destination destination [] {} branches :=
    findSubgraphRecursive_keeps (fun _ never => absurd never List.not_mem_nil)
      (fun _ never => absurd never List.not_mem_nil) found
  have loop := foldlM_kept (P := fun _ now => Inside graph now ∧
    ∀ c, c.type = .main → (c ∈ now.getConnections ↔ c ∈ branches.getConnections)) went
    ⟨keeps.inside, fun _ _ => Iff.rfl⟩ fun _ _ _ _ _ held step => by
      obtain ⟨inside, members⟩ := addUtilityNodes_keeps held.1 step
      exact ⟨inside, fun c main => (members c main).trans (held.2 c main)⟩
  rw [loop.2 c main, keeps.members]
  exact or_iff_right List.not_mem_nil

section

variable {a b d : INode} {walk more : List GraphConnection}

structure InnerWalk (graph : DirectedGraph) (trigger destination a : INode) (walk : List GraphConnection) (b : INode) :
    Prop where
  main : MainWalk graph a walk b
  inner : Inner trigger destination walk

theorem innerWalk_append : InnerWalk graph trigger destination a (walk ++ more) b ↔
    ∃ d, InnerWalk graph trigger destination a walk d ∧ InnerWalk graph trigger destination d more b := by
  constructor
  · intro h
    obtain ⟨d, first, last⟩ := leads_append.1 h.main.1
    have members := List.forall_mem_append.1 h.main.2
    have places := List.forall_mem_append.1 h.inner
    exact ⟨d, ⟨⟨first, members.1⟩, places.1⟩, ⟨⟨last, members.2⟩, places.2⟩⟩
  · intro h
    obtain ⟨d, first, last⟩ := h
    exact ⟨⟨leads_append.2 ⟨d, first.main.1, last.main.1⟩, List.forall_mem_append.2 ⟨first.main.2, last.main.2⟩⟩,
      List.forall_mem_append.2 ⟨first.inner, last.inner⟩⟩

theorem innerWalk_cons : InnerWalk graph trigger destination a (c :: walk) b ↔
    (c ∈ graph.getConnections ∧ c.type = .main) ∧ (c.toNode ≠ trigger ∧ c.fromNode ≠ destination) ∧ c.fromNode = a ∧
      InnerWalk graph trigger destination c.toNode walk b := by
  constructor
  · intro h
    have members := List.forall_mem_cons.1 h.main.2
    have places := List.forall_mem_cons.1 h.inner
    exact ⟨members.1, places.1, h.main.1.1, ⟨h.main.1.2, members.2⟩, places.2⟩
  · intro h
    obtain ⟨member, place, from_, rest⟩ := h
    exact ⟨⟨⟨from_, rest.main.1⟩, List.forall_mem_cons.2 ⟨member, rest.main.2⟩⟩, List.forall_mem_cons.2 ⟨place, rest.inner⟩⟩

theorem innerWalk_nil : InnerWalk graph trigger destination a [] a :=
  ⟨⟨rfl, fun _ never => absurd never List.not_mem_nil⟩, fun _ never => absurd never List.not_mem_nil⟩

section

variable (h : InnerWalk graph trigger destination a walk b)
include h

theorem InnerWalk.shortcut :
    ∃ short, InnerWalk graph trigger destination a short b ∧ (a :: short.map (·.toNode)).Nodup := by
  obtain ⟨short, leads, members, once⟩ := h.main.1.shortcut
  exact ⟨short, ⟨⟨leads, fun c member => h.main.2 c (members c member)⟩, fun c member => h.inner c (members c member)⟩, once⟩

theorem InnerWalk.last (some : walk ≠ []) : ∃ c ∈ walk, c.toNode = b := by
  obtain ⟨before, c, rfl⟩ := (List.eq_nil_or_concat' walk).resolve_left some
  exact ⟨c, List.mem_append_right _ List.mem_cons_self, (leads_concat.1 h.main.1).2⟩

theorem InnerWalk.ne_trigger (other : a ≠ trigger) : b ≠ trigger := by
  by_cases empty : walk = []
  · cases empty
    have same : a = b := h.main.1
    exact same ▸ other
  · obtain ⟨c, member, into⟩ := h.last empty
    exact into ▸ (h.inner c member).1

end

theorem between_of_mem (h : InnerWalk graph trigger destination trigger walk destination) (member : c ∈ walk) :
    Between graph trigger destination c := by
  obtain ⟨before, after, rfl⟩ := List.append_of_mem member
  exact ⟨before, after, h.main, h.inner⟩

end

theorem kept_of_once {x : INode} (leads : InnerWalk graph trigger destination x branch.reverse destination)
    (once : (branch.map (·.toNode)).Nodup) (kept : Kept graph trigger destination x branch whole) :
    Kept graph trigger destination destination [] whole := by
  induction branch using List.reverseRecOn generalizing x with
  | nil =>
    have same : x = destination := leads.main.1
    exact same ▸ kept
  | append_singleton branch connection ih =>
    rw [List.reverse_append, List.reverse_singleton, List.singleton_append, innerWalk_cons] at leads
    obtain ⟨⟨real, main⟩, place, rfl, rest⟩ := leads
    rw [List.map_append, List.nodup_append] at once
    obtain ⟨before, _, apart⟩ := once
    refine ih rest before (.step place.1 (fun c member => ?_) real main rfl kept)
    exact apart _ (List.mem_map_of_mem member) _ List.mem_cons_self

theorem kept_of_upward {last : INode} {upward : List GraphConnection}
    (leads : Leads (·.fromNode) (·.toNode) last upward.reverse current)
    (allowed : ∀ c ∈ upward, (c ∈ graph.getConnections ∧ c.type = .main) ∧ c.fromNode ≠ destination)
    (elsewhere : current ≠ destination) (stops : last = trigger ∨ ∃ c ∈ branch ++ upward, c.toNode = last) :
    ∃ whole, Kept graph trigger destination current branch whole ∧ ∀ c ∈ branch, c ∈ whole := by
  induction upward generalizing current branch with
  | nil =>
    have equal : last = current := leads
    rw [List.append_nil, equal] at stops
    by_cases same : current = trigger
    · exact ⟨branch, .trigger same, fun _ member => member⟩
    · exact ⟨branch, .cycle same elsewhere (stops.resolve_left same), fun _ member => member⟩
  | cons connection upward ih =>
    by_cases same : current = trigger
    · exact ⟨branch, .trigger same, fun _ member => member⟩
    by_cases met : ∃ c ∈ branch, c.toNode = current
    · exact ⟨branch, .cycle same elsewhere met, fun _ member => member⟩
    rw [List.reverse_cons] at leads
    obtain ⟨before, into⟩ := leads_concat.1 leads
    obtain ⟨⟨⟨real, main⟩, place⟩, rest⟩ := List.forall_mem_cons.1 allowed
    have further : branch ++ connection :: upward = (branch ++ [connection]) ++ upward := by simp
    obtain ⟨whole, kept, members⟩ := ih before rest place (further ▸ stops)
    exact ⟨whole, .step same (fun c member to_ => met ⟨c, member, to_⟩) real main into kept,
      fun c member => members c (List.mem_append_left _ member)⟩

theorem Kept.walk (kept : Kept graph trigger destination current branch whole)
    (leads : InnerWalk graph trigger destination current branch.reverse destination) :
    ∃ x, InnerWalk graph trigger destination x whole.reverse destination ∧ (x = trigger ∨ ∃ c ∈ whole, c.toNode = x) := by
  induction kept with
  | trigger same => exact ⟨_, leads, .inl same⟩
  | cycle _ _ met => exact ⟨_, leads, .inr met⟩
  | @step current branch whole connection other new real main into further ih =>
    have elsewhere : connection.fromNode ≠ destination := fun back => by
      have apart := leads.ne_trigger other
      have reached : ∃ c ∈ branch ++ [connection], c.toNode = connection.fromNode := by
        by_cases empty : branch = []
        · cases empty
          have start : current = destination := leads.main.1
          exact ⟨connection, List.mem_cons_self, into.trans (start.trans back.symm)⟩
        · obtain ⟨c, member, to_⟩ := leads.last (fun none => empty (List.reverse_eq_nil_iff.1 none))
          exact ⟨c, List.mem_append_left _ (List.mem_reverse.1 member), to_.trans back.symm⟩
      rw [kept_cycle_iff (back ▸ apart) reached] at further
      exact further.1 back
    refine ih ?_
    rw [List.reverse_append, List.reverse_singleton, List.singleton_append, innerWalk_cons]
    exact ⟨⟨real, main⟩, ⟨into ▸ other, elsewhere⟩, rfl, into ▸ leads⟩

theorem exists_kept_through {start : INode} {before after : List GraphConnection}
    (first : InnerWalk graph trigger destination start before c.fromNode)
    (real : c ∈ graph.getConnections ∧ c.type = .main) (place : c.toNode ≠ trigger ∧ c.fromNode ≠ destination)
    (onward : InnerWalk graph trigger destination c.toNode after destination)
    (stops : start = trigger ∨ c.toNode = start) :
    ∃ whole, Kept graph trigger destination destination [] whole ∧ c ∈ whole := by
  obtain ⟨short, straight, once⟩ := onward.shortcut
  have allowed : ∀ d ∈ before.reverse, (d ∈ graph.getConnections ∧ d.type = .main) ∧ d.fromNode ≠ destination :=
    fun d there => ⟨first.main.2 d (List.mem_reverse.1 there), (first.inner d (List.mem_reverse.1 there)).2⟩
  have here : c ∈ (c :: short).reverse := List.mem_reverse.2 List.mem_cons_self
  have upwards : Leads (·.fromNode) (·.toNode) start before.reverse.reverse c.fromNode := by
    rw [List.reverse_reverse]
    exact first.main.1
  obtain ⟨whole, kept, members⟩ := kept_of_upward upwards allowed place.2
    (stops.imp_right fun closes => ⟨c, List.mem_append_left _ here, closes⟩)
  refine ⟨whole, kept_of_once ?_ ?_ kept, members c here⟩
  · rw [List.reverse_reverse]
    exact innerWalk_cons.2 ⟨real, place, rfl, straight⟩
  · rw [List.map_reverse, List.nodup_reverse]
    exact once

theorem exists_kept_of_between (between : Between graph trigger destination c) :
    ∃ whole, Kept graph trigger destination destination [] whole ∧ c ∈ whole := by
  obtain ⟨before, after, main, inner⟩ := between
  obtain ⟨x, first, last⟩ := innerWalk_append.1 ⟨main, inner⟩
  obtain ⟨member, place, rfl, onward⟩ := innerWalk_cons.1 last
  exact exists_kept_through first member place onward (.inl rfl)

theorem between_of_kept (reached : CyclesReached graph trigger destination)
    (kept : Kept graph trigger destination destination [] whole) (member : c ∈ whole) :
    Between graph trigger destination c := by
  obtain ⟨x, walk, ends⟩ := kept.walk innerWalk_nil
  have inside := List.mem_reverse.2 member
  cases ends with
  | inl same => exact between_of_mem (same ▸ walk) inside
  | inr met =>
    obtain ⟨d, there, rfl⟩ := met
    obtain ⟨before, after, split⟩ := List.append_of_mem (List.mem_reverse.2 there)
    have parts := walk
    rw [split, innerWalk_append] at parts
    obtain ⟨y, first, last⟩ := parts
    obtain ⟨real, place, rfl, onward⟩ := innerWalk_cons.1 last
    have cycle : InnerWalk graph trigger destination d.toNode (before ++ [d]) d.toNode :=
      innerWalk_append.2 ⟨_, first, innerWalk_cons.2 ⟨real, place, rfl, innerWalk_nil⟩⟩
    obtain ⟨way, main, inner⟩ := reached d.toNode ⟨_, by simp, cycle.main, cycle.inner⟩ ⟨after, onward.main, onward.inner⟩
    have whole_ := innerWalk_append.2 ⟨_, ⟨main, inner⟩, walk⟩
    exact between_of_mem whole_ (List.mem_append_right _ inside)

theorem exists_kept_of_cycle {node : INode} {cycle walk : List GraphConnection}
    (round : InnerWalk graph trigger destination node (cycle ++ [connection]) node)
    (onward : InnerWalk graph trigger destination node walk destination) :
    ∃ whole, Kept graph trigger destination destination [] whole ∧ connection ∈ whole := by
  obtain ⟨x, first, last⟩ := innerWalk_append.1 round
  obtain ⟨member, place, rfl, closes⟩ := innerWalk_cons.1 last
  have into : connection.toNode = node := closes.main.1
  exact exists_kept_through first member place (into ▸ onward) (.inr into)

/-! Between trigger and destination, and nothing else -/

theorem reached_of_between (kept : ∀ c, Between graph trigger destination c → c ∈ result.getConnections)
    (between : Between graph trigger destination c) :
    (∃ walk, MainWalk result trigger walk c.fromNode) ∧ ∃ walk, MainWalk result trigger walk c.toNode := by
  obtain ⟨before, after, main, inner⟩ := between
  have all : ∀ d ∈ before ++ c :: after, d ∈ result.getConnections ∧ d.type = .main := fun d member =>
    ⟨kept d (between_of_mem ⟨main, inner⟩ member), (main.2 d member).2⟩
  obtain ⟨x, first, last⟩ := leads_append.1 main.1
  have from_ : c.fromNode = x := last.1
  refine ⟨⟨before, from_ ▸ first, fun d member => all d (List.mem_append_left _ member)⟩, before ++ [c],
    leads_concat.2 ⟨from_ ▸ first, rfl⟩, fun d member => all d ?_⟩
  cases List.mem_append.1 member with
  | inl earlier => exact List.mem_append_left _ earlier
  | inr here => exact List.mem_append_right _ (List.mem_singleton.1 here ▸ List.mem_cons_self)

/-- The part between trigger and destination is kept, and nothing else, exactly where the trigger leads to
every cycle that leads to the destination. -/
theorem findSubgraph_keepsBetween_iff (closed : graph.Closed) (has : graph.Has destination) (trigger : INode) :
    (∃ result, graph.findSubgraph destination trigger = .ok result ∧ KeepsBetween graph trigger destination result) ↔
      CyclesReached graph trigger destination := by
  constructor
  · intro h node cycle onward
    obtain ⟨result, went, keeps⟩ := h
    obtain ⟨cycle, some, main, inner⟩ := cycle
    obtain ⟨walk, main', inner'⟩ := onward
    obtain ⟨before, connection, rfl⟩ := (List.eq_nil_or_concat' cycle).resolve_left some
    have type := (main.2 connection (List.mem_append_right _ List.mem_cons_self)).2
    have kept := exists_kept_of_cycle ⟨main, inner⟩ ⟨main', inner'⟩
    obtain ⟨ahead, behind, way, place⟩ := (keeps.between connection type).1 ((findSubgraph_members went type).2 kept)
    have parts := List.append_cons ahead connection behind
    rw [parts] at way place
    obtain ⟨x, first, _⟩ := innerWalk_append.1 (⟨way, place⟩ : InnerWalk graph trigger destination trigger _ destination)
    have ends : connection.toNode = node := (leads_concat.1 main.1).2
    have arrives : connection.toNode = x := (leads_concat.1 first.main.1).2
    exact ⟨ahead ++ [connection], ends ▸ arrives ▸ first.main, first.inner⟩
  · intro reached
    obtain ⟨_, result, _, went, _⟩ := findSubgraph_grown closed has trigger
    have between (c : GraphConnection) (main : c.type = .main) :
        c ∈ result.getConnections ↔ Between graph trigger destination c := by
      rw [findSubgraph_members went main]
      constructor
      · intro h
        obtain ⟨whole, kept, member⟩ := h
        exact between_of_kept reached kept member
      · exact exists_kept_of_between
    refine ⟨result, went, between, fun c there main => ?_⟩
    refine reached_of_between (fun d h => ?_) ((between c main).1 there)
    obtain ⟨before, after, way, inner⟩ := h
    have type := (way.2 d (List.mem_append_right _ List.mem_cons_self)).2
    exact (between d type).2 ⟨before, after, way, inner⟩

def reachedCycle : DirectedGraph :=
  let trigger : INode := { name := "Trigger" }
  let loop : INode := { name := "Loop" }
  let back : INode := { name := "Back" }
  let destination : INode := { name := "Destination" }
  [(⟨trigger, loop, .main, 0, 0⟩ : GraphConnection), ⟨loop, back, .main, 0, 0⟩, ⟨back, loop, .main, 0, 0⟩,
    ⟨loop, destination, .main, 1, 0⟩].foldl setConnection (addNodes {} [trigger, loop, back, destination])

theorem reachedCycle_cyclesReached : CyclesReached reachedCycle { name := "Trigger" } { name := "Destination" } := by
  intro node cycle _
  obtain ⟨cycle, nonempty, main, _⟩ := cycle
  obtain ⟨before, c, rfl⟩ := (List.eq_nil_or_concat' cycle).resolve_left nonempty
  have into : c.toNode = node := (leads_concat.1 main.1).2
  have real := (main.2 c (List.mem_append_right _ List.mem_cons_self)).1
  have ways : ∀ c ∈ reachedCycle.getConnections, ∃ walk ∈ [reachedCycle.getConnections.take 1,
      reachedCycle.getConnections.take 2, reachedCycle.getConnections.eraseIdx 1 |>.eraseIdx 1],
      MainWalk reachedCycle { name := "Trigger" } walk c.toNode ∧
        Inner { name := "Trigger" } { name := "Destination" } walk := by decide
  obtain ⟨walk, _, way⟩ := ways c real
  exact ⟨walk, into ▸ way⟩

theorem reachedCycle_keepsBetween :
    ∃ result, reachedCycle.findSubgraph { name := "Destination" } { name := "Trigger" } = .ok result ∧
      KeepsBetween reachedCycle { name := "Trigger" } { name := "Destination" } result :=
  (findSubgraph_keepsBetween_iff (by decide) (by decide) _).2 reachedCycle_cyclesReached

def strayCycle : DirectedGraph :=
  let trigger : INode := { name := "Trigger" }
  let loop : INode := { name := "Loop" }
  let back : INode := { name := "Back" }
  let destination : INode := { name := "Destination" }
  [(⟨trigger, destination, .main, 0, 0⟩ : GraphConnection), ⟨loop, back, .main, 0, 0⟩, ⟨back, loop, .main, 0, 0⟩,
    ⟨loop, destination, .main, 1, 0⟩].foldl setConnection (addNodes {} [trigger, loop, back, destination])

theorem MainWalk.start {P : INode → Prop} {a b : INode} {walk : List GraphConnection}
    (closed : ∀ c ∈ graph.getConnections, P c.toNode → P c.fromNode) (h : MainWalk graph a walk b) (inside : P b) : P a := by
  obtain ⟨leads, main⟩ := h
  induction walk generalizing a with
  | nil =>
    have same : a = b := leads
    exact same ▸ inside
  | cons c walk ih =>
    obtain ⟨member, rest⟩ := List.forall_mem_cons.1 main
    exact leads.1 ▸ closed c member.1 (ih leads.2 rest)

theorem strayCycle_not_keepsBetween :
    ¬ ∃ result, strayCycle.findSubgraph { name := "Destination" } { name := "Trigger" } = .ok result ∧
      KeepsBetween strayCycle { name := "Trigger" } { name := "Destination" } result := by
  intro h
  obtain ⟨result, went, keeps⟩ := h
  have kept : ∃ whole, Kept strayCycle { name := "Trigger" } { name := "Destination" } { name := "Destination" } [] whole ∧
      ⟨{ name := "Back" }, { name := "Loop" }, .main, 0, 0⟩ ∈ whole := by
    refine @exists_kept_of_cycle strayCycle { name := "Trigger" } { name := "Destination" } _ { name := "Loop" }
      [⟨{ name := "Loop" }, { name := "Back" }, .main, 0, 0⟩]
      [⟨{ name := "Loop" }, { name := "Destination" }, .main, 1, 0⟩] ⟨by decide, by decide⟩ ⟨by decide, by decide⟩
  obtain ⟨before, after, way, _⟩ := (keeps.between _ rfl).1 ((findSubgraph_members went rfl).2 kept)
  obtain ⟨x, first, last⟩ := leads_append.1 way.1
  have closed : ∀ c ∈ strayCycle.getConnections, (c.toNode.name = "Loop" ∨ c.toNode.name = "Back") →
      (c.fromNode.name = "Loop" ∨ c.fromNode.name = "Back") := by decide
  have main : MainWalk strayCycle { name := "Trigger" } before x :=
    ⟨first, fun c member => way.2 c (List.mem_append_left _ member)⟩
  have start := @MainWalk.start strayCycle (fun node => node.name = "Loop" ∨ node.name = "Back") _ _ _ closed main
    (.inr (congrArg INode.name last.1.symm))
  exact absurd start (by decide)

end NodeAutomation.SubgraphBranches
