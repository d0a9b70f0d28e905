import Mathlib.Data.List.Pairwise
import NodeAutomation.Core.StrongComponents

/-! The components found are right, and start nodes move to the first node of their cycle, if and
only if every node has a retraced path to the first node of its component. -/

namespace NodeAutomation.DirectedGraph

open DepthFirst Fallible

variable {graph : DirectedGraph} {w w' : Walk INode} {s s' : Search} {node child : INode}

/-- The search has finished whole components, and nothing is left on the stack. -/
structure Complete (graph : DirectedGraph) (w : Walk INode) (s : Search) : Prop where
  kept : Kept graph w s
  stack : s.stack = []

/-- A node has got stuck, and a retraced path is missing. -/
structure Incomplete (graph : DirectedGraph) (w : Walk INode) (s : Search) : Prop where
  tracks : Tracks w s
  stuck : ∃ x ∈ s.stack, ∃ k, s.lowLinkValues.get x = some k ∧ k < s.id
  missed : ∃ x ∈ w.met, graph.Misses w x

structure Between (graph : DirectedGraph) (w : Walk INode) (s : Search) : Prop where
  once : w.met.Nodup
  closed : ∀ x ∈ w.met, ∀ next ∈ graph.children x, next ∈ w.met
  outcome : Complete graph w s ∨ Incomplete graph w s

theorem Between.tracks (h : Between graph w s) : Tracks w s :=
  h.outcome.elim (fun good => good.kept.tracks) fun bad => bad.tracks

theorem Between.step (h : Between graph w s) (present : graph.ChildrenPresent) (has : node ∈ graph.nodes.values)
    {fuel : Nat} (enough : graph.nodes.values.length < fuel) :
    ∃ s', graph.followNode fuel s node = .ok s' ∧ Between graph (visit graph.children fuel w node) s' ∧
      node ∈ (visit graph.children fuel w node).met ∧
      ∀ x ∈ w.met, x ∈ (visit graph.children fuel w node).met := by
  have less : unmet graph.nodes.values w.met < fuel := Nat.lt_of_le_of_lt (unmet_le_length _ _) enough
  by_cases met : node ∈ w.met
  · rw [visit_of_mem fuel met]
    exact ⟨s, followNode_known h.tracks met (Nat.lt_of_le_of_lt (Nat.zero_le _) less), h, met, fun _ => id⟩
  · obtain ⟨new, explored⟩ := visit_explored present.within has met h.once (Nat.le_of_lt less)
    have once := explored.once
    rw [explored.met, List.nodup_append] at once
    have closed : ∀ x ∈ (visit graph.children fuel w node).met, ∀ next ∈ graph.children x,
        next ∈ (visit graph.children fuel w node).met := by
      intro x member next step
      rw [explored.met] at member
      cases List.mem_append.1 member with
      | inl before =>
        rw [explored.met]
        exact List.mem_append_left _ (h.closed x before next step)
      | inr inside => exact explored.closed x inside next step
    have self : node ∈ (visit graph.children fuel w node).met := by
      obtain ⟨rest, rfl⟩ := explored.self
      rw [explored.met]
      exact List.mem_append_right _ List.mem_cons_self
    have old : ∀ x ∈ w.met, x ∈ (visit graph.children fuel w node).met := fun x member => by
      rw [explored.met]
      exact List.mem_append_left _ member
    obtain ⟨s', went, tracks, keeps⟩ := followNode_tracks present has h.tracks h.once less
    refine ⟨s', went, ⟨explored.once, closed, ?_⟩, self, old⟩
    cases h.outcome with
    | inl good =>
      have stuck (other : INode) (member : other ∈ w.met) : ¬Reaches graph.children other node := by
        intro reaches
        cases leaves (P := (· ∈ w.met)) reaches member with
        | inl there => exact met there
        | inr exit =>
          obtain ⟨last, next, inside, step, outside, _⟩ := exit
          exact outside (h.closed last inside next step)
      have current : Current graph w s node := by
        refine ⟨fun other member next step outside => absurd (h.closed other member next step) outside, ?_⟩
        intro other member
        rw [good.stack]
        exact iff_of_false List.not_mem_nil (stuck other member)
      obtain ⟨t, more, went', explored', outcome⟩ := followNode_found present has good.kept current met less
      rw [went] at went'
      cases went'
      cases outcome with
      | inl found =>
        refine .inl ⟨found.kept, ?_⟩
        rw [found.stack, good.stack, List.append_nil, List.reverse_eq_nil_iff]
        refine touching_eq_nil fun x member touches => ?_
        obtain ⟨other, there, both⟩ := touches
        have once' := explored'.once
        rw [explored'.met, List.nodup_append] at once'
        cases leaves (P := (· ∈ w.met)) both.2 there with
        | inl before => exact once'.2.2 x before x member rfl
        | inr exit =>
          obtain ⟨last, next, inside, step, outside, _⟩ := exit
          exact outside (h.closed last inside next step)
      | inr failed =>
        obtain ⟨x, there, _, k, low, _, small⟩ := failed.stuck
        obtain ⟨y, member, _, misses⟩ := failed.missed
        exact .inr ⟨tracks, ⟨x, there, k, low, small⟩, y, member, misses⟩
    | inr bad =>
      obtain ⟨x, there, k, low, small⟩ := bad.stuck
      obtain ⟨y, member, misses⟩ := bad.missed
      obtain ⟨steps, left, known⟩ := explored.left
      refine .inr ⟨tracks, ⟨x, keeps.stays x there k low small, k, ?_, Nat.lt_of_lt_of_le small keeps.id⟩,
        y, old y member, misses.later explored.met left fun step among same =>
          once.2.2 y member step.1 (known step among).1 same⟩
      rw [keeps.low x (bad.tracks.onStack x there)]
      exact low

theorem between_initial (graph : DirectedGraph) : Between graph {} {} where
  once := List.nodup_nil
  closed _ never := absurd never List.not_mem_nil
  outcome := by
    refine .inl ⟨⟨⟨rfl, rfl, fun _ _ => ?_, fun _ never => absurd never List.not_mem_nil, List.nodup_nil,
      fun _ never => absurd never List.not_mem_nil, fun _ never => absurd never List.not_mem_nil⟩, List.nodup_nil,
      fun _ never => absurd never List.not_mem_nil, fun _ never => absurd never List.not_mem_nil,
      fun _ never => absurd never List.not_mem_nil, fun _ never => absurd never List.not_mem_nil, List.Pairwise.nil,
      fun _ never => absurd never List.not_mem_nil, fun _ never => absurd never List.not_mem_nil⟩, rfl⟩
    simp

theorem search_outcome (present : graph.ChildrenPresent) :
    ∃ s, graph.nodes.values.foldlM (graph.followNode (graph.nodes.size + 1)) {} = .ok s ∧
      Between graph graph.traversal s ∧ ∀ node ∈ graph.nodes.values, node ∈ graph.traversal.met := by
  have size : graph.nodes.values.length = graph.nodes.size := List.length_map _
  have loop (rest : List INode) : ∀ (done : List INode) (w : Walk INode) (s : Search),
      (∀ node ∈ rest, node ∈ graph.nodes.values) → Between graph w s → (∀ node ∈ done, node ∈ w.met) →
      ∃ s', rest.foldlM (graph.followNode (graph.nodes.size + 1)) s = .ok s' ∧
        Between graph (rest.foldl (visit graph.children (graph.nodes.size + 1)) w) s' ∧
        ∀ node ∈ done ++ rest, node ∈ (rest.foldl (visit graph.children (graph.nodes.size + 1)) w).met := by
    induction rest with
    | nil =>
      intro done w s _ between met
      exact ⟨s, rfl, between, by rw [List.append_nil]; exact met⟩
    | cons node rest ih =>
      intro done w s among between met
      have enough : graph.nodes.values.length < graph.nodes.size + 1 := by omega
      obtain ⟨s', went, between', self, old⟩ := between.step present (among node List.mem_cons_self) enough
      obtain ⟨t, rest', final, all⟩ := ih (done ++ [node]) _ s'
        (fun other member => among other (List.mem_cons_of_mem _ member)) between' fun other member => by
          cases List.mem_append.1 member with
          | inl before => exact old other (met other before)
          | inr here => exact List.mem_singleton.1 here ▸ self
      refine ⟨t, ?_, final, fun other member => ?_⟩
      · rw [List.foldlM_cons, went, ok_bind]
        exact rest'
      · refine all other ?_
        rw [List.append_assoc]
        exact member
  obtain ⟨s, went, between, met⟩ := loop graph.nodes.values [] {} {} (fun _ => id) (between_initial graph)
    fun _ never => absurd never List.not_mem_nil
  exact ⟨s, went, between, met⟩

theorem visited_comeBack (came : s.comeBack node child = .ok s') : s'.visited = s.visited := by
  unfold Search.comeBack at came
  split at came
  case isFalse =>
    cases came
    rfl
  case isTrue =>
    split at came
    case h_1 => cases came
    case h_2 =>
      split at came
      case h_1 => cases came
      case h_2 =>
        cases came
        rfl

theorem visited_finish (finished : s.finish node = .ok s') : s'.visited = s.visited := by
  unfold Search.finish at finished
  split at finished
  case h_1 => cases finished
  case h_2 =>
    split at finished
    case h_1 => cases finished
    case h_2 =>
      cases finished
      split <;> rfl

structure Visits (graph : DirectedGraph) (s s' : Search) : Prop where
  old : ∀ x ∈ s.visited, x ∈ s'.visited
  has : (∀ x ∈ s.visited, graph.Has x) → ∀ x ∈ s'.visited, graph.Has x
  closed : ∀ x ∈ s'.visited, x ∈ s.visited ∨ ∀ next ∈ graph.children x, next ∈ s'.visited

theorem followNode_visits {fuel : Nat} (went : graph.followNode fuel s node = .ok s') :
    Visits graph s s' ∧ node ∈ s'.visited := by
  induction fuel generalizing s s' node with
  | zero => cases went
  | succ fuel ih =>
    rw [followNode] at went
    split at went
    case isTrue met =>
      cases went
      exact ⟨⟨fun _ => id, id, fun _ => .inl⟩, met⟩
    case isFalse fresh =>
      obtain ⟨connections, found, rest⟩ := (bind_eq_ok_iff _ _ _).1 went
      obtain ⟨t, loop, finished⟩ := (bind_eq_ok_iff _ _ _).1 rest
      have has : graph.Has node ∧ connections = graph.getConnections.filter (·.fromNode = node) := by
        rw [getDirectChildConnections, assertOk_bind_eq_ok_iff] at found
        exact ⟨found.1, (Except.ok.inj found.2).symm⟩
      rw [has.2] at loop
      have visits := foldlM_kept (P := fun done t => Visits graph (s.enter node) t ∧
        ∀ child ∈ done, child ∈ t.visited) loop ⟨⟨fun _ => id, id, fun _ => .inl⟩, fun _ never => absurd never
          List.not_mem_nil⟩ ?_
      · obtain ⟨⟨old, present, closed⟩, come⟩ := visits
        have same := visited_finish finished
        have entered (x : INode) : x ∈ (s.enter node).visited ↔ x ∈ s.visited ∨ x = node :=
          OrderedSet.mem_add _ _ _
        rw [same]
        refine ⟨⟨fun x member => ?_, fun before x member => ?_, fun x member => ?_⟩, ?_⟩
        · rw [same]
          exact old x ((entered x).2 (.inl member))
        · rw [same] at member
          refine present (fun y there => ?_) x member
          cases (entered y).1 there with
          | inl earlier => exact before y earlier
          | inr here => exact here ▸ has.1
        · rw [same] at member
          rw [same]
          cases closed x member with
          | inl there =>
            refine ((entered x).1 there).imp_right fun here next step => ?_
            rw [here] at step
            exact come next step
          | inr inside => exact .inr inside
        · exact old node ((entered node).2 (.inr rfl))
      · intro done child t t' _ before body
        obtain ⟨middle, went', came⟩ := (bind_eq_ok_iff _ _ _).1 body
        obtain ⟨visits, met⟩ := ih went'
        have same := visited_comeBack came
        refine ⟨⟨fun x member => ?_, fun earlier x member => ?_, fun x member => ?_⟩, fun x member => ?_⟩
        · rw [same]
          exact visits.old x (before.1.old x member)
        · rw [same] at member
          exact visits.has (before.1.has earlier) x member
        · rw [same] at member
          rw [same]
          cases visits.closed x member with
          | inr inside => exact .inr inside
          | inl there =>
            refine (before.1.closed x there).imp_right fun inside next step => ?_
            exact visits.old next (inside next step)
        · rw [same]
          cases List.mem_append.1 member with
          | inl earlier => exact visits.old x (before.2 x earlier)
          | inr here => exact List.mem_singleton.1 here ▸ met

theorem childrenPresent_of_ok {components : List (OrderedSet INode)}
    (went : graph.getStronglyConnectedComponents = .ok components) : graph.ChildrenPresent := by
  obtain ⟨s, loop, _⟩ := (bind_eq_ok_iff _ _ _).1 went
  have visits := foldlM_kept (P := fun done s => (∀ x ∈ s.visited, graph.Has x) ∧
    (∀ x ∈ s.visited, ∀ next ∈ graph.children x, next ∈ s.visited) ∧ ∀ x ∈ done, x ∈ s.visited) loop
      ⟨fun _ never => absurd never List.not_mem_nil, fun _ never => absurd never List.not_mem_nil,
        fun _ never => absurd never List.not_mem_nil⟩ ?_
  · intro connection member has
    have visited := visits.2.2 _ ((has_iff_mem_values _).1 has)
    exact visits.1 _ (visits.2.1 _ visited _ (mem_children.2 ⟨connection, member, rfl, rfl⟩))
  · intro done x s t _ before body
    obtain ⟨visits, met⟩ := followNode_visits body
    refine ⟨visits.has before.1, fun y member next step => ?_, fun y member => ?_⟩
    · cases visits.closed y member with
      | inl earlier => exact visits.old next (before.2.1 y earlier next step)
      | inr inside => exact inside next step
    · cases List.mem_append.1 member with
      | inl earlier => exact visits.old y (before.2.2 y earlier)
      | inr here => exact List.mem_singleton.1 here ▸ met

/-- Every node is in one component, and shares it with the nodes that it can reach and that can
reach it. -/
structure Partitions (graph : DirectedGraph) (components : List (OrderedSet INode)) : Prop where
  nonempty : ∀ component ∈ components, ∃ node, node ∈ component
  disjoint : components.Pairwise fun one other => ∀ node ∈ one, node ∉ other
  within : ∀ component ∈ components, ∀ node ∈ component, graph.Has node
  covered : ∀ node, graph.Has node → ∃ component ∈ components, node ∈ component
  shared : ∀ a b, graph.Has a → graph.Has b →
    ((∃ component ∈ components, a ∈ component ∧ b ∈ component) ↔ Mutual graph.children a b)

def ComponentsCorrect (graph : DirectedGraph) : Prop :=
  ∃ components, graph.getStronglyConnectedComponents = .ok components ∧ graph.Partitions components

/-- Every node has a retraced path to the first node of its component. -/
def Retraced (graph : DirectedGraph) : Prop :=
  ∀ node, graph.Has node → ∀ root, Earliest (Mutual graph.children node) graph.traversal.met root →
    Retraces graph.traversal.left node root

theorem traversal_met (present : graph.ChildrenPresent) (node : INode) :
    node ∈ graph.traversal.met ↔ graph.Has node := by
  rw [has_iff_mem_values]
  obtain ⟨s, went, between, all⟩ := search_outcome present
  refine ⟨fun met => ?_, all node⟩
  have visits := foldlM_kept (P := fun _ s => ∀ x ∈ s.visited, graph.Has x) went
    (fun _ never => absurd never List.not_mem_nil) fun _ x s t _ before body => (followNode_visits body).1.has before
  refine (has_iff_mem_values _).1 (visits node ?_)
  rw [OrderedSet.mem_def, between.tracks.visited]
  exact met

theorem Complete.partitions (present : graph.ChildrenPresent) (h : Complete graph graph.traversal s) :
    graph.Partitions s.stronglyConnectedComponents where
  nonempty component member := by
    obtain ⟨node, inside, _⟩ := h.kept.whole component member
    exact ⟨node, inside⟩
  disjoint := h.kept.disjoint
  within component member node inside :=
    (traversal_met present node).1 (h.kept.tracks.apart component member node inside).1
  covered node has := by
    refine h.kept.covered node ((traversal_met present node).2 has) ?_
    rw [h.stack]
    exact List.not_mem_nil
  shared a b hasA _ := by
    constructor
    · intro together
      obtain ⟨component, member, insideA, insideB⟩ := together
      obtain ⟨node, _, members⟩ := h.kept.whole component member
      exact ((members a).1 insideA).symm.trans ((members b).1 insideB)
    · intro both
      have off : a ∉ s.stack := by
        rw [h.stack]
        exact List.not_mem_nil
      obtain ⟨component, member, inside⟩ := h.kept.covered a ((traversal_met present a).2 hasA) off
      obtain ⟨node, _, members⟩ := h.kept.whole component member
      exact ⟨component, member, inside, (members b).2 (((members a).1 inside).trans both)⟩

/-- The components are right if and only if every node has a retraced path to the first node of its
component. -/
theorem componentsCorrect_iff : graph.ComponentsCorrect ↔ graph.ChildrenPresent ∧ graph.Retraced := by
  constructor
  · intro correct
    obtain ⟨components, went, partitions⟩ := correct
    have present := childrenPresent_of_ok went
    obtain ⟨s, loop, between, _⟩ := search_outcome present
    have same : s.stronglyConnectedComponents = components := by
      rw [getStronglyConnectedComponents, loop, ok_bind] at went
      exact Except.ok.inj went
    refine ⟨present, fun node has root first => ?_⟩
    have met := (traversal_met present node).2 has
    cases between.outcome with
    | inl good =>
      refine good.kept.rooted node met ?_ root first
      rw [good.stack]
      exact List.not_mem_nil
    | inr bad =>
      -- A node that got stuck is in no component.
      obtain ⟨x, there, _⟩ := bad.stuck
      obtain ⟨component, member, inside⟩ :=
        partitions.covered x ((traversal_met present x).1 (bad.tracks.onStack x there))
      exact absurd there (bad.tracks.apart component (same ▸ member) x inside).2
  · intro holds
    obtain ⟨present, retraced⟩ := holds
    obtain ⟨s, loop, between, _⟩ := search_outcome present
    refine ⟨s.stronglyConnectedComponents, ?_, ?_⟩
    · rw [getStronglyConnectedComponents, loop]
      rfl
    · cases between.outcome with
      | inl good => exact good.partitions present
      | inr bad =>
        obtain ⟨x, met, root, first, missing⟩ := bad.missed
        exact absurd (retraced x ((traversal_met present x).1 met) root first) missing

def searchOrder (graph : DirectedGraph) (node : INode) : List INode :=
  (visit graph.children (graph.nodes.size + 1) {} node).met

/-- The search has found the first node that the condition holds of, or has seen all. -/
structure Sought (fn : INode → Bool) (w : Walk INode) (result : Option INode × OrderedSet INode) : Prop where
  unfound : result.1 = none → result.2.elems = w.met ∧ ∀ x ∈ w.met, fn x = false
  found : ∀ first, result.1 = some first → Earliest (fn · = true) w.met first

variable {fn : INode → Bool}

theorem Sought.later {first : INode} {seen : OrderedSet INode} (h : Sought fn w (some first, seen)) (more : List INode)
    (met : w'.met = w.met ++ more) : Sought fn w' (some first, seen) where
  unfound never := by cases never
  found other same := by
    rw [met]
    exact (h.found other same).append more

def searchChild (graph : DirectedGraph) (fn : INode → Bool) (fuel : Nat) (result : Option INode × OrderedSet INode)
    (child : INode) : Except JsError (Option INode × OrderedSet INode) :=
  match result.1 with
  | some found => .ok (some found, result.2)
  | none => graph.depthFirstSearchRecursive fn fuel child result.2

theorem searchChild_spec {fuel : Nat} {done : List INode} {start result : Option INode × OrderedSet INode}
    (went : done.foldlM (graph.searchChild fn fuel) start = .ok result) (sought : Sought fn w result)
    (more : List INode) (met : w'.met = w.met ++ more)
    (unfound : result.2.elems = w.met → (∀ x ∈ w.met, fn x = false) →
      ∃ next, graph.depthFirstSearchRecursive fn fuel child result.2 = .ok next ∧ Sought fn w' next) :
    ∃ next, (done ++ [child]).foldlM (graph.searchChild fn fuel) start = .ok next ∧ Sought fn w' next := by
  rw [List.foldlM_append, went, ok_bind]
  obtain ⟨first, seen⟩ := result
  cases first with
  | some first => exact ⟨_, rfl, sought.later more met⟩
  | none =>
    obtain ⟨same, none⟩ := sought.unfound rfl
    obtain ⟨next, searched, sought'⟩ := unfound same none
    refine ⟨next, ?_, sought'⟩
    rw [List.foldlM_cons, searchChild, searched]
    rfl

/-- Where nothing was found, the condition holds of no node that was met. -/
theorem depthFirstSearchRecursive_spec (present : graph.ChildrenPresent) {fuel : Nat}
    (has : node ∈ graph.nodes.values) {seen : OrderedSet INode} (same : seen.elems = w.met) (once : w.met.Nodup)
    (none : ∀ x ∈ w.met, fn x = false) (enough : unmet graph.nodes.values w.met < fuel) :
    ∃ result, graph.depthFirstSearchRecursive fn fuel node seen = .ok result ∧
      Sought fn (visit graph.children fuel w node) result := by
  induction fuel generalizing w seen node with
  | zero => exact absurd enough (Nat.not_lt_zero _)
  | succ fuel ih =>
    have visited : node ∈ seen ↔ node ∈ w.met := by rw [OrderedSet.mem_def, same]
    rw [depthFirstSearchRecursive]
    by_cases met : node ∈ w.met
    · rw [if_pos (visited.2 met), visit_of_mem _ met]
      exact ⟨_, rfl, ⟨fun _ => ⟨same, none⟩, (by simp)⟩⟩
    · rw [if_neg fun there => met (visited.1 there)]
      obtain ⟨new, explored⟩ := visit_explored present.within has met once (Nat.le_of_lt enough)
      by_cases here : fn node = true
      · rw [if_pos here]
        refine ⟨_, rfl, ⟨(by simp), fun first found => ?_⟩⟩
        cases found
        obtain ⟨rest, rfl⟩ := explored.self
        exact ⟨w.met, rest, explored.met, here, fun x member => Bool.eq_false_iff.1 (none x member)⟩
      · rw [if_neg here, getDirectChildConnections_eq ((has_iff_mem_values node).2 has), ok_bind]
        have listed : (graph.getConnections.filter (·.fromNode = node)).map (·.toNode) = graph.children node := rfl
        rw [listed]
        have added : (seen.add node).elems = w.met ++ [node] := by
          have missing : node ∉ seen.elems := by rw [same]; exact met
          rw [OrderedSet.add, dif_neg missing]
          exact congrArg (· ++ [node]) same
        have entered : Sought fn (w.enter node) (Option.none, seen.add node) := by
          refine ⟨fun _ => ⟨added, fun x member => ?_⟩, (by simp)⟩
          cases List.mem_append.1 member with
          | inl before => exact none x before
          | inr self => rw [List.mem_singleton.1 self, Bool.eq_false_iff.2 here]
        obtain ⟨_, _, result, went, sought⟩ := visit_steps has met once (Nat.le_of_lt enough)
          (fun _ child step => visit_explored present.within (present.within node has child step))
          (P := fun done _ w' => ∃ result, done.foldlM (graph.searchChild fn fuel) (Option.none, seen.add node) =
            .ok result ∧ Sought fn w' result) ⟨_, rfl, entered⟩
          (fun done new w' child exploring before step known less => by
            obtain ⟨result, went, sought⟩ := before
            refine searchChild_spec went sought [] (List.append_nil _).symm fun same' none' => ?_
            obtain ⟨next, searched, sought'⟩ := ih (present.within node has child step) same' exploring.once none'
              (by omega)
            rw [visit_of_mem fuel known] at sought'
            exact ⟨next, searched, sought'.unfound, sought'.found⟩)
          (fun done new more w' child exploring before step unknown less explored => by
            obtain ⟨result, went, sought⟩ := before
            refine searchChild_spec went sought more explored.met fun same' none' => ?_
            obtain ⟨next, searched, sought'⟩ := ih (present.within node has child step) same' exploring.once none'
              (by omega)
            exact ⟨next, searched, sought'.unfound, sought'.found⟩)
        exact ⟨result, went, sought⟩

/-- The search from a node finds the first of the reachable nodes that the condition holds of. -/
theorem depthFirstSearch_spec (present : graph.ChildrenPresent) (has : graph.Has node)
    (somewhere : ∃ x, Reaches graph.children node x ∧ fn x = true) :
    ∃ first, graph.depthFirstSearch node fn = .ok (some first) ∧
      Earliest (fn · = true) (graph.searchOrder node) first := by
  have inside := (has_iff_mem_values node).1 has
  have enough := unmet_values_lt graph ({} : Walk INode).met
  obtain ⟨result, searched, sought⟩ := @depthFirstSearchRecursive_spec graph {} node fn present _ inside
    ∅ rfl List.nodup_nil (fun _ never => absurd never List.not_mem_nil) enough
  obtain ⟨new, explored⟩ := visit_explored present.within inside (w := {}) List.not_mem_nil List.nodup_nil
    (Nat.le_of_lt enough)
  obtain ⟨first, seen⟩ := result
  cases first with
  | some first =>
    refine ⟨first, ?_, sought.found first rfl⟩
    rw [depthFirstSearch, searched]
    rfl
  | none =>
    obtain ⟨x, reaches, holds⟩ := somewhere
    have self : node ∈ new := by
      obtain ⟨rest, rfl⟩ := explored.self
      exact List.mem_cons_self
    cases leaves (P := (· ∈ new)) reaches self with
    | inl met =>
      have not := (sought.unfound rfl).2 x (by rw [explored.met]; exact List.mem_append_right _ met)
      simp [holds] at not
    | inr exit =>
      obtain ⟨last, next, within, step, outside, _⟩ := exit
      have known := explored.closed last within next step
      rw [explored.met] at known
      exact absurd ((List.mem_append.1 known).resolve_left List.not_mem_nil) outside

def FirstOfCycle (graph : DirectedGraph) (trigger startNode first : INode) : Prop :=
  Earliest (Mutual graph.children startNode) (graph.searchOrder trigger) first

/-- Every start node is replaced by the first node of its cycle. -/
def CyclesHandled (graph : DirectedGraph) : Prop :=
  ∀ (startNodes : OrderedSet INode) (trigger : INode), graph.Has trigger →
    (∀ startNode ∈ startNodes, Reaches graph.children trigger startNode) →
    ∃ result, graph.handleCycles startNodes trigger = .ok result ∧
      ∀ node, node ∈ result ↔ ∃ startNode ∈ startNodes, graph.FirstOfCycle trigger startNode node

variable {trigger startNode first : INode} {components : List (OrderedSet INode)}

theorem has_of_reaches (present : graph.ChildrenPresent) {a b : INode} (h : Reaches graph.children a b)
    (has : graph.Has a) : graph.Has b := by
  cases leaves (P := graph.Has) h has with
  | inl there => exact there
  | inr exit =>
    obtain ⟨last, next, inside, step, outside, _⟩ := exit
    obtain ⟨connection, member, rfl, rfl⟩ := mem_children.1 step
    exact absurd (present connection member inside) outside

theorem Partitions.mem_iff (partitions : graph.Partitions components) (present : graph.ChildrenPresent)
    {cycle : OrderedSet INode} (member : cycle ∈ components) (inside : startNode ∈ cycle) (x : INode) :
    x ∈ cycle ↔ Mutual graph.children startNode x := by
  have has := partitions.within cycle member startNode inside
  constructor
  · intro there
    exact (partitions.shared startNode x has (partitions.within cycle member x there)).1 ⟨cycle, member, inside, there⟩
  · intro both
    obtain ⟨other, member', inside', there⟩ := (partitions.shared startNode x has (has_of_reaches present both.1 has)).2 both
    have same : other = cycle := by
      by_contra different
      have symm : Std.Symm fun one other : OrderedSet INode => ∀ node ∈ one, node ∉ other :=
        ⟨fun _ _ apart node there here => apart node here there⟩
      have apart := partitions.disjoint.forall member' member different
      exact apart startNode inside' inside
    exact same ▸ there

theorem replaceStart_spec (present : graph.ChildrenPresent) (partitions : graph.Partitions components)
    (hasTrigger : graph.Has trigger) (reaches : Reaches graph.children trigger startNode)
    (firstNode : graph.FirstOfCycle trigger startNode first) {cycle : OrderedSet INode} (member : cycle ∈ components)
    (acc : OrderedSet INode) :
    graph.replaceStart trigger startNode acc cycle =
      .ok (if startNode ∈ cycle then (acc.delete startNode).add first else acc) := by
  unfold replaceStart
  split
  case isFalse => rfl
  case isTrue inside =>
    have members (x : INode) : decide (x ∈ cycle) = true ↔ Mutual graph.children startNode x := by
      rw [decide_eq_true_iff]
      exact partitions.mem_iff present member inside x
    have somewhere : ∃ x, Reaches graph.children trigger x ∧ decide (x ∈ cycle) = true :=
      ⟨startNode, reaches, decide_eq_true inside⟩
    obtain ⟨found, searched, earliest⟩ := depthFirstSearch_spec present hasTrigger somewhere
    have same : found = first := (earliest.congr members).eq firstNode
    rw [searched, same]
    rfl

theorem replaceStart_loop (present : graph.ChildrenPresent) (partitions : graph.Partitions components)
    (hasTrigger : graph.Has trigger) (reaches : Reaches graph.children trigger startNode)
    (firstNode : graph.FirstOfCycle trigger startNode first) (cycles : List (OrderedSet INode))
    (among : ∀ cycle ∈ cycles, cycle ∈ components) (acc : OrderedSet INode) :
    ∃ result, cycles.foldlM (graph.replaceStart trigger startNode) acc = .ok result ∧
      ∀ node, node ∈ result ↔ if ∃ cycle ∈ cycles, startNode ∈ cycle then node ∈ acc ∧ node ≠ startNode ∨ node = first
        else node ∈ acc := by
  induction cycles generalizing acc with
  | nil => exact ⟨acc, rfl, fun node => by simp⟩
  | cons cycle cycles ih =>
    have rest := fun other member => among other (List.mem_cons_of_mem _ member)
    rw [List.foldlM_cons, replaceStart_spec present partitions hasTrigger reaches firstNode
      (among cycle List.mem_cons_self), ok_bind]
    obtain ⟨result, went, members⟩ := ih rest (if startNode ∈ cycle then (acc.delete startNode).add first else acc)
    refine ⟨result, went, fun node => ?_⟩
    rw [members]
    by_cases inside : startNode ∈ cycle
    · have some : ∃ other ∈ cycle :: cycles, startNode ∈ other := ⟨cycle, List.mem_cons_self, inside⟩
      rw [if_pos inside, OrderedSet.mem_add, OrderedSet.mem_delete, if_pos some]
      split
      case isTrue => tauto
      case isFalse => exact Iff.rfl
    · simp [inside]

theorem Partitions.startNode_mem (partitions : graph.Partitions components) (has : graph.Has startNode) :
    ∃ cycle ∈ components.filter fun cycle => 1 ≤ cycle.size, startNode ∈ cycle := by
  obtain ⟨cycle, member, inside⟩ := partitions.covered startNode has
  refine ⟨cycle, List.mem_filter.2 ⟨member, decide_eq_true ?_⟩, inside⟩
  exact Nat.one_le_iff_ne_zero.2 fun empty => (OrderedSet.size_eq_zero_iff cycle).1 empty startNode inside

theorem FirstOfCycle.own (h : graph.FirstOfCycle trigger startNode first) : graph.FirstOfCycle trigger first first := by
  have both : Mutual graph.children startNode first := by
    obtain ⟨_, _, _, both, _⟩ := h
    exact both
  exact h.congr fun _ => ⟨both.symm.trans, both.trans⟩

theorem exists_firstOfCycle (present : graph.ChildrenPresent) (hasTrigger : graph.Has trigger)
    (reaches : Reaches graph.children trigger startNode) : ∃ first, graph.FirstOfCycle trigger startNode first := by
  classical
  have somewhere : ∃ x, Reaches graph.children trigger x ∧ decide (Mutual graph.children startNode x) = true :=
    ⟨startNode, reaches, decide_eq_true (mutual_refl _)⟩
  obtain ⟨first, _, earliest⟩ := depthFirstSearch_spec present hasTrigger somewhere
  exact ⟨first, earliest.congr fun _ => decide_eq_true_iff⟩

theorem cyclesHandled_of (correct : graph.ComponentsCorrect) : graph.CyclesHandled := by
  obtain ⟨components, found, partitions⟩ := correct
  have present := childrenPresent_of_ok found
  intro startNodes trigger hasTrigger reaches
  have firsts (startNode : INode) (member : startNode ∈ startNodes) :=
    exists_firstOfCycle present hasTrigger (reaches startNode member)
  rw [handleCycles, found, ok_bind]
  dsimp only
  split
  case isTrue empty =>
    refine ⟨startNodes, rfl, fun node => ?_⟩
    have nothing (startNode : INode) (member : startNode ∈ startNodes) : False := by
      obtain ⟨cycle, there, _⟩ := partitions.startNode_mem (has_of_reaches present (reaches startNode member) hasTrigger)
      rw [List.eq_nil_of_length_eq_zero empty] at there
      exact absurd there List.not_mem_nil
    exact ⟨fun member => (nothing node member).elim, fun ⟨startNode, member, _⟩ => (nothing startNode member).elim⟩
  case isFalse =>
    have loop (rest : List INode) : ∀ (done : List INode) (acc : OrderedSet INode),
        startNodes.elems = done ++ rest →
        (∀ node, node ∈ acc ↔ (∃ startNode ∈ done, graph.FirstOfCycle trigger startNode node) ∨ node ∈ rest ∧ node ∉ done) →
        ∃ result, rest.foldlM (fun newStartNodes startNode =>
          (components.filter fun cycle => 1 ≤ cycle.size).foldlM (graph.replaceStart trigger startNode) newStartNodes) acc =
            .ok result ∧ ∀ node, node ∈ result ↔ ∃ startNode ∈ startNodes, graph.FirstOfCycle trigger startNode node := by
      induction rest with
      | nil =>
        intro done acc split members
        rw [List.append_nil] at split
        refine ⟨acc, rfl, fun node => ?_⟩
        rw [members]
        simp [OrderedSet.mem_def, split]
      | cons startNode rest ih =>
        intro done acc split members
        have member : startNode ∈ startNodes := by
          rw [OrderedSet.mem_def, split]
          exact List.mem_append_right _ List.mem_cons_self
        obtain ⟨first, firstNode⟩ := firsts startNode member
        obtain ⟨result, went, replaced⟩ := replaceStart_loop present partitions hasTrigger (reaches startNode member)
          firstNode _ (fun cycle among => (List.mem_filter.1 among).1) acc
        rw [List.foldlM_cons, went, ok_bind]
        refine ih (done ++ [startNode]) result (by rw [split, List.append_assoc]; rfl) fun node => ?_
        rw [replaced, if_pos (partitions.startNode_mem (has_of_reaches present (reaches startNode member) hasTrigger)),
          members]
        have unique (node : INode) : graph.FirstOfCycle trigger startNode node ↔ node = first :=
          ⟨fun other => other.eq firstNode, fun same => same ▸ firstNode⟩
        have again (before : ∃ other ∈ done, graph.FirstOfCycle trigger other startNode) : startNode = first := by
          obtain ⟨other, _, found⟩ := before
          exact (unique startNode).1 found.own
        simp only [List.mem_append, or_and_right, exists_or, exists_eq_left, unique,
          List.mem_cons, not_or]
        by_cases here : node = startNode
        · subst here
          simpa using fun other among found => again ⟨other, among, found⟩
        · simpa [here] using or_right_comm
    exact loop startNodes.elems [] startNodes rfl fun node => by simp [OrderedSet.mem_def]

/-- The components are right, and start nodes move to the first node of their cycle, if and only if
every node has a retraced path to the first node of its component. -/
theorem getStronglyConnectedComponents_correct_iff (graph : DirectedGraph) :
    graph.ComponentsCorrect ∧ graph.CyclesHandled ↔ graph.ChildrenPresent ∧ graph.Retraced := by
  rw [← componentsCorrect_iff]
  exact and_iff_left_of_imp cyclesHandled_of

/-- Two cycles share the node `r`: it leads to `a`, which leads to `b` and back to `r`, and `b` leads
back to `a`. -/
def sharedRootGraph : DirectedGraph :=
  let r : INode := { name := "r" }
  let a : INode := { name := "a" }
  let b : INode := { name := "b" }
  [(⟨r, a, .main, 0, 0⟩ : GraphConnection), ⟨a, b, .main, 0, 0⟩, ⟨b, a, .main, 0, 0⟩,
    ⟨a, r, .main, 0, 0⟩].foldl setConnection (addNodes {} [r, a, b])

/-- The low id of `b` is that of `a`, and nothing is popped when the search comes back to `r`. -/
theorem sharedRootGraph_not_componentsCorrect : ¬sharedRootGraph.ComponentsCorrect := by
  intro correct
  obtain ⟨components, went, partitions⟩ := correct
  have nothing : sharedRootGraph.getStronglyConnectedComponents = .ok [] := by decide
  rw [nothing] at went
  cases went
  obtain ⟨component, never, _⟩ := partitions.covered { name := "r" } (by decide)
  exact absurd never List.not_mem_nil

end NodeAutomation.DirectedGraph
