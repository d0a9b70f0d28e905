import Mathlib.Data.List.TakeWhile
import NodeAutomation.Core.HandleCycles
import NodeAutomation.Lib.Places

/-! What the search for strongly connected components has done at each moment: its low ids are the
lowest ids on the paths that it has left step by step, and it finds a component unless such a path
to the first node of the component is missing. -/

namespace NodeAutomation.DirectedGraph

open DepthFirst Fallible

variable {graph : DirectedGraph}

/-- The order in which a depth-first search from every node meets the nodes and leaves the
connections. -/
def traversal (graph : DirectedGraph) : Walk INode :=
  graph.nodes.values.foldl (visit graph.children (graph.nodes.size + 1)) {}

/-- The variables of the search agree with the walk, and what has been output is off the stack. -/
structure Tracks (w : Walk INode) (s : Search) : Prop where
  visited : s.visited.elems = w.met
  id : s.id = w.met.length
  ids : ∀ node i, s.ids.get node = some i ↔ w.met[i]? = some node
  low : ∀ node ∈ w.met, ∃ v, s.lowLinkValues.get node = some v
  stack : s.stack.Nodup
  onStack : ∀ node ∈ s.stack, node ∈ w.met
  apart : ∀ component ∈ s.stronglyConnectedComponents, ∀ node ∈ component, node ∈ w.met ∧ node ∉ s.stack

/-- What was met before the step keeps its low id, and stays on the stack where its low id is not
that of a node the step meets. -/
structure Keeps (w : Walk INode) (s s' : Search) : Prop where
  low : ∀ node ∈ w.met, s'.lowLinkValues.get node = s.lowLinkValues.get node
  stays : ∀ node ∈ s.stack, ∀ k, s.lowLinkValues.get node = some k → k < s.id → node ∈ s'.stack
  id : s.id ≤ s'.id

variable {w w' : Walk INode} {s s' s'' : Search} {node child : INode}

theorem Keeps.refl (w : Walk INode) (s : Search) : Keeps w s s := ⟨fun _ _ => rfl, fun _ there _ _ _ => there, Nat.le_refl _⟩

theorem Tracks.enter (h : Tracks w s) (fresh : node ∉ w.met) : Tracks (w.enter node) (s.enter node) where
  visited := by
    have missing : node ∉ s.visited.elems := by rw [h.visited]; exact fresh
    rw [Search.enter, OrderedSet.add, dif_neg missing]
    exact congrArg (· ++ [node]) h.visited
  id := by
    rw [Search.enter, h.id, Walk.enter, List.length_append, List.length_singleton]
  ids other i := by
    rw [Search.enter, OrderedMap.get_set, Walk.enter]
    by_cases same : other = node
    · rw [if_pos same, Option.some.injEq, h.id, same]
      constructor
      · rintro rfl
        exact List.getElem?_concat_length
      · intro found
        cases Places.getElem?_concat found with
        | inl before => exact absurd (List.mem_of_getElem? before) fresh
        | inr here => exact here.1.symm
    · rw [if_neg same, h.ids]
      constructor
      · exact fun found => Places.getElem?_append_of_some found _
      · intro found
        cases Places.getElem?_concat found with
        | inl before => exact before
        | inr here => exact absurd here.2 same
  low other member := by
    rw [Search.enter, OrderedMap.get_set]
    by_cases same : other = node
    · exact ⟨s.id, if_pos same⟩
    · rw [if_neg same]
      refine h.low other ?_
      cases List.mem_append.1 member with
      | inl before => exact before
      | inr here => exact absurd (List.mem_singleton.1 here) same
  stack := List.nodup_cons.2 ⟨fun there => fresh (h.onStack node there), h.stack⟩
  onStack other member := by
    cases List.mem_cons.1 member with
    | inl same => exact same ▸ List.mem_append_right _ (List.mem_singleton_self _)
    | inr below => exact List.mem_append_left _ (h.onStack other below)
  apart component member other inside := by
    have before := h.apart component member other inside
    refine ⟨List.mem_append_left _ before.1, fun there => ?_⟩
    cases List.mem_cons.1 there with
    | inl same => exact fresh (same ▸ before.1)
    | inr below => exact before.2 below

theorem comeBack_spec (h : Tracks w s) (self : node ∈ w.met) (met : child ∈ w.met) :
    ∃ s', s.comeBack node child = .ok s' ∧ Tracks (w.leave node child) s' ∧ s'.stack = s.stack ∧ s'.id = s.id ∧
      (∀ other, other ≠ node → s'.lowLinkValues.get other = s.lowLinkValues.get other) ∧
      s'.stronglyConnectedComponents = s.stronglyConnectedComponents ∧
      (child ∉ s.stack → s' = s) ∧
      (child ∈ s.stack → ∀ v own, s.lowLinkValues.get child = some v → s.lowLinkValues.get node = some own →
        s'.lowLinkValues.get node = some (min v own)) := by
  obtain ⟨v, found⟩ := h.low child met
  obtain ⟨own, stored⟩ := h.low node self
  have stable : Tracks (w.leave node child) s :=
    ⟨h.visited, h.id, h.ids, h.low, h.stack, h.onStack, h.apart⟩
  unfold Search.comeBack
  split
  case isFalse off => exact ⟨s, rfl, stable, rfl, rfl, fun _ _ => rfl, rfl, fun _ => rfl, fun on => absurd on off⟩
  case isTrue on =>
    rw [found, stored]
    refine ⟨_, rfl, ⟨h.visited, h.id, h.ids, ?_, h.stack, h.onStack, h.apart⟩, rfl, rfl, ?_, rfl,
      fun off => absurd on off, ?_⟩
    · intro other member
      rw [OrderedMap.get_set]
      split
      case isTrue => exact ⟨_, rfl⟩
      case isFalse => exact h.low other member
    · intro other different
      exact OrderedMap.get_set_of_ne _ _ different
    · intro _ v' own' found' stored'
      cases found'
      cases stored'
      exact OrderedMap.get_set_self _ _ _

variable {x : INode}

theorem mem_dropWhile {p : INode → Bool} {stack : List INode} (member : x ∈ stack) (not : p x = false) :
    x ∈ stack.dropWhile p := by
  rw [← List.takeWhile_append_dropWhile (p := p) (l := stack), List.mem_append] at member
  refine member.resolve_left fun taken => ?_
  have holds := List.mem_takeWhile_imp taken
  simp [not] at holds

theorem pop_tracks (h : Tracks w s) (ownId : Nat) : Tracks w (s.pop ownId) := by
  have split := List.takeWhile_append_dropWhile (p := fun next => s.lowLinkValues.get next = some ownId) (l := s.stack)
  have once := h.stack
  rw [← split, List.nodup_append] at once
  refine ⟨h.visited, h.id, h.ids, h.low, once.2.1, ?_, ?_⟩
  · intro other member
    exact h.onStack other (List.dropWhile_sublist _ |>.mem member)
  · intro component member other inside
    have cases_ : component ∈ s.stronglyConnectedComponents ∨ component = OrderedSet.ofList
        (s.stack.takeWhile fun next => s.lowLinkValues.get next = some ownId) := by
      simp only [Search.pop] at member
      split at member
      case isTrue => exact (List.mem_append.1 member).imp_right List.mem_singleton.1
      case isFalse => exact .inl member
    cases cases_ with
    | inl before =>
      have known := h.apart component before other inside
      exact ⟨known.1, fun there => known.2 (List.dropWhile_sublist _ |>.mem there)⟩
    | inr new =>
      rw [new, OrderedSet.mem_ofList] at inside
      exact ⟨h.onStack other (List.takeWhile_sublist _ |>.mem inside), fun there => once.2.2 other inside other there rfl⟩

theorem finish_spec (h : Tracks w s) {i v : Nat} (id : w.met[i]? = some node)
    (low : s.lowLinkValues.get node = some v) :
    s.finish node = .ok (if i = v then s.pop i else s) := by
  rw [Search.finish, (h.ids node i).2 id, low]

theorem stack_finish {i v k : Nat} (member : x ∈ s.stack) (low : s.lowLinkValues.get x = some k)
    (other : k ≠ i) : x ∈ (if i = v then s.pop i else s).stack := by
  split
  case isTrue => exact mem_dropWhile member (by rw [low, decide_eq_false_iff_not, Option.some.injEq]; exact other)
  case isFalse => exact member

def followChildren (graph : DirectedGraph) (fuel : Nat) (node : INode) (children : List INode) (s : Search) :
    Except JsError Search :=
  children.foldlM (fun s child => do
    let s ← graph.followNode fuel s child
    s.comeBack node child) s

theorem followNode_eq {fuel : Nat} (has : graph.Has node) (fresh : node ∉ s.visited) :
    graph.followNode (fuel + 1) s node =
      (graph.followChildren fuel node (graph.children node) (s.enter node) >>= fun s => s.finish node) := by
  rw [followNode, if_neg fresh, getDirectChildConnections_eq has, ok_bind]
  rfl

theorem followChildren_concat {fuel : Nat} {done : List INode} {t t' t'' : Search}
    (went : graph.followChildren fuel node done s = .ok t) (child' : graph.followNode fuel t child = .ok t')
    (came : t'.comeBack node child = .ok t'') : graph.followChildren fuel node (done ++ [child]) s = .ok t'' := by
  unfold followChildren at went ⊢
  rw [List.foldlM_append, went, ok_bind, List.foldlM_cons, child', ok_bind, came]
  rfl

/-- The search does not throw, and walks as a depth-first search does. -/
theorem followNode_tracks (present : graph.ChildrenPresent) {fuel : Nat} (has : node ∈ graph.nodes.values)
    (h : Tracks w s) (once : w.met.Nodup) (enough : unmet graph.nodes.values w.met < fuel) :
    ∃ s', graph.followNode fuel s node = .ok s' ∧ Tracks (visit graph.children fuel w node) s' ∧ Keeps w s s' := by
  induction fuel generalizing w s node with
  | zero => exact absurd enough (Nat.not_lt_zero _)
  | succ fuel ih =>
    have visited : node ∈ s.visited ↔ node ∈ w.met := by rw [OrderedSet.mem_def, h.visited]
    by_cases met : node ∈ w.met
    · rw [followNode, visit, if_pos met, if_pos (visited.2 met)]
      exact ⟨s, rfl, h, Keeps.refl w s⟩
    · rw [followNode_eq ((has_iff_mem_values node).2 has) fun there => met (visited.1 there)]
      have one (done new : List INode) (w' : Walk INode) (child : INode)
          (exploring : Exploring graph.children w node done new w')
          (before : ∃ t, graph.followChildren fuel node done (s.enter node) = .ok t ∧ Tracks w' t ∧ Keeps w s t)
          (step : child ∈ graph.children node) (less : unmet graph.nodes.values w'.met < fuel)
          (self : node ∈ (visit graph.children fuel w' child).met)
          (come : child ∈ (visit graph.children fuel w' child).met) :
          ∃ t, graph.followChildren fuel node (done ++ [child]) (s.enter node) = .ok t ∧
            Tracks ((visit graph.children fuel w' child).leave node child) t ∧ Keeps w s t := by
        obtain ⟨t, went, tracks, keeps⟩ := before
        obtain ⟨t', child', tracks', keeps'⟩ := ih (present.within node has child step) tracks exploring.once less
        obtain ⟨t'', came, tracks'', stack, id, low, _⟩ := comeBack_spec tracks' self come
        have old (other : INode) (member : other ∈ w.met) : other ∈ w'.met := by
          rw [exploring.met]
          exact List.mem_append_left _ member
        refine ⟨t'', followChildren_concat went child' came, tracks'', fun other member => ?_,
          fun x member k small below => ?_, ?_⟩
        · rw [low other fun same => met (same ▸ member), keeps'.low other (old other member)]
          exact keeps.low other member
        · rw [stack]
          have there := keeps.stays x member k small below
          have same := keeps.low x (h.onStack x member)
          exact keeps'.stays x there k (same.trans small) (Nat.lt_of_lt_of_le below keeps.id)
        · rw [id]
          exact Nat.le_trans keeps.id keeps'.id
      have entered : Keeps w s (s.enter node) := by
        refine ⟨fun other member => ?_, fun x member _ _ _ => List.mem_cons_of_mem _ member, Nat.le_succ _⟩
        exact OrderedMap.get_set_of_ne _ _ fun same => met (same ▸ member)
      obtain ⟨new, exploring, t, went, tracks, keeps⟩ := visit_steps has met once (Nat.le_of_lt enough)
        (fun _ child step => visit_explored present.within (present.within node has child step))
        (P := fun done _ w' => ∃ t, graph.followChildren fuel node done (s.enter node) = .ok t ∧ Tracks w' t ∧
          Keeps w s t) ⟨_, rfl, h.enter met, entered⟩
        (fun done new w' child exploring before step known less => by
          have self : node ∈ w'.met := by
            rw [exploring.met]
            exact List.mem_append_right _ List.mem_cons_self
          have further := one done new w' child exploring before step (by omega)
          rw [visit_of_mem fuel known] at further
          exact further self known)
        (fun done new more w' child exploring before step unknown less explored => by
          have exploring' := exploring.fresh step explored
          have self : node ∈ ((visit graph.children fuel w' child).leave node child).met := by
            rw [exploring'.met]
            exact List.mem_append_right _ List.mem_cons_self
          exact one done new w' child exploring before step (by omega) self
            (exploring'.come child (List.mem_append_right _ (List.mem_singleton_self _))))
      rw [went, ok_bind]
      have place : (visit graph.children (fuel + 1) w node).met[s.id]? = some node := by
        rw [exploring.met, h.id, List.getElem?_append_right (Nat.le_refl _), Nat.sub_self]
        rfl
      obtain ⟨v, low⟩ := tracks.low node (List.mem_of_getElem? place)
      refine ⟨_, finish_spec tracks place low, ?_, ?_⟩
      · split
        case isTrue => exact pop_tracks tracks s.id
        case isFalse => exact tracks
      · refine ⟨fun other member => ?_, fun x member k small below => ?_, ?_⟩
        · rw [← keeps.low other member]
          split <;> rfl
        · have there := keeps.stays x member k small below
          have same := keeps.low x (h.onStack x member)
          exact stack_finish there (same.trans small) (Nat.ne_of_lt below)
        · refine Nat.le_trans keeps.id (Nat.le_of_eq ?_)
          split <;> rfl

theorem followNode_known {fuel : Nat} (h : Tracks w s) (met : node ∈ w.met) (fuelled : 0 < fuel) :
    graph.followNode fuel s node = .ok s := by
  cases fuel with
  | zero => exact absurd fuelled (Nat.lt_irrefl 0)
  | succ fuel => rw [followNode, if_pos (by rw [OrderedSet.mem_def, h.visited]; exact met)]

/-! What holds as long as every component has been popped whole -/

/-- The low id of a node is the lowest id in its component that it has a retraced path to; the
components that have been popped are whole, and have such paths to their first node. -/
structure Kept (graph : DirectedGraph) (w : Walk INode) (s : Search) : Prop where
  tracks : Tracks w s
  once : w.met.Nodup
  steps : ∀ step ∈ w.left, step.1 ∈ w.met ∧ step.2 ∈ graph.children step.1
  flowed : ∀ node ∈ w.met, ∀ v, s.lowLinkValues.get node = some v → ∃ target,
    w.met[v]? = some target ∧ Mutual graph.children node target ∧ Retraces w.left node target
  lowest : ∀ node ∈ w.met, ∀ v, s.lowLinkValues.get node = some v → ∀ (i : Nat) target,
    w.met[i]? = some target → Mutual graph.children node target → Retraces w.left node target → v ≤ i
  whole : ∀ component ∈ s.stronglyConnectedComponents, ∃ node ∈ component,
    ∀ other, other ∈ component ↔ Mutual graph.children node other
  disjoint : s.stronglyConnectedComponents.Pairwise fun one other => ∀ node ∈ one, node ∉ other
  covered : ∀ node ∈ w.met, node ∉ s.stack → ∃ component ∈ s.stronglyConnectedComponents, node ∈ component
  rooted : ∀ node ∈ w.met, node ∉ s.stack → ∀ root, Earliest (Mutual graph.children node) w.met root →
    Retraces w.left node root

/-- The node that the search is at: it can be reached from what is not finished, and so from
what is on the stack. -/
structure Current (graph : DirectedGraph) (w : Walk INode) (s : Search) (node : INode) : Prop where
  pending : ∀ other ∈ w.met, ∀ child ∈ graph.children other, child ∉ w.met → Reaches graph.children other node
  stacked : ∀ other ∈ w.met, other ∈ s.stack ↔ Reaches graph.children other node

theorem earliest_of_append {other root : INode} {more : List INode} (member : other ∈ w.met)
    (h : Earliest (Mutual graph.children other) (w.met ++ more) root) :
    Earliest (Mutual graph.children other) w.met root := by
  obtain ⟨root', earlier⟩ := exists_earliest (P := Mutual graph.children other) member (mutual_refl other)
  rw [h.eq (earlier.append more)]
  exact earlier

theorem Kept.enter (h : Kept graph w s) (fresh : node ∉ w.met) : Kept graph (w.enter node) (s.enter node) where
  tracks := h.tracks.enter fresh
  once := by
    have exploring : Exploring graph.children w node [] [] (w.enter node) := exploring_enter fresh h.once
    exact exploring.once
  steps step member := ⟨List.mem_append_left _ (h.steps step member).1, (h.steps step member).2⟩
  flowed other member v low := by
    rw [Search.enter, OrderedMap.get_set] at low
    by_cases same : other = node
    · rw [if_pos same] at low
      cases low
      refine ⟨node, ?_, same ▸ mutual_refl _, same ▸ retraces_refl _ _⟩
      rw [h.tracks.id]
      exact List.getElem?_concat_length
    · rw [if_neg same] at low
      have before : other ∈ w.met :=
        (List.mem_append.1 member).resolve_right fun here => same (List.mem_singleton.1 here)
      obtain ⟨target, there, both, path⟩ := h.flowed other before v low
      exact ⟨target, Places.getElem?_append_of_some there _, both, path⟩
  lowest other member v low i target there both path := by
    rw [Search.enter, OrderedMap.get_set] at low
    by_cases same : other = node
    · rw [if_pos same] at low
      cases low
      -- The search has left no step from the node, so the path is empty.
      have apart : ∀ step ∈ w.left, other ≠ step.1 := fun step among equal =>
        fresh (same ▸ equal ▸ (h.steps step among).1)
      rw [Walk.enter, ← List.append_nil w.left, retraces_append apart] at path
      obtain ⟨path, empty, leads⟩ := path
      rw [List.sublist_nil.1 empty] at leads
      have self : target = node := leads.symm.trans same
      rw [self] at there
      cases Places.getElem?_concat there with
      | inl before => exact absurd (List.mem_of_getElem? before) fresh
      | inr here => exact Nat.le_of_eq (h.tracks.id.trans here.1.symm)
    · rw [if_neg same] at low
      have before : other ∈ w.met :=
        (List.mem_append.1 member).resolve_right fun here => same (List.mem_singleton.1 here)
      cases Places.getElem?_concat there with
      | inl earlier => exact h.lowest other before v low i target earlier both path
      | inr here =>
        obtain ⟨_, inside, _⟩ := h.flowed other before v low
        have bound := (List.getElem?_eq_some_iff.1 inside).1
        rw [here.1]
        exact Nat.le_of_lt bound
  whole := h.whole
  disjoint := h.disjoint
  covered other member off := by
    cases List.mem_append.1 member with
    | inl before => exact h.covered other before fun there => off (List.mem_cons_of_mem _ there)
    | inr here => exact absurd (List.mem_cons.2 (.inl (List.mem_singleton.1 here))) off
  rooted other member off root first := by
    cases List.mem_append.1 member with
    | inl before =>
      exact h.rooted other before (fun there => off (List.mem_cons_of_mem _ there)) root
        (earliest_of_append before first)
    | inr here => exact absurd (List.mem_cons.2 (.inl (List.mem_singleton.1 here))) off

theorem Kept.comeBack (h : Kept graph w s) (self : node ∈ w.met) (met : child ∈ w.met)
    (step : child ∈ graph.children node) (onStack : child ∈ s.stack ↔ Mutual graph.children node child) :
    ∃ s', s.comeBack node child = .ok s' ∧ Kept graph (w.leave node child) s' ∧ s'.stack = s.stack ∧
      s'.id = s.id := by
  obtain ⟨s', came, tracks, stack, id, others, components, off, on⟩ := comeBack_spec h.tracks self met
  obtain ⟨v, low⟩ := h.tracks.low child met
  obtain ⟨own, ownLow⟩ := h.tracks.low node self
  have edges := fun other among => (h.steps other among).2
  refine ⟨s', came, ⟨tracks, h.once, ?_, ?_, ?_, ?_, ?_, ?_, ?_⟩, stack, id⟩
  · intro other among
    cases List.mem_cons.1 among with
    | inl same => exact same ▸ ⟨self, step⟩
    | inr before => exact h.steps other before
  · intro other member v' low'
    by_cases same : other = node
    · subst same
      by_cases there : child ∈ s.stack
      · rw [on there v own low ownLow, Option.some.injEq] at low'
        cases Nat.le_total v own with
        | inl less =>
          rw [Nat.min_eq_left less] at low'
          subst low'
          obtain ⟨target, place, both, path⟩ := h.flowed child met v low
          exact ⟨target, place, (onStack.1 there).trans both, retraces_cons.2 (.inr ⟨rfl, path⟩)⟩
        | inr more =>
          rw [Nat.min_eq_right more] at low'
          subst low'
          obtain ⟨target, place, both, path⟩ := h.flowed other self own ownLow
          exact ⟨target, place, both, path.mono [_]⟩
      · rw [off there] at low'
        obtain ⟨target, place, both, path⟩ := h.flowed other self v' low'
        exact ⟨target, place, both, path.mono [_]⟩
    · rw [others other same] at low'
      obtain ⟨target, place, both, path⟩ := h.flowed other member v' low'
      exact ⟨target, place, both, path.mono [_]⟩
  · intro other member v' low' i target place both path
    by_cases same : other = node
    · subst same
      cases retraces_cons.1 path with
      | inl before =>
        have bound := h.lowest other self own ownLow i target place both before
        by_cases there : child ∈ s.stack
        · rw [on there v own low ownLow, Option.some.injEq] at low'
          rw [← low']
          exact Nat.le_trans (Nat.min_le_right _ _) bound
        · rw [off there, ownLow, Option.some.injEq] at low'
          exact low' ▸ bound
      | inr through =>
        have ahead := through.2.reaches edges
        have back : Mutual graph.children other child := ⟨reaches_next step, ahead.trans both.2⟩
        have there := onStack.2 back
        have bound := h.lowest child met v low i target place (back.symm.trans both) through.2
        rw [on there v own low ownLow, Option.some.injEq] at low'
        rw [← low']
        exact Nat.le_trans (Nat.min_le_left _ _) bound
    · rw [others other same] at low'
      have before := (retraces_cons.1 path).resolve_right fun through => same through.1
      exact h.lowest other member v' low' i target place both before
  · rw [components]
    exact h.whole
  · rw [components]
    exact h.disjoint
  · rw [components, stack]
    exact h.covered
  · rw [stack]
    intro other member off' root first
    exact (h.rooted other member off' root first).mono [_]

def Touches (graph : DirectedGraph) (met : List INode) (node : INode) : Prop :=
  ∃ other ∈ met, Mutual graph.children node other

open Classical in
noncomputable def touching (graph : DirectedGraph) (met new : List INode) : List INode :=
  new.filter fun node => graph.Touches met node

/-- A node without a retraced path to the first node of its component. -/
def Misses (graph : DirectedGraph) (w : Walk INode) (node : INode) : Prop :=
  ∃ root, Earliest (Mutual graph.children node) w.met root ∧ ¬Retraces w.left node root

structure Found (graph : DirectedGraph) (w : Walk INode) (s : Search) (new : List INode) (w' : Walk INode)
    (s' : Search) : Prop where
  kept : Kept graph w' s'
  stack : s'.stack = (graph.touching w.met new).reverse ++ s.stack

/-- A node has got stuck on the stack: its low id belongs to a node whose turn is over. -/
structure Failed (graph : DirectedGraph) (w : Walk INode) (s : Search) (w' : Walk INode) (s' : Search) : Prop where
  stuck : ∃ x ∈ s'.stack, x ∉ w.met ∧ ∃ k, s'.lowLinkValues.get x = some k ∧ s.id < k ∧ k < s'.id
  missed : ∃ x ∈ w'.met, x ∉ w.met ∧ graph.Misses w' x

variable {new more : List INode}

variable {met : List INode}

@[simp] theorem mem_touching :
    x ∈ graph.touching met new ↔ x ∈ new ∧ graph.Touches met x := by
  simp [touching]

theorem touching_append (met : List INode) :
    graph.touching met (new ++ more) = graph.touching met new ++ graph.touching met more := List.filter_append _ _

theorem touching_cons (touches : graph.Touches met x) :
    graph.touching met (x :: new) = x :: graph.touching met new := by
  simp [touching, touches]

theorem touching_congr {met met' : List INode}
    (same : ∀ x ∈ new, graph.Touches met x ↔ graph.Touches met' x) :
    graph.touching met new = graph.touching met' new :=
  List.filter_congr fun x member => by rw [same x member]

theorem touching_eq_nil (none : ∀ x ∈ new, ¬graph.Touches met x) :
    graph.touching met new = [] := by
  rw [List.eq_nil_iff_forall_not_mem]
  intro x member
  exact none x (mem_touching.1 member).1 (mem_touching.1 member).2

theorem Touches.of_both {x y : INode} (h : graph.Touches met x)
    (both : Mutual graph.children y x) : graph.Touches met y := by
  obtain ⟨other, member, rest⟩ := h
  exact ⟨other, member, both.trans rest⟩

section

variable (h : Current graph w s node)
include h

theorem Current.reaches_of_touches {x : INode} (fresh : x ∉ w.met)
    (touches : graph.Touches w.met x) : Reaches graph.children x node := by
  obtain ⟨other, member, both⟩ := touches
  cases leaves (P := (· ∈ w.met)) both.2 member with
  | inl met => exact absurd met fresh
  | inr exit =>
    obtain ⟨last, next, inside, step, outside, before, _⟩ := exit
    exact both.1.trans (before.trans (h.pending last inside next step outside))

theorem Current.descend (step : child ∈ graph.children node) (fresh : child ∉ w.met) :
    Current graph w s child where
  pending other member next there outside := (h.pending other member next there outside).tail step
  stacked other member := by
    refine (h.stacked other member).trans ⟨fun reaches => reaches.tail step, fun reaches => ?_⟩
    cases leaves (P := (· ∈ w.met)) reaches member with
    | inl met => exact absurd met fresh
    | inr exit =>
      obtain ⟨last, next, inside, there, outside, before, _⟩ := exit
      exact before.trans (h.pending last inside next there outside)

theorem Current.enter (fresh : node ∉ w.met) :
    Current graph (w.enter node) (s.enter node) node where
  pending other member next there outside := by
    cases List.mem_append.1 member with
    | inl before =>
      exact h.pending other before next there fun met => outside (List.mem_append_left _ met)
    | inr here => exact List.mem_singleton.1 here ▸ .refl
  stacked other member := by
    rw [Search.enter, List.mem_cons]
    cases List.mem_append.1 member with
    | inl before =>
      rw [h.stacked other before]
      exact or_iff_right fun same => fresh (same ▸ before)
    | inr here =>
      rw [List.mem_singleton.1 here]
      exact iff_of_true (.inl rfl) .refl

theorem Current.returned (tracks : Tracks w s) (self : node ∈ w.met)
    (step : child ∈ graph.children node)
    (explored : Explored graph.children w child new w') (found : Found graph w s new w' s') :
    Current graph w' s' node where
  pending other member next there outside := by
    rw [explored.met] at member
    cases List.mem_append.1 member with
    | inl before =>
      refine h.pending other before next there fun met => outside ?_
      rw [explored.met]
      exact List.mem_append_left _ met
    | inr after => exact absurd (explored.closed other after next there) outside
  stacked other member := by
    have once := explored.once
    rw [explored.met, List.nodup_append] at once
    rw [explored.met] at member
    rw [found.stack, List.mem_append, List.mem_reverse, mem_touching]
    cases List.mem_append.1 member with
    | inl before =>
      rw [h.stacked other before]
      exact or_iff_right fun new => once.2.2 other before other new.1 rfl
    | inr after =>
      have fresh : other ∉ w.met := fun before => once.2.2 other before other after rfl
      constructor
      · intro there
        cases there with
        | inl new => exact h.reaches_of_touches fresh new.2
        | inr below => exact absurd (tracks.onStack other below) fresh
      · intro reaches
        exact .inl ⟨after, node, self, reaches, .head step (explored.reached other after)⟩

end

structure Underway (graph : DirectedGraph) (w : Walk INode) (s : Search) (node : INode) (done new : List INode)
    (w' : Walk INode) (s' : Search) : Prop where
  exploring : Exploring graph.children w node done new w'
  kept : Kept graph w' s'
  current : Current graph w' s' node
  stack : s'.stack = (graph.touching (w.met ++ [node]) new).reverse ++ node :: s.stack

theorem Kept.low_lt (h : Kept graph w s) {k : Nat} (member : x ∈ w.met)
    (low : s.lowLinkValues.get x = some k) : k < w.met.length := by
  obtain ⟨_, inside, _⟩ := h.flowed x member k low
  exact (List.getElem?_eq_some_iff.1 inside).1

theorem Kept.le_low (h : Kept graph w' s') {before : List INode} (met : w'.met = before ++ more) {k : Nat}
    (member : x ∈ w'.met) (none : ¬graph.Touches before x) (low : s'.lowLinkValues.get x = some k) :
    before.length ≤ k := by
  obtain ⟨target, inside, both, _⟩ := h.flowed x member k low
  by_contra less
  rw [met, List.getElem?_append_left (Nat.lt_of_not_le less)] at inside
  exact none ⟨target, List.mem_of_getElem? inside, both⟩

theorem Kept.low_le_place (h : Kept graph w s) {k i : Nat} (member : x ∈ w.met)
    (low : s.lowLinkValues.get x = some k) (place : w.met[i]? = some x) : k ≤ i :=
  h.lowest x member k low i x place (mutual_refl x) (retraces_refl _ _)

theorem takeWhile_of_none {p : INode → Bool} {stack : List INode} (none : ∀ y ∈ stack, p y = false) :
    stack.takeWhile p = [] ∧ stack.dropWhile p = stack := by
  cases stack with
  | nil => exact ⟨rfl, rfl⟩
  | cons y rest =>
    have first := none y List.mem_cons_self
    simp [first]

namespace Underway

variable {done : List INode}

section

variable (h : Underway graph w s node done new w' s')
include h

theorem place (before : Tracks w s) : w'.met[s.id]? = some node := by
  rw [h.exploring.met, before.id, List.getElem?_append_right (Nat.le_refl _), Nat.sub_self]
  rfl

theorem split :
    s'.stack = ((graph.touching (w.met ++ [node]) new).reverse ++ [node]) ++ s.stack := by
  rw [h.stack, List.append_assoc]
  rfl

theorem self : node ∈ w'.met := by
  rw [h.exploring.met]
  exact List.mem_append_right _ List.mem_cons_self

end

theorem low_lt_of_touches (h : Underway graph w s node (graph.children node) new w' s') (before : Tracks w s)
    (touches : graph.Touches w.met node) {v : Nat} (low : s'.lowLinkValues.get node = some v) : v < s.id := by
  have explored := h.exploring.explored
  obtain ⟨other, member, both⟩ := touches
  have once := explored.once
  rw [explored.met, List.nodup_append] at once
  cases leaves (P := (· ∈ node :: new)) both.1 List.mem_cons_self with
  | inl inside => exact absurd rfl (once.2.2 other member other inside)
  | inr exit =>
    obtain ⟨last, next, inside, step, outside, ahead, rest⟩ := exit
    have met := explored.closed last inside next step
    rw [explored.met] at met
    have old : next ∈ w.met := (List.mem_append.1 met).resolve_right outside
    obtain ⟨i, place⟩ := List.mem_iff_getElem?.1 old
    have here : w'.met[i]? = some next := by
      rw [explored.met]
      exact Places.getElem?_append_of_some place _
    have together : Mutual graph.children node next := ⟨ahead.tail step, rest.trans both.2⟩
    have bound := h.kept.lowest node h.self v low i next here together (explored.back last inside next step)
    have length := (List.getElem?_eq_some_iff.1 place).1
    rw [before.id]
    omega

section

variable (h : Underway graph w s node done new w' s')
include h

theorem not_touches (current : Current graph w s node)
    (first : ¬graph.Touches w.met node) {x : INode} (member : x ∈ node :: new) : ¬graph.Touches w.met x := by
  intro touches
  cases List.mem_cons.1 member with
  | inl same => exact first (same ▸ touches)
  | inr inside =>
    have once := h.exploring.once
    rw [h.exploring.met, List.nodup_append] at once
    have fresh : x ∉ w.met := fun there => once.2.2 x there x member rfl
    have back := current.reaches_of_touches fresh touches
    exact first (touches.of_both ⟨h.exploring.reached x inside, back⟩)

theorem mem_top (current : Current graph w s node)
    (first : ¬graph.Touches w.met node) (x : INode) :
    x ∈ (graph.touching (w.met ++ [node]) new).reverse ++ [node] ↔
      x ∈ node :: new ∧ Mutual graph.children node x := by
  rw [List.mem_append, List.mem_reverse, mem_touching, List.mem_singleton]
  constructor
  · intro there
    cases there with
    | inl inside =>
      obtain ⟨member, other, met, both⟩ := inside
      have new := h.not_touches current first (List.mem_cons_of_mem _ member)
      cases List.mem_append.1 met with
      | inl before => exact absurd ⟨other, before, both⟩ new
      | inr here => exact ⟨List.mem_cons_of_mem _ member, List.mem_singleton.1 here ▸ both.symm⟩
    | inr same => exact ⟨same ▸ List.mem_cons_self, same ▸ mutual_refl _⟩
  · intro there
    cases List.mem_cons.1 there.1 with
    | inl same => exact .inr same
    | inr inside =>
      exact .inl ⟨inside, node, List.mem_append_right _ (List.mem_singleton_self _), there.2.symm⟩

theorem earliest (first : ¬graph.Touches w.met node) {x : INode}
    (both : Mutual graph.children node x) : Earliest (Mutual graph.children x) w'.met node :=
  ⟨w.met, new, h.exploring.met, both.symm, fun other member there =>
    first ⟨other, member, both.trans there⟩⟩

end

section

variable (h : Underway graph w s node (graph.children node) new w' s')
include h

/-- The component of a node that is its first one is popped whole. -/
theorem pop_found (before : Kept graph w s)
    (current : Current graph w s node) (first : ¬graph.Touches w.met node)
    (all : ∀ x ∈ node :: new, Mutual graph.children node x → s'.lowLinkValues.get x = some s.id) :
    Found graph w s (node :: new) w' (s'.pop s.id) := by
  have kept := h.kept
  have explored := h.exploring.explored
  have once := explored.once
  rw [explored.met, List.nodup_append] at once
  have mem := h.mem_top current first
  have split := h.split
  generalize (graph.touching (w.met ++ [node]) new).reverse ++ [node] = top at mem split
  have low (x : INode) (member : x ∈ top) : s'.lowLinkValues.get x = some s.id :=
    all x ((mem x).1 member).1 ((mem x).1 member).2
  have below : ∀ y ∈ s.stack, decide (s'.lowLinkValues.get y = some s.id) = false := by
    intro y there
    have met := before.tracks.onStack y there
    obtain ⟨i, place⟩ := List.mem_iff_getElem?.1 met
    have inside : w'.met[i]? = some y := by
      rw [explored.met]
      exact Places.getElem?_append_of_some place _
    rw [decide_eq_false_iff_not]
    intro same
    have bound := kept.low_le_place (List.mem_of_getElem? inside) same inside
    have length := (List.getElem?_eq_some_iff.1 place).1
    rw [before.tracks.id] at bound
    omega
  have taken : s'.stack.takeWhile (fun next => s'.lowLinkValues.get next = some s.id) = top := by
    rw [split, List.takeWhile_append_of_pos fun x member => decide_eq_true (low x member),
      (takeWhile_of_none below).1, List.append_nil]
  have left : s'.stack.dropWhile (fun next => s'.lowLinkValues.get next = some s.id) = s.stack := by
    rw [split, List.dropWhile_append_of_pos fun x member => decide_eq_true (low x member), (takeWhile_of_none below).2]
  have self : node ∈ OrderedSet.ofList top := (OrderedSet.mem_ofList _ _).2 ((mem node).2 ⟨List.mem_cons_self, mutual_refl _⟩)
  have filled : 0 < (OrderedSet.ofList top).size :=
    Nat.pos_of_ne_zero fun none => (OrderedSet.size_eq_zero_iff _).1 none node self
  have components : (s'.pop s.id).stronglyConnectedComponents =
      s'.stronglyConnectedComponents ++ [OrderedSet.ofList top] := by
    simp only [Search.pop, taken, if_pos filled]
  have stack : (s'.pop s.id).stack = s.stack := left
  -- The nodes of the component are all new: a path within it cannot leave them.
  have component (x : INode) : x ∈ OrderedSet.ofList top ↔ Mutual graph.children node x := by
    rw [OrderedSet.mem_ofList, mem]
    refine ⟨And.right, fun both => ⟨?_, both⟩⟩
    cases leaves (P := (· ∈ node :: new)) both.1 List.mem_cons_self with
    | inl inside => exact inside
    | inr exit =>
      obtain ⟨last, next, inside, step, outside, ahead, rest⟩ := exit
      have met := explored.closed last inside next step
      rw [explored.met] at met
      have old : next ∈ w.met := (List.mem_append.1 met).resolve_right outside
      exact absurd ⟨next, old, ahead.tail step, rest.trans both.2⟩ first
  refine ⟨⟨pop_tracks kept.tracks s.id, kept.once, kept.steps, kept.flowed, kept.lowest, ?_, ?_, ?_, ?_⟩, ?_⟩
  · rw [components]
    intro found member
    cases List.mem_append.1 member with
    | inl earlier => exact kept.whole found earlier
    | inr here => exact List.mem_singleton.1 here ▸ ⟨node, self, component⟩
  · rw [components, List.pairwise_append]
    refine ⟨kept.disjoint, List.pairwise_singleton _ _, ?_⟩
    intro earlier member here there x inside
    rw [List.mem_singleton.1 there, OrderedSet.mem_ofList]
    intro onTop
    have off := (kept.tracks.apart earlier member x inside).2
    rw [split] at off
    exact off (List.mem_append_left _ onTop)
  · rw [components, stack]
    intro x member off
    by_cases there : x ∈ top
    · exact ⟨_, List.mem_append_right _ (List.mem_singleton_self _), (OrderedSet.mem_ofList _ _).2 there⟩
    · obtain ⟨found, earlier, inside⟩ := kept.covered x member (by
        rw [split, List.mem_append, not_or]
        exact ⟨there, off⟩)
      exact ⟨found, List.mem_append_left _ earlier, inside⟩
  · rw [stack]
    intro x member off root earliest
    by_cases there : x ∈ top
    · rw [earliest.eq (h.earliest first ((mem x).1 there).2)]
      obtain ⟨target, place, _, path⟩ := kept.flowed x member s.id (low x there)
      rw [h.place before.tracks] at place
      exact Option.some.inj place ▸ path
    · refine kept.rooted x member ?_ root earliest
      rw [split, List.mem_append, not_or]
      exact ⟨there, off⟩
  · rw [stack, touching_eq_nil fun x member => h.not_touches current first member]
    rfl

theorem pop_failed (before : Kept graph w s)
    (current : Current graph w s node) (first : ¬graph.Touches w.met node) {x : INode} (member : x ∈ node :: new)
    (both : Mutual graph.children node x) (other : s'.lowLinkValues.get x ≠ some s.id) :
    Failed graph w s w' (s'.pop s.id) := by
  have kept := h.kept
  have met := h.exploring.met
  have inside : x ∈ w'.met := by rw [met]; exact List.mem_append_right _ member
  obtain ⟨k, low⟩ := kept.tracks.low x inside
  have different : k ≠ s.id := fun same => other (same ▸ low)
  have none := h.not_touches current first member
  have least := kept.le_low met inside none low
  rw [← before.tracks.id] at least
  have fresh : x ∉ w.met := fun there => none ⟨x, there, mutual_refl x⟩
  refine ⟨⟨x, ?_, fresh, k, low, by omega, ?_⟩, x, inside, fresh, node, h.earliest first both, fun path => ?_⟩
  · refine mem_dropWhile ?_ (by rw [decide_eq_false_iff_not]; exact other)
    have top := (h.mem_top current first x).2 ⟨member, both⟩
    rw [h.split]
    exact List.mem_append_left _ top
  · change k < s'.id
    rw [kept.tracks.id]
    exact kept.low_lt inside low
  · have bound := kept.lowest x inside k low s.id node (h.place before.tracks) both.symm path
    omega

theorem finish (before : Kept graph w s)
    (current : Current graph w s node) :
    ∃ t, s'.finish node = .ok t ∧ (Found graph w s (node :: new) w' t ∨ Failed graph w s w' t) := by
  have place := h.place before.tracks
  obtain ⟨v, low⟩ := h.kept.tracks.low node h.self
  refine ⟨_, finish_spec h.kept.tracks place low, ?_⟩
  by_cases touches : graph.Touches w.met node
  · have less := h.low_lt_of_touches before.tracks touches low
    rw [if_neg (by omega)]
    refine .inl ⟨h.kept, ?_⟩
    have same : graph.touching w.met new = graph.touching (w.met ++ [node]) new := by
      refine touching_congr fun x _ => ⟨fun there => ?_, fun there => ?_⟩
      · obtain ⟨other, member, both⟩ := there
        exact ⟨other, List.mem_append_left _ member, both⟩
      · obtain ⟨other, member, both⟩ := there
        cases List.mem_append.1 member with
        | inl old => exact ⟨other, old, both⟩
        | inr here => exact touches.of_both (List.mem_singleton.1 here ▸ both)
    rw [h.stack, touching_cons touches, same, List.reverse_cons, List.append_assoc]
    rfl
  · have least := h.kept.le_low h.exploring.met h.self touches low
    have most := h.kept.low_le_place h.self low place
    rw [← before.tracks.id] at least
    have same : s.id = v := Nat.le_antisymm least most
    rw [if_pos same]
    rw [← same] at low
    by_cases all : ∀ x ∈ node :: new, Mutual graph.children node x → s'.lowLinkValues.get x = some s.id
    · exact .inl (h.pop_found before current touches all)
    · push Not at all
      obtain ⟨x, member, both, other⟩ := all
      exact .inr (h.pop_failed before current touches member both other)

end

end Underway

theorem Misses.later {steps : List (INode × INode)} (h : graph.Misses w x) (met : w'.met = w.met ++ more)
    (left : w'.left = steps ++ w.left) (apart : ∀ step ∈ steps, x ≠ step.1) : graph.Misses w' x := by
  obtain ⟨root, first, none⟩ := h
  refine ⟨root, met ▸ first.append more, ?_⟩
  rw [left, retraces_append apart]
  exact none

structure Broken (graph : DirectedGraph) (w : Walk INode) (s : Search) (node : INode) (w' : Walk INode)
    (s' : Search) : Prop where
  tracks : Tracks w' s'
  stuck : ∃ x ∈ s'.stack, x ∉ w.met ∧ x ≠ node ∧ ∃ k, s'.lowLinkValues.get x = some k ∧ s.id < k ∧ k < s'.id
  missed : ∃ x ∈ w'.met, x ∉ w.met ∧ x ≠ node ∧ graph.Misses w' x

variable {w'' : Walk INode}

section

variable (h : Broken graph w s node w' s')
include h

theorem Broken.next (tracks : Tracks w'' s'') (keeps : Keeps w' s' s'')
    {steps : List (INode × INode)} (met : w''.met = w'.met ++ more) (left : w''.left = steps ++ w'.left)
    (apart : ∀ x ∈ w'.met, ∀ step ∈ steps, x ≠ step.1) : Broken graph w s node w'' s'' where
  tracks := tracks
  stuck := by
    obtain ⟨x, there, fresh, other, k, low, more, less⟩ := h.stuck
    refine ⟨x, keeps.stays x there k low less, fresh, other, k, ?_, more, Nat.lt_of_lt_of_le less keeps.id⟩
    rw [keeps.low x (h.tracks.onStack x there)]
    exact low
  missed := by
    obtain ⟨x, there, fresh, other, misses⟩ := h.missed
    exact ⟨x, met ▸ List.mem_append_left _ there, fresh, other, misses.later met left (apart x there)⟩

theorem Broken.comeBack (self : node ∈ w'.met) (met : child ∈ w'.met) :
    ∃ t, s'.comeBack node child = .ok t ∧ Broken graph w s node (w'.leave node child) t := by
  obtain ⟨t, came, tracks, stack, id, others, _⟩ := comeBack_spec h.tracks self met
  refine ⟨t, came, tracks, ?_, ?_⟩
  · obtain ⟨x, there, fresh, other, k, low, more, less⟩ := h.stuck
    exact ⟨x, stack ▸ there, fresh, other, k, (others x other).trans low, more, id ▸ less⟩
  · obtain ⟨x, there, fresh, other, misses⟩ := h.missed
    have step : ∀ step ∈ [(node, child)], x ≠ step.1 := fun step among => by
      rw [List.mem_singleton.1 among]
      exact other
    have met : (w'.leave node child).met = w'.met ++ [] := (List.append_nil _).symm
    exact ⟨x, there, fresh, other, misses.later met rfl step⟩

theorem Broken.finish (place : w'.met[s.id]? = some node) :
    ∃ t, s'.finish node = .ok t ∧ Failed graph w s w' t := by
  obtain ⟨v, low⟩ := h.tracks.low node (List.mem_of_getElem? place)
  refine ⟨_, finish_spec h.tracks place low, ?_, ?_⟩
  · obtain ⟨x, there, fresh, other, k, small, more, less⟩ := h.stuck
    refine ⟨x, stack_finish there small (Nat.ne_of_gt more), fresh, k, ?_, more, ?_⟩
    · rw [← small]
      split <;> rfl
    · refine Nat.lt_of_lt_of_eq less ?_
      split <;> rfl
  · obtain ⟨x, there, fresh, _, misses⟩ := h.missed
    exact ⟨x, there, fresh, misses⟩

end

theorem Failed.broken {base : Walk INode} {s₀ : Search} (h : Failed graph w s w' s') (tracks : Tracks w' s')
    (old : ∀ x ∈ base.met, x ∈ w.met) (self : node ∈ w.met) (id : s₀.id ≤ s.id) : Broken graph base s₀ node w' s' where
  tracks := tracks
  stuck := by
    obtain ⟨x, there, fresh, k, low, more, less⟩ := h.stuck
    exact ⟨x, there, fun before => fresh (old x before), fun same => fresh (same ▸ self), k, low,
      Nat.lt_of_le_of_lt id more, less⟩
  missed := by
    obtain ⟨x, there, fresh, misses⟩ := h.missed
    exact ⟨x, there, fun before => fresh (old x before), fun same => fresh (same ▸ self), misses⟩

theorem Underway.comeBack {done : List INode} (exploring : Exploring graph.children w node done new (w'.leave node child))
    (kept : Kept graph w' s') (current : Current graph w' s' node)
    (stack : s'.stack = (graph.touching (w.met ++ [node]) new).reverse ++ node :: s.stack)
    (step : child ∈ graph.children node) (met : child ∈ w'.met) :
    ∃ t, s'.comeBack node child = .ok t ∧ Underway graph w s node done new (w'.leave node child) t := by
  have self : node ∈ w'.met := by
    have there : node ∈ (w'.leave node child).met := by
      rw [exploring.met]
      exact List.mem_append_right _ List.mem_cons_self
    exact there
  have onStack : child ∈ s'.stack ↔ Mutual graph.children node child :=
    (current.stacked child met).trans ⟨fun back => ⟨reaches_next step, back⟩, fun both => both.2⟩
  obtain ⟨t, came, kept', same, _⟩ := kept.comeBack self met step onStack
  refine ⟨t, came, exploring, kept', ⟨current.pending, fun other member => ?_⟩, same.trans stack⟩
  rw [same]
  exact current.stacked other member

theorem Underway.stack_visited {done : List INode} (h : Underway graph w s node done new w' s')
    (explored : Explored graph.children w' child more w'') (found : Found graph w' s' more w'' s'') :
    s''.stack = (graph.touching (w.met ++ [node]) (new ++ more)).reverse ++ node :: s.stack := by
  have once := explored.once
  rw [explored.met, List.nodup_append] at once
  have met : w'.met = (w.met ++ [node]) ++ new := by
    rw [h.exploring.met, List.append_assoc]
    rfl
  have same : graph.touching w'.met more = graph.touching (w.met ++ [node]) more := by
    refine touching_congr fun x member => ⟨fun touches => ?_, fun touches => ?_⟩
    · obtain ⟨other, there, both⟩ := touches
      rw [met] at there
      cases List.mem_append.1 there with
      | inl before => exact ⟨other, before, both⟩
      | inr inside =>
        -- A path from what was visited on the way leads to what was met before.
        cases leaves (P := (· ∈ new)) both.2 inside with
        | inl here =>
          have earlier : x ∈ w'.met := by rw [met]; exact List.mem_append_right _ here
          exact absurd rfl (once.2.2 x earlier x member)
        | inr exit =>
          obtain ⟨last, next, within, step, outside, ahead, rest⟩ := exit
          have known := h.exploring.closed last within next step
          rw [met] at known
          have old := (List.mem_append.1 known).resolve_right outside
          exact ⟨next, old, both.1.trans (ahead.tail step), rest⟩
    · obtain ⟨other, there, both⟩ := touches
      exact ⟨other, by rw [met]; exact List.mem_append_left _ there, both⟩
  rw [found.stack, h.stack, same, touching_append, List.reverse_append, List.append_assoc]

/-- The search of a node finds the components of what is new, unless a path to the first node of
one of them is missing: then the component gets stuck. -/
theorem followNode_found (present : graph.ChildrenPresent) {fuel : Nat} (has : node ∈ graph.nodes.values)
    (before : Kept graph w s) (current : Current graph w s node) (fresh : node ∉ w.met)
    (enough : unmet graph.nodes.values w.met < fuel) :
    ∃ s' new, graph.followNode fuel s node = .ok s' ∧
      Explored graph.children w node new (visit graph.children fuel w node) ∧
      (Found graph w s new (visit graph.children fuel w node) s' ∨
        Failed graph w s (visit graph.children fuel w node) s') := by
  induction fuel generalizing w s node with
  | zero => exact absurd enough (Nat.not_lt_zero _)
  | succ fuel ih =>
    have missing : node ∉ s.visited := by rw [OrderedSet.mem_def, before.tracks.visited]; exact fresh
    rw [followNode_eq ((has_iff_mem_values node).2 has) missing]
    have entered : Underway graph w s node [] [] (w.enter node) (s.enter node) :=
      ⟨exploring_enter fresh before.once, before.enter fresh, current.enter fresh, rfl⟩
    obtain ⟨new, exploring, t, went, state⟩ := visit_steps has fresh before.once (Nat.le_of_lt enough)
      (fun _ child step => visit_explored present.within (present.within node has child step))
      (P := fun done new w' => ∃ t, graph.followChildren fuel node done (s.enter node) = .ok t ∧
        (Underway graph w s node done new w' t ∨ Broken graph w s node w' t))
      ⟨_, rfl, .inl entered⟩
      (fun done new w' child exploring state step known less => by
        have self : node ∈ w'.met := by
          rw [exploring.met]
          exact List.mem_append_right _ List.mem_cons_self
        have fuelled : 0 < fuel := by omega
        obtain ⟨t, went, state⟩ := state
        cases state with
        | inl good =>
          have child' : graph.followNode fuel t child = .ok t := followNode_known good.kept.tracks known fuelled
          obtain ⟨t', came, good'⟩ := Underway.comeBack (exploring.known step known) good.kept good.current
            good.stack step known
          exact ⟨t', followChildren_concat went child' came, .inl good'⟩
        | inr bad =>
          have child' : graph.followNode fuel t child = .ok t := followNode_known bad.tracks known fuelled
          obtain ⟨t', came, bad'⟩ := bad.comeBack self known
          exact ⟨t', followChildren_concat went child' came, .inr bad'⟩)
      (fun done new more w' child exploring state step unknown less explored => by
        have inside := present.within node has child step
        have smaller : unmet graph.nodes.values w'.met < fuel := by omega
        have exploring' := exploring.fresh step explored
        have met : child ∈ (visit graph.children fuel w' child).met :=
          exploring'.come child (List.mem_append_right _ (List.mem_singleton_self _))
        have self : node ∈ w'.met := by
          rw [exploring.met]
          exact List.mem_append_right _ List.mem_cons_self
        have there : node ∈ (visit graph.children fuel w' child).met := by
          rw [explored.met]
          exact List.mem_append_left _ self
        have old : ∀ x ∈ w.met, x ∈ w'.met := fun x member => by
          rw [exploring.met]
          exact List.mem_append_left _ member
        obtain ⟨t, went, state⟩ := state
        cases state with
        | inl good =>
          obtain ⟨t', more', child', explored', outcome⟩ :=
            ih inside good.kept (good.current.descend step unknown) unknown smaller
          have same : more' = more := List.append_cancel_left (explored'.met.symm.trans explored.met)
          rw [same] at outcome
          cases outcome with
          | inl found =>
            obtain ⟨t'', came, good'⟩ := Underway.comeBack exploring' found.kept
              (good.current.returned good.kept.tracks self step explored found)
              (good.stack_visited explored found) step met
            exact ⟨t'', followChildren_concat went child' came, .inl good'⟩
          | inr failed =>
            obtain ⟨_, went', tracks, _⟩ := followNode_tracks present inside good.kept.tracks exploring.once smaller
            rw [child'] at went'
            cases went'
            have id : s.id ≤ t.id := by
              rw [before.tracks.id, good.kept.tracks.id, exploring.met, List.length_append]
              exact Nat.le_add_right _ _
            obtain ⟨t'', came, bad'⟩ := (failed.broken tracks old self id).comeBack there met
            exact ⟨t'', followChildren_concat went child' came, .inr bad'⟩
        | inr bad =>
          obtain ⟨t', child', tracks, keeps⟩ := followNode_tracks present inside bad.tracks exploring.once smaller
          have once := explored.once
          rw [explored.met, List.nodup_append] at once
          obtain ⟨steps, left, known'⟩ := explored.left
          have later := bad.next tracks keeps explored.met left fun x member other among same =>
            once.2.2 x member other.1 (known' other among).1 same
          obtain ⟨t'', came, bad'⟩ := later.comeBack there met
          exact ⟨t'', followChildren_concat went child' came, .inr bad'⟩)
    rw [went, ok_bind]
    cases state with
    | inl good =>
      obtain ⟨s', finished, outcome⟩ := good.finish before current
      exact ⟨s', node :: new, finished, exploring.explored, outcome⟩
    | inr bad =>
      have place : (visit graph.children (fuel + 1) w node).met[s.id]? = some node := by
        rw [exploring.met, before.tracks.id, List.getElem?_append_right (Nat.le_refl _), Nat.sub_self]
        rfl
      obtain ⟨s', finished, failed⟩ := bad.finish place
      exact ⟨s', node :: new, finished, exploring.explored, .inr failed⟩

end NodeAutomation.DirectedGraph
