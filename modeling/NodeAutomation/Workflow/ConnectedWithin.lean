import NodeAutomation.Lib.Hops
import NodeAutomation.Workflow.ConnectedNodes
import Mathlib.Data.List.Pairwise

/-! The memoised walk with a depth limit: what is cached for a node on a cycle may
be incomplete, and still the start's own list is exactly what lies within the
limit. Without cycles and without a limit the list is ordered, every node behind
its descendants. -/

namespace NodeAutomation.ConnectedNodes
open Relation

theorem foldr_moveToFront {front nodes : List String} (once : front.Nodup) (nodup : nodes.Nodup) :
    front.foldr (fun n nodes => moveToFront nodes n) nodes = front ++ nodes.filter (· ∉ front) := by
  induction front with
  | nil => simp
  | cons n front ih =>
    obtain ⟨fresh, once⟩ := List.nodup_cons.1 once
    rw [List.foldr_cons, ih once, moveToFront, List.erase_append_right _ fresh,
      (nodup.filter _).erase_eq_filter, List.filter_filter, List.cons_append]
    congr 2
    apply List.filter_congr
    intro x _
    simp [not_or, bne, beq_eq_decide]

theorem nodup_moveToFront {nodes : List String} (nodup : nodes.Nodup) (n : String) :
    (moveToFront nodes n).Nodup :=
  List.nodup_cons.2 ⟨nodup.not_mem_erase, nodup.erase n⟩

theorem nodup_foldr_moveToFront {front nodes : List String} (once : front.Nodup)
    (nodup : nodes.Nodup) : (front.foldr (fun n nodes => moveToFront nodes n) nodes).Nodup := by
  rw [foldr_moveToFront once nodup]
  refine List.nodup_append.2 ⟨once, nodup.filter _, fun a first b second same => ?_⟩
  subst same
  simp [first] at second

/-- The hops left one step further on. -/
def below (depth : Int) : Int := if depth = -1 then depth else depth - 1

/-- An expansion with `wide` hops left looks at least as far as one with `depth`. -/
def Covers (wide depth : Int) : Prop := wide < 0 ∨ 0 < depth ∧ depth ≤ wide

theorem covers_self {depth : Int} (h : depth ≠ 0) : Covers depth depth := by
  unfold Covers
  omega

theorem Covers.above_below {wide depth : Int} (nonzero : wide ≠ 0) (h : Covers (below wide) depth) :
    Covers wide depth := by
  unfold Covers below at *
  split at h <;> omega

section

variable (connections : IConnections) (filter : ConnectionFilter) (root : String)

/-- `y` lies one or more hops behind `x`, and no further than the limit allows. -/
def Within (depth : Int) (x y : String) : Prop :=
  ∃ k : Nat, 1 ≤ k ∧ (depth < 0 ∨ k ≤ depth) ∧ Hops (Next connections filter) k x y

def Expanded (memo : Memo) (depth : Int) (x : String) : Prop :=
  ∃ nodes, memo.get (depth, x) = some nodes

/-- Nothing is left to be done at `x` with so many hops left. -/
def Settled (memo : Memo) (depth : Int) (x : String) : Prop :=
  depth = 0 ∨ Leaf connections x ∨ ∃ wide, Covers wide depth ∧ Expanded memo wide x

def SoundWithin (depth : Int) (x : String) (nodes : List String) : Prop :=
  nodes.Nodup ∧ ∀ y ∈ nodes, Within connections filter depth x y ∧ y ≠ root

def MemoSound (memo : Memo) : Prop :=
  ∀ depth x nodes, memo.get (depth, x) = some nodes →
    SoundWithin connections filter root depth x nodes

/-- What holds of a node that was expanded since `before`, with `nodes` collected and
`path` still open: its targets are collected and settled, but for those on the path. -/
def Followed (depth : Int) (path nodes : List String) (before memo : Memo) : Prop :=
  ∀ d x, Expanded memo d x → ¬ Expanded before d x → Covers depth d ∧
    ∀ y, Next connections filter x y →
      y ∈ path ∨ y ∈ nodes ∧ Settled connections memo (below d) y

/-- The state of the walk among the connections of `name`. -/
structure Advance (name : String) (depth : Int) (path : List String) (before : Memo)
    (state : List String × Memo) : Prop where
  mono : ∀ d x, Expanded before d x → Expanded state.2 d x
  ok : MemoSound connections filter root state.2
  sound : SoundWithin connections filter root depth name state.1
  followed : Followed connections filter depth path state.1 before state.2

/-- What the expansion of `name` returns. -/
structure Gathered (name : String) (depth : Int) (path : List String) (before : Memo)
    (found : List String × Memo) : Prop where
  mono : ∀ d x, Expanded before d x → Expanded found.2 d x
  ok : MemoSound connections filter root found.2
  sound : SoundWithin connections filter root depth name found.1
  done : Settled connections found.2 depth name
  followed : ∀ d x, Expanded found.2 d x → ¬ Expanded before d x → Covers depth d ∧
    ∀ y, Next connections filter x y →
      y ∈ path ∨ (y = name ∨ y ∈ found.1) ∧ Settled connections found.2 (below d) y

variable {connections filter root}

variable {depth : Int}

theorem Settled.mono {before memo : Memo} {x : String}
    (later : ∀ d x, Expanded before d x → Expanded memo d x)
    (h : Settled connections before depth x) : Settled connections memo depth x := by
  refine h.imp_right (.imp_right ?_)
  rintro ⟨wide, covers, expanded⟩
  exact ⟨wide, covers, later wide x expanded⟩

theorem expanded_set {memo : Memo} {depth d : Int} {name x : String} {nodes : List String} :
    Expanded (memo.set (depth, name) nodes) d x ↔ d = depth ∧ x = name ∨ Expanded memo d x := by
  unfold Expanded
  rw [OrderedMap.get_set]
  by_cases here : (d, x) = (depth, name)
  · simp [Prod.mk.inj here]
  · rw [if_neg here]
    have apart : ¬ (d = depth ∧ x = name) := fun same => here (Prod.ext same.1 same.2)
    simp [apart]

theorem Within.of_next {x y z : String} (nonzero : depth ≠ 0)
    (first : Next connections filter x y) (h : Within connections filter (below depth) y z) :
    Within connections filter depth x z := by
  obtain ⟨k, -, allowed, hops⟩ := h
  refine ⟨k + 1, by omega, ?_, hops.head first⟩
  unfold below at allowed
  split at allowed <;> push_cast <;> omega

theorem within_next {x y : String} (nonzero : depth ≠ 0)
    (first : Next connections filter x y) : Within connections filter depth x y := by
  refine ⟨1, by omega, ?_, x, rfl, first⟩
  push_cast
  omega

variable {path : List String}

/-- One connection: its target is collected and settled, unless it is on the path. -/
theorem visitConnection_advance {collect : String → Memo → List String × Memo} {name : String} {before : Memo} {state : List String × Memo} {next : String}
    (nonzero : depth ≠ 0) (onPath : root ∈ path) (edge : Next connections filter name next)
    (spec : next ∉ path → ∀ memo, MemoSound connections filter root memo →
      @Gathered connections filter root next (below depth) path memo (collect next memo))
    (advance : Advance connections filter root name depth path before state) :
    let after := visitConnection collect path state next
    Advance connections filter root name depth path before after ∧
      (∀ d x, Expanded state.2 d x → Expanded after.2 d x) ∧ (∀ x ∈ state.1, x ∈ after.1) ∧
      (next ∈ path ∨ next ∈ after.1 ∧ Settled connections after.2 (below depth) next) := by
  by_cases skip : next ∈ path
  · simp only [visitConnection, skip, if_true]
    exact ⟨advance, fun _ _ h => h, fun _ h => h, .inl trivial⟩
  have found := spec skip state.2 advance.ok
  have nodes : (visitConnection collect path state next).1 =
      (collect next state.2).1.foldr (fun n nodes => moveToFront nodes n)
        (moveToFront state.1 next) := by
    simp only [visitConnection, skip, if_false]
  have memo : (visitConnection collect path state next).2 = (collect next state.2).2 := by
    simp only [visitConnection, skip, if_false]
  have members : ∀ x, x ∈ (visitConnection collect path state next).1 ↔
      x ∈ (collect next state.2).1 ∨ x = next ∨ x ∈ state.1 := by
    intro x
    rw [nodes, mem_foldr_moveToFront, mem_moveToFront]
  have here : next ∈ (visitConnection collect path state next).1 :=
    (members next).2 (.inr (.inl rfl))
  have kept : ∀ x ∈ state.1, x ∈ (visitConnection collect path state next).1 :=
    fun x member => (members x).2 (.inr (.inr member))
  refine ⟨⟨?_, ?_, ⟨?_, ?_⟩, ?_⟩, memo ▸ found.mono, kept, .inr ⟨here, memo ▸ found.done⟩⟩
  · exact fun d x h => memo ▸ found.mono d x (advance.mono d x h)
  · exact memo ▸ found.ok
  · rw [nodes]
    exact nodup_foldr_moveToFront found.sound.1 (nodup_moveToFront advance.sound.1 next)
  · intro x member
    rcases (members x).1 member with new | same | old
    · exact ⟨(found.sound.2 x new).1.of_next nonzero edge, (found.sound.2 x new).2⟩
    · subst same
      exact ⟨within_next nonzero edge, fun eq => skip (eq ▸ onPath)⟩
    · exact advance.sound.2 x old
  · intro d x expanded fresh
    rw [memo] at expanded ⊢
    by_cases already : Expanded state.2 d x
    · obtain ⟨covers, targets⟩ := advance.followed d x already fresh
      refine ⟨covers, fun y step => (targets y step).imp_right fun collected => ?_⟩
      exact ⟨kept y collected.1, collected.2.mono found.mono⟩
    · obtain ⟨covers, targets⟩ := found.followed d x expanded already
      refine ⟨covers.above_below nonzero, fun y step => (targets y step).imp_right fun collected => ?_⟩
      refine ⟨(members y).2 ?_, collected.2⟩
      exact collected.1.elim (fun same => .inr (.inl same)) .inl

theorem foldl_visitConnection_advance {collect : String → Memo → List String × Memo}
    {name : String} {before : Memo} (nonzero : depth ≠ 0)
    (onPath : root ∈ path) (names : List String)
    (edges : ∀ next ∈ names, Next connections filter name next)
    (spec : ∀ next, next ∉ path → ∀ memo, MemoSound connections filter root memo →
      @Gathered connections filter root next (below depth) path memo (collect next memo))
    (state : List String × Memo)
    (advance : Advance connections filter root name depth path before state) :
    let after := names.foldl (visitConnection collect path) state
    Advance connections filter root name depth path before after ∧
      (∀ d x, Expanded state.2 d x → Expanded after.2 d x) ∧ (∀ x ∈ state.1, x ∈ after.1) ∧
      ∀ next ∈ names,
        next ∈ path ∨ next ∈ after.1 ∧ Settled connections after.2 (below depth) next := by
  induction names generalizing state with
  | nil => exact ⟨advance, fun _ _ h => h, fun _ h => h, by simp⟩
  | cons next names ih =>
    obtain ⟨advance', later, kept, here⟩ := visitConnection_advance nonzero onPath
      (edges next List.mem_cons_self) (spec next) advance
    obtain ⟨advance'', later', kept', rest⟩ := ih
      (fun n member => edges n (List.mem_cons_of_mem _ member)) _ advance'
    refine ⟨advance'', fun d x h => later' d x (later d x h), fun x h => kept' x (kept x h),
      fun n member => ?_⟩
    cases List.mem_cons.1 member with
    | inl same =>
      subst same
      exact here.imp_right fun collected => ⟨kept' n collected.1, collected.2.mono later'⟩
    | inr other => exact rest n other

/-- Closing an expansion: a target that was left out because it is the expanded node
itself is settled now, since that node had more hops left. -/
theorem gathered_set {name : String} {before : Memo}
    {found : List String × Memo} (nonzero : depth ≠ 0)
    (advance : Advance connections filter root name depth (name :: path) before found)
    (targets : ∀ next, Next connections filter name next →
      next ∈ name :: path ∨ next ∈ found.1 ∧ Settled connections found.2 (below depth) next) :
    @Gathered connections filter root name depth path before
      (found.1, found.2.set (depth, name) found.1) := by
  have later : ∀ d x, Expanded found.2 d x → Expanded (found.2.set (depth, name) found.1) d x :=
    fun d x h => expanded_set.2 (.inr h)
  have self : Expanded (found.2.set (depth, name) found.1) depth name :=
    expanded_set.2 (.inl ⟨rfl, rfl⟩)
  have closed : ∀ d, Covers depth d → ∀ y,
      y ∈ name :: path ∨ y ∈ found.1 ∧ Settled connections found.2 (below d) y →
      y ∈ path ∨ (y = name ∨ y ∈ found.1) ∧
        Settled connections (found.2.set (depth, name) found.1) (below d) y := by
    intro d covers y reached
    rcases reached with onPath | ⟨member, settled⟩
    · cases List.mem_cons.1 onPath with
      | inl same =>
        subst same
        refine .inr ⟨.inl rfl, ?_⟩
        by_cases last : below d = 0
        · exact .inl last
        · refine .inr (.inr ⟨depth, ?_, self⟩)
          unfold Covers below at *
          split at last <;> omega
      | inr further => exact .inl further
    · exact .inr ⟨.inr member, settled.mono later⟩
  refine ⟨fun d x h => later d x (advance.mono d x h), ?_, advance.sound,
    .inr (.inr ⟨depth, covers_self nonzero, self⟩), fun d x expanded fresh => ?_⟩
  · intro d x nodes stored
    rw [OrderedMap.get_set] at stored
    split at stored
    · rename_i here
      obtain ⟨depthEq, nameEq⟩ := Prod.mk.inj here
      rw [depthEq, nameEq, ← Option.some.inj stored]
      exact advance.sound
    · exact advance.ok d x nodes stored
  · rcases expanded_set.1 expanded with ⟨rfl, rfl⟩ | old
    · exact ⟨covers_self nonzero, fun y step => closed d (covers_self nonzero) y (targets y step)⟩
    · obtain ⟨covers, targets⟩ := advance.followed d x old fresh
      exact ⟨covers, fun y step => closed d covers y (targets y step)⟩

theorem gathered_nil {name : String} {memo : Memo}
    (ok : MemoSound connections filter root memo) (done : Settled connections memo depth name) :
    @Gathered connections filter root name depth path memo ([], memo) :=
  ⟨fun _ _ h => h, ok, ⟨List.nodup_nil, by simp⟩, done, fun _ _ h fresh => absurd h fresh⟩

theorem collectConnectedNodes_gathered (fuel : Nat) (name : String) (depth : Int)
    (path : List String) (memo : Memo) (onPath : root ∈ name :: path) (fresh : name ∉ path)
    (enough : remaining connections path + 1 ≤ fuel) (ok : MemoSound connections filter root memo) :
    @Gathered connections filter root name depth path memo
      (collectConnectedNodes connections filter fuel name depth path memo) := by
  induction fuel generalizing name depth path memo with
  | zero => omega
  | succ fuel ih =>
    rw [collectConnectedNodes]
    by_cases last : depth = 0
    · rw [if_pos last]
      exact gathered_nil ok (.inl last)
    rw [if_neg last]
    cases stored : connections.get name with
    | none => exact gathered_nil ok (.inr (.inl stored))
    | some byType =>
      cases cached : memo.get (depth, name) with
      | some nodes =>
        exact ⟨fun _ _ h => h, ok, ok depth name nodes cached,
          .inr (.inr ⟨depth, covers_self last, nodes, cached⟩), fun _ _ h fresh => absurd h fresh⟩
      | none =>
        have key : name ∈ connections.keys := (connections.mem_keys_iff name).2 ⟨byType, stored⟩
        have less := remaining_cons fresh key
        obtain ⟨advance, -, -, targets⟩ := foldl_visitConnection_advance last onPath
          (targets filter byType) (fun next member => ⟨byType, stored, member⟩)
          (fun next fresh memo ok => ih next (below depth) (name :: path) memo
            (List.mem_cons_of_mem _ onPath) fresh (by omega) ok)
          ([], memo) ⟨fun _ _ h => h, ok, ⟨List.nodup_nil, by simp⟩,
            fun _ _ h fresh => absurd h fresh⟩
        refine gathered_set last advance fun next edge => ?_
        obtain ⟨byType', stored', member⟩ := edge
        rw [stored] at stored'
        exact targets next (Option.some.inj stored' ▸ member)

theorem Settled.weaken {memo : Memo} {d d' : Int} {x : String} (h : Settled connections memo d x)
    (fewer : d < 0 ∨ 0 ≤ d' ∧ d' ≤ d) : Settled connections memo d' x := by
  rcases h with last | leaf | ⟨wide, covers, expanded⟩
  · exact .inl (by omega)
  · exact .inr (.inl leaf)
  · by_cases last : d' = 0
    · exact .inl last
    · refine .inr (.inr ⟨wide, ?_, expanded⟩)
      unfold Covers at *
      omega

/-- The hops left after `k` of them, any negative number standing for no limit. -/
def left (depth : Int) (k : Nat) : Int := if depth < 0 then -1 else depth - k

/-- Induction on the hops: whatever is expanded has its targets collected, and
settled with at least as many hops left as the way from the start leaves. -/
theorem Gathered.settled {found : List String × Memo} {k : Nat} {x : String}
    (gathered : @Gathered connections filter root root depth [] ∅ found)
    (allowed : depth < 0 ∨ k ≤ depth) (hops : Hops (Next connections filter) k root x) :
    Settled connections found.2 (left depth k) x ∧ (x = root ∨ x ∈ found.1) := by
  induction k generalizing x with
  | zero =>
    have start : root = x := hops
    subst start
    refine ⟨gathered.done.weaken ?_, .inl rfl⟩
    unfold left
    split <;> push_cast <;> omega
  | succ k ih =>
    obtain ⟨y, hops, edge⟩ := hops
    push_cast at allowed
    rcases (ih (by omega) hops).1 with last | leaf | ⟨wide, covers, expanded⟩
    · unfold left at last
      split at last <;> omega
    · obtain ⟨byType, stored, -⟩ := edge
      simp [Leaf, stored] at leaf
    · have fresh : ¬ Expanded ∅ wide y := by
        simp [Expanded]
      obtain onPath | ⟨member, settled⟩ := (gathered.followed wide y expanded fresh).2 x edge
      · cases onPath
      · refine ⟨settled.weaken ?_, member⟩
        unfold Covers left below at *
        push_cast
        split at covers <;> split <;> simp_all <;> omega

end

variable {connections : IConnections} {filter : ConnectionFilter} {root : String}

theorem getConnectedNodes_gathered (depth : Int) : ∃ found,
    @Gathered connections filter root root depth [] ∅ found ∧
      getConnectedNodes connections root filter depth = found.1 := by
  have emptyOk : MemoSound connections filter root ∅ := by
    intro depth x nodes h
    simp at h
  exact ⟨_, collectConnectedNodes_gathered (connections.size + 1) root depth [] ∅
    List.mem_cons_self List.not_mem_nil (by simp [remaining_nil]) emptyOk, rfl⟩

theorem nodup_getConnectedNodes (depth : Int) :
    (getConnectedNodes connections root filter depth).Nodup := by
  obtain ⟨found, gathered, eq⟩ := @getConnectedNodes_gathered connections filter root depth
  exact eq ▸ gathered.sound.1

theorem mem_getConnectedNodes_within (depth : Int) (x : String) :
    x ∈ getConnectedNodes connections root filter depth ↔
      x ≠ root ∧ Within connections filter depth root x := by
  obtain ⟨found, gathered, eq⟩ := @getConnectedNodes_gathered connections filter root depth
  rw [eq]
  constructor
  · intro member
    exact ⟨(gathered.sound.2 x member).2, (gathered.sound.2 x member).1⟩
  · rintro ⟨other, k, -, allowed, hops⟩
    exact (gathered.settled allowed hops).2.resolve_left other

/-! The order, where no walked connection closes a cycle. -/

section

variable (connections filter root)

/-- No node the start leads to, itself included, leads back to itself. -/
def Acyclic : Prop :=
  ∀ x, ReflTransGen (Next connections filter) root x → ¬ TransGen (Next connections filter) x x

def DescendantsFirst (nodes : List String) : Prop :=
  nodes.Pairwise fun earlier later => ¬ TransGen (Next connections filter) earlier later

/-- All descendants and nothing else, in order. -/
def Complete (x : String) (nodes : List String) : Prop :=
  nodes.Nodup ∧ (∀ y, y ∈ nodes ↔ TransGen (Next connections filter) x y) ∧
    DescendantsFirst connections filter nodes

def MemoComplete (memo : Memo) : Prop :=
  ∀ x nodes, ReflTransGen (Next connections filter) root x → memo.get (-1, x) = some nodes →
    Complete connections filter x nodes

structure Ordered (name : String) (nodes : List String) : Prop where
  nodup : nodes.Nodup
  behind : ∀ y ∈ nodes, TransGen (Next connections filter) name y
  closed : ∀ y ∈ nodes, ∀ z, TransGen (Next connections filter) y z → z ∈ nodes
  order : DescendantsFirst connections filter nodes

variable {connections filter root}

/-- The descendants of a connection's target go to the front, the target behind
them, and what was there before behind both. -/
theorem Ordered.add {name next : String} {nodes found : List String}
    (ordered : Ordered connections filter name nodes) (edge : Next connections filter name next)
    (complete : Complete connections filter next found) :
    Ordered connections filter name
      (found.foldr (fun n nodes => moveToFront nodes n) (moveToFront nodes next)) where
  nodup := nodup_foldr_moveToFront complete.1 (nodup_moveToFront ordered.nodup next)
  behind := by
    intro y member
    rw [mem_foldr_moveToFront, mem_moveToFront, complete.2.1] at member
    rcases member with further | same | old
    · exact .head edge further
    · exact .single (same ▸ edge)
    · exact ordered.behind y old
  closed := by
    intro y member z path
    rw [mem_foldr_moveToFront, mem_moveToFront, complete.2.1] at member ⊢
    rcases member with further | same | old
    · exact .inl (further.trans path)
    · exact .inl (same ▸ path)
    · exact .inr (.inr (ordered.closed y old z path))
  order := by
    rw [foldr_moveToFront complete.1 (nodup_moveToFront ordered.nodup next), DescendantsFirst,
      List.pairwise_append]
    refine ⟨complete.2.2, List.pairwise_filter.2 (List.pairwise_cons.2 ⟨fun y _ _ missing path => ?_, ?_⟩),
      fun a first b second path => ?_⟩
    · simp only [decide_not, Bool.not_eq_true', decide_eq_false_iff_not, complete.2.1] at missing
      exact missing path
    · have kept := ordered.order.sublist (@List.erase_sublist _ _ next nodes)
      exact kept.imp fun apart _ _ => apart
    · have missing := (List.mem_filter.1 second).2
      simp only [decide_not, Bool.not_eq_true', decide_eq_false_iff_not, complete.2.1] at missing
      exact missing (((complete.2.1 a).1 first).trans path)

theorem visitConnection_ordered {collect : String → Memo → List String × Memo} {name : String}
    {path : List String} {state : List String × Memo} {next : String}
    (edge : Next connections filter name next)
    (acyclic : ¬ TransGen (Next connections filter) next next)
    (above : ∀ p ∈ path, ReflTransGen (Next connections filter) p name)
    (spec : ∀ memo, MemoComplete connections filter root memo →
      MemoComplete connections filter root (collect next memo).2 ∧
        Complete connections filter next (collect next memo).1)
    (ok : MemoComplete connections filter root state.2)
    (ordered : Ordered connections filter name state.1) :
    let after := visitConnection collect path state next
    MemoComplete connections filter root after.2 ∧ Ordered connections filter name after.1 ∧
      (∀ x ∈ state.1, x ∈ after.1) ∧ next ∈ after.1 := by
  have off : next ∉ path := fun onPath => acyclic (.tail' (above next onPath) edge)
  obtain ⟨ok', complete⟩ := spec state.2 ok
  simp only [visitConnection, off, if_false, mem_foldr_moveToFront, mem_moveToFront]
  exact ⟨ok', ordered.add edge complete, fun x member => .inr (.inr member),
    .inr (.inl trivial)⟩

theorem foldl_visitConnection_ordered {collect : String → Memo → List String × Memo}
    {name : String} {path : List String} (names : List String)
    (edges : ∀ next ∈ names, Next connections filter name next)
    (acyclic : ∀ next ∈ names, ¬ TransGen (Next connections filter) next next)
    (above : ∀ p ∈ path, ReflTransGen (Next connections filter) p name)
    (spec : ∀ next ∈ names, ∀ memo, MemoComplete connections filter root memo →
      MemoComplete connections filter root (collect next memo).2 ∧
        Complete connections filter next (collect next memo).1)
    (state : List String × Memo) (ok : MemoComplete connections filter root state.2)
    (ordered : Ordered connections filter name state.1) :
    let after := names.foldl (visitConnection collect path) state
    MemoComplete connections filter root after.2 ∧ Ordered connections filter name after.1 ∧
      (∀ x ∈ state.1, x ∈ after.1) ∧ ∀ next ∈ names, next ∈ after.1 := by
  induction names generalizing state with
  | nil => exact ⟨ok, ordered, fun _ h => h, by simp⟩
  | cons next names ih =>
    rw [List.forall_mem_cons] at edges acyclic spec
    obtain ⟨ok', ordered', kept, here⟩ := visitConnection_ordered edges.1 acyclic.1 above spec.1
      ok ordered
    obtain ⟨ok'', ordered'', kept', rest⟩ := ih edges.2 acyclic.2 spec.2 _ ok' ordered'
    refine ⟨ok'', ordered'', fun x h => kept' x (kept x h), fun n member => ?_⟩
    cases List.mem_cons.1 member with
    | inl same => exact same ▸ kept' next here
    | inr other => exact rest n other

/-- Without cycles nothing is skipped because of the path, so cached lists are complete. -/
theorem collectConnectedNodes_complete (acyclic : Acyclic connections filter root) (fuel : Nat)
    (name : String) (path : List String) (memo : Memo)
    (behind : ReflTransGen (Next connections filter) root name)
    (above : ∀ p ∈ path, TransGen (Next connections filter) p name)
    (enough : remaining connections path + 1 ≤ fuel)
    (ok : MemoComplete connections filter root memo) :
    let found := collectConnectedNodes connections filter fuel name (-1) path memo
    MemoComplete connections filter root found.2 ∧ Complete connections filter name found.1 := by
  induction fuel generalizing name path memo with
  | zero => omega
  | succ fuel ih =>
    have leaf (none_ : ∀ next, ¬ Next connections filter name next) :
        Complete connections filter name [] := by
      refine ⟨List.nodup_nil, fun y => ⟨nofun, fun path => ?_⟩, List.Pairwise.nil⟩
      obtain ⟨next, edge, -⟩ := TransGen.head'_iff.1 path
      exact absurd edge (none_ next)
    rw [collectConnectedNodes, if_neg (by decide)]
    cases stored : connections.get name with
    | none =>
      refine ⟨ok, leaf fun next edge => ?_⟩
      obtain ⟨byType, stored', -⟩ := edge
      rw [stored] at stored'
      cases stored'
    | some byType =>
      cases cached : memo.get (-1, name) with
      | some nodes => exact ⟨ok, ok name nodes behind cached⟩
      | none =>
        have fresh : name ∉ path := fun onPath => acyclic name behind (above name onPath)
        have key : name ∈ connections.keys := (connections.mem_keys_iff name).2 ⟨byType, stored⟩
        have less := remaining_cons fresh key
        have edges : ∀ next ∈ targets filter byType, Next connections filter name next :=
          fun next member => ⟨byType, stored, member⟩
        have above' : ∀ p ∈ name :: path, ReflTransGen (Next connections filter) p name := by
          intro p member
          cases List.mem_cons.1 member with
          | inl same => rw [same]
          | inr other => exact (above p other).to_reflTransGen
        have empty : Ordered connections filter name [] :=
          ⟨List.nodup_nil, by simp, by simp, List.Pairwise.nil⟩
        obtain ⟨ok', ordered, -, covered⟩ := foldl_visitConnection_ordered
          (targets filter byType) edges (fun next member => acyclic next (behind.tail (edges next member)))
          above' (fun next member memo ok => ih next (name :: path) memo
            (behind.tail (edges next member))
            (fun p onPath => .tail' (above' p onPath) (edges next member)) (by omega) ok)
          ([], memo) ok empty
        simp only [if_true] at *
        generalize (targets filter byType).foldl _ ([], memo) = found at ok' ordered covered ⊢
        have complete : Complete connections filter name found.1 := by
          refine ⟨ordered.nodup, fun y => ⟨ordered.behind y, fun path => ?_⟩, ordered.order⟩
          obtain ⟨next, ⟨byType', stored', member⟩, further⟩ := TransGen.head'_iff.1 path
          rw [stored] at stored'
          have here := covered next (Option.some.inj stored' ▸ member)
          cases reflTransGen_iff_eq_or_transGen.1 further with
          | inl same => exact same ▸ here
          | inr further => exact ordered.closed next here y further
        refine ⟨fun x nodes behind' hx => ?_, complete⟩
        rw [OrderedMap.get_set] at hx
        split at hx
        · rename_i here
          rw [(Prod.mk.inj here).2, ← Option.some.inj hx]
          exact complete
        · exact ok' x nodes behind' hx

end

/-- The walk is plain reachability within the limit, each node once; without a
limit and without cycles every node stands behind its descendants. -/
theorem getConnectedNodes_within (connections : IConnections) (filter : ConnectionFilter)
    (root : String) (depth : Int) :
    let nodes := getConnectedNodes connections root filter depth
    nodes.Nodup ∧
      (∀ x, x ∈ nodes ↔ x ≠ root ∧ ∃ k : Nat, 1 ≤ k ∧ (depth < 0 ∨ k ≤ depth) ∧
        Hops (Next connections filter) k root x) ∧
      (depth = -1 → Acyclic connections filter root → ∀ x ∈ nodes, ∀ y ∈ nodes,
        TransGen (Next connections filter) x y → nodes.idxOf y < nodes.idxOf x) := by
  refine ⟨nodup_getConnectedNodes depth, mem_getConnectedNodes_within depth,
    fun unlimited acyclic x hx y hy path => ?_⟩
  subst unlimited
  have emptyOk : MemoComplete connections filter root ∅ := by
    intro x nodes _ h
    simp at h
  have complete : Complete connections filter root (getConnectedNodes connections root filter) :=
    (collectConnectedNodes_complete acyclic (connections.size + 1) root [] ∅ .refl (by simp)
      (by simp [remaining_nil]) emptyOk).2
  generalize getConnectedNodes connections root filter = nodes at hx hy complete ⊢
  have inside := List.idxOf_lt_length_of_mem hx
  have inside' := List.idxOf_lt_length_of_mem hy
  by_contra notBefore
  rcases Nat.eq_or_lt_of_le (Nat.le_of_not_lt notBefore) with same | before
  · have equal : x = y := List.idxOf_inj hx |>.1 same
    exact acyclic x ((complete.2.1 x).1 hx).to_reflTransGen (equal ▸ path)
  · have apart := List.pairwise_iff_getElem.1 complete.2.2 _ _ inside inside' before
    rw [List.getElem_idxOf, List.getElem_idxOf] at apart
    exact apart path

end NodeAutomation.ConnectedNodes
