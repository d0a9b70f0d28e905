import NodeAutomation.Workflow.Connections
import Mathlib.Logic.Relation

/-! The memoised walk over connections
(`packages/workflow/src/common/get-connected-nodes.ts`) and what it collects:
without a depth limit, exactly the nodes reachable from the start, the start
itself left out. -/

namespace NodeAutomation.ConnectedNodes
open Relation Connections

inductive ConnectionFilter where
  | ofType (type : NodeConnectionType)
  | all
  | allNonMain
  deriving DecidableEq, Repr

def selectTypes (filter : ConnectionFilter) (byType : INodeConnections) :
    List NodeConnectionType :=
  match filter with
  | .ofType type => [type]
  | .all => byType.keys
  | .allNonMain => byType.keys.filter (· ≠ .main)

def targets (filter : ConnectionFilter) (byType : INodeConnections) : List String :=
  (selectTypes filter byType).flatMap fun type =>
    ((byType.get type).getD []).flatMap fun group => (group.getD []).map IConnection.node

/-- Results already computed, by remaining depth and node. -/
abbrev Memo := OrderedMap (Int × String) (List String)

def moveToFront (returnNodes : List String) (nodeName : String) : List String :=
  nodeName :: returnNodes.erase nodeName

def visitConnection (collect : String → Memo → List String × Memo) (currentPath : List String)
    (state : List String × Memo) (nodeName : String) : List String × Memo :=
  if nodeName ∈ currentPath then state
  else
    let found := collect nodeName state.2
    (found.1.foldr (fun parentNodeName nodes => moveToFront nodes parentNodeName)
      (moveToFront state.1 nodeName), found.2)

def collectConnectedNodes (connections : IConnections) (connectionType : ConnectionFilter) :
    Nat → String → Int → List String → Memo → List String × Memo
  | 0, _, _, _, memo => ([], memo)
  | fuel + 1, nodeName, depth, currentPath, memo =>
    if depth = 0 then ([], memo)
    else match connections.get nodeName with
      | none => ([], memo)
      | some byType =>
        match memo.get (depth, nodeName) with
        | some cached => (cached, memo)
        | none =>
          let newDepth := if depth = -1 then depth else depth - 1
          let path := nodeName :: currentPath
          let found := (targets connectionType byType).foldl
            (visitConnection (fun next => collectConnectedNodes connections connectionType fuel
              next newDepth path) path) ([], memo)
          (found.1, found.2.set (depth, nodeName) found.1)

def getConnectedNodes (connections : IConnections) (nodeName : String)
    (connectionType : ConnectionFilter := .ofType .main) (depth : Int := -1) : List String :=
  (collectConnectedNodes connections connectionType (connections.size + 1) nodeName depth [] ∅).1

def Next (connections : IConnections) (filter : ConnectionFilter) (a b : String) : Prop :=
  ∃ byType, connections.get a = some byType ∧ b ∈ targets filter byType

def ConnectionFilter.Admits : ConnectionFilter → NodeConnectionType → Prop
  | .ofType type, connectionType => connectionType = type
  | .all, _ => True
  | .allNonMain, connectionType => connectionType ≠ .main

theorem mem_selectTypes (filter : ConnectionFilter) (byType : INodeConnections)
    (type : NodeConnectionType) (outputs : NodeInputConnections)
    (stored : byType.get type = some outputs) :
    type ∈ selectTypes filter byType ↔ filter.Admits type := by
  have key : type ∈ byType.keys := (byType.mem_keys_iff type).2 ⟨outputs, stored⟩
  cases filter <;> simp [selectTypes, ConnectionFilter.Admits, key]

theorem mem_targets_iff (filter : ConnectionFilter) (byType : INodeConnections) (name : String) :
    name ∈ targets filter byType ↔ ∃ type outputs, byType.get type = some outputs ∧
      filter.Admits type ∧ ∃ group, some group ∈ outputs ∧ ∃ target ∈ group,
        target.node = name := by
  simp only [targets, List.mem_flatMap, List.mem_map]
  constructor
  · intro h
    obtain ⟨type, selected, group, member, target, inside, eq⟩ := h
    cases stored : byType.get type with
    | none => simp [stored] at member
    | some outputs =>
      rw [stored, Option.getD_some] at member
      cases group with
      | none => simp at inside
      | some group =>
        exact ⟨type, outputs, stored, (mem_selectTypes filter byType type outputs stored).1 selected,
          group, member, target, inside, eq⟩
  · intro h
    obtain ⟨type, outputs, stored, admitted, group, member, target, inside, eq⟩ := h
    exact ⟨type, (mem_selectTypes filter byType type outputs stored).2 admitted, some group,
      by rwa [stored], target, inside, eq⟩

theorem next_iff (connections : IConnections) (filter : ConnectionFilter) (a b : String) :
    Next connections filter a b ↔ ∃ link ∈ links connections,
      link.source = a ∧ filter.Admits link.type ∧ link.target.node = b := by
  simp only [Next, mem_targets_iff, mem_links_iff]
  constructor
  · intro h
    obtain ⟨byType, stored, type, outputs, storedType, admitted, group, member, target, inside, eq⟩ := h
    obtain ⟨index, found⟩ := List.mem_iff_getElem?.1 member
    exact ⟨⟨a, type, index, target⟩, ⟨byType, stored, outputs, storedType, group, found, inside⟩,
      rfl, admitted, eq⟩
  · intro h
    obtain ⟨link, ⟨byType, stored, outputs, storedType, group, found, inside⟩, eq, admitted, reach⟩ := h
    rw [eq] at stored
    exact ⟨byType, stored, link.type, outputs, storedType, admitted, group,
      List.mem_of_getElem? found, link.target, inside, reach⟩

theorem mem_moveToFront (nodes : List String) (n x : String) :
    x ∈ moveToFront nodes n ↔ x = n ∨ x ∈ nodes := by
  simp only [moveToFront, List.mem_cons]
  by_cases same : x = n
  · simp [same]
  · simp [same, List.mem_erase_of_ne same]

theorem mem_foldr_moveToFront (front nodes : List String) (x : String) :
    x ∈ front.foldr (fun n nodes => moveToFront nodes n) nodes ↔ x ∈ front ∨ x ∈ nodes := by
  induction front with
  | nil => simp
  | cons n front ih => simp [mem_moveToFront, ih, or_assoc]

section

variable (connections : IConnections) (filter : ConnectionFilter) (root : String)

def Seen (memo : Memo) (x : String) : Prop := ∃ nodes, memo.get (-1, x) = some nodes

def Leaf (x : String) : Prop := connections.get x = none

/-- What a collected list may hold: nodes further on, never the root. -/
def Sound (x : String) (nodes : List String) : Prop :=
  ∀ y ∈ nodes, TransGen (Next connections filter) x y ∧ y ≠ root

def Listed (memo : Memo) (nodes : List String) : Prop :=
  ∀ y ∈ nodes, Leaf connections y ∨ Seen memo y

def MemoOk (memo : Memo) : Prop :=
  ∀ x nodes, memo.get (-1, x) = some nodes →
    Sound connections filter root x nodes ∧ Listed connections memo nodes

/-- The state of a walk that began with `before`: the nodes expanded since then
are in `nodes`, and so are their targets, but for those on the path. -/
structure Progress (path : List String) (before memo : Memo) (nodes : List String) : Prop where
  mono : ∀ x, Seen before x → Seen memo x
  ok : MemoOk connections filter root memo
  listed : Listed connections memo nodes
  expanded : ∀ x, Seen memo x → ¬ Seen before x →
    x ∈ nodes ∧ ∀ y, Next connections filter x y → y ∈ nodes ∨ y ∈ path

variable {connections filter root}

theorem Listed.mono {before memo : Memo} {nodes : List String}
    (later : ∀ x, Seen before x → Seen memo x) (h : Listed connections before nodes) :
    Listed connections memo nodes :=
  fun y hy => (h y hy).imp_right (later y)

theorem Sound.of_next {x y : String} {nodes : List String} (first : Next connections filter x y)
    (h : Sound connections filter root y nodes) : Sound connections filter root x nodes :=
  fun z hz => ⟨.head first (h z hz).1, (h z hz).2⟩

/-- The result of expanding `name`, found on the path `path`. -/
structure Collected (name : String) (path : List String) (before : Memo)
    (found : List String × Memo) : Prop where
  mono : ∀ x, Seen before x → Seen found.2 x
  ok : MemoOk connections filter root found.2
  listed : Listed connections found.2 found.1
  sound : Sound connections filter root name found.1
  done : Leaf connections name ∨ Seen found.2 name
  expanded : ∀ x, Seen found.2 x → ¬ Seen before x →
    (x = name ∨ x ∈ found.1) ∧
      ∀ y, Next connections filter x y → y ∈ found.1 ∨ y ∈ name :: path

/-- One connection keeps the walk's progress, and its target is accounted for. -/
theorem visitConnection_progress {collect : String → Memo → List String × Memo} {name : String}
    {path : List String} {before : Memo} {state : List String × Memo} {next : String}
    (onPath : root ∈ path) (edge : Next connections filter name next)
    (spec : next ∉ path → ∀ memo, MemoOk connections filter root memo →
      @Collected connections filter root next path memo (collect next memo))
    (progress : Progress connections filter root path before state.2 state.1)
    (sound : Sound connections filter root name state.1) :
    let after := visitConnection collect path state next
    Progress connections filter root path before after.2 after.1 ∧
      Sound connections filter root name after.1 ∧ (next ∈ after.1 ∨ next ∈ path) ∧
      ∀ x ∈ state.1, x ∈ after.1 := by
  by_cases skip : next ∈ path
  · simp only [visitConnection, skip, if_true]
    exact ⟨progress, sound, .inr trivial, fun x hx => hx⟩
  have found := spec skip state.2 progress.ok
  have members : ∀ x, x ∈ (visitConnection collect path state next).1 ↔
      x ∈ (collect next state.2).1 ∨ x = next ∨ x ∈ state.1 := by
    intro x
    simp only [visitConnection, skip, if_false, mem_foldr_moveToFront, mem_moveToFront]
  have memo : (visitConnection collect path state next).2 = (collect next state.2).2 := by
    simp only [visitConnection, skip, if_false]
  refine ⟨⟨?_, ?_, ?_, ?_⟩, ?_, .inl ((members next).2 (.inr (.inl rfl))),
    fun x hx => (members x).2 (.inr (.inr hx))⟩
  · exact fun x hx => memo ▸ found.mono x (progress.mono x hx)
  · exact memo ▸ found.ok
  · intro x hx
    rw [memo]
    cases (members x).1 hx with
    | inl new => exact found.listed x new
    | inr old =>
      cases old with
      | inl same => exact same ▸ found.done
      | inr old => exact progress.listed.mono found.mono x old
  · intro x seen fresh
    rw [memo] at seen
    by_cases already : Seen state.2 x
    · obtain ⟨member, closed⟩ := progress.expanded x already fresh
      refine ⟨(members x).2 (.inr (.inr member)), fun y hy => ?_⟩
      exact (closed y hy).imp_left fun hy => (members y).2 (.inr (.inr hy))
    · obtain ⟨member, closed⟩ := found.expanded x seen already
      refine ⟨(members x).2 (member.elim (fun same => .inr (.inl same)) .inl), fun y hy => ?_⟩
      cases closed y hy with
      | inl inside => exact .inl ((members y).2 (.inl inside))
      | inr onPath =>
        cases List.mem_cons.1 onPath with
        | inl same => exact .inl ((members y).2 (.inr (.inl same)))
        | inr onPath => exact .inr onPath
  · intro x hx
    cases (members x).1 hx with
    | inl new => exact found.sound.of_next edge x new
    | inr old =>
      cases old with
      | inl same =>
        subst same
        exact ⟨.single edge, fun eq => skip (eq ▸ onPath)⟩
      | inr old => exact sound x old

theorem foldl_visitConnection {collect : String → Memo → List String × Memo} (name : String)
    {path : List String} {before : Memo} (onPath : root ∈ path) (names : List String)
    (edges : ∀ next ∈ names, Next connections filter name next)
    (spec : ∀ next, next ∉ path → ∀ memo, MemoOk connections filter root memo →
      @Collected connections filter root next path memo (collect next memo))
    (state : List String × Memo)
    (progress : Progress connections filter root path before state.2 state.1)
    (sound : Sound connections filter root name state.1) :
    let after := names.foldl (visitConnection collect path) state
    Progress connections filter root path before after.2 after.1 ∧
      Sound connections filter root name after.1 ∧
      (∀ next ∈ names, next ∈ after.1 ∨ next ∈ path) ∧ ∀ x ∈ state.1, x ∈ after.1 := by
  induction names generalizing state with
  | nil => exact ⟨progress, sound, by simp, fun x hx => hx⟩
  | cons next names ih =>
    obtain ⟨progress', sound', here, kept⟩ := visitConnection_progress onPath
      (edges next List.mem_cons_self) (spec next) progress sound
    obtain ⟨progress'', sound'', rest, kept'⟩ := ih
      (fun n hn => edges n (List.mem_cons_of_mem _ hn)) _ progress' sound'
    refine ⟨progress'', sound'', fun n hn => ?_, fun x hx => kept' x (kept x hx)⟩
    cases List.mem_cons.1 hn with
    | inl same =>
      subst same
      exact here.imp_left (kept' n)
    | inr later => exact rest n later

def remaining (connections : IConnections) (path : List String) : Nat :=
  (connections.keys.filter (· ∉ path)).length

theorem remaining_cons {name : String} {path : List String} (fresh : name ∉ path)
    (key : name ∈ connections.keys) :
    remaining connections (name :: path) + 1 ≤ remaining connections path := by
  have shrink : connections.keys.filter (· ∉ name :: path) =
      (connections.keys.filter (· ∉ path)).filter (· ≠ name) := by
    rw [List.filter_filter]
    apply List.filter_congr
    intro x _
    simp [not_or]
  have member : name ∈ connections.keys.filter (· ∉ path) := by
    simpa using ⟨key, fresh⟩
  have lt := List.length_filter_lt_length_iff_exists.2
    (⟨name, member, by simp⟩ : ∃ x ∈ connections.keys.filter (· ∉ path),
      ¬ decide (x ≠ name) = true)
  unfold remaining
  rw [shrink]
  omega

theorem memoOk_set {memo : Memo} {name : String} {nodes : List String}
    (ok : MemoOk connections filter root memo) (sound : Sound connections filter root name nodes)
    (listed : Listed connections memo nodes) :
    MemoOk connections filter root (memo.set (-1, name) nodes) := by
  have later : ∀ x, Seen memo x → Seen (memo.set (-1, name) nodes) x := by
    intro x seen
    unfold Seen
    rw [OrderedMap.get_set]
    split
    · exact ⟨nodes, rfl⟩
    · exact seen
  intro x stored hx
  rw [OrderedMap.get_set] at hx
  split at hx
  · rename_i here
    have name_eq := (Prod.mk.inj here).2
    have nodes_eq := Option.some.inj hx
    rw [name_eq, ← nodes_eq]
    exact ⟨sound, listed.mono later⟩
  · exact ⟨(ok x stored hx).1, (ok x stored hx).2.mono later⟩

/-- Induction on the fuel; the path grows with every level, so the nodes that
are left to expand bound the depth. -/
theorem collectConnectedNodes_collected (fuel : Nat) (name : String) (path : List String)
    (memo : Memo) (onPath : root ∈ name :: path) (fresh : name ∉ path)
    (enough : remaining connections path + 1 ≤ fuel) (ok : MemoOk connections filter root memo) :
    @Collected connections filter root name path memo
      (collectConnectedNodes connections filter fuel name (-1) path memo) := by
  induction fuel generalizing name path memo with
  | zero => omega
  | succ fuel ih =>
    rw [collectConnectedNodes, if_neg (by decide)]
    cases stored : connections.get name with
    | none =>
      exact ⟨fun _ h => h, ok, by simp [Listed], by simp [Sound], .inl stored,
        fun x seen fresh => absurd seen fresh⟩
    | some byType =>
      cases cached : memo.get (-1, name) with
      | some nodes =>
        exact ⟨fun _ h => h, ok, (ok name nodes cached).2, (ok name nodes cached).1,
          .inr ⟨nodes, cached⟩, fun x seen fresh => absurd seen fresh⟩
      | none =>
        have key : name ∈ connections.keys := (connections.mem_keys_iff name).2 ⟨byType, stored⟩
        have less := remaining_cons fresh key
        obtain ⟨progress, sound, covered, _⟩ := foldl_visitConnection name onPath
          (targets filter byType) (fun next member => ⟨byType, stored, member⟩)
          (fun next fresh memo ok => ih next (name :: path) memo
            (List.mem_cons_of_mem _ onPath) fresh (by omega) ok)
          ([], memo) ⟨fun _ h => h, ok, by simp [Listed], fun x seen fresh => absurd seen fresh⟩
          (by simp [Sound])
        simp only [if_true] at *
        generalize (targets filter byType).foldl _ ([], memo) = found at progress sound covered ⊢
        have later : ∀ x, Seen found.2 x → Seen (found.2.set (-1, name) found.1) x := by
          intro x seen
          unfold Seen
          rw [OrderedMap.get_set]
          split
          · exact ⟨found.1, rfl⟩
          · exact seen
        refine ⟨fun x seen => later x (progress.mono x seen), memoOk_set progress.ok sound
          progress.listed, progress.listed.mono later, sound,
          .inr ⟨found.1, OrderedMap.get_set_self _ _ _⟩, fun x seen fresh => ?_⟩
        by_cases same : x = name
        · subst same
          refine ⟨.inl rfl, fun y edge => ?_⟩
          obtain ⟨byType', stored', member⟩ := edge
          rw [stored] at stored'
          exact covered y (Option.some.inj stored' ▸ member)
        · have seen' : Seen found.2 x := by
            unfold Seen at seen
            rwa [OrderedMap.get_set_of_ne] at seen
            exact fun eq => same (Prod.mk.inj eq).2
          exact ⟨.inr (progress.expanded x seen' fresh).1, (progress.expanded x seen' fresh).2⟩

end

theorem getConnectedNodes_eq_nil (connections : IConnections) (name : String)
    (filter : ConnectionFilter) (depth : Int)
    (none_ : ∀ next, ¬ Next connections filter name next) :
    getConnectedNodes connections name filter depth = [] := by
  rw [getConnectedNodes, collectConnectedNodes]
  split
  · rfl
  · cases stored : connections.get name with
    | none => rfl
    | some byType =>
      have empty : targets filter byType = [] :=
        List.eq_nil_iff_forall_not_mem.2 fun next member => none_ next ⟨byType, stored, member⟩
      simp [empty]

theorem remaining_nil (connections : IConnections) :
    remaining connections [] = connections.size := by
  simp [remaining, OrderedMap.size, OrderedMap.keys]

/-- The memoised walk is plain reachability, in at least one step and without
the start. -/
theorem mem_getConnectedNodes (connections : IConnections) (filter : ConnectionFilter)
    (root x : String) :
    x ∈ getConnectedNodes connections root filter ↔
      x ≠ root ∧ TransGen (Next connections filter) root x := by
  have emptyOk : MemoOk connections filter root ∅ := by
    intro x nodes h
    simp at h
  have found := collectConnectedNodes_collected (connections.size + 1) root [] ∅
    List.mem_cons_self List.not_mem_nil (by simp [remaining_nil]) emptyOk
  rw [getConnectedNodes]
  generalize collectConnectedNodes connections filter _ root (-1) [] ∅ = result at found ⊢
  refine ⟨fun member => ⟨(found.sound x member).2, (found.sound x member).1⟩, fun h => ?_⟩
  have fresh : ∀ y, ¬ Seen ∅ y := by
    intro y h
    simp [Seen] at h
  have closed : ∀ y z, y = root ∨ y ∈ result.1 → Next connections filter y z →
      z = root ∨ z ∈ result.1 := by
    intro y z member edge
    have notLeaf : ¬ Leaf connections y := by
      obtain ⟨byType, stored, _⟩ := edge
      simp [Leaf, stored]
    have seen : Seen result.2 y := by
      cases member with
      | inl same => exact same ▸ found.done.resolve_left (same ▸ notLeaf)
      | inr listed => exact (found.listed y listed).resolve_left notLeaf
    have next := (found.expanded y seen (fresh y)).2 z edge
    simpa [or_comm] using next
  have reached : ∀ y, TransGen (Next connections filter) root y → y = root ∨ y ∈ result.1 := by
    intro y path
    induction path with
    | single edge => exact closed root _ (.inl rfl) edge
    | tail _ edge ih => exact closed _ _ ih edge
  exact (reached x h.2).resolve_left h.1

end NodeAutomation.ConnectedNodes
