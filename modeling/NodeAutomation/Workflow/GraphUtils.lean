import NodeAutomation.Interfaces
import NodeAutomation.Lib.OrderedSet
import NodeAutomation.Lib.StackSearch

/-! Which selections of nodes can be taken out of a workflow
(`packages/workflow/src/graph/graph-utils.ts`). -/

namespace NodeAutomation.GraphUtils

/-- `Map<string, Set<IConnection>>`; the connections of a set are objects, so equal
ones may be there twice. -/
abbrev IConnectionAdjacencyList := OrderedMap String (List IConnection)

inductive ExtractableError where
  | multipleInputNodes (nodes : OrderedSet String)
  | multipleOutputNodes (nodes : OrderedSet String)
  | inputEdgeToNonRootNode (node : String)
  | outputEdgeFromNonLeafNode (node : String)
  | noContinuousPathFromRootToLeaf (start last : String)
  deriving DecidableEq

structure ExtractableSubgraphData where
  start : Option String
  last : Option String
  deriving DecidableEq

inductive ExtractableResult where
  | data (subgraph : ExtractableSubgraphData)
  | errors (errors : List ExtractableError)
  deriving DecidableEq

variable (graphIds : OrderedSet String) (adjacencyList : IConnectionAdjacencyList)

def getInputEdges : List (String × IConnection) :=
  adjacencyList.entries.flatMap fun (source, tos) =>
    if graphIds.contains source then []
    else (tos.filter fun edge => graphIds.contains edge.node).map (source, ·)

def getOutputEdges : List (String × IConnection) :=
  adjacencyList.entries.flatMap fun (source, tos) =>
    if graphIds.contains source then
      (tos.filter fun edge => !graphIds.contains edge.node).map (source, ·)
    else []

/-- `[...(adjacencyList.get(nodeId) ?? [])]` -/
def connectionsOf (nodeId : String) : List IConnection := (adjacencyList.get nodeId).getD []

def otherTargets (nodeId : String) : OrderedSet String :=
  .ofList (((connectionsOf adjacencyList nodeId).filter
    fun edge => edge.type = .main && edge.node ≠ nodeId).map (·.node))

def getRootNodes : OrderedSet String :=
  let innerNodes := graphIds.elems.foldl
    (fun innerNodes nodeId => innerNodes.union (otherTargets adjacencyList nodeId)) ∅
  graphIds.difference innerNodes

def getLeafNodes : OrderedSet String :=
  graphIds.elems.foldl (fun result nodeId =>
    if ((otherTargets adjacencyList nodeId).intersection graphIds).size = 0 then result.add nodeId
    else result) ∅

/-- The nodes `hasPath` goes on to from a node. -/
def mainTargets (nodeId : String) : OrderedSet String :=
  .ofList (((connectionsOf adjacencyList nodeId).filter fun edge => edge.type = .main).map (·.node))

/-- The loop of `hasPath`; no value when the fuel runs out. -/
def hasPath (start last : String) : Option Bool :=
  StackSearch.search (fun nodeId => (mainTargets adjacencyList nodeId).elems) last
    (StackSearch.ahead (fun nodeId => (mainTargets adjacencyList nodeId).elems)
      adjacencyList.keys [] + 2) [start] []

def tolerate (nodes boundary : OrderedSet String) : OrderedSet String :=
  if nodes.size = 0 ∧ boundary.size = 1 then boundary else nodes

/-- The checks of one side of the selection: of the input nodes against the roots,
and of the output nodes against the leaves. -/
def boundaryErrors (edgeError : String → ExtractableError)
    (multipleError : OrderedSet String → ExtractableError) (nodes boundary : OrderedSet String) :
    List ExtractableError :=
  (boundary.difference nodes).elems.map edgeError ++
    if (nodes.intersection boundary).size > 1 then [multipleError (nodes.intersection boundary)] else []

def getInputNodes : OrderedSet String :=
  .ofList (((getInputEdges graphIds adjacencyList).filter fun edge => edge.2.type = .main).map
    fun edge => edge.2.node)

def getOutputNodes : OrderedSet String :=
  .ofList (((getOutputEdges graphIds adjacencyList).filter fun edge => edge.2.type = .main).map
    fun edge => edge.1)

def truthy (node : Option String) : Bool := node.any (· ≠ "")

/-- The check of `start && end && !hasPath(start, end, adjacencyList)`. -/
def pathErrors (start last : Option String) : Option (List ExtractableError) :=
  match start, last with
  | some startNode, some lastNode =>
    if truthy start && truthy last then
      (hasPath adjacencyList startNode lastNode).map fun found =>
        if !found then [.noContinuousPathFromRootToLeaf startNode lastNode] else []
    else some []
  | _, _ => some []

def parseExtractableSubgraphSelection : Option ExtractableResult := do
  let inputNodes := getInputNodes graphIds adjacencyList
  let rootNodes := tolerate (getRootNodes graphIds adjacencyList) inputNodes
  let inputErrors := boundaryErrors .inputEdgeToNonRootNode .multipleInputNodes rootNodes inputNodes
  let outputNodes := getOutputNodes graphIds adjacencyList
  let leafNodes := tolerate (getLeafNodes graphIds adjacencyList) outputNodes
  let outputErrors := boundaryErrors .outputEdgeFromNonLeafNode .multipleOutputNodes leafNodes outputNodes
  let start := (rootNodes.intersection inputNodes).first
  let last := (leafNodes.intersection outputNodes).first
  let noPath ← pathErrors adjacencyList start last
  let errors := inputErrors ++ outputErrors ++ noPath
  some (if errors.length > 0 then .errors errors else .data ⟨start, last⟩)

def MainConnection (source target : String) : Prop :=
  ∃ edge ∈ connectionsOf adjacencyList source, edge.type = .main ∧ edge.node = target

/-- A main connection enters the selection there. -/
def InputNode (node : String) : Prop :=
  node ∈ graphIds ∧ ∃ source, source ∉ graphIds ∧ MainConnection adjacencyList source node

/-- A main connection leaves the selection there. -/
def OutputNode (node : String) : Prop :=
  node ∈ graphIds ∧ ∃ target, target ∉ graphIds ∧ MainConnection adjacencyList node target

def RootNode (node : String) : Prop :=
  node ∈ graphIds ∧ ∀ source ∈ graphIds, source ≠ node → ¬ MainConnection adjacencyList source node

def LeafNode (node : String) : Prop :=
  node ∈ graphIds ∧ ∀ target ∈ graphIds, target ≠ node → ¬ MainConnection adjacencyList node target

/-- One node at most is on the boundary: it is one of the nodes that may be there,
or there is no such node in the selection. -/
def OneBoundary (boundary nodes : String → Prop) : Option String → Prop
  | none => ∀ node, ¬ boundary node
  | some node => boundary node ∧ (∀ other, boundary other → other = node) ∧
      (nodes node ∨ ∀ other, ¬ nodes other)

def MainPath : String → String → Prop := Relation.ReflTransGen (MainConnection adjacencyList)

def InnerPath : String → String → Prop := Relation.ReflTransGen fun source target =>
  MainConnection adjacencyList source target ∧ source ∈ graphIds ∧ target ∈ graphIds

structure Extractable (subgraph : ExtractableSubgraphData) : Prop where
  entered : OneBoundary (InputNode graphIds adjacencyList) (RootNode graphIds adjacencyList)
    subgraph.start
  left : OneBoundary (OutputNode graphIds adjacencyList) (LeafNode graphIds adjacencyList)
    subgraph.last
  connected : ∀ start last, subgraph.start = some start → subgraph.last = some last →
    MainPath adjacencyList start last

variable {graphIds adjacencyList}

theorem mem_otherTargets {source target : String} :
    target ∈ otherTargets adjacencyList source ↔
      target ≠ source ∧ MainConnection adjacencyList source target := by
  rw [otherTargets, OrderedSet.mem_ofList, List.mem_map, MainConnection]
  refine ⟨fun ⟨edge, kept, same⟩ => ?_, fun ⟨differ, edge, member, isMain, same⟩ => ?_⟩
  · rw [List.mem_filter, Bool.and_eq_true, decide_eq_true_iff, decide_eq_true_iff] at kept
    exact ⟨same ▸ kept.2.2, edge, kept.1, kept.2.1, same⟩
  · refine ⟨edge, List.mem_filter.2 ⟨member, ?_⟩, same⟩
    simp [isMain, same, differ]

theorem mem_mainTargets {source target : String} :
    target ∈ mainTargets adjacencyList source ↔ MainConnection adjacencyList source target := by
  simp [mainTargets, MainConnection, and_assoc]

variable {edge : IConnection}

theorem mem_connectionsOf {source : String} :
    edge ∈ connectionsOf adjacencyList source ↔
      ∃ edges, (source, edges) ∈ adjacencyList.entries ∧ edge ∈ edges := by
  simp only [← OrderedMap.get_eq_some_iff, connectionsOf]
  cases adjacencyList.get source <;> simp

theorem mem_edgesOf (starts : String → Bool) (keeps : String → IConnection → Bool) {source : String} :
    ((source, edge) ∈ adjacencyList.entries.flatMap fun (start, tos) =>
      if starts start then (tos.filter (keeps start)).map (start, ·) else []) ↔
      starts source ∧ keeps source edge ∧ edge ∈ connectionsOf adjacencyList source := by
  rw [List.mem_flatMap, mem_connectionsOf]
  refine ⟨fun ⟨⟨start, edges⟩, entry, member⟩ => ?_,
    fun ⟨starting, kept, edges, entry, member⟩ => ⟨(source, edges), entry, ?_⟩⟩
  · dsimp only at member
    split at member
    case isFalse => cases member
    case isTrue starting =>
      obtain ⟨edge', kept, same⟩ := List.mem_map.1 member
      obtain ⟨sources, edges⟩ := Prod.mk.inj same
      rw [← sources, ← edges]
      exact ⟨starting, (List.mem_filter.1 kept).2, _, entry, (List.mem_filter.1 kept).1⟩
  · dsimp only
    rw [if_pos starting]
    exact List.mem_map.2 ⟨edge, List.mem_filter.2 ⟨member, kept⟩, rfl⟩

theorem mem_getInputEdges {source : String} :
    (source, edge) ∈ getInputEdges graphIds adjacencyList ↔
      source ∉ graphIds ∧ edge.node ∈ graphIds ∧ edge ∈ connectionsOf adjacencyList source := by
  have edges : (source, edge) ∈ adjacencyList.entries.flatMap _ ↔ _ :=
    mem_edgesOf (fun start => !graphIds.contains start) fun _ edge => graphIds.contains edge.node
  simpa [getInputEdges, ← OrderedSet.contains_iff] using edges

theorem mem_getOutputEdges {source : String} :
    (source, edge) ∈ getOutputEdges graphIds adjacencyList ↔
      source ∈ graphIds ∧ edge.node ∉ graphIds ∧ edge ∈ connectionsOf adjacencyList source := by
  have edges : (source, edge) ∈ getOutputEdges graphIds adjacencyList ↔ _ :=
    mem_edgesOf graphIds.contains fun _ edge => !graphIds.contains edge.node
  simpa [← OrderedSet.contains_iff] using edges

variable {node : String}

theorem mem_getInputNodes :
    node ∈ getInputNodes graphIds adjacencyList ↔ InputNode graphIds adjacencyList node := by
  rw [getInputNodes, OrderedSet.mem_ofList, List.mem_map, InputNode]
  refine ⟨fun ⟨⟨source, edge⟩, kept, same⟩ => ?_,
    fun ⟨inside, source, outside, edge, member, isMain, same⟩ => ⟨(source, edge), ?_, same⟩⟩
  · obtain ⟨found, isMain⟩ := List.mem_filter.1 kept
    obtain ⟨outside, inside, member⟩ := mem_getInputEdges.1 found
    rw [← same]
    exact ⟨inside, source, outside, edge, member, of_decide_eq_true isMain, rfl⟩
  · rw [List.mem_filter, mem_getInputEdges, same]
    exact ⟨⟨outside, inside, member⟩, decide_eq_true isMain⟩

theorem mem_getOutputNodes :
    node ∈ getOutputNodes graphIds adjacencyList ↔ OutputNode graphIds adjacencyList node := by
  rw [getOutputNodes, OrderedSet.mem_ofList, List.mem_map, OutputNode]
  refine ⟨fun ⟨⟨source, edge⟩, kept, same⟩ => ?_,
    fun ⟨inside, target, outside, edge, member, isMain, same⟩ => ⟨(node, edge), ?_, rfl⟩⟩
  · obtain ⟨found, isMain⟩ := List.mem_filter.1 kept
    obtain ⟨inside, outside, member⟩ := mem_getOutputEdges.1 found
    rw [← same]
    exact ⟨inside, edge.node, outside, edge, member, of_decide_eq_true isMain, rfl⟩
  · rw [List.mem_filter, mem_getOutputEdges, same]
    exact ⟨⟨inside, outside, member⟩, decide_eq_true isMain⟩

theorem mem_foldl_union (sets : String → OrderedSet String) (ids : List String)
    (collected : OrderedSet String) (node : String) :
    node ∈ ids.foldl (fun collected id => collected.union (sets id)) collected ↔
      node ∈ collected ∨ ∃ id ∈ ids, node ∈ sets id := by
  induction ids generalizing collected with
  | nil => simp
  | cons id ids ih => rw [List.foldl_cons, ih, OrderedSet.mem_union]; simp [or_assoc]

theorem mem_foldl_addIf (keeps : String → Prop) [DecidablePred keeps] (ids : List String)
    (collected : OrderedSet String) (node : String) :
    node ∈ ids.foldl (fun collected id => if keeps id then collected.add id else collected) collected ↔
      node ∈ collected ∨ node ∈ ids ∧ keeps node := by
  induction ids generalizing collected with
  | nil => simp
  | cons id ids ih =>
    rw [List.foldl_cons, ih, List.mem_cons]
    split
    case isTrue kept =>
      rw [OrderedSet.mem_add]
      grind
    case isFalse dropped => grind

theorem mem_getRootNodes :
    node ∈ getRootNodes graphIds adjacencyList ↔ RootNode graphIds adjacencyList node := by
  rw [getRootNodes, OrderedSet.mem_difference, mem_foldl_union, RootNode]
  refine and_congr_right fun _ => ⟨fun alone source inside differ main => ?_, fun alone inner => ?_⟩
  · exact alone (.inr ⟨source, inside, mem_otherTargets.2 ⟨differ.symm, main⟩⟩)
  · obtain ⟨source, inside, member⟩ := inner.resolve_left (OrderedSet.not_mem_empty node)
    obtain ⟨differ, main⟩ := mem_otherTargets.1 member
    exact alone source inside differ.symm main

theorem mem_getLeafNodes :
    node ∈ getLeafNodes graphIds adjacencyList ↔ LeafNode graphIds adjacencyList node := by
  rw [getLeafNodes, mem_foldl_addIf, or_iff_right (OrderedSet.not_mem_empty node), LeafNode]
  refine and_congr_right fun _ => ?_
  rw [OrderedSet.size_eq_zero_iff]
  refine ⟨fun alone target inside differ main => ?_, fun alone target member => ?_⟩
  · exact alone target ((OrderedSet.mem_intersection ..).2 ⟨mem_otherTargets.2 ⟨differ, main⟩, inside⟩)
  · obtain ⟨other, inside⟩ := (OrderedSet.mem_intersection ..).1 member
    obtain ⟨differ, main⟩ := mem_otherTargets.1 other
    exact alone target inside differ main

theorem hasPath_spec (start last : String) :
    (hasPath adjacencyList start last).isSome = true ∧
      (hasPath adjacencyList start last = some true ↔ MainPath adjacencyList start last) := by
  have covers : ∀ nodeId, (mainTargets adjacencyList nodeId).elems ≠ [] →
      nodeId ∈ adjacencyList.keys := by
    intro nodeId some
    obtain ⟨target, member⟩ := List.exists_mem_of_ne_nil _ some
    obtain ⟨edge, here, _⟩ := mem_mainTargets.1 member
    obtain ⟨edges, entry, _⟩ := mem_connectionsOf.1 here
    exact List.mem_map.2 ⟨_, entry, rfl⟩
  have found := @StackSearch.search_eq_some_true_iff _ _
    (fun nodeId => (mainTargets adjacencyList nodeId).elems) last adjacencyList.keys start
    adjacencyList.nodup covers _ (by rw [Nat.add_comm 1]; exact Nat.lt_succ_self _)
  have same : StackSearch.Reaches (fun nodeId => (mainTargets adjacencyList nodeId).elems) start last ↔
      MainPath adjacencyList start last := by
    have steps : (fun a b => b ∈ (mainTargets adjacencyList a).elems) =
        MainConnection adjacencyList := by
      funext a b
      exact propext mem_mainTargets
    rw [StackSearch.Reaches, steps, MainPath]
  rw [same] at found
  exact found

theorem mem_tolerate {nodes boundary : OrderedSet String} :
    node ∈ tolerate nodes boundary ↔
      node ∈ nodes ∨ (∀ other, other ∉ nodes) ∧ boundary.size = 1 ∧ node ∈ boundary := by
  rw [tolerate, ← OrderedSet.size_eq_zero_iff]
  split
  case isTrue tolerated =>
    have absent := (OrderedSet.size_eq_zero_iff nodes).1 tolerated.1
    exact ⟨fun member => .inr ⟨tolerated.1, tolerated.2, member⟩,
      fun member => (member.resolve_left (absent node)).2.2⟩
  case isFalse strict =>
    exact ⟨.inl, fun member => member.resolve_right fun ⟨absent, single, _⟩ => strict ⟨absent, single⟩⟩

/-- One side of the selection passes its checks just when it has one node at most on
the boundary, and that node may be there. -/
theorem boundaryErrors_eq_nil_iff (edgeError : String → ExtractableError)
    (multipleError : OrderedSet String → ExtractableError) (nodes boundary : OrderedSet String)
    (found : Option String) :
    boundaryErrors edgeError multipleError (tolerate nodes boundary) boundary = [] ∧
        ((tolerate nodes boundary).intersection boundary).first = found ↔
      OneBoundary (· ∈ boundary) (· ∈ nodes) found := by
  have emptyErrors : boundaryErrors edgeError multipleError (tolerate nodes boundary) boundary = [] ↔
      (∀ node ∈ boundary, node ∈ tolerate nodes boundary) ∧
        ((tolerate nodes boundary).intersection boundary).size ≤ 1 := by
    rw [boundaryErrors, List.append_eq_nil_iff, List.map_eq_nil_iff, ← List.length_eq_zero_iff]
    refine and_congr ?_ ?_
    · rw [← OrderedSet.size, OrderedSet.size_eq_zero_iff]
      simp only [OrderedSet.mem_difference, not_and, not_not]
    · split <;> simp_all
  have inBoth (node : String) (allowed : ∀ node ∈ boundary, node ∈ tolerate nodes boundary) :
      node ∈ (tolerate nodes boundary).intersection boundary ↔ node ∈ boundary := by
    rw [OrderedSet.mem_intersection]
    exact ⟨And.right, fun member => ⟨allowed node member, member⟩⟩
  rw [emptyErrors, OrderedSet.size_le_one_iff]
  refine ⟨fun ⟨⟨allowed, single⟩, first⟩ => ?_, fun one => ?_⟩
  · cases found with
    | none =>
      rw [OrderedSet.first_eq_none_iff] at first
      exact fun node member => first node ((inBoth node allowed).2 member)
    | some node =>
      have member := (inBoth node allowed).1 (OrderedSet.mem_of_first first)
      refine ⟨member, fun other there => single other ((inBoth other allowed).2 there) node
        ((inBoth node allowed).2 member), ?_⟩
      exact (mem_tolerate.1 (allowed node member)).imp_right And.left
  · cases found with
    | none =>
      exact ⟨⟨fun node member => absurd member (one node),
        fun node member => absurd ((OrderedSet.mem_intersection ..).1 member).2 (one node)⟩,
        (OrderedSet.first_eq_none_iff _).2 fun node member =>
          one node ((OrderedSet.mem_intersection ..).1 member).2⟩
    | some node =>
      obtain ⟨member, single, allowed⟩ := one
      have size : boundary.size = 1 := by
        have atMost := (OrderedSet.size_le_one_iff boundary).2 fun a ha b hb =>
          (single a ha).trans (single b hb).symm
        have some : boundary.size ≠ 0 := fun zero => (OrderedSet.size_eq_zero_iff _).1 zero node member
        omega
      have tolerated : ∀ other ∈ boundary, other ∈ tolerate nodes boundary := by
        intro other there
        rw [mem_tolerate, single other there]
        exact allowed.imp_right fun none => ⟨none, size, member⟩
      have alike : ∀ a ∈ (tolerate nodes boundary).intersection boundary,
          ∀ b ∈ (tolerate nodes boundary).intersection boundary, a = b := fun a ha b hb =>
        (single a ((inBoth a tolerated).1 ha)).trans (single b ((inBoth b tolerated).1 hb)).symm
      exact ⟨⟨tolerated, alike⟩, (OrderedSet.first_eq_some_iff alike node).2
        ((inBoth node tolerated).2 member)⟩

theorem innerPath_of_mainPath {start last : String} (path : MainPath adjacencyList start last)
    (inside : start ∈ graphIds) (exits : ∀ node, OutputNode graphIds adjacencyList node → node = last) :
    InnerPath graphIds adjacencyList start last := by
  induction path using Relation.ReflTransGen.head_induction_on with
  | refl => exact .refl
  | @head source target step _ ih =>
    by_cases kept : target ∈ graphIds
    · exact .head ⟨step, inside, kept⟩ (ih kept)
    · rw [exits source ⟨inside, target, kept, step⟩]
      exact .refl

theorem pathErrors_spec (adjacencyList : IConnectionAdjacencyList) (start last : Option String) :
    ∃ errors, pathErrors adjacencyList start last = some errors ∧
      (errors = [] ↔ ∀ startNode lastNode, start = some startNode → last = some lastNode →
        startNode ≠ "" → lastNode ≠ "" → MainPath adjacencyList startNode lastNode) := by
  cases start with
  | none => exact ⟨[], rfl, by simp⟩
  | some startNode =>
    cases last with
    | none => exact ⟨[], rfl, by simp⟩
    | some lastNode =>
      rw [pathErrors]
      by_cases named : startNode ≠ "" ∧ lastNode ≠ ""
      · obtain ⟨ended, found⟩ := @hasPath_spec adjacencyList startNode lastNode
        obtain ⟨answer, answered⟩ := Option.isSome_iff_exists.1 ended
        rw [answered] at found
        rw [answered, if_pos (by simp [truthy, named])]
        refine ⟨_, rfl, ?_⟩
        cases answer with
        | true => simpa [named] using found.1 rfl
        | false =>
          have noPath : ¬ MainPath adjacencyList startNode lastNode :=
            fun path => absurd (found.2 path) (by decide)
          simp [named, noPath]
      · rw [if_neg (by simpa [truthy] using named)]
        refine ⟨[], rfl, iff_of_true rfl fun _ _ start last startNamed lastNamed => ?_⟩
        rw [← Option.some.inj start] at startNamed
        rw [← Option.some.inj last] at lastNamed
        exact absurd ⟨startNamed, lastNamed⟩ named

/-- What comes out: the two nodes just when each side passes its checks, and a path
has been found where one was looked for. -/
theorem parse_spec (graphIds : OrderedSet String) (adjacencyList : IConnectionAdjacencyList) :
    ∃ result, parseExtractableSubgraphSelection graphIds adjacencyList = some result ∧
      ∀ subgraph, result = .data subgraph ↔
        OneBoundary (InputNode graphIds adjacencyList) (RootNode graphIds adjacencyList)
            subgraph.start ∧
          OneBoundary (OutputNode graphIds adjacencyList) (LeafNode graphIds adjacencyList)
            subgraph.last ∧
          ∀ start last, subgraph.start = some start → subgraph.last = some last →
            start ≠ "" → last ≠ "" → MainPath adjacencyList start last := by
  have inputs : (· ∈ getInputNodes graphIds adjacencyList) = InputNode graphIds adjacencyList :=
    funext fun _ => propext mem_getInputNodes
  have outputs : (· ∈ getOutputNodes graphIds adjacencyList) = OutputNode graphIds adjacencyList :=
    funext fun _ => propext mem_getOutputNodes
  have roots : (· ∈ getRootNodes graphIds adjacencyList) = RootNode graphIds adjacencyList :=
    funext fun _ => propext mem_getRootNodes
  have leaves : (· ∈ getLeafNodes graphIds adjacencyList) = LeafNode graphIds adjacencyList :=
    funext fun _ => propext mem_getLeafNodes
  obtain ⟨noPath, looked, pathIff⟩ := pathErrors_spec adjacencyList
    ((tolerate (getRootNodes graphIds adjacencyList) (getInputNodes graphIds adjacencyList)).intersection
      (getInputNodes graphIds adjacencyList)).first
    ((tolerate (getLeafNodes graphIds adjacencyList) (getOutputNodes graphIds adjacencyList)).intersection
      (getOutputNodes graphIds adjacencyList)).first
  refine ⟨_, by rw [parseExtractableSubgraphSelection, looked]; rfl, fun subgraph => ?_⟩
  rw [← inputs, ← outputs, ← roots, ← leaves,
    ← boundaryErrors_eq_nil_iff .inputEdgeToNonRootNode .multipleInputNodes,
    ← boundaryErrors_eq_nil_iff .outputEdgeFromNonLeafNode .multipleOutputNodes]
  obtain ⟨start, last⟩ := subgraph
  split
  case isTrue some =>
    refine ⟨fun same => (nomatch same), fun ⟨⟨noInput, starts⟩, ⟨noOutput, lasts⟩, path⟩ => ?_⟩
    rw [starts, lasts] at pathIff
    rw [noInput, noOutput, pathIff.2 path] at some
    exact absurd some (Nat.lt_irrefl _)
  case isFalse none =>
    have empty := List.eq_nil_of_length_eq_zero (Nat.eq_zero_of_not_pos none)
    rw [List.append_eq_nil_iff, List.append_eq_nil_iff] at empty
    refine ⟨fun same => ?_, fun ⟨⟨_, starts⟩, ⟨_, lasts⟩, _⟩ => ?_⟩
    · cases same
      exact ⟨⟨empty.1.1, rfl⟩, ⟨empty.1.2, rfl⟩, pathIff.1 empty.2⟩
    · rw [starts, lasts]

/-- The selection is accepted exactly when it is extractable, and a path from the
start to the end then stays inside. -/
def ParsedRightly (graphIds : OrderedSet String) (adjacencyList : IConnectionAdjacencyList) : Prop :=
  ∃ result, parseExtractableSubgraphSelection graphIds adjacencyList = some result ∧
    (∀ subgraph, result = .data subgraph ↔ Extractable graphIds adjacencyList subgraph) ∧
    ∀ subgraph start last, result = .data subgraph → subgraph.start = some start →
      subgraph.last = some last → InnerPath graphIds adjacencyList start last

/-- Only where the start or the end has the empty name, its path has to be there of
itself: `hasPath` is not asked. -/
theorem parsedRightly_iff (graphIds : OrderedSet String) (adjacencyList : IConnectionAdjacencyList) :
    ParsedRightly graphIds adjacencyList ↔
      ∀ start last,
        OneBoundary (InputNode graphIds adjacencyList) (RootNode graphIds adjacencyList) (some start) →
        OneBoundary (OutputNode graphIds adjacencyList) (LeafNode graphIds adjacencyList) (some last) →
        start = "" ∨ last = "" → MainPath adjacencyList start last := by
  obtain ⟨result, parsed, resultIff⟩ := parse_spec graphIds adjacencyList
  refine ⟨fun right start last entered left unnamed => ?_,
    fun reached => ⟨result, parsed, fun subgraph => ?_, fun subgraph start last same starts lasts => ?_⟩⟩
  · obtain ⟨result', parsed', rightly, _⟩ := right
    rw [parsed, Option.some.injEq] at parsed'
    have accepted := (resultIff ⟨some start, some last⟩).2 ⟨entered, left,
      fun startNode lastNode starts lasts startNamed lastNamed => by
        rw [← Option.some.inj starts] at startNamed
        rw [← Option.some.inj lasts] at lastNamed
        exact absurd unnamed (not_or.2 ⟨startNamed, lastNamed⟩)⟩
    rw [parsed'] at accepted
    exact ((rightly _).1 accepted).connected start last rfl rfl
  · rw [resultIff]
    refine ⟨fun ⟨entered, left, path⟩ => ⟨entered, left, fun start last starts lasts => ?_⟩,
      fun ⟨entered, left, path⟩ => ⟨entered, left, fun start last starts lasts _ _ =>
        path start last starts lasts⟩⟩
    by_cases unnamed : start = "" ∨ last = ""
    · rw [starts] at entered
      rw [lasts] at left
      exact reached start last entered left unnamed
    · exact path start last starts lasts (not_or.1 unnamed).1 (not_or.1 unnamed).2
  · obtain ⟨entered, left, path⟩ := (resultIff subgraph).1 same
    rw [starts] at entered
    rw [lasts] at left
    have path : MainPath adjacencyList start last := by
      by_cases unnamed : start = "" ∨ last = ""
      · exact reached start last entered left unnamed
      · exact path start last starts lasts (not_or.1 unnamed).1 (not_or.1 unnamed).2
    exact innerPath_of_mainPath path entered.1.1 left.2.1

/-- A main connection into the selection, at a node with the empty name, and one out
of it, from a node that cannot be reached. -/
def unreachedEnd : IConnectionAdjacencyList :=
  .ofList [("trigger", [{ node := "" }]), ("last", [{ node := "next" }])]

theorem not_parsedRightly_unreachedEnd : ¬ ParsedRightly (.ofList ["", "last"]) unreachedEnd := by
  intro ⟨result, parsed, rightly, _⟩
  have accepted : parseExtractableSubgraphSelection (.ofList ["", "last"]) unreachedEnd =
      some (.data ⟨some "", some "last"⟩) := by decide
  rw [accepted, Option.some.injEq] at parsed
  have path := ((rightly _).1 parsed.symm).connected "" "last" rfl rfl
  cases path.cases_head with
  | inl same => exact absurd same (by decide)
  | inr step =>
    obtain ⟨_, ⟨edge, member, _⟩, _⟩ := step
    have alone : connectionsOf unreachedEnd "" = [] := by decide
    simp [alone] at member

end NodeAutomation.GraphUtils
