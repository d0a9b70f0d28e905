import NodeAutomation.Core.Descendants

/-! Cycles of a graph: its strongly connected components (`getStronglyConnectedComponents` of
`packages/core/src/execution-engine/partial-execution-utils/directed-graph.ts`), and the start nodes
that a cycle is entered by (`handle-cycles.ts`). -/

namespace NodeAutomation.DirectedGraph

structure Search where
  id : Nat := 0
  visited : OrderedSet INode := ∅
  ids : OrderedMap INode Nat := ∅
  lowLinkValues : OrderedMap INode Nat := ∅
  stack : List INode := []
  stronglyConnectedComponents : List (OrderedSet INode) := []

namespace Search

def enter (s : Search) (node : INode) : Search :=
  { s with
    visited := s.visited.add node
    lowLinkValues := s.lowLinkValues.set node s.id
    ids := s.ids.set node s.id
    id := s.id + 1
    stack := node :: s.stack }

def comeBack (s : Search) (node child : INode) : Except JsError Search :=
  if child ∈ s.stack then
    match s.lowLinkValues.get child with
    | none => .error (falsy "a.ok(childLowLinkValue !== undefined)")
    | some childLowLinkValue =>
      match s.lowLinkValues.get node with
      | none => .error (falsy "a.ok(ownLowLinkValue !== undefined)")
      | some ownLowLinkValue =>
        .ok { s with lowLinkValues := s.lowLinkValues.set node (min childLowLinkValue ownLowLinkValue) }
  else .ok s

def pop (s : Search) (ownId : Nat) : Search :=
  let scc := OrderedSet.ofList (s.stack.takeWhile fun next => s.lowLinkValues.get next = some ownId)
  { s with
    stack := s.stack.dropWhile fun next => s.lowLinkValues.get next = some ownId
    stronglyConnectedComponents :=
      if 0 < scc.size then s.stronglyConnectedComponents ++ [scc] else s.stronglyConnectedComponents }

def finish (s : Search) (node : INode) : Except JsError Search :=
  match s.ids.get node with
  | none => .error (falsy "a.ok(ownId !== undefined)")
  | some ownId =>
    match s.lowLinkValues.get node with
    | none => .error (falsy "a.ok(ownLowLinkValue !== undefined)")
    | some ownLowLinkValue => .ok (if ownId = ownLowLinkValue then s.pop ownId else s)

end Search

variable (graph : DirectedGraph)

def followNode : Nat → Search → INode → Except JsError Search
  | 0, _, _ => .error .rangeError
  | fuel + 1, s, node =>
    if node ∈ s.visited then .ok s
    else do
      let directChildren ← graph.getDirectChildConnections node
      let s ← (directChildren.map (·.toNode)).foldlM (fun s child => do
        let s ← followNode fuel s child
        s.comeBack node child) (s.enter node)
      s.finish node

def getStronglyConnectedComponents : Except JsError (List (OrderedSet INode)) := do
  let s ← graph.nodes.values.foldlM (graph.followNode (graph.nodes.size + 1)) {}
  return s.stronglyConnectedComponents

def depthFirstSearchRecursive (fn : INode → Bool) :
    Nat → INode → OrderedSet INode → Except JsError (Option INode × OrderedSet INode)
  | 0, _, _ => .error .rangeError
  | fuel + 1, node, seen =>
    if node ∈ seen then .ok (none, seen)
    else if fn node then .ok (some node, seen.add node)
    else do
      let childConnections ← graph.getDirectChildConnections node
      (childConnections.map (·.toNode)).foldlM (fun result child =>
        match result.1 with
        | some found => .ok (some found, result.2)
        | none => depthFirstSearchRecursive fn fuel child result.2) (none, seen.add node)

def depthFirstSearch (node : INode) (fn : INode → Bool) : Except JsError (Option INode) := do
  let result ← graph.depthFirstSearchRecursive fn (graph.nodes.size + 1) node ∅
  return result.1

def replaceStart (trigger startNode : INode) (newStartNodes : OrderedSet INode) (cycle : OrderedSet INode) :
    Except JsError (OrderedSet INode) :=
  if startNode ∈ cycle then do
    let firstNode ← graph.depthFirstSearch trigger fun node => node ∈ cycle
    match firstNode with
    | none => .error (.assertionError ("the trigger must be connected to the cycle, otherwise the cycle " ++
        "wouldn't be part of the subgraph"))
    | some firstNode => .ok ((newStartNodes.delete startNode).add firstNode)
  else .ok newStartNodes

def handleCycles (startNodes : OrderedSet INode) (trigger : INode) : Except JsError (OrderedSet INode) := do
  let components ← graph.getStronglyConnectedComponents
  let cycles := components.filter fun cycle => 1 ≤ cycle.size
  if cycles.length = 0 then return startNodes
  startNodes.elems.foldlM (fun newStartNodes startNode =>
    cycles.foldlM (graph.replaceStart trigger startNode) newStartNodes) startNodes

end NodeAutomation.DirectedGraph
