import FlowFacts.Graph.Basic

/-! Walks over a graph from a root: what can be reached, and in which order.

Each walk follows the successor sets alone, and fails at the first vertex it needs
that has none. A walk looks at every successor set at most once, so the number of
arcs bounds its steps (`arcCount`). -/
namespace FlowFacts.Graph
variable {ν ε : Type}

/-- The sizes of all successor sets together. -/
def arcCount (g : Graph ν ε) : Nat :=
  (g.successorMap.values.map fun s => s.size).foldr (· + ·) 0

/-- The root must be a vertex of the graph. -/
def requireVertex (g : Graph ν ε) (root : Nat) : Except Error Unit :=
  if g.hasVertex root then .ok () else .error (.vertexNotFound root)

/-! ### Reachability -/

/-- Mark a vertex and put it on the stack, unless it is marked. -/
def mark (state : List Nat × Indices) (index : Nat) : List Nat × Indices :=
  if state.2.contains index then state else (index :: state.1, state.2.insert index)

/-- Take the last vertex put on the stack, and mark its successors. -/
def reachLoop (g : Graph ν ε) : Nat → List Nat → Indices → Except Error Indices
  | 0, _, marked => .ok marked
  | _ + 1, [], marked => .ok marked
  | steps + 1, index :: stack, marked =>
    match g.successorIndices index with
    | .error e => .error e
    | .ok next =>
      let state := next.foldl mark (stack, marked)
      reachLoop g steps state.1 state.2

/-- The vertices that can be reached from `root`, itself included. -/
def reachable (g : Graph ν ε) (root : Nat) : Except Error Indices := do
  g.requireVertex root
  reachLoop g (g.arcCount + 2) [root] (Std.ExtTreeSet.ofList [root])

/-- The other vertices of the graph. -/
def unreachable (g : Graph ν ε) (root : Nat) : Except Error Indices := do
  let reached ← g.reachable root
  return Std.ExtTreeSet.ofList (g.vertexMap.keys.filter fun i => !reached.contains i)

/-! ### Pre-order -/

/-- Visit a vertex when it leaves the stack for the first time; the largest of its
successors is visited next. `order` holds the visits so far, last first. -/
def preOrderLoop (g : Graph ν ε) : Nat → List Nat → Indices → List Nat → Except Error (List Nat)
  | 0, _, _, order => .ok order.reverse
  | _ + 1, [], _, order => .ok order.reverse
  | steps + 1, index :: stack, visited, order =>
    if visited.contains index then preOrderLoop g steps stack visited order
    else
      match g.successorIndices index with
      | .error e => .error e
      | .ok next =>
        preOrderLoop g steps (next.reverse ++ stack) (visited.insert index) (index :: order)

/-- Each vertex before those found from it. -/
def preOrder (g : Graph ν ε) (root : Nat) : Except Error (List Nat) := do
  g.requireVertex root
  preOrderLoop g (g.arcCount + 2) [root] ∅ []

/-! ### Post-order -/

/-- A stack of vertices under way, each with the successors still to look at, the
smallest first. `order` holds the finished vertices, last first. -/
def postOrderLoop (g : Graph ν ε) :
    Nat → List (Nat × List Nat) → Indices → List Nat → Except Error (List Nat)
  | 0, _, _, order => .ok order
  | _ + 1, [], _, order => .ok order
  | steps + 1, (index, []) :: frames, visited, order =>
    postOrderLoop g steps frames visited (index :: order)
  | steps + 1, (index, next :: pending) :: frames, visited, order =>
    if visited.contains next then postOrderLoop g steps ((index, pending) :: frames) visited order
    else
      match g.successorIndices next with
      | .error e => .error e
      | .ok found =>
        postOrderLoop g steps ((next, found) :: (index, pending) :: frames)
          (visited.insert next) order

/-- The last vertex finished comes first. -/
def reversePostOrder (g : Graph ν ε) (root : Nat) : Except Error (List Nat) := do
  g.requireVertex root
  let found ← g.successorIndices root
  postOrderLoop g (2 * g.arcCount + 3) [(root, found)] (Std.ExtTreeSet.ofList [root]) []

/-- Each vertex after those found from it. -/
def postOrder (g : Graph ν ε) (root : Nat) : Except Error (List Nat) :=
  (g.reversePostOrder root).map List.reverse

end FlowFacts.Graph
