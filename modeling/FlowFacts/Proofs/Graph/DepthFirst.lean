import FlowFacts.Proofs.Graph.TopologicalOrder
import FlowFacts.Proofs.Graph.Traversal

/-! The walks in pre-order and post-order are depth-first searches.

Depth-first search is short as a recursion: enter a vertex that was not entered before, search from
its successors, one after another, and come back (`search`). What was entered from where makes a
forest, and pre-order and post-order are two ways to read it. The walks keep a stack instead. In
pre-order a vertex on the stack is a vertex still to search from, so the stack is searched like any
list of vertices, and what an entered vertex puts on top is searched before the rest
(`preOrder_search_append`). In post-order a frame is a call under way: what it has left to look at
is searched, then its vertex is finished, then the frame below goes on (`finishing`). Neither walk
changes, at any of its steps, what the recursion makes of its stack, so each lists what the
recursion lists (`walks_recursive`). -/
namespace FlowFacts.Graph
variable {ν ε : Type}

/-! ### Forests -/

/-- What a search enters: a vertex, what is entered from there, and what is entered after that. -/
inductive Forest where
  | nil
  | node (vertex : Nat) (inner rest : Forest)

namespace Forest

/-- Each vertex before those entered from it. -/
def preOrder : Forest → List Nat
  | .nil => []
  | .node v inner rest => v :: (inner.preOrder ++ rest.preOrder)

/-- Each vertex after those entered from it. -/
def postOrder : Forest → List Nat
  | .nil => []
  | .node v inner rest => inner.postOrder ++ v :: rest.postOrder

end Forest

/-! ### The recursion -/

/-- Which successor of a vertex comes first, the smallest or the largest. -/
inductive Turn where
  | ascending
  | descending

/-- The successors of a vertex in their turn; none where there is no successor set. -/
def ahead (g : Graph ν ε) (turn : Turn) (v : Nat) : List Nat :=
  match g.successorIndices v, turn with
  | .ok next, .ascending => next
  | .ok next, .descending => next.reverse
  | .error _, _ => []

/-- The vertices with a successor set that have not been entered. -/
def unentered (g : Graph ν ε) (entered : List Nat) : List Nat :=
  g.successorMap.keys.filter fun v => v ∉ entered

theorem unentered_append (g : Graph ν ε) (entered more : List Nat) :
    g.unentered (entered ++ more) = (g.unentered entered).filter fun v => v ∉ more := by
  rw [unentered, unentered, List.filter_filter]
  refine List.filter_congr fun v _ => ?_
  simp [Bool.and_comm]

theorem length_unentered_append (g : Graph ν ε) (entered more : List Nat) :
    (g.unentered (entered ++ more)).length ≤ (g.unentered entered).length := by
  rw [unentered_append]
  exact List.length_filter_le ..

/-- A vertex with successors is one vertex less to enter. -/
theorem inner_decreases (g : Graph ν ε) (turn : Turn) {v : Nat} {others entered : List Nat}
    (new : v ∉ entered) : Prod.Lex (· < ·) (· < ·)
      ((g.unentered (entered ++ [v])).length, (g.ahead turn v).length)
      ((g.unentered entered).length, (v :: others).length) := by
  cases hnext : g.successorIndices v with
  | error e =>
    refine Prod.Lex.right' _ (length_unentered_append ..) ?_
    simp [ahead, hnext]
  | ok next =>
    refine Prod.Lex.left _ _ ?_
    have hv : v ∈ g.unentered entered := by
      simpa [unentered, new] using mem_of_successorIndices hnext
    rw [unentered_append, List.length_filter_lt_length_iff_exists]
    exact ⟨v, hv, by simp⟩

/-- Search from some vertices, one after another, and from each of them to the end before the next
one. Vertices that were entered before, here or in the search so far, are passed over. -/
def search (g : Graph ν ε) (turn : Turn) : List Nat → List Nat → Forest
  | [], _ => .nil
  | v :: others, entered =>
    if v ∈ entered then search g turn others entered
    else
      let inner := search g turn (g.ahead turn v) (entered ++ [v])
      .node v inner (search g turn others (entered ++ v :: inner.preOrder))
termination_by todo entered => ((g.unentered entered).length, todo.length)
decreasing_by
  · exact .right _ (Nat.lt_succ_self _)
  · exact inner_decreases g turn ‹_›
  · exact Prod.Lex.right' _ (length_unentered_append ..) (Nat.lt_succ_self _)

section Search
variable (g : Graph ν ε) (turn : Turn) {v : Nat} {entered : List Nat}

@[simp]
theorem search_nil (entered : List Nat) : g.search turn [] entered = .nil := by
  rw [search]

theorem search_seen (seen : v ∈ entered) (others : List Nat) :
    g.search turn (v :: others) entered = g.search turn others entered := by
  rw [search, if_pos seen]

theorem search_enter (new : v ∉ entered) (others : List Nat) :
    g.search turn (v :: others) entered =
      .node v (g.search turn (g.ahead turn v) (entered ++ [v]))
        (g.search turn others
          (entered ++ v :: (g.search turn (g.ahead turn v) (entered ++ [v])).preOrder)) := by
  rw [search, if_neg new]

end Search

/-! ### Pre-order -/

/-- To search from some vertices and then from others is to search from all of them. -/
theorem preOrder_search_append (g : Graph ν ε) (turn : Turn) (todo others entered : List Nat) :
    (g.search turn (todo ++ others) entered).preOrder =
      (g.search turn todo entered).preOrder ++
        (g.search turn others (entered ++ (g.search turn todo entered).preOrder)).preOrder := by
  induction todo, entered using search.induct g turn with
  | case1 entered => simp [Forest.preOrder]
  | case2 entered v todo seen ih =>
    rw [List.cons_append, search_seen g turn seen, search_seen g turn seen, ih]
  | case3 entered v todo new inner _ ih =>
    rw [List.cons_append, search_enter g turn new, search_enter g turn new]
    simp only [Forest.preOrder, List.cons_append, List.append_assoc] at ih ⊢
    rw [ih]

/-- The walk lists what it has visited, and then what the recursion finds from the stack. -/
theorem PreOrderEnds.eq_search {g : Graph ν ε} {stack order result : List Nat} {visited : Indices}
    {answer : Except Error (List Nat)} (ends : g.PreOrderEnds stack visited order answer)
    (marked : ∀ v, v ∈ visited ↔ v ∈ order) (hanswer : answer = .ok result) :
    result = order.reverse ++ (g.search .descending stack order.reverse).preOrder := by
  induction ends with
  | done =>
    cases hanswer
    simp [Forest.preOrder]
  | skip seen _ ih =>
    rw [search_seen g _ (List.mem_reverse.2 ((marked _).1 seen))]
    exact ih marked hanswer
  | fail => cases hanswer
  | @visit u stack next visited order answer new opens _ ih =>
    have hnew : u ∉ order.reverse := fun hu => new ((marked u).2 (List.mem_reverse.1 hu))
    have hahead : g.ahead .descending u = next.reverse := by simp [ahead, opens]
    have hmarked (v : Nat) : v ∈ visited.insert u ↔ v ∈ u :: order := by
      rw [Std.ExtTreeSet.mem_insert, Nat.compare_eq_eq, marked, List.mem_cons, eq_comm]
    rw [ih hmarked hanswer, search_enter g _ hnew, hahead, List.reverse_cons,
      preOrder_search_append]
    simp [Forest.preOrder]

/-! ### Post-order -/

/-- What calls under way still finish, the innermost call first. -/
def finishing (g : Graph ν ε) : List (Nat × List Nat) → List Nat → List Nat
  | [], _ => []
  | (u, pending) :: frames, entered =>
    let inner := g.search .ascending pending entered
    inner.postOrder ++ u :: finishing g frames (entered ++ inner.preOrder)

/-- The walk lists what it has finished, and then what the calls under way still finish. -/
theorem PostOrderEnds.eq_search {g : Graph ν ε} {frames : List (Nat × List Nat)}
    {visited : Indices} {order entered result : List Nat} {answer : Except Error (List Nat)}
    (ends : g.PostOrderEnds frames visited order answer)
    (marked : ∀ v, v ∈ visited ↔ v ∈ entered) (hanswer : answer = .ok result) :
    result.reverse = order.reverse ++ g.finishing frames entered := by
  induction ends generalizing entered with
  | done =>
    cases hanswer
    simp [finishing]
  | finish _ ih =>
    rw [ih marked hanswer]
    simp [finishing, Forest.preOrder, Forest.postOrder]
  | skip seen _ ih =>
    rw [ih marked hanswer, finishing, finishing, search_seen g _ ((marked _).1 seen)]
  | fail => cases hanswer
  | @discover u w pending found frames visited order answer new opens _ ih =>
    have hnew : w ∉ entered := fun hw => new ((marked w).2 hw)
    have hahead : g.ahead .ascending w = found := by simp [ahead, opens]
    have hmarked (v : Nat) : v ∈ visited.insert w ↔ v ∈ entered ++ [w] := by
      rw [Std.ExtTreeSet.mem_insert, Nat.compare_eq_eq, marked, List.mem_append,
        List.mem_singleton, or_comm, eq_comm]
    rw [ih hmarked hanswer, finishing, finishing, finishing, search_enter g _ hnew, hahead]
    simp [Forest.preOrder, Forest.postOrder]

/-! ### Both walks -/

section
variable {g : Graph ν ε} {root : Nat} {order : List Nat}

theorem preOrder_eq_search (hroot : g.hasVertex root) (h : g.preOrder root = .ok order) :
    order = (g.search .descending [root] []).preOrder :=
  (preOrder_ends hroot).eq_search (by simp) h

theorem postOrder_eq_search (hroot : g.hasVertex root) (h : g.reversePostOrder root = .ok order) :
    order.reverse = (g.search .ascending [root] []).postOrder := by
  cases hfound : g.successorIndices root with
  | error e => simp [reversePostOrder, requireVertex, hroot, hfound, bind, Except.bind] at h
  | ok found =>
    have hahead : g.ahead .ascending root = found := by simp [ahead, hfound]
    have hmarked (v : Nat) : v ∈ (.ofList [root] : Indices) ↔ v ∈ [root] := by
      simpa using eq_comm
    rw [(reversePostOrder_ends hroot hfound).eq_search hmarked h,
      search_enter g _ List.not_mem_nil, hahead]
    simp [finishing, Forest.postOrder]

end

/-- **The walks with a stack are the recursive searches.** From a vertex of a built graph the walk
in pre-order lists the vertices as the recursion enters them that takes the largest successor first,
and the walk in post-order lists them as the recursion leaves them that takes the smallest successor
first. From a number that no vertex has, neither walk starts. -/
theorem walks_recursive [IsVertex ν] [IsEdge ε] {g : Graph ν ε} (built : g.Built) (root : Nat) :
    (g.hasVertex root →
      g.preOrder root = .ok (g.search .descending [root] []).preOrder ∧
      g.postOrder root = .ok (g.search .ascending [root] []).postOrder) ∧
    (g.hasVertex root = false →
      g.preOrder root = .error (.vertexNotFound root) ∧
      g.postOrder root = .error (.vertexNotFound root)) := by
  refine ⟨fun hroot => ?found, fun absent => ?absent⟩
  case found =>
    have follows : g.Followable root := ⟨hroot, built.linked.entries hroot⟩
    obtain ⟨pre, hpre, -⟩ := preOrder_cases.1 follows
    obtain ⟨order, horder, -⟩ := reversePostOrder_cases.1 follows
    refine ⟨?_, ?_⟩
    · rw [hpre, preOrder_eq_search hroot hpre]
    · rw [postOrder, horder, ← postOrder_eq_search hroot horder]
      rfl
  case absent =>
    refine ⟨requireVertex_error absent _, ?_⟩
    have hreverse : g.reversePostOrder root = .error (.vertexNotFound root) :=
      requireVertex_error absent _
    rw [postOrder, hreverse]
    rfl

/-- In pre-order 1 comes on the stack from 0 and again from 2, and in post-order 2 is looked at
while it is under way. -/
theorem walks_recursive_twoEntrances : twoEntrances.Built ∧
    (twoEntrances.search .descending [0] []).preOrder = [0, 3, 2, 4, 1] ∧
      (twoEntrances.search .ascending [0] []).postOrder = [4, 2, 1, 3, 0] ∧
        twoEntrances.postOrder 9 = .error (.vertexNotFound 9) := by
  have built : twoEntrances.Built := ⟨_, rfl⟩
  obtain ⟨hpre, hpost⟩ := (walks_recursive built 0).1 (by decide +kernel)
  have hpre' : twoEntrances.preOrder 0 = .ok [0, 3, 2, 4, 1] := by decide +kernel
  have hpost' : twoEntrances.postOrder 0 = .ok [4, 2, 1, 3, 0] := by decide +kernel
  exact ⟨built, Except.ok.inj (hpre.symm.trans hpre'), Except.ok.inj (hpost.symm.trans hpost'),
    ((walks_recursive built 9).2 (by decide +kernel)).2⟩

end FlowFacts.Graph
