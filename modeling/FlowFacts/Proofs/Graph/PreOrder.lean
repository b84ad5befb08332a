import FlowFacts.Proofs.Graph.Arcs
import Mathlib.Data.List.Nodup

/-! What the walk in pre-order visits.

The walk visits a vertex when it leaves the stack for the first time, and then puts all of its
successors on the stack, those that it has visited too. So a vertex may be on the stack many times,
and every successor of a visited vertex is visited or on the stack (`PreWalk`). A step takes a
vertex off the stack and puts on no more than the arcs of a vertex that was open. When the stack is
empty the visited vertices are those that the root reaches, each once and the root first
(`preOrder_answered`). -/
namespace FlowFacts.Graph
variable {ν ε : Type}

/-! ### The walk -/

/-- Where the walk stands; the visits are listed from the last to the first. -/
structure PreWalk (g : Graph ν ε) (root : Nat) (stack : List Nat) (visited : Indices)
    (order : List Nat) : Prop where
  marked : ∀ v, v ∈ visited ↔ v ∈ order
  nodup : order.Nodup
  reached : ∀ v, v ∈ order ∨ v ∈ stack → g.Reaches root v
  looked_at : ∀ u ∈ order, ∀ w, Neighbour g.successorMap u w → w ∈ order ∨ w ∈ stack
  /-- The root was visited first, or it is on top of the stack and nothing was visited. -/
  first : order.getLast?.or stack.head? = some root

namespace PreWalk
variable {g : Graph ν ε} {root u : Nat} {stack order next : List Nat} {visited : Indices}

theorem start (g : Graph ν ε) (root : Nat) : g.PreWalk root [root] ∅ [] where
  marked v := by simp
  nodup := List.nodup_nil
  reached v hv := by
    simp at hv
    exact hv ▸ .refl
  looked_at u hu := absurd hu List.not_mem_nil
  first := rfl

/-- The vertex on top has been visited before. -/
theorem skip (h : g.PreWalk root (u :: stack) visited order) (seen : u ∈ visited) :
    g.PreWalk root stack visited order where
  marked := h.marked
  nodup := h.nodup
  reached v hv := h.reached v (hv.imp_right (List.mem_cons_of_mem u))
  looked_at v hv w hw := by
    rcases h.looked_at v hv w hw with hw | hw
    · exact .inl hw
    · rcases List.mem_cons.1 hw with rfl | hw
      · exact .inl ((h.marked _).1 seen)
      · exact .inr hw
  first := by
    have hfirst := h.first
    cases order with
    | nil => exact absurd ((h.marked u).1 seen) List.not_mem_nil
    | cons v order =>
      rw [List.getLast?_cons, Option.some_or] at hfirst ⊢
      exact hfirst

/-- The vertex on top is visited, and its successors come on the stack. -/
theorem visit (h : g.PreWalk root (u :: stack) visited order) (new : u ∉ visited)
    (opens : g.successorIndices u = .ok next) :
    g.PreWalk root (next.reverse ++ stack) (visited.insert u) (u :: order) := by
  have hu : g.Reaches root u := h.reached u (.inr List.mem_cons_self)
  have harc (w : Nat) : Neighbour g.successorMap u w ↔ w ∈ next :=
    neighbour_iff_of_successorIndices opens
  constructor
  case marked =>
    intro v
    rw [Std.ExtTreeSet.mem_insert, Nat.compare_eq_eq, h.marked, List.mem_cons, eq_comm]
  case nodup => exact List.nodup_cons.2 ⟨fun hmem => new ((h.marked u).2 hmem), h.nodup⟩
  case reached =>
    intro v hv
    simp only [List.mem_cons, List.mem_append, List.mem_reverse] at hv
    rcases hv with (rfl | hv) | (hv | hv)
    · exact hu
    · exact h.reached v (.inl hv)
    · exact hu.tail ((harc v).2 hv)
    · exact h.reached v (.inr (List.mem_cons_of_mem u hv))
  case looked_at =>
    intro v hv w hw
    simp only [List.mem_cons, List.mem_append, List.mem_reverse]
    rcases List.mem_cons.1 hv with rfl | hv
    · exact .inr (.inl ((harc w).1 hw))
    · rcases h.looked_at v hv w hw with hw | hw
      · exact .inl (.inr hw)
      · rcases List.mem_cons.1 hw with rfl | hw
        · exact .inl (.inl rfl)
        · exact .inr (.inr hw)
  case first =>
    have hfirst := h.first
    cases order with
    | nil => exact hfirst
    | cons v order =>
      rw [List.getLast?_cons, Option.some_or] at hfirst
      rw [List.getLast?_cons_cons, List.getLast?_cons, Option.some_or]
      exact hfirst

/-- With an empty stack, the visited vertices are those that the root reaches. -/
theorem ended (h : g.PreWalk root [] visited order) (v : Nat) : v ∈ order ↔ g.Reaches root v := by
  refine ⟨fun hv => h.reached v (.inl hv), fun hv => ?_⟩
  induction hv with
  | refl =>
    have hfirst := h.first
    rw [List.head?_nil, Option.or_none] at hfirst
    exact List.mem_of_getLast? hfirst
  | tail _ harc ih => exact (h.looked_at _ ih _ harc).resolve_right List.not_mem_nil

end PreWalk

/-! ### The end of the walk -/

/-- From this stack the walk comes to this end, and no steps are counted. -/
inductive PreOrderEnds (g : Graph ν ε) :
    List Nat → Indices → List Nat → Except Error (List Nat) → Prop
  | done {visited : Indices} {order : List Nat} :
      PreOrderEnds g [] visited order (.ok order.reverse)
  | skip {u : Nat} {stack : List Nat} {visited : Indices} {order : List Nat}
      {answer : Except Error (List Nat)} (seen : u ∈ visited)
      (rest : PreOrderEnds g stack visited order answer) :
      PreOrderEnds g (u :: stack) visited order answer
  | fail {u : Nat} {stack : List Nat} {visited : Indices} {order : List Nat} {e : Error}
      (new : u ∉ visited) (fails : g.successorIndices u = .error e) :
      PreOrderEnds g (u :: stack) visited order (.error e)
  | visit {u : Nat} {stack next : List Nat} {visited : Indices} {order : List Nat}
      {answer : Except Error (List Nat)} (new : u ∉ visited)
      (opens : g.successorIndices u = .ok next)
      (rest : PreOrderEnds g (next.reverse ++ stack) (visited.insert u) (u :: order) answer) :
      PreOrderEnds g (u :: stack) visited order answer

/-- With a step for every vertex on the stack and for every arc of an open vertex, the walk comes
to its end. -/
theorem preOrderLoop_ends (g : Graph ν ε) (steps : Nat) {stack order : List Nat}
    {visited : Indices} (enough : stack.length + g.openArcs visited ≤ steps) :
    g.PreOrderEnds stack visited order (g.preOrderLoop steps stack visited order) := by
  induction steps generalizing stack visited order with
  | zero =>
    cases stack with
    | nil => exact .done
    | cons u stack => simp at enough
  | succ steps ih =>
    cases stack with
    | nil => exact .done
    | cons u stack =>
      rw [List.length_cons] at enough
      by_cases seen : u ∈ visited
      · rw [preOrderLoop, if_pos (Std.ExtTreeSet.contains_iff_mem.2 seen)]
        exact .skip seen (ih (by omega))
      · rw [preOrderLoop, if_neg fun hc => seen (Std.ExtTreeSet.contains_iff_mem.1 hc)]
        cases hnext : g.successorIndices u with
        | error e => exact .fail seen hnext
        | ok next =>
          refine .visit seen hnext (ih ?_)
          obtain ⟨s, hs, rfl⟩ := successorIndices_eq_ok.1 hnext
          have := openArcs_insert hs seen
          rw [List.length_append, List.length_reverse, Std.ExtTreeSet.length_toList]
          omega

/-- Whatever end the walk comes to, it has visited all that the root reaches, or it has met a
vertex without a successor set. -/
theorem PreWalk.answered {g : Graph ν ε} {root : Nat} {stack order : List Nat} {visited : Indices}
    {answer : Except Error (List Nat)} (h : g.PreWalk root stack visited order)
    (entries : ∀ v ∈ order, v ∈ g.successorMap) (ends : g.PreOrderEnds stack visited order answer) :
    g.Answered root (fun order => order.Nodup ∧ (∀ v, v ∈ order ↔ g.Reaches root v) ∧
      order.head? = some root) answer := by
  induction ends with
  | done =>
    refine .found (fun v hv => entries v ((h.ended v).2 hv))
      ⟨List.nodup_reverse.2 h.nodup, fun v => ?_, ?_⟩
    · rw [List.mem_reverse, h.ended]
    · simpa using h.first
  | skip seen _ ih => exact ih (h.skip seen) entries
  | fail new fails =>
    obtain ⟨absent, rfl⟩ := successorIndices_eq_error.1 fails
    exact .missing (h.reached _ (.inr List.mem_cons_self)) absent
  | visit new opens _ ih =>
    exact ih (h.visit new opens) (List.forall_mem_cons.2 ⟨mem_of_successorIndices opens, entries⟩)

section
variable {g : Graph ν ε} {root : Nat} (hroot : g.hasVertex root)
include hroot

/-- The walk from a vertex comes to an end, and that is its answer. -/
theorem preOrder_ends : g.PreOrderEnds [root] ∅ [] (g.preOrder root) := by
  simp only [preOrder, requireVertex, hroot, if_true]
  refine preOrderLoop_ends g (g.arcCount + 2) ?_
  rw [openArcs_empty, List.length_singleton]
  omega

theorem preOrder_answered : g.Answered root (fun order => order.Nodup ∧
    (∀ v, v ∈ order ↔ g.Reaches root v) ∧ order.head? = some root) (g.preOrder root) :=
  (PreWalk.start g root).answered (fun _ hv => absurd hv List.not_mem_nil) (preOrder_ends hroot)

end

end FlowFacts.Graph
