import FlowFacts.Proofs.Graph.PostOrder
import Mathlib.Data.List.Forall2

/-! Two graphs that look the same from their roots.

A relation between the vertices of two graphs is a matching when each vertex has at most one
partner and the successors of partners are partners, one after another (`Matching`). Nothing
is asked of vertices without a partner, and the sizes of the graphs may differ: a walk with
steps enough for its work ends as with any more steps (`postOrderLoop_enough`). The walks from
two roots that are partners then take the same steps, so they finish partners in one order
(`Matching.reversePostOrder`). -/
namespace FlowFacts.Graph
variable {ν ε ν' ε' : Type}

/-! ### Steps enough -/

/-- A walk with steps enough for its work has no use for more. -/
theorem postOrderLoop_enough (g : Graph ν ε) {steps more : Nat} {frames : List (Nat × List Nat)}
    {visited : Indices} {order : List Nat} (enough : g.work frames visited ≤ steps)
    (le : steps ≤ more) :
    g.postOrderLoop more frames visited order = g.postOrderLoop steps frames visited order :=
  (postOrderLoop_ends g more (Nat.le_trans enough le)).unique (postOrderLoop_ends g steps enough)

/-! ### Matchings -/

/-- Partners have successors that are partners, and no vertex has two partners. -/
structure Matching (g : Graph ν ε) (g' : Graph ν' ε') (R : Nat → Nat → Prop) : Prop where
  unique : ∀ {i j i' j'}, R i i' → R j j' → (i = j ↔ i' = j')
  successors : ∀ {i i'}, R i i' → ∃ next next', g.successorIndices i = .ok next ∧
    g'.successorIndices i' = .ok next' ∧ List.Forall₂ R next next'

namespace Matching
variable {g : Graph ν ε} {g' : Graph ν' ε'} {R : Nat → Nat → Prop}

/-- Two vertices under way are partners, with partners still to look at. -/
def Frames (R : Nat → Nat → Prop) (f f' : Nat × List Nat) : Prop :=
  R f.1 f'.1 ∧ List.Forall₂ R f.2 f'.2

/-- Walks that have finished partners and have partners under way end alike. -/
theorem postOrderLoop (h : Matching g g' R) (steps : Nat)
    {frames frames' : List (Nat × List Nat)} {visited visited' : Indices} {order order' : List Nat}
    (hframes : List.Forall₂ (Frames R) frames frames')
    (hvisited : ∀ i i', R i i' → (i ∈ visited ↔ i' ∈ visited'))
    (horder : List.Forall₂ R order order') : ∃ result result',
      g.postOrderLoop steps frames visited order = .ok result ∧
        g'.postOrderLoop steps frames' visited' order' = .ok result' ∧
          List.Forall₂ R result result' := by
  induction steps generalizing frames frames' visited visited' order order' with
  | zero => exact ⟨order, order', rfl, rfl, horder⟩
  | succ steps ih =>
    cases hframes with
    | nil => exact ⟨order, order', rfl, rfl, horder⟩
    | @cons f f' frames frames' hf hframes =>
      obtain ⟨u, pending⟩ := f
      obtain ⟨u', pending'⟩ := f'
      obtain ⟨hu, hpending⟩ := hf
      cases hpending with
      | nil => exact ih hframes hvisited (.cons hu horder)
      | @cons w w' pending pending' hw hpending =>
        simp only [Graph.postOrderLoop, Std.ExtTreeSet.contains_iff_mem, hvisited w w' hw]
        split
        · exact ih (.cons ⟨hu, hpending⟩ hframes) hvisited horder
        · obtain ⟨next, next', hnext, hnext', hall⟩ := h.successors hw
          rw [hnext, hnext']
          refine ih (.cons ⟨hw, hall⟩ (.cons ⟨hu, hpending⟩ hframes)) (fun i i' hi => ?_) horder
          rw [Std.ExtTreeSet.mem_insert, Std.ExtTreeSet.mem_insert, Nat.compare_eq_eq,
            Nat.compare_eq_eq, h.unique hw hi, hvisited i i' hi]

/-- The walks from partners finish partners in the same order. -/
theorem reversePostOrder (h : Matching g g' R) {root root' : Nat} (hroot : R root root')
    (vertex : g.hasVertex root) (vertex' : g'.hasVertex root') : ∃ order order',
      g.reversePostOrder root = .ok order ∧ g'.reversePostOrder root' = .ok order' ∧
        List.Forall₂ R order order' := by
  obtain ⟨found, found', hfound, hfound', hall⟩ := h.successors hroot
  have hvisited (i i' : Nat) (hi : R i i') :
      i ∈ (.ofList [root] : Indices) ↔ i' ∈ (.ofList [root'] : Indices) := by
    simp [h.unique hroot hi]
  have hframes : List.Forall₂ (Frames R) [(root, found)] [(root', found')] :=
    .cons ⟨hroot, hall⟩ .nil
  obtain ⟨order, order', horder, horder', hsame⟩ := h.postOrderLoop
    (max (2 * g.arcCount + 3) (2 * g'.arcCount + 3)) hframes hvisited .nil
  rw [postOrderLoop_enough g (work_start hfound) (Nat.le_max_left ..)] at horder
  rw [postOrderLoop_enough g' (work_start hfound') (Nat.le_max_right ..)] at horder'
  refine ⟨order, order', ?_, ?_, hsame⟩
  · simp only [Graph.reversePostOrder, requireVertex, vertex, if_true, hfound]
    exact horder
  · simp only [Graph.reversePostOrder, requireVertex, vertex', if_true, hfound']
    exact horder'

end Matching

end FlowFacts.Graph
