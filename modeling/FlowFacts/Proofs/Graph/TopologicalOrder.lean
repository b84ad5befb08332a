import FlowFacts.Proofs.Graph.Outline
import FlowFacts.Proofs.Graph.PostOrder
import Mathlib.Data.List.Chain

/-! Causes before what follows from them.

The reverse of post-order comes to a vertex before the vertices that its edges lead to, unless
these lead back to it; where no cycle can be reached, it is a topological order. On a cycle some
edge has to lead backward, but never all of the edges to a vertex: each vertex other than the root
was discovered from one that was under way at that time, and so was finished later (`Parented`).
Whatever cycles there are, every such vertex comes after another one with an edge to it
(`causes_first`). -/
namespace FlowFacts.Graph
variable {ν ε : Type}

/-! ### Where vertices were discovered from -/

/-- With these vertices under way, every other one than the root has a parent. -/
structure Parented (g : Graph ν ε) (root : Nat) (stack order : List Nat) : Prop where
  /-- A vertex under way was discovered from the one below it. -/
  chain : stack.IsChain fun top below => Neighbour g.successorMap below top
  /-- A finished vertex was discovered from one that is under way, or was finished later. -/
  parent : ∀ v ∈ order, v ≠ root → ∃ u, Neighbour g.successorMap u v ∧
    (u ∈ stack ∨ [u, v].Sublist order)

namespace Parented
variable {g : Graph ν ε} {root u w : Nat} {stack order : List Nat}

theorem start (g : Graph ν ε) (root : Nat) : g.Parented root [root] [] where
  chain := .singleton root
  parent _ hv := absurd hv List.not_mem_nil

/-- The vertex on top is finished, and its parent is the one below. -/
theorem finish (h : g.Parented root (u :: stack) order)
    (bottom : (u :: stack).getLast? = some root) : g.Parented root stack (u :: order) where
  chain := h.chain.tail
  parent v hv hne := by
    rcases List.mem_cons.1 hv with rfl | hfinished
    · cases stack with
      | nil => exact absurd (by simpa using bottom) hne
      | cons below stack =>
        exact ⟨below, (List.isChain_cons_cons.1 h.chain).1, .inl List.mem_cons_self⟩
    · obtain ⟨p, harc, hunderway | hbefore⟩ := h.parent v hfinished hne
      · rcases List.mem_cons.1 hunderway with rfl | hbelow
        · exact ⟨p, harc, .inr ((List.singleton_sublist.2 hfinished).cons_cons p)⟩
        · exact ⟨p, harc, .inl hbelow⟩
      · exact ⟨p, harc, .inr (hbefore.cons u)⟩

theorem discover (h : g.Parented root (u :: stack) order) (arc : Neighbour g.successorMap u w) :
    g.Parented root (w :: u :: stack) order where
  chain := h.chain.cons_cons arc
  parent v hv hne := by
    obtain ⟨p, harc, hp⟩ := h.parent v hv hne
    exact ⟨p, harc, hp.imp_left (List.mem_cons_of_mem w)⟩

end Parented

/-- The parents are kept up to the end of the walk. -/
theorem Walk.parented {g : Graph ν ε} {root : Nat} {frames : List (Nat × List Nat)}
    {visited : Indices} {order result : List Nat} {answer : Except Error (List Nat)}
    (h : g.Walk root frames visited order) (parents : g.Parented root (frames.map Prod.fst) order)
    (ends : g.PostOrderEnds frames visited order answer) (hanswer : answer = .ok result) :
    g.Parented root [] result := by
  induction ends with
  | done =>
    cases hanswer
    exact parents
  | finish _ ih => exact ih h.finish (parents.finish (by simpa using h.bottom)) hanswer
  | skip seen _ ih => exact ih (h.skip seen) parents hanswer
  | fail => cases hanswer
  | discover new opens _ ih =>
    obtain ⟨s, hs, rfl⟩ := successorIndices_eq_ok.1 opens
    exact ih (h.discover new hs) (parents.discover h.next_arc) hanswer

/-- A vertex other than the root comes after another that an arc leads from. -/
theorem reversePostOrder_parent {g : Graph ν ε} {root : Nat} (hroot : g.hasVertex root)
    (entries : ∀ v, g.Reaches root v → v ∈ g.successorMap) {order : List Nat}
    (h : g.reversePostOrder root = .ok order) {v : Nat} (hv : g.Reaches root v) (hne : v ≠ root) :
    ∃ u, Neighbour g.successorMap u v ∧ [u, v].Sublist order := by
  obtain ⟨s, hs⟩ := Option.isSome_iff_exists.1
    (Std.ExtTreeMap.mem_iff_isSome_getElem?.1 (entries root .refl))
  have hends := reversePostOrder_ends hroot (successorIndices_eq_ok.2 ⟨s, hs, rfl⟩)
  have hparented := (Walk.start hs).parented (Parented.start g root) hends h
  obtain ⟨_, horder, -, hmem⟩ := reversePostOrder_reaches hroot entries
  cases h.symm.trans horder
  obtain ⟨u, harc, hu⟩ := hparented.parent v ((hmem v).2 hv) hne
  exact ⟨u, harc, hu.resolve_left List.not_mem_nil⟩

/-! ### Along edges -/

/-- Edges lead from the first vertex to the second, one after another. -/
def Leads (g : Graph ν ε) : Nat → Nat → Prop :=
  Relation.ReflTransGen fun i j => g.hasEdge i j

/-- The root leads to no vertex from which edges lead round to itself. -/
def Acyclic (g : Graph ν ε) (root : Nat) : Prop :=
  ∀ v, g.Leads root v → ¬ Relation.TransGen (fun i j => g.hasEdge i j) v v

theorem Linked.leads_eq {g : Graph ν ε} (h : g.Linked) : g.Leads = g.Reaches := by
  have harc : (fun i j => (g.hasEdge i j : Prop)) = Neighbour g.successorMap := by
    funext i j
    rw [eq_iff_iff, h.successors]
  rw [Leads, harc, Reaches]

/-- **The walk from a vertex of a built graph puts causes first.** It comes to each vertex that the
root leads to once, and to the head of an edge before its tail, unless the tail leads back to the
head; so where there is no cycle, all edges lead forward. In any case it comes to every vertex but
the root after one that an edge to it leads from. -/
theorem causes_first [IsVertex ν] [IsEdge ε] {g : Graph ν ε} (built : g.Built) (root : Nat) :
    (g.hasVertex root = false → g.reversePostOrder root = .error (.vertexNotFound root)) ∧
    (g.hasVertex root → ∃ order, g.reversePostOrder root = .ok order ∧ order.Nodup ∧
      (∀ v, v ∈ order ↔ g.Leads root v) ∧
      (∀ u v, g.Leads root u → g.hasEdge u v → ¬ g.Leads v u → [u, v].Sublist order) ∧
      (g.Acyclic root → ∀ u v, g.Leads root u → g.hasEdge u v → [u, v].Sublist order) ∧
      ∀ v, g.Leads root v → v ≠ root → ∃ u, g.hasEdge u v ∧ [u, v].Sublist order) := by
  refine ⟨fun absent => requireVertex_error absent _, fun hroot => ?_⟩
  have hlinked := built.linked
  have entries := hlinked.entries hroot
  obtain ⟨order, horder, hnodup, hmem⟩ := reversePostOrder_reaches hroot entries
  have forward (u v : Nat) (hu : g.Leads root u) (edge : g.hasEdge u v)
      (noReturn : ¬ g.Leads v u) : [u, v].Sublist order := by
    rw [hlinked.leads_eq] at hu noReturn
    exact reversePostOrder_sorted hroot entries horder hu ((hlinked.successors u v).2 edge) noReturn
  refine ⟨order, horder, hnodup, ?members, forward, ?topological, ?parents⟩
  case members =>
    intro v
    rw [hmem, hlinked.leads_eq]
  case topological =>
    intro acyclic u v hu edge
    exact forward u v hu edge fun back => acyclic u hu (.head' edge back)
  case parents =>
    intro v hv hne
    rw [hlinked.leads_eq] at hv
    obtain ⟨u, harc, hbefore⟩ := reversePostOrder_parent hroot entries horder hv hne
    exact ⟨u, (hlinked.successors u v).1 harc, hbefore⟩

/-- A loop that is entered in two places and left at one, changed after it was made. -/
def twoEntrances : LabelledGraph :=
  make [.insertVertex ⟨0, "start"⟩, .insertVertex ⟨1, "left"⟩, .insertVertex ⟨2, "right"⟩,
    .insertVertex ⟨3, "aside"⟩, .insertVertex ⟨4, "end"⟩, .insertEdge ⟨0, 1, "first"⟩,
    .insertEdge ⟨1, 2, "loop"⟩, .insertEdge ⟨2, 1, "loop"⟩, .insertEdge ⟨0, 3, "second"⟩,
    .insertEdge ⟨3, 2, "enter"⟩, .insertEdge ⟨2, 4, "leave"⟩, .insertEdge ⟨4, 9, "nowhere"⟩,
    .updateVertex 3 fun v => { v with index := 7 }]

theorem causes_first_twoEntrances : twoEntrances.Built ∧
    twoEntrances.reversePostOrder 0 = .ok [0, 3, 1, 2, 4] ∧
      twoEntrances.reversePostOrder 9 = .error (.vertexNotFound 9) ∧
      (twoEntrances.Leads 0 2 ∧ twoEntrances.hasEdge 2 4 ∧ ¬ twoEntrances.Leads 4 2) ∧
        [2, 4].Sublist [0, 3, 1, 2, 4] ∧
        ∃ u, twoEntrances.hasEdge u 1 ∧ [u, 1].Sublist [0, 3, 1, 2, 4] := by
  have built : twoEntrances.Built := ⟨_, rfl⟩
  have horder : twoEntrances.reversePostOrder 0 = .ok [0, 3, 1, 2, 4] := by decide +kernel
  have hlast : twoEntrances.reversePostOrder 4 = .ok [4] := by decide +kernel
  have edge : twoEntrances.hasEdge 2 4 := by decide +kernel
  obtain ⟨_, horder', -, hmem, forward, -, parents⟩ :=
    (causes_first built 0).2 (by decide +kernel)
  cases horder.symm.trans horder'
  obtain ⟨_, hlast', -, hmemLast, -⟩ := (causes_first built 4).2 (by decide +kernel)
  cases hlast.symm.trans hlast'
  have lead : twoEntrances.Leads 0 2 := (hmem 2).1 (by decide)
  have noReturn : ¬ twoEntrances.Leads 4 2 := fun h => absurd ((hmemLast 2).2 h) (by decide)
  exact ⟨built, horder, (causes_first built 9).1 (by decide +kernel), ⟨lead, edge, noReturn⟩,
    forward 2 4 lead edge noReturn, parents 1 ((hmem 1).1 (by decide)) (by decide)⟩

end FlowFacts.Graph
