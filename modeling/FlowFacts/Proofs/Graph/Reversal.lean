import FlowFacts.Proofs.Graph.Outline
import FlowFacts.Proofs.Graph.Reachable
import FlowFacts.Proofs.Graph.TopologicalOrder

/-! Turning a graph round.

The graph turned round is built anew from the numbers of the vertices and the ends of the edges, by
insertions that may be refused. For a built graph none is, and what comes out has the vertices of
the graph and its edges the other way (`Turned`). The neighbours follow: the successor sets of the
one graph are the predecessor sets of the other, and edges lead back in the one where they lead
forth in the other. Turning round twice leaves nothing changed but what vertices and edges carry
(`reversed_exact`). -/
namespace FlowFacts.Graph
variable {ν ε : Type} {g : Graph ν ε} {r : PlainGraph}

/-- Turning round goes by numbers and ends alone. -/
theorem reversed_bare (g : Graph ν ε) : g.bare.reversed = g.reversed := by
  simp only [reversed, buildReversed, bare, Std.ExtTreeMap.keys_map]

/-- A graph of whose vertices the numbers are consistent can be turned round. -/
theorem Consistent.exists_turned [IsEdge ε] (h : g.bare.Consistent) :
    ∃ r, g.reversed = .ok r ∧ g.Turned r := by
  obtain ⟨r, hr, ht⟩ := h.reversed
  refine ⟨r, reversed_bare g ▸ hr, ht.consistent, fun i => ?_, ht.edges⟩
  rw [ht.vertices, hasVertex_bare]

namespace Turned

/-! ### Neighbours -/

section
variable [IsEdge ε] (h : g.Turned r) (hg : g.bare.Consistent)
include h hg

theorem successorMap : r.successorMap = g.predecessorMap := by
  refine neighbours_ext (fun i => ?_) fun i j => ?_
  · rw [h.consistent.successor_keys, h.vertices, ← hasVertex_bare]
    exact (hg.predecessor_keys i).symm
  · rw [h.consistent.successors, h.edges, ← hasEdge_bare]
    exact (hg.predecessors i j).symm

theorem predecessorMap : r.predecessorMap = g.successorMap := by
  refine neighbours_ext (fun i => ?_) fun i j => ?_
  · rw [h.consistent.predecessor_keys, h.vertices, ← hasVertex_bare]
    exact (hg.successor_keys i).symm
  · rw [h.consistent.predecessors, h.edges, ← hasEdge_bare]
    exact (hg.successors i j).symm

/-- Also where there is no vertex, and both are errors. -/
theorem successorIndices (v : Nat) : r.successorIndices v = g.predecessorIndices v := by
  rw [Graph.successorIndices, h.successorMap hg]
  rfl

theorem predecessorIndices (v : Nat) : r.predecessorIndices v = g.successorIndices v := by
  rw [Graph.predecessorIndices, h.predecessorMap hg]
  rfl

end

/-! ### Along edges -/

theorem leads (h : g.Turned r) (hg : g.Linked) (u v : Nat) : r.Leads u v ↔ g.Leads v u := by
  rw [h.consistent.linked.leads_eq, hg.leads_eq, h.reaches hg]

/-- What the search finds from a vertex is where the other search finds the vertex from. -/
theorem reachable (h : g.Turned r) (hg : g.Linked) {u v : Nat} (hu : g.hasVertex u)
    (hv : g.hasVertex v) : ∃ ahead behind, r.reachable u = .ok ahead ∧
      g.reachable v = .ok behind ∧ (v ∈ ahead ↔ u ∈ behind) := by
  obtain ⟨ahead, hahead, hmem⟩ := h.consistent.reachable ((h.vertices u).2 hu)
  obtain ⟨behind, hbehind, hmem'⟩ := reachable_reaches hv (hg.entries hv)
  refine ⟨ahead, behind, hahead, hbehind, ?_⟩
  rw [hmem, hmem', h.reaches hg]

/-! ### Once more -/

/-- Turned round again, the graph is the one it was, in numbers. -/
theorem reversed [IsEdge ε] (h : g.Turned r) (hg : g.bare.Consistent) :
    r.reversed = .ok g.outline := by
  obtain ⟨r', hr', ht⟩ := h.consistent.reversed
  rw [hr', hg.outline_bare.eq_of_numbers ht.consistent (fun i => ?_) fun i j => ?_]
  · rw [ht.vertices, h.vertices, hasVertex_outline]
  · rw [ht.edges, h.edges, hasEdge_outline]

end Turned

/-- **Turning a built graph round loses nothing.** It succeeds, and leaves the vertices as they are
and every edge the other way. Successors and predecessors change places, and so do the two ends of a
way, both as edges lead and as the search finds. Turned round again, it is the graph itself with
numbers in place of what its vertices and edges carry. -/
theorem reversed_exact [IsVertex ν] [IsEdge ε] (built : g.Built) : ∃ r, g.reversed = .ok r ∧
    (∀ i, r.hasVertex i ↔ g.hasVertex i) ∧
    (∀ head tail, r.hasEdge head tail ↔ g.hasEdge tail head) ∧
    (∀ v, r.successorIndices v = g.predecessorIndices v ∧
      r.predecessorIndices v = g.successorIndices v) ∧
    (∀ u v, r.Leads u v ↔ g.Leads v u) ∧
    (∀ u v, g.hasVertex u → g.hasVertex v → ∃ ahead behind, r.reachable u = .ok ahead ∧
      g.reachable v = .ok behind ∧ (v ∈ ahead ↔ u ∈ behind)) ∧
    r.reversed = .ok g.outline := by
  have hg := built.consistent_bare
  obtain ⟨r, hr, h⟩ := hg.exists_turned
  exact ⟨r, hr, h.vertices, h.edges, fun v => ⟨h.successorIndices hg v, h.predecessorIndices hg v⟩,
    h.leads built.linked, fun u v hu hv => h.reachable built.linked hu hv, h.reversed hg⟩

/-- The vertex under 3 carries 7, and no edge leads on from the last one. -/
theorem reversed_exact_twoEntrances : twoEntrances.Built ∧ ∃ r, twoEntrances.reversed = .ok r ∧
    r.successorIndices 2 = .ok [1, 3] ∧ r.predecessorIndices 2 = .ok [1, 4] ∧
      r.successorIndices 7 = .error (.vertexNotFound 7) ∧ (r.Leads 4 0 ∧ ¬ r.Leads 0 4) ∧
        r.reversed = .ok twoEntrances.outline := by
  have built : twoEntrances.Built := ⟨_, rfl⟩
  obtain ⟨r, hr, -, -, hneighbours, hleads, -, htwice⟩ := reversed_exact built
  have hlast : twoEntrances.successorIndices 4 = .ok [] := by decide +kernel
  have hstuck (j : Nat) : ¬ twoEntrances.hasEdge 4 j := by
    rw [← built.linked.successors, neighbour_iff_of_successorIndices hlast]
    exact List.not_mem_nil
  have hway : twoEntrances.Leads 0 4 :=
    .head (b := 3) (by decide +kernel)
      (.head (b := 2) (by decide +kernel) (.single (by decide +kernel)))
  have hnoWay : ¬ twoEntrances.Leads 4 0 := by
    intro h
    rcases Relation.ReflTransGen.cases_head h with h | ⟨j, hj, -⟩
    · cases h
    · exact hstuck j hj
  refine ⟨built, r, hr, ?_, ?_, ?_, ⟨(hleads 4 0).2 hway, fun h => hnoWay ((hleads 0 4).1 h)⟩,
    htwice⟩
  · rw [(hneighbours 2).1]
    decide +kernel
  · rw [(hneighbours 2).2]
    decide +kernel
  · rw [(hneighbours 7).1]
    decide +kernel

end FlowFacts.Graph
