import FlowFacts.Proofs.Graph.Consistent
import FlowFacts.Proofs.Sequence
import Mathlib.Data.List.Nodup

/-! Graphs of numbers, made by many insertions at once.

New vertices can be inserted in any order, and so can new edges between vertices:
no insertion is refused, and the graph has what it had and what was inserted
(`insertVertices`, `insertEdges`). A consistent graph can therefore always be turned
round (`Turned`, `Consistent.reversed`). -/
namespace FlowFacts.Graph

theorem insertVertices (l : List Nat) (nodup : l.Nodup) (g : PlainGraph) (h : g.Consistent)
    (fresh : ∀ i ∈ l, g.hasVertex i = false) :
    ∃ r : PlainGraph, (forM l fun i => insertVertex (PlainVertex.mk i)) g = .ok () r ∧
      r.Consistent ∧ (∀ i, r.hasVertex i ↔ i ∈ l ∨ g.hasVertex i) ∧
        ∀ i j, r.hasEdge i j = g.hasEdge i j := by
  induction l generalizing g with
  | nil => exact ⟨g, rfl, h, by simp, fun _ _ => rfl⟩
  | cons k l ih =>
    obtain ⟨hk, hl⟩ := List.nodup_cons.1 nodup
    have hfresh : g.hasVertex k = false := fresh k List.mem_cons_self
    have hnext : insertVertex (PlainVertex.mk k) g = .ok () (g.addVertex ⟨k⟩) := by
      rcases insertVertex_cases g (PlainVertex.mk k) with ⟨_, hok⟩ | ⟨hold, _⟩
      · exact hok
      · exact absurd hold (by simp [IsVertex.index, hfresh])
    obtain ⟨r, hr, hc, hv, he⟩ := ih hl (g.addVertex ⟨k⟩) (h.addVertex hfresh) fun i hi => by
      have hne : k ≠ i := fun heq => hk (heq ▸ hi)
      have := fresh i (List.mem_cons_of_mem k hi)
      simpa [this, IsVertex.index, Bool.eq_false_iff] using hne
    refine ⟨r, ?_, hc, fun i => ?_, he⟩
    · rw [List.forM_cons]
      exact (bind_ok hnext).trans hr
    · rw [hv, hasVertex_addVertex, List.mem_cons, ← or_assoc]
      simp only [IsVertex.index, eq_comm (a := k), or_comm (a := i ∈ l)]

theorem insertEdges (l : List (Nat × Nat)) (nodup : l.Nodup) (g : PlainGraph) (h : g.Consistent)
    (fresh : ∀ e ∈ l, g.hasEdge e.1 e.2 = false)
    (ends : ∀ e ∈ l, g.hasVertex e.1 ∧ g.hasVertex e.2) :
    ∃ r : PlainGraph, (forM l fun e => insertEdge (PlainEdge.mk e.1 e.2)) g = .ok () r ∧
      r.Consistent ∧ (∀ i, r.hasVertex i = g.hasVertex i) ∧
        ∀ i j, r.hasEdge i j ↔ (i, j) ∈ l ∨ g.hasEdge i j := by
  induction l generalizing g with
  | nil => exact ⟨g, rfl, h, fun _ => rfl, by simp⟩
  | cons k l ih =>
    obtain ⟨hk, hl⟩ := List.nodup_cons.1 nodup
    have hfresh := fresh k List.mem_cons_self
    obtain ⟨hhead, htail⟩ := ends k List.mem_cons_self
    have hnext : insertEdge (PlainEdge.mk k.1 k.2) g = .ok () (g.addEdge ⟨k.1, k.2⟩) := by
      rcases insertEdge_cases g (PlainEdge.mk k.1 k.2) with ⟨_, _, _, hok⟩ | ⟨error, hno⟩
      · exact hok
      · simp [insertEdge, IsEdge.head, IsEdge.tail, hfresh, hhead, htail] at hno
    obtain ⟨r, hr, hc, hv, he⟩ := ih hl (g.addEdge ⟨k.1, k.2⟩) (h.addEdge hhead htail)
      (fun e hmem => by
        have hne : ¬(k.1 = e.1 ∧ k.2 = e.2) := fun heq => hk (Prod.ext heq.1 heq.2 ▸ hmem)
        have := fresh e (List.mem_cons_of_mem k hmem)
        simpa [this, IsEdge.head, IsEdge.tail, Bool.eq_false_iff] using hne)
      fun e hmem => ends e (List.mem_cons_of_mem k hmem)
    refine ⟨r, ?_, hc, hv, fun i j => ?_⟩
    · rw [List.forM_cons]
      exact (bind_ok hnext).trans hr
    · rw [he, hasEdge_addEdge, List.mem_cons, ← or_assoc]
      simp only [IsEdge.head, IsEdge.tail, Prod.ext_iff, eq_comm (a := k.1), eq_comm (a := k.2),
        or_comm (a := (i, j) ∈ l)]

/-- The same vertices, and every edge the other way. -/
structure Turned {ν ε : Type} (g : Graph ν ε) (r : PlainGraph) : Prop where
  consistent : r.Consistent
  vertices : ∀ i, r.hasVertex i ↔ g.hasVertex i
  edges : ∀ i j, r.hasEdge i j ↔ g.hasEdge j i

variable {ν ε : Type} [IsVertex ν] [IsEdge ε]

/-- No insertion is refused when a consistent graph is turned round. -/
theorem Consistent.reversed {g : Graph ν ε} (h : g.Consistent) :
    ∃ r, g.reversed = .ok r ∧ g.Turned r := by
  let turned := g.edgeMap.keys.map fun e => (e.tail, e.head)
  have hmem (i j : Nat) : (i, j) ∈ turned ↔ g.hasEdge j i := by
    simp only [turned, List.mem_map, Std.ExtTreeMap.mem_keys, Prod.mk.injEq, hasEdge,
      Std.ExtTreeMap.contains_iff_mem]
    constructor
    · intro harc
      obtain ⟨⟨_, _⟩, hm, hi, hj⟩ := harc
      exact hi ▸ hj ▸ hm
    · exact fun hm => ⟨_, hm, rfl, rfl⟩
  have hturned : turned.Nodup := by
    refine List.Nodup.map (fun a b heq => ?_) g.edgeMap.nodup_keys
    obtain ⟨_, _⟩ := a
    obtain ⟨_, _⟩ := b
    simp_all
  obtain ⟨v, hv, hvc, hvv, hve⟩ := insertVertices g.vertexMap.keys g.vertexMap.nodup_keys empty
    consistent_empty (by simp)
  have hsame (i : Nat) : v.hasVertex i ↔ g.hasVertex i := by
    rw [hvv, g.mem_keys, hasVertex_empty]
    simp
  obtain ⟨r, hr, hrc, hrv, hre⟩ := insertEdges turned hturned v hvc (by simp [hve])
    fun e he => by
      obtain ⟨hj, hi⟩ := h.ends_are_vertices _ _ ((hmem e.1 e.2).1 he)
      exact ⟨(hsame _).2 hi, (hsame _).2 hj⟩
  refine ⟨r, ?_, hrc, fun i => by rw [hrv, hsame], fun i j => by rw [hre, hmem]; simp [hve]⟩
  rw [List.forM_map] at hr
  have hbuild : g.buildReversed empty = .ok () r := (bind_ok hv).trans hr
  rw [Graph.reversed, EStateM.run, hbuild]

end FlowFacts.Graph
