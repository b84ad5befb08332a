import FlowFacts.Proofs.Graph.Made

/-! A graph apart from what its vertices carry.

A caller may change a vertex so that it no longer carries the number it is stored under; but what
it carries is all that such a change reaches, and no query of the graph goes by it. With the stored
numbers in place of the vertices (`bare`), every graph that a caller has built is consistent
(`Built.consistent_bare`), so whatever a consistent graph answers of numbers and edges, a built
graph answers too. With the ends of the edges in place of the edges as well, it is a graph of
numbers alone (`outline`), and graphs of numbers are the same when they have the same vertices and
the same edges (`Consistent.eq_of_numbers`). -/
namespace FlowFacts.Graph
variable {ν ε : Type}

/-! ### Numbers in place of vertices -/

/-- The graph with the number that each vertex is stored under in place of the vertex. -/
def bare (g : Graph ν ε) : Graph PlainVertex ε where
  vertexMap := g.vertexMap.map fun i _ => ⟨i⟩
  edgeMap := g.edgeMap
  successorMap := g.successorMap
  predecessorMap := g.predecessorMap

@[simp]
theorem hasVertex_bare (g : Graph ν ε) (i : Nat) : g.bare.hasVertex i = g.hasVertex i :=
  Std.ExtTreeMap.contains_map

@[simp]
theorem hasEdge_bare (g : Graph ν ε) (i j : Nat) : g.bare.hasEdge i j = g.hasEdge i j := rfl

theorem bare_eq {g : Graph ν ε} {g' : Graph PlainVertex ε}
    (vertices : ∀ i : Nat, g'.vertexMap[i]? = g.vertexMap[i]?.map fun _ => PlainVertex.mk i)
    (edges : g'.edgeMap = g.edgeMap) (successors : g'.successorMap = g.successorMap)
    (predecessors : g'.predecessorMap = g.predecessorMap) : g.bare = g' := by
  have hvertices : g'.vertexMap = g.vertexMap.map fun i _ => ⟨i⟩ :=
    Std.ExtTreeMap.ext_getElem? fun i => by rw [vertices, Std.ExtTreeMap.getElem?_map]
  cases g'
  simp only at edges successors predecessors hvertices
  rw [bare, hvertices, edges, successors, predecessors]

theorem bare_empty : (empty : Graph ν ε).bare = empty :=
  bare_eq (fun i => by simp [empty]) rfl rfl rfl

theorem bare_addVertex [IsVertex ν] (g : Graph ν ε) (v : ν) :
    (g.addVertex v).bare = g.bare.addVertex ⟨IsVertex.index v⟩ := by
  refine bare_eq (fun i => ?_) rfl rfl rfl
  simp only [addVertex, bare, IsVertex.index, Std.ExtTreeMap.getElem?_insert,
    Std.ExtTreeMap.getElem?_map, Nat.compare_eq_eq]
  by_cases hi : IsVertex.index v = i
  · simp [hi]
  · simp [hi]

theorem bare_modifyVertex (g : Graph ν ε) (i : Nat) (f : ν → ν) :
    (g.modifyVertex i f).bare = g.bare := by
  refine bare_eq (fun j => ?_) rfl rfl rfl
  simp only [modifyVertex, bare, Std.ExtTreeMap.getElem?_modify, Std.ExtTreeMap.getElem?_map,
    Nat.compare_eq_eq]
  by_cases hj : i = j
  · subst hj
    rw [if_pos rfl, Option.map_map]
    rfl
  · rw [if_neg hj]

/-- Apart from what its vertices carry, a built graph is consistent. -/
theorem Built.consistent_bare [IsVertex ν] [IsEdge ε] {g : Graph ν ε} (h : g.Built) :
    g.bare.Consistent := by
  obtain ⟨changes, rfl⟩ := h
  rw [make]
  induction changes using List.reverseRecOn with
  | nil => exact (bare_empty (ν := ν) (ε := ε)) ▸ consistent_empty
  | append_singleton changes change ih =>
    rw [List.foldl_concat]
    refine change.apply_cases (motive := fun g => g.bare.Consistent) ih (fun v fresh => ?_)
      (fun e hhead htail => ?_) fun i f _ => ?_
    · rw [bare_addVertex]
      exact ih.addVertex (by simpa [IsVertex.index] using fresh)
    · exact ih.addEdge (by simpa using hhead) (by simpa using htail)
    · rw [bare_modifyVertex]
      exact ih

/-- In a built graph the successor sets say what the edges say. -/
theorem Built.linked [IsVertex ν] [IsEdge ε] {g : Graph ν ε} (h : g.Built) : g.Linked where
  successor_keys i := by
    rw [← hasVertex_bare]
    exact h.consistent_bare.successor_keys i
  successors := h.consistent_bare.successors
  ends_are_vertices i j := by
    simpa using h.consistent_bare.ends_are_vertices i j

/-! ### Numbers in place of vertices and edges -/

/-- The same vertices and edges, as numbers alone. -/
def outline (g : Graph ν ε) : PlainGraph where
  vertexMap := g.vertexMap.map fun i _ => ⟨i⟩
  edgeMap := g.edgeMap.map fun ends _ => ⟨ends.head, ends.tail⟩
  successorMap := g.successorMap
  predecessorMap := g.predecessorMap

@[simp]
theorem hasVertex_outline (g : Graph ν ε) (i : Nat) : g.outline.hasVertex i = g.hasVertex i :=
  Std.ExtTreeMap.contains_map

@[simp]
theorem hasEdge_outline (g : Graph ν ε) (i j : Nat) : g.outline.hasEdge i j = g.hasEdge i j :=
  Std.ExtTreeMap.contains_map

namespace Consistent

theorem outline_bare [IsEdge ε] {g : Graph ν ε} (h : g.bare.Consistent) : g.outline.Consistent where
  vertex_index i v hv := by
    simp only [outline, Std.ExtTreeMap.getElem?_map, Option.map_eq_some_iff] at hv
    obtain ⟨_, -, rfl⟩ := hv
    rfl
  edge_ends i j e he := by
    simp only [outline, Std.ExtTreeMap.getElem?_map, Option.map_eq_some_iff] at he
    obtain ⟨_, -, rfl⟩ := he
    exact ⟨rfl, rfl⟩
  successor_keys i := by
    rw [hasVertex_outline, ← hasVertex_bare]
    exact h.successor_keys i
  predecessor_keys i := by
    rw [hasVertex_outline, ← hasVertex_bare]
    exact h.predecessor_keys i
  successors i j := by
    rw [hasEdge_outline]
    exact h.successors i j
  predecessors i j := by
    rw [hasEdge_outline]
    exact h.predecessors i j
  ends_are_vertices i j := by
    rw [hasEdge_outline, hasVertex_outline, hasVertex_outline]
    simpa using h.ends_are_vertices i j

/-- A vertex that is a number is the number it is stored under. -/
theorem vertexMap_plain [IsEdge ε] {g : Graph PlainVertex ε} (h : g.Consistent) {i : Nat}
    {v : PlainVertex} : g.vertexMap[i]? = some v ↔ g.hasVertex i ∧ v = ⟨i⟩ := by
  constructor
  · intro hv
    have hindex : v.index = i := h.vertex_index i v hv
    exact ⟨(g.hasVertex_iff i).2 ⟨v, hv⟩, hindex ▸ rfl⟩
  · rintro ⟨hi, rfl⟩
    obtain ⟨v, hv⟩ := (g.hasVertex_iff i).1 hi
    have hindex : v.index = i := h.vertex_index i v hv
    exact hindex ▸ hv

theorem edgeMap_plain [IsVertex ν] {g : Graph ν PlainEdge} (h : g.Consistent) {ends : Ends}
    {e : PlainEdge} : g.edgeMap[ends]? = some e ↔
      g.hasEdge ends.head ends.tail ∧ e = ⟨ends.head, ends.tail⟩ := by
  constructor
  · intro he
    have hends : e.head = ends.head ∧ e.tail = ends.tail := h.edge_ends ends.head ends.tail e he
    exact ⟨(g.hasEdge_iff _ _).2 ⟨e, he⟩, hends.1 ▸ hends.2 ▸ rfl⟩
  · rintro ⟨hij, rfl⟩
    obtain ⟨e, he⟩ := (g.hasEdge_iff _ _).1 hij
    have hends : e.head = ends.head ∧ e.tail = ends.tail := h.edge_ends ends.head ends.tail e he
    exact hends.1 ▸ hends.2 ▸ he

/-- A graph of numbers is known by its vertices and its edges. -/
theorem eq_of_numbers {g g' : PlainGraph} (h : g.Consistent) (h' : g'.Consistent)
    (vertices : ∀ i, g'.hasVertex i ↔ g.hasVertex i)
    (edges : ∀ i j, g'.hasEdge i j ↔ g.hasEdge i j) : g' = g := by
  have hvertices : g'.vertexMap = g.vertexMap := by
    refine Std.ExtTreeMap.ext_getElem? fun i => Option.ext fun v => ?_
    rw [h'.vertexMap_plain, h.vertexMap_plain, vertices]
  have hedges : g'.edgeMap = g.edgeMap := by
    refine Std.ExtTreeMap.ext_getElem? fun ends => Option.ext fun e => ?_
    rw [h'.edgeMap_plain, h.edgeMap_plain, edges]
  exact h.ext h' (congrArg (·.values) hvertices) (congrArg (·.values) hedges)

end Consistent

end FlowFacts.Graph
