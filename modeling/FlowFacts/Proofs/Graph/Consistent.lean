import FlowFacts.Graph.Plain
import Mathlib.Data.List.Basic

/-! Graphs whose four maps agree.

A graph is consistent when every vertex and every edge lies under its own number,
and the sets beside them say what the edges say (`Consistent`). The empty graph is
consistent and every change keeps it so, so in a graph made by changes the
neighbours of a vertex are the ends of its edges (`Consistent.successorIndices`,
`Consistent.predecessorIndices`). -/
namespace FlowFacts.Graph

/-! ### Membership -/

theorem values_eq_map_toList {κ β : Type} [Ord κ] [Std.TransOrd κ] (m : Std.ExtTreeMap κ β) :
    m.values = m.toList.map Prod.snd := by
  obtain ⟨⟨m⟩⟩ := m
  induction m using Quotient.inductionOn with
  | _ t =>
    show t.inner.values = (Std.DTreeMap.Internal.Impl.Const.toList t.inner).map Prod.snd
    rw [Std.DTreeMap.Internal.Impl.values_eq_map_snd,
      Std.DTreeMap.Internal.Impl.Const.toList_eq_toListModel_map, List.map_map]
    rfl

section Membership
variable {ν ε : Type} (g : Graph ν ε)

theorem hasVertex_iff (i : Nat) : g.hasVertex i ↔ ∃ v, g.vertexMap[i]? = some v := by
  rw [hasVertex, Std.ExtTreeMap.contains_eq_isSome_getElem?, Option.isSome_iff_exists]

theorem hasEdge_iff (i j : Nat) : g.hasEdge i j ↔ ∃ e, g.edgeMap[Ends.mk i j]? = some e := by
  rw [hasEdge, Std.ExtTreeMap.contains_eq_isSome_getElem?, Option.isSome_iff_exists]

@[simp]
theorem hasVertex_empty (i : Nat) : (empty : Graph ν ε).hasVertex i = false :=
  Std.ExtTreeMap.contains_empty

@[simp]
theorem hasEdge_empty (i j : Nat) : (empty : Graph ν ε).hasEdge i j = false :=
  Std.ExtTreeMap.contains_empty

theorem mem_keys {i : Nat} : i ∈ g.vertexMap.keys ↔ g.hasVertex i := by
  rw [Std.ExtTreeMap.mem_keys, hasVertex, Std.ExtTreeMap.contains_iff_mem]

theorem keys_sorted : g.vertexMap.keys.Pairwise (· < ·) :=
  g.vertexMap.ordered_keys.imp Nat.compare_eq_lt.1

theorem vertex_eq_ok {i : Nat} {v : ν} : g.vertex i = .ok v ↔ g.vertexMap[i]? = some v := by
  unfold vertex
  split <;> simp_all

theorem edge_eq_ok {i j : Nat} {e : ε} :
    g.edge i j = .ok e ↔ g.edgeMap[Ends.mk i j]? = some e := by
  unfold edge
  split <;> simp_all

/-- The set that the map holds under `i` has `j` in it. -/
def Neighbour (m : Std.ExtTreeMap Nat Indices) (i j : Nat) : Prop :=
  ∃ s : Indices, m[i]? = some s ∧ j ∈ s

theorem neighbour_insert_empty (m : Std.ExtTreeMap Nat Indices) (i j k : Nat) :
    Neighbour (m.insert k ∅) i j ↔ k ≠ i ∧ Neighbour m i j := by
  simp only [Neighbour, Std.ExtTreeMap.getElem?_insert, Nat.compare_eq_eq]
  by_cases h : k = i <;> simp [h]

theorem mem_addNeighbour (m : Std.ExtTreeMap Nat Indices) (i j k : Nat) :
    i ∈ addNeighbour m k j ↔ k = i ∨ i ∈ m := by
  simp only [Std.ExtTreeMap.mem_iff_isSome_getElem?, addNeighbour, Std.ExtTreeMap.getElem?_alter,
    Nat.compare_eq_eq]
  by_cases h : k = i <;> simp [h]

theorem neighbour_addNeighbour (m : Std.ExtTreeMap Nat Indices) (i j k l : Nat) :
    Neighbour (addNeighbour m k l) i j ↔ (k = i ∧ l = j) ∨ Neighbour m i j := by
  simp only [Neighbour, addNeighbour, Std.ExtTreeMap.getElem?_alter, Nat.compare_eq_eq]
  by_cases h : k = i
  · subst h
    cases hm : m[k]? <;> simp [Std.ExtTreeSet.mem_insert]
  · simp [h]

end Membership

variable {ν ε : Type} [IsVertex ν] [IsEdge ε]

structure Consistent (g : Graph ν ε) : Prop where
  vertex_index : ∀ i v, g.vertexMap[i]? = some v → IsVertex.index v = i
  edge_ends : ∀ i j e, g.edgeMap[Ends.mk i j]? = some e → IsEdge.head e = i ∧ IsEdge.tail e = j
  successor_keys : ∀ i, i ∈ g.successorMap ↔ g.hasVertex i
  predecessor_keys : ∀ i, i ∈ g.predecessorMap ↔ g.hasVertex i
  successors : ∀ i j, Neighbour g.successorMap i j ↔ g.hasEdge i j
  predecessors : ∀ i j, Neighbour g.predecessorMap i j ↔ g.hasEdge j i
  ends_are_vertices : ∀ i j, g.hasEdge i j → g.hasVertex i ∧ g.hasVertex j

/-- What is left of it where a vertex has changed its number: the vertices have successor sets, the
sets say what the edges say, and edges join vertices. -/
structure Linked (g : Graph ν ε) : Prop where
  successor_keys : ∀ i, i ∈ g.successorMap ↔ g.hasVertex i
  successors : ∀ i j, Neighbour g.successorMap i j ↔ g.hasEdge i j
  ends_are_vertices : ∀ i j, g.hasEdge i j → g.hasVertex i ∧ g.hasVertex j

theorem Consistent.linked {g : Graph ν ε} (h : g.Consistent) : g.Linked :=
  ⟨h.successor_keys, h.successors, h.ends_are_vertices⟩

/-- The first edge has the smaller head, or the same head and the smaller tail. -/
def Before (e f : ε) : Prop :=
  IsEdge.head e < IsEdge.head f ∨ IsEdge.head e = IsEdge.head f ∧ IsEdge.tail e < IsEdge.tail f

instance : Std.Irrefl (Before (ε := ε)) where
  irrefl e h := by
    unfold Before at h
    omega

instance : Std.Antisymm (Before (ε := ε)) where
  antisymm e f h h' := by
    unfold Before at h h'
    omega

/-! ### The graph after a change -/

/-- The graph with one more vertex, without neighbours. -/
def addVertex (g : Graph ν ε) (v : ν) : Graph ν ε where
  vertexMap := g.vertexMap.insert (IsVertex.index v) v
  edgeMap := g.edgeMap
  successorMap := g.successorMap.insert (IsVertex.index v) ∅
  predecessorMap := g.predecessorMap.insert (IsVertex.index v) ∅

/-- The graph with one more edge. -/
def addEdge (g : Graph ν ε) (e : ε) : Graph ν ε where
  vertexMap := g.vertexMap
  edgeMap := g.edgeMap.insert ⟨IsEdge.head e, IsEdge.tail e⟩ e
  successorMap := addNeighbour g.successorMap (IsEdge.head e) (IsEdge.tail e)
  predecessorMap := addNeighbour g.predecessorMap (IsEdge.tail e) (IsEdge.head e)

omit [IsEdge ε] in
/-- An insertion that is refused leaves the graph as it was. -/
theorem insertVertex_cases (g : Graph ν ε) (v : ν) :
    g.hasVertex (IsVertex.index v) = false ∧ insertVertex v g = .ok () (g.addVertex v) ∨
      g.hasVertex (IsVertex.index v) ∧ ∃ error, insertVertex v g = .error error g := by
  cases h : g.hasVertex (IsVertex.index v)
  · exact .inl ⟨rfl, by simp [insertVertex, addVertex, h]⟩
  · exact .inr ⟨rfl, .custom "duplicate vertex index", by simp [insertVertex, h]⟩

omit [IsVertex ν] in
theorem insertEdge_cases (g : Graph ν ε) (e : ε) :
    (g.hasEdge (IsEdge.head e) (IsEdge.tail e) = false ∧ g.hasVertex (IsEdge.head e) ∧
        g.hasVertex (IsEdge.tail e) ∧ insertEdge e g = .ok () (g.addEdge e)) ∨
      ∃ error, insertEdge e g = .error error g := by
  cases hedge : g.hasEdge (IsEdge.head e) (IsEdge.tail e)
  · cases hhead : g.hasVertex (IsEdge.head e)
    · exact .inr ⟨.vertexNotFound (IsEdge.head e), by simp [insertEdge, hedge, hhead]⟩
    · cases htail : g.hasVertex (IsEdge.tail e)
      · exact .inr ⟨.vertexNotFound (IsEdge.tail e), by simp [insertEdge, hedge, hhead, htail]⟩
      · exact .inl ⟨rfl, rfl, rfl, by simp [insertEdge, addEdge, hedge, hhead, htail]⟩
  · exact .inr ⟨.custom "duplicate edge", by simp [insertEdge, hedge]⟩

omit [IsEdge ε] in
@[simp]
theorem hasVertex_addVertex (g : Graph ν ε) (v : ν) (i : Nat) :
    (g.addVertex v).hasVertex i ↔ IsVertex.index v = i ∨ g.hasVertex i := by
  simp [hasVertex, addVertex]

omit [IsEdge ε] in
@[simp]
theorem hasEdge_addVertex (g : Graph ν ε) (v : ν) (i j : Nat) :
    (g.addVertex v).hasEdge i j = g.hasEdge i j := rfl

omit [IsVertex ν] in
@[simp]
theorem hasVertex_addEdge (g : Graph ν ε) (e : ε) (i : Nat) :
    (g.addEdge e).hasVertex i = g.hasVertex i := rfl

omit [IsVertex ν] in
@[simp]
theorem hasEdge_addEdge (g : Graph ν ε) (e : ε) (i j : Nat) :
    (g.addEdge e).hasEdge i j ↔ (IsEdge.head e = i ∧ IsEdge.tail e = j) ∨ g.hasEdge i j := by
  simp [hasEdge, addEdge]

/-- The graph with the vertex under `i` changed. -/
def modifyVertex (g : Graph ν ε) (i : Nat) (f : ν → ν) : Graph ν ε :=
  { g with vertexMap := g.vertexMap.modify i f }

omit [IsVertex ν] [IsEdge ε] in
theorem updateVertex_cases (g : Graph ν ε) (i : Nat) (f : ν → ν) :
    updateVertex i f g = .ok () (g.modifyVertex i f) ∨
      g.hasVertex i = false ∧ ∃ error, updateVertex i f g = .error error g := by
  cases h : g.hasVertex i
  · exact .inr ⟨rfl, .vertexNotFound i, by simp [updateVertex, h]⟩
  · exact .inl (by simp [updateVertex, modifyVertex, h])

omit [IsVertex ν] [IsEdge ε] in
@[simp]
theorem hasVertex_modifyVertex (g : Graph ν ε) (i j : Nat) (f : ν → ν) :
    (g.modifyVertex i f).hasVertex j = g.hasVertex j :=
  Std.ExtTreeMap.contains_modify

omit [IsVertex ν] [IsEdge ε] in
@[simp]
theorem hasEdge_modifyVertex (g : Graph ν ε) (i j k : Nat) (f : ν → ν) :
    (g.modifyVertex i f).hasEdge j k = g.hasEdge j k := rfl

/-! ### Every change keeps a graph linked -/

namespace Linked
variable {g : Graph ν ε}

omit [IsVertex ν] [IsEdge ε] in
/-- A number that no vertex has is no end of an edge. -/
theorem no_edge (h : g.Linked) {i : Nat} (fresh : g.hasVertex i = false) (j : Nat) :
    ¬ g.hasEdge i j ∧ ¬ g.hasEdge j i := by
  refine ⟨fun hedge => ?_, fun hedge => ?_⟩
  · simpa [fresh] using (h.ends_are_vertices i j hedge).1
  · simpa [fresh] using (h.ends_are_vertices j i hedge).2

omit [IsEdge ε] in
theorem addVertex (h : g.Linked) {v : ν} (fresh : g.hasVertex (IsVertex.index v) = false) :
    (g.addVertex v).Linked where
  successor_keys i := by
    simp only [hasVertex_addVertex, ← h.successor_keys]
    simp [Graph.addVertex, Std.ExtTreeMap.mem_insert]
  successors i j := by
    simp only [Graph.addVertex, neighbour_insert_empty, h.successors]
    exact ⟨And.right, fun hedge => ⟨fun heq => (h.no_edge (heq ▸ fresh) j).1 hedge, hedge⟩⟩
  ends_are_vertices i j hedge := by
    have := h.ends_are_vertices i j hedge
    simp [this.1, this.2]

omit [IsVertex ν] in
theorem addEdge (h : g.Linked) {e : ε} (hhead : g.hasVertex (IsEdge.head e))
    (htail : g.hasVertex (IsEdge.tail e)) : (g.addEdge e).Linked where
  successor_keys i := by
    have : i ∈ (g.addEdge e).successorMap ↔ IsEdge.head e = i ∨ i ∈ g.successorMap :=
      mem_addNeighbour ..
    rw [this, hasVertex_addEdge, h.successor_keys]
    exact or_iff_right_of_imp fun hi => hi ▸ hhead
  successors i j := by
    rw [hasEdge_addEdge, ← h.successors]
    exact neighbour_addNeighbour ..
  ends_are_vertices i j hedge := by
    rcases (hasEdge_addEdge ..).1 hedge with ⟨rfl, rfl⟩ | hedge
    · exact ⟨hhead, htail⟩
    · exact h.ends_are_vertices i j hedge

omit [IsVertex ν] [IsEdge ε] in
theorem modifyVertex (h : g.Linked) (i : Nat) (f : ν → ν) : (g.modifyVertex i f).Linked where
  successor_keys j := by rw [hasVertex_modifyVertex]; exact h.successor_keys j
  successors := h.successors
  ends_are_vertices j k hedge := by
    simp only [hasVertex_modifyVertex]
    exact h.ends_are_vertices j k hedge

end Linked

/-! ### Every change keeps a graph consistent -/

theorem consistent_empty : (empty : Graph ν ε).Consistent := by
  constructor <;> simp [empty, hasVertex, hasEdge, Neighbour]

namespace Consistent
variable {g : Graph ν ε}

theorem addVertex (h : g.Consistent) {v : ν} (fresh : g.hasVertex (IsVertex.index v) = false) :
    (g.addVertex v).Consistent where
  vertex_index i w hw := by
    simp only [Graph.addVertex, Std.ExtTreeMap.getElem?_insert, Nat.compare_eq_eq] at hw
    split at hw
    · simp_all
    · exact h.vertex_index i w hw
  edge_ends := h.edge_ends
  successor_keys := (h.linked.addVertex fresh).successor_keys
  predecessor_keys i := by
    simp only [hasVertex_addVertex, ← h.predecessor_keys]
    simp [Graph.addVertex, Std.ExtTreeMap.mem_insert]
  successors := (h.linked.addVertex fresh).successors
  predecessors i j := by
    simp only [Graph.addVertex, neighbour_insert_empty, h.predecessors]
    exact ⟨And.right, fun hedge => ⟨fun heq => (h.linked.no_edge (heq ▸ fresh) j).2 hedge, hedge⟩⟩
  ends_are_vertices := (h.linked.addVertex fresh).ends_are_vertices

theorem addEdge (h : g.Consistent) {e : ε} (hhead : g.hasVertex (IsEdge.head e))
    (htail : g.hasVertex (IsEdge.tail e)) : (g.addEdge e).Consistent where
  vertex_index := h.vertex_index
  edge_ends i j f hf := by
    simp only [Graph.addEdge, Std.ExtTreeMap.getElem?_insert] at hf
    split at hf
    · simp_all
    · exact h.edge_ends i j f hf
  successor_keys := (h.linked.addEdge hhead htail).successor_keys
  predecessor_keys i := by
    have : i ∈ (g.addEdge e).predecessorMap ↔ IsEdge.tail e = i ∨ i ∈ g.predecessorMap :=
      mem_addNeighbour ..
    rw [this, hasVertex_addEdge, h.predecessor_keys]
    exact or_iff_right_of_imp fun hi => hi ▸ htail
  successors := (h.linked.addEdge hhead htail).successors
  predecessors i j := by
    rw [hasEdge_addEdge, ← h.predecessors, and_comm]
    exact neighbour_addNeighbour ..
  ends_are_vertices := (h.linked.addEdge hhead htail).ends_are_vertices

/-- A vertex may change as long as it keeps its number. -/
theorem modifyVertex (h : g.Consistent) {i : Nat} {f : ν → ν}
    (keeps : ∀ v, g.vertex i = .ok v → IsVertex.index (f v) = IsVertex.index v) :
    (g.modifyVertex i f).Consistent where
  vertex_index j w hw := by
    simp only [Graph.modifyVertex, Std.ExtTreeMap.getElem?_modify, Nat.compare_eq_eq] at hw
    split at hw
    · rename_i heq
      obtain ⟨v, hv, rfl⟩ := Option.map_eq_some_iff.1 hw
      rw [keeps v (g.vertex_eq_ok.2 (heq ▸ hv)), h.vertex_index j v (heq ▸ hv)]
    · exact h.vertex_index j w hw
  edge_ends := h.edge_ends
  successor_keys := (h.linked.modifyVertex i f).successor_keys
  predecessor_keys j := by rw [hasVertex_modifyVertex]; exact h.predecessor_keys j
  successors := h.successors
  predecessors := h.predecessors
  ends_are_vertices := (h.linked.modifyVertex i f).ends_are_vertices

/-! ### What the queries answer -/

theorem successorIndices (h : g.Consistent) {i : Nat} (hi : g.hasVertex i) :
    ∃ s, g.successorIndices i = .ok s ∧ s.Pairwise (· < ·) ∧ ∀ j, j ∈ s ↔ g.hasEdge i j := by
  obtain ⟨s, hs⟩ := Option.isSome_iff_exists.1
    (Std.ExtTreeMap.mem_iff_isSome_getElem?.1 ((h.successor_keys i).2 hi))
  refine ⟨s.toList, by simp [Graph.successorIndices, hs], ?_, fun j => ?_⟩
  · exact s.ordered_toList.imp Nat.compare_eq_lt.1
  · rw [Std.ExtTreeSet.mem_toList, ← h.successors, Neighbour]
    simp [hs]

theorem predecessorIndices (h : g.Consistent) {i : Nat} (hi : g.hasVertex i) :
    ∃ s, g.predecessorIndices i = .ok s ∧ s.Pairwise (· < ·) ∧ ∀ j, j ∈ s ↔ g.hasEdge j i := by
  obtain ⟨s, hs⟩ := Option.isSome_iff_exists.1
    (Std.ExtTreeMap.mem_iff_isSome_getElem?.1 ((h.predecessor_keys i).2 hi))
  refine ⟨s.toList, by simp [Graph.predecessorIndices, hs], ?_, fun j => ?_⟩
  · exact s.ordered_toList.imp Nat.compare_eq_lt.1
  · rw [Std.ExtTreeSet.mem_toList, ← h.predecessors, Neighbour]
    simp [hs]

theorem mem_vertices (h : g.Consistent) (v : ν) :
    v ∈ g.vertices ↔ g.vertex (IsVertex.index v) = .ok v := by
  rw [vertex_eq_ok, Graph.vertices, values_eq_map_toList]
  simp only [List.mem_map, Prod.exists, Std.ExtTreeMap.mem_toList_iff_getElem?_eq_some,
    exists_eq_right]
  constructor
  · intro hentry
    obtain ⟨i, hi⟩ := hentry
    rw [h.vertex_index i v hi, hi]
  · exact fun hv => ⟨_, hv⟩

theorem vertexMap_eq_some (h : g.Consistent) {i : Nat} {v : ν} :
    g.vertexMap[i]? = some v ↔ v ∈ g.vertices ∧ IsVertex.index v = i := by
  rw [h.mem_vertices, vertex_eq_ok]
  constructor
  · intro hv
    have hindex := h.vertex_index i v hv
    exact ⟨hindex.symm ▸ hv, hindex⟩
  · intro hv
    obtain ⟨hv, rfl⟩ := hv
    exact hv

/-- The vertices come in the order of their numbers. -/
theorem vertices_ordered (h : g.Consistent) :
    g.vertices.Pairwise fun v w => IsVertex.index v < IsVertex.index w := by
  rw [Graph.vertices, values_eq_map_toList, List.pairwise_map]
  refine g.vertexMap.ordered_keys_toList.imp_of_mem fun {a b} ha hb hab => ?_
  rw [h.vertex_index a.1 a.2 (Std.ExtTreeMap.mem_toList_iff_getElem?_eq_some.1 ha),
    h.vertex_index b.1 b.2 (Std.ExtTreeMap.mem_toList_iff_getElem?_eq_some.1 hb)]
  exact Nat.compare_eq_lt.1 hab

theorem mem_edges (h : g.Consistent) (e : ε) :
    e ∈ g.edges ↔ g.edge (IsEdge.head e) (IsEdge.tail e) = .ok e := by
  rw [edge_eq_ok, Graph.edges, values_eq_map_toList]
  simp only [List.mem_map, Prod.exists, Std.ExtTreeMap.mem_toList_iff_getElem?_eq_some,
    exists_eq_right]
  constructor
  · intro hentry
    obtain ⟨⟨i, j⟩, hij⟩ := hentry
    obtain ⟨rfl, rfl⟩ := h.edge_ends i j e hij
    exact hij
  · exact fun he => ⟨_, he⟩

theorem edgeMap_eq_some (h : g.Consistent) {ends : Ends} {e : ε} :
    g.edgeMap[ends]? = some e ↔ e ∈ g.edges ∧ ⟨IsEdge.head e, IsEdge.tail e⟩ = ends := by
  rw [h.mem_edges, edge_eq_ok]
  constructor
  · intro he
    obtain ⟨hhead, htail⟩ := h.edge_ends ends.head ends.tail e he
    exact ⟨hhead.symm ▸ htail.symm ▸ he, by rw [hhead, htail]⟩
  · intro he
    obtain ⟨he, rfl⟩ := he
    exact he

theorem hasEdge_iff_mem_edges (h : g.Consistent) (i j : Nat) :
    g.hasEdge i j ↔ ∃ e ∈ g.edges, IsEdge.head e = i ∧ IsEdge.tail e = j := by
  rw [hasEdge_iff]
  constructor
  · intro hentry
    obtain ⟨e, he⟩ := hentry
    obtain ⟨rfl, rfl⟩ := h.edge_ends i j e he
    exact ⟨e, (h.mem_edges e).2 (g.edge_eq_ok.2 he), rfl, rfl⟩
  · intro hlisted
    obtain ⟨e, he, rfl, rfl⟩ := hlisted
    exact ⟨e, g.edge_eq_ok.1 ((h.mem_edges e).1 he)⟩

/-- The edges come in the order of their ends. -/
theorem edges_sorted (h : g.Consistent) : g.edges.Pairwise Before := by
  rw [Graph.edges, values_eq_map_toList, List.pairwise_map]
  refine g.edgeMap.ordered_keys_toList.imp_of_mem fun {a b} ha hb hab => ?_
  obtain ⟨ha₁, ha₂⟩ := h.edge_ends a.1.head a.1.tail a.2
    (Std.ExtTreeMap.mem_toList_iff_getElem?_eq_some.1 ha)
  obtain ⟨hb₁, hb₂⟩ := h.edge_ends b.1.head b.1.tail b.2
    (Std.ExtTreeMap.mem_toList_iff_getElem?_eq_some.1 hb)
  rw [Before, ha₁, ha₂, hb₁, hb₂]
  exact Ends.compare_eq_lt.1 hab

/-- No two edges have the same ends. -/
theorem edges_distinct (h : g.Consistent) : g.edges.Pairwise fun e f =>
    ¬(IsEdge.head e = IsEdge.head f ∧ IsEdge.tail e = IsEdge.tail f) := by
  refine h.edges_sorted.imp fun hbefore => ?_
  unfold Before at hbefore
  omega

end Consistent

end FlowFacts.Graph
