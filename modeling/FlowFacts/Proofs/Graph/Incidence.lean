import FlowFacts.Proofs.Graph.Outline
import FlowFacts.Proofs.Graph.TopologicalOrder
import FlowFacts.Proofs.Sequence
import Mathlib.Data.List.Sort

/-! Which edges stand at which vertex.

The edges at a vertex are looked up one by one, along the set of its neighbours, and an edge or a
vertex that is not found is left out without a word. In a built graph all are found. From a vertex
start the edges that have it for a head, and to it come those that have it for a tail, in the order
of their other ends (`Fan`); edges are kept in the order of their heads and then of their tails
(`Before`), so those from the first vertex, from the second and so on are all the edges, and each
edge comes to one vertex, once (`edges_partitioned`). -/
namespace FlowFacts.Graph
variable {ν ε : Type} [IsEdge ε]

/-! ### The edges at a vertex -/

/-- The edges that have one end here, by their other ends, and the vertices there. -/
structure Fan (g : Graph ν ε) (here there : ε → Nat) (i : Nat) (edges : List ε)
    (neighbours : List ν) : Prop where
  mem : ∀ e, e ∈ edges ↔ e ∈ g.edges ∧ here e = i
  sorted : edges.Pairwise fun e f => there e < there f
  found : edges.mapM (fun e => g.vertex (there e)) = .ok neighbours

omit [IsEdge ε] in
theorem Fan.nodup {g : Graph ν ε} {here there : ε → Nat} {i : Nat} {edges : List ε}
    {neighbours : List ν} (h : g.Fan here there i edges neighbours) : edges.Nodup := by
  rw [List.Nodup]
  refine h.sorted.imp fun hlt heq => ?_
  rw [heq] at hlt
  exact Nat.lt_irrefl _ hlt

omit [IsEdge ε] in
/-- Along the neighbours of a vertex nothing is left out. -/
theorem fan_of_neighbours {g : Graph ν ε} {here there : ε → Nat} {i : Nat} {s : List Nat}
    {lookup : Nat → Option ε} (sorted : s.Pairwise (· < ·))
    (joined : ∀ j, j ∈ s ↔ ∃ e, lookup j = some e)
    (named : ∀ j e, lookup j = some e ↔ e ∈ g.edges ∧ here e = i ∧ there e = j)
    (ends : ∀ j ∈ s, ∃ v, g.vertexMap[j]? = some v) :
    g.Fan here there i (s.filterMap lookup) (s.filterMap fun j => g.vertexMap[j]?) := by
  have hedges := filterMap_beside fun j hj => (joined j).1 hj
  have hvertices := filterMap_beside ends
  constructor
  case mem =>
    intro e
    rw [List.mem_filterMap]
    constructor
    · rintro ⟨j, -, he⟩
      obtain ⟨hmem, hhere, -⟩ := (named j e).1 he
      exact ⟨hmem, hhere⟩
    · rintro ⟨hmem, hhere⟩
      have he : lookup (there e) = some e := (named _ e).2 ⟨hmem, hhere, rfl⟩
      exact ⟨there e, (joined _).2 ⟨e, he⟩, he⟩
  case sorted =>
    refine pairwise_beside hedges sorted fun j k e f he hf hlt => ?_
    rwa [((named j e).1 he).2.2, ((named k f).1 hf).2.2]
  case found =>
    refine mapM_of_forall hedges hvertices fun j e v he hv => ?_
    rw [((named j e).1 he).2.2]
    exact g.vertex_eq_ok.2 hv

section
variable {g : Graph ν ε} (h : g.bare.Consistent) {i : Nat}
include h

theorem edgeMap_named (i j : Nat) (e : ε) : g.edgeMap[Ends.mk i j]? = some e ↔
    e ∈ g.edges ∧ IsEdge.head e = i ∧ IsEdge.tail e = j := by
  have hentry : g.edgeMap[Ends.mk i j]? = some e ↔
      e ∈ g.edges ∧ Ends.mk (IsEdge.head e) (IsEdge.tail e) = ⟨i, j⟩ := h.edgeMap_eq_some
  rw [hentry, Ends.mk.injEq]

theorem ends_of_mem_edges {e : ε} (he : e ∈ g.edges) :
    g.hasVertex (IsEdge.head e) ∧ g.hasVertex (IsEdge.tail e) := by
  have hedge : g.bare.hasEdge (IsEdge.head e) (IsEdge.tail e) :=
    (h.hasEdge_iff_mem_edges _ _).2 ⟨e, he, rfl, rfl⟩
  simpa using h.ends_are_vertices _ _ hedge

theorem exists_fan_out (hi : g.hasVertex i) : ∃ out next, g.edgesOut i = .ok out ∧
    g.successors i = .ok next ∧ g.Fan IsEdge.head IsEdge.tail i out next := by
  obtain ⟨s, hs, hsorted, hmem⟩ := h.successorIndices (by rwa [hasVertex_bare])
  have hindices : g.successorIndices i = .ok s := hs
  have hfan := fan_of_neighbours hsorted (fun j => (hmem j).trans (g.hasEdge_iff i j))
    (fun j e => edgeMap_named h i j e) fun j hj => by
      have hends := h.ends_are_vertices i j ((hmem j).1 hj)
      rw [hasVertex_bare, hasVertex_bare] at hends
      exact (g.hasVertex_iff j).1 hends.2
  refine ⟨_, _, ?_, ?_, hfan⟩
  · rw [edgesOut, hindices]
    rfl
  · rw [successors, hindices]
    rfl

theorem exists_fan_in (hi : g.hasVertex i) : ∃ into previous, g.edgesIn i = .ok into ∧
    g.predecessors i = .ok previous ∧ g.Fan IsEdge.tail IsEdge.head i into previous := by
  obtain ⟨s, hs, hsorted, hmem⟩ := h.predecessorIndices (by rwa [hasVertex_bare])
  have hindices : g.predecessorIndices i = .ok s := hs
  have hfan := fan_of_neighbours hsorted (fun j => (hmem j).trans (g.hasEdge_iff j i))
    (fun j e => (edgeMap_named h j i e).trans (and_congr_right fun _ => and_comm)) fun j hj => by
      have hends := h.ends_are_vertices j i ((hmem j).1 hj)
      rw [hasVertex_bare, hasVertex_bare] at hends
      exact (g.hasVertex_iff j).1 hends.1
  refine ⟨_, _, ?_, ?_, hfan⟩
  · rw [edgesIn, hindices]
    rfl
  · rw [predecessors, hindices]
    rfl

/-- A number that no vertex has is refused, whatever is asked of it. -/
theorem edges_refused (hi : g.hasVertex i = false) :
    g.edgesOut i = .error (.vertexNotFound i) ∧ g.successors i = .error (.vertexNotFound i) ∧
      g.edgesIn i = .error (.vertexNotFound i) ∧ g.predecessors i = .error (.vertexNotFound i) := by
  have hnone : ¬ g.bare.hasVertex i := by simp [hi]
  have hsuccessors : g.successorIndices i = .error (.vertexNotFound i) :=
    successorIndices_eq_error.2 ⟨fun hmem => hnone ((h.successor_keys i).1 hmem), rfl⟩
  have hpredecessors : g.predecessorIndices i = .error (.vertexNotFound i) := by
    have habsent : g.predecessorMap[i]? = none :=
      Std.ExtTreeMap.getElem?_eq_none fun hmem => hnone ((h.predecessor_keys i).1 hmem)
    rw [predecessorIndices, habsent]
  rw [edgesOut, successors, edgesIn, predecessors, hsuccessors, hpredecessors]
  exact ⟨rfl, rfl, rfl, rfl⟩

theorem mem_edgesOut {out : List ε} (hout : g.edgesOut i = .ok out) :
    (∀ e, e ∈ out ↔ e ∈ g.edges ∧ IsEdge.head e = i) ∧ out.Pairwise Before := by
  cases hi : g.hasVertex i with
  | false => cases hout.symm.trans (edges_refused h hi).1
  | true =>
    obtain ⟨out', next, hout', -, hfan⟩ := exists_fan_out h hi
    cases hout.symm.trans hout'
    refine ⟨hfan.mem, hfan.sorted.imp_of_mem fun he hf hlt => .inr ⟨?_, hlt⟩⟩
    rw [((hfan.mem _).1 he).2, ((hfan.mem _).1 hf).2]

/-- The edges from the first vertex, from the second and so on are all the edges. -/
theorem flatten_edgesOut {lists : List (List ε)}
    (hlists : g.vertexMap.keys.mapM g.edgesOut = .ok lists) : lists.flatten = g.edges := by
  have hbeside := mapM_eq_ok.1 hlists
  refine List.Pairwise.eq_of_mem_iff (r := Before) ?sorted h.edges_sorted fun e => ?mem
  case sorted =>
    refine List.pairwise_flatten.2 ⟨fun out hout => ?_, ?_⟩
    · obtain ⟨i, -, hi⟩ := exists_left hbeside hout
      exact (mem_edgesOut h hi).2
    · refine pairwise_beside hbeside g.keys_sorted fun i j out out' hi hj hlt e he f hf => .inl ?_
      rwa [(((mem_edgesOut h hi).1 e).1 he).2, (((mem_edgesOut h hj).1 f).1 hf).2]
  case mem =>
    rw [List.mem_flatten]
    constructor
    · rintro ⟨out, hout, he⟩
      obtain ⟨i, -, hi⟩ := exists_left hbeside hout
      exact (((mem_edgesOut h hi).1 e).1 he).1
    · intro he
      obtain ⟨out, hout, hi⟩ := exists_right hbeside (g.mem_keys.2 (ends_of_mem_edges h he).1)
      exact ⟨out, hout, ((mem_edgesOut h hi).1 e).2 ⟨he, rfl⟩⟩

end

/-- **The edges fall apart by the vertices that they start from, and by those they come to.** In a
built graph the edges from the vertices, one vertex after another, are all the edges; an edge comes
to its tail alone, and once. What starts from a vertex or comes to it is listed by the other ends,
with the vertices there, and nothing is left out; a number that no vertex has is refused. -/
theorem edges_partitioned [IsVertex ν] {g : Graph ν ε} (built : g.Built) :
    (∃ (numbers : List Nat) (lists : List (List ε)), numbers.Pairwise (· < ·) ∧
      (∀ i, i ∈ numbers ↔ g.hasVertex i) ∧ numbers.mapM g.edgesOut = .ok lists ∧
        lists.flatten = g.edges) ∧
    (∀ e ∈ g.edges, g.hasVertex (IsEdge.tail e) ∧ ∀ i into, g.edgesIn i = .ok into →
      into.Nodup ∧ (e ∈ into ↔ i = IsEdge.tail e)) ∧
    (∀ i, g.hasVertex i → ∃ out next into previous,
      g.edgesOut i = .ok out ∧ g.successors i = .ok next ∧
        g.Fan IsEdge.head IsEdge.tail i out next ∧
      g.edgesIn i = .ok into ∧ g.predecessors i = .ok previous ∧
        g.Fan IsEdge.tail IsEdge.head i into previous) ∧
    (∀ i, g.hasVertex i = false →
      g.edgesOut i = .error (.vertexNotFound i) ∧ g.successors i = .error (.vertexNotFound i) ∧
      g.edgesIn i = .error (.vertexNotFound i) ∧
      g.predecessors i = .error (.vertexNotFound i)) := by
  have h := built.consistent_bare
  refine ⟨?whole, fun e he => ⟨(ends_of_mem_edges h he).2, fun i into hinto => ?once⟩,
    fun i hi => ?fans, fun i hi => edges_refused h hi⟩
  case whole =>
    obtain ⟨lists, hlists⟩ := exists_mapM (f := g.edgesOut) (l := g.vertexMap.keys) fun i hi => by
      obtain ⟨out, -, hout, -⟩ := exists_fan_out h (g.mem_keys.1 hi)
      exact ⟨out, hout⟩
    exact ⟨_, lists, g.keys_sorted, fun i => g.mem_keys, hlists, flatten_edgesOut h hlists⟩
  case once =>
    cases hi : g.hasVertex i with
    | false => cases hinto.symm.trans (edges_refused h hi).2.2.1
    | true =>
      obtain ⟨into', previous, hinto', -, hfan⟩ := exists_fan_in h hi
      cases hinto.symm.trans hinto'
      refine ⟨hfan.nodup, ?_⟩
      rw [hfan.mem, eq_comm]
      exact and_iff_right he
  case fans =>
    obtain ⟨out, next, hout, hnext, hfan⟩ := exists_fan_out h hi
    obtain ⟨into, previous, hinto, hprevious, hfan'⟩ := exists_fan_in h hi
    exact ⟨out, next, into, previous, hout, hnext, hfan, hinto, hprevious, hfan'⟩

/-- The vertex under 3 carries 7. -/
theorem edges_partitioned_twoEntrances : twoEntrances.Built ∧
    (∃ lists, [0, 1, 2, 3, 4].mapM twoEntrances.edgesOut = .ok lists ∧
      lists.flatten = twoEntrances.edges) ∧
    twoEntrances.Fan IsEdge.tail IsEdge.head 2 [⟨1, 2, "loop"⟩, ⟨3, 2, "enter"⟩]
      [⟨1, "left"⟩, ⟨7, "aside"⟩] ∧
    (∀ i into, twoEntrances.edgesIn i = .ok into → (⟨3, 2, "enter"⟩ ∈ into ↔ i = 2)) ∧
    twoEntrances.hasVertex 7 = false ∧
      twoEntrances.edgesIn 7 = .error (.vertexNotFound 7) := by
  have built : twoEntrances.Built := ⟨_, rfl⟩
  obtain ⟨⟨numbers, lists, hsorted, hmem, hlists, hflatten⟩, honce, hfans, hrefused⟩ :=
    edges_partitioned built
  have hkeys : twoEntrances.vertexMap.keys = [0, 1, 2, 3, 4] := by decide +kernel
  have hnumbers : numbers = [0, 1, 2, 3, 4] :=
    hsorted.eq_of_mem_iff (by decide) fun i => by rw [hmem, ← hkeys, twoEntrances.mem_keys]
  have hedge : (⟨3, 2, "enter"⟩ : LabelledEdge) ∈ twoEntrances.edges := by decide +kernel
  have hnone : twoEntrances.hasVertex 7 = false := by decide +kernel
  obtain ⟨-, -, into, previous, -, -, -, hinto, hprevious, hfan⟩ := hfans 2 (by decide +kernel)
  have hinto' : twoEntrances.edgesIn 2 = .ok [⟨1, 2, "loop"⟩, ⟨3, 2, "enter"⟩] := by
    decide +kernel
  have hprevious' : twoEntrances.predecessors 2 = .ok [⟨1, "left"⟩, ⟨7, "aside"⟩] := by
    decide +kernel
  cases hinto.symm.trans hinto'
  cases hprevious.symm.trans hprevious'
  exact ⟨built, ⟨lists, hnumbers ▸ hlists, hflatten⟩, hfan,
    fun i into h => ((honce _ hedge).2 i into h).2, hnone, (hrefused 7 hnone).2.2.1⟩

end FlowFacts.Graph
