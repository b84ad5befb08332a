import FlowFacts.Proofs.Graph.Insertion
import FlowFacts.Proofs.Program.ControlFlow
import FlowFacts.Solver.Worklist

/-! The point graph of a program is its control flow.

For a well-formed program the point graph can be built. Its vertices are the numbers
of the points in their order, and its edges are the arcs between them
(`PointGraph.Shows`); turned round, it is the flow of a backward analysis. -/
namespace FlowFacts

namespace PointGraph
variable {c : ControlFlowGraph}

/-- The graph numbers the points of the program and has its arcs. -/
structure Shows (g : PointGraph) (c : ControlFlowGraph) : Prop where
  size : g.nodes.size = c.points.length
  node : ∀ (i : Nat) (p : Point) (l : Location),
    g.nodes[i]? = some (p, l) → c.points[i]? = some p ∧ c.locate p = .ok l
  number : ∀ p ∈ c.points, g.number p = .ok (c.points.idxOf p)
  consistent : g.graph.Consistent
  vertices : ∀ i, g.graph.hasVertex i ↔ i < c.points.length
  edges : ∀ {i j p q}, c.points[i]? = some p → c.points[j]? = some q →
    (g.graph.hasEdge i j ↔ (p, q) ∈ c.arcs)

/-! ### Numbers -/

theorem numberIn_ok (h : c.WellFormed) {p : Point} (hp : p ∈ c.points) :
    numberIn (.ofList c.points.zipIdx) p = .ok (c.points.idxOf p) := by
  have hdistinct : c.points.zipIdx.Pairwise fun a b => ¬ compare a.1 b.1 = .eq := by
    have := h.points_nodup
    rw [← List.zipIdx_map_fst 0 c.points] at this
    exact (List.pairwise_map.1 this).imp fun hne heq => hne (Std.LawfulEqOrd.eq_of_compare heq)
  have hget := Std.ExtTreeMap.getElem?_ofList_of_mem Std.ReflOrd.compare_self hdistinct
    (List.mk_mem_zipIdx_iff_getElem?.2 (List.getElem?_idxOf hp))
  simp [numberIn, hget]

theorem join_eq (h : c.WellFormed) {p q : Point} (hp : p ∈ c.points) (hq : q ∈ c.points) :
    join (.ofList c.points.zipIdx) p q =
      Graph.insertEdge (PlainEdge.mk (c.points.idxOf p) (c.points.idxOf q)) := by
  simp only [join, numberIn_ok h hp, numberIn_ok h hq, MonadExcept.ofExcept, pure_bind]

/-! ### Arcs between numbers -/

/-- Every arc, with the numbers of its points in place of the points. -/
def numberedArcs (c : ControlFlowGraph) : List (Nat × Nat) :=
  c.arcs.map fun a => (c.points.idxOf a.1, c.points.idxOf a.2)

theorem mem_numberedArcs (h : c.WellFormed) {i j : Nat} {p q : Point}
    (hi : c.points[i]? = some p) (hj : c.points[j]? = some q) :
    (i, j) ∈ numberedArcs c ↔ (p, q) ∈ c.arcs := by
  obtain ⟨hlt, rfl⟩ := List.getElem?_eq_some_iff.1 hi
  obtain ⟨hlt', rfl⟩ := List.getElem?_eq_some_iff.1 hj
  rw [numberedArcs, List.mem_map]
  constructor
  · intro harc
    obtain ⟨⟨p, q⟩, ha, heq⟩ := harc
    obtain ⟨hp, hq⟩ := h.mem_points_of_arcs ha
    obtain ⟨rfl, rfl⟩ := Prod.mk.inj heq
    simpa only [List.getElem_idxOf] using ha
  · intro ha
    exact ⟨_, ha, by simp only [h.points_nodup.idxOf_getElem]⟩

/-- The ends of an arc are numbers of points. -/
theorem lt_of_mem_numberedArcs (h : c.WellFormed) {e : Nat × Nat} (he : e ∈ numberedArcs c) :
    e.1 < c.points.length ∧ e.2 < c.points.length := by
  obtain ⟨a, ha, rfl⟩ := List.mem_map.1 he
  obtain ⟨hp, hq⟩ := h.mem_points_of_arcs ha
  exact ⟨List.idxOf_lt_length_iff.2 hp, List.idxOf_lt_length_iff.2 hq⟩

theorem numberedArcs_nodup (h : c.WellFormed) : (numberedArcs c).Nodup := by
  refine List.Nodup.map_on (fun a ha b hb heq => ?_) h.arcs_nodup
  obtain ⟨ha₁, ha₂⟩ := h.mem_points_of_arcs ha
  obtain ⟨hb₁, hb₂⟩ := h.mem_points_of_arcs hb
  obtain ⟨h₁, h₂⟩ := Prod.mk.inj heq
  exact Prod.ext ((List.idxOf_inj ha₁).1 h₁) ((List.idxOf_inj ha₂).1 h₂)

/-- The insertions between the blocks and within them, one for each arc. -/
theorem joins_eq (h : c.WellFormed) :
    (do c.blocks.forM (joinBlock (.ofList c.points.zipIdx))
        c.edges.forM (joinEdge c (.ofList c.points.zipIdx))) =
      forM (numberedArcs c) fun e => Graph.insertEdge (PlainEdge.mk e.1 e.2) := by
  have hblocks : c.blocks.forM (joinBlock (.ofList c.points.zipIdx)) =
      forM (c.blocks.flatMap Block.steps) fun a => join (.ofList c.points.zipIdx) a.1 a.2 := by
    rw [forM_flatMap]
    rfl
  have hedges : c.edges.forM (joinEdge c (.ofList c.points.zipIdx)) =
      forM (c.edges.flatMap c.jump) fun a => join (.ofList c.points.zipIdx) a.1 a.2 := by
    rw [forM_flatMap]
    refine forM_congr fun e he => ?_
    obtain ⟨hi, hj⟩ := h.consistent.ends_are_vertices e.head e.tail <|
      (h.consistent.hasEdge_iff_mem_edges _ _).2 ⟨e, he, rfl, rfl⟩
    obtain ⟨head, hhead⟩ := ControlFlowGraph.block_of_hasVertex hi
    obtain ⟨tail, htail⟩ := ControlFlowGraph.block_of_hasVertex hj
    simp [joinEdge, ControlFlowGraph.jump, hhead, htail, MonadExcept.ofExcept]
  rw [hblocks, hedges, ← List.forM_append, numberedArcs, List.forM_map]
  exact forM_congr fun a ha =>
    join_eq h (h.mem_points_of_arcs ha).1 (h.mem_points_of_arcs ha).2

/-! ### The graph -/

/-- The nodes are the points in their order, each with the place it names. -/
theorem nodes_ok (h : c.WellFormed) :
    ∃ nodes, c.points.mapM (fun p => do return (p, ← c.locate p)) = .ok nodes ∧
      nodes.length = c.points.length ∧ ∀ (i : Nat) (p : Point) (l : Location),
        nodes[i]? = some (p, l) → c.points[i]? = some p ∧ c.locate p = .ok l := by
  obtain ⟨nodes, hnodes⟩ := exists_mapM (f := fun p => do return (p, ← c.locate p))
    (l := c.points) fun p hp => by
      obtain ⟨l, hl, _⟩ := h.locate_point hp
      exact ⟨(p, l), by simp [hl, bind, Except.bind, pure, Except.pure]⟩
  have hall := mapM_eq_ok.1 hnodes
  refine ⟨nodes, hnodes, hall.length_eq.symm, fun i p l hi => ?_⟩
  obtain ⟨hlt, hget⟩ := List.getElem?_eq_some_iff.1 hi
  have hlt' : i < c.points.length := hall.length_eq ▸ hlt
  have hlocate := hall.get hlt' hlt
  simp only [List.get_eq_getElem, hget] at hlocate
  cases hl : c.locate c.points[i] with
  | error e => simp [hl, bind, Except.bind] at hlocate
  | ok l' =>
    simp only [hl, bind, Except.bind, pure, Except.pure, Except.ok.injEq, Prod.mk.injEq] at hlocate
    obtain ⟨rfl, rfl⟩ := hlocate
    exact ⟨List.getElem?_eq_getElem hlt', hl⟩

/-- The insertions make the graph of the arcs between the numbers. -/
theorem buildGraph_ok (h : c.WellFormed) :
    ∃ r, buildGraph c c.points.length (.ofList c.points.zipIdx) Graph.empty = .ok () r ∧
      r.Consistent ∧ (∀ i, r.hasVertex i ↔ i < c.points.length) ∧
        ∀ i j, r.hasEdge i j ↔ (i, j) ∈ numberedArcs c := by
  obtain ⟨v, hv, hvc, hvv, hve⟩ := Graph.insertVertices (List.range c.points.length)
    List.nodup_range Graph.empty Graph.consistent_empty (by simp)
  have hvertices (i : Nat) : v.hasVertex i ↔ i < c.points.length := by
    rw [hvv]
    simp
  obtain ⟨r, hr, hrc, hrv, hre⟩ := Graph.insertEdges (numberedArcs c) (numberedArcs_nodup h) v hvc
    (by simp [hve]) fun e he => by
      obtain ⟨hi, hj⟩ := lt_of_mem_numberedArcs h he
      exact ⟨(hvertices _).2 hi, (hvertices _).2 hj⟩
  rw [← joins_eq h] at hr
  exact ⟨r, (bind_ok hv).trans hr, hrc, fun i => by rw [hrv, hvertices],
    fun i j => by rw [hre, hve]; simp⟩

theorem build_ok (h : c.WellFormed) : ∃ g, build c = .ok g ∧ g.Shows c := by
  obtain ⟨nodes, hnodes, hlength, hnode⟩ := nodes_ok h
  obtain ⟨r, hr, hconsistent, hvertices, hedges⟩ := buildGraph_ok h
  refine ⟨⟨nodes.toArray, .ofList c.points.zipIdx, r⟩, ?_, ?_⟩
  · unfold build
    rw [hnodes]
    simp only [bind, Except.bind, EStateM.run, hlength, hr, pure, Except.pure]
  · constructor
    case size => simpa using hlength
    case node => simpa using hnode
    case number => exact fun p hp => numberIn_ok h hp
    case consistent => exact hconsistent
    case vertices => exact hvertices
    case edges => exact fun hi hj => (hedges _ _).trans (mem_numberedArcs h hi hj)

end PointGraph

end FlowFacts
