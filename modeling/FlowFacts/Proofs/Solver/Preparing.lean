import FlowFacts.Proofs.Solver.Prepared

/-! What preparing makes, whatever the program.

A program that was read from elsewhere may have edges without blocks, or blocks under other
numbers than their own. Preparing then often fails. But the graph that it makes is its own
work: its vertices are the numbers of the points, inserted first, and every edge is inserted
between two of them (`PointGraph.Numbers`). So where preparing succeeds the problem is well
formed and the first state satisfies the invariant, for every program (`prepare_spec`).

A point may then occur twice. It has the number of its last place, so the other places lie on
no edge and the start reaches none of them (`lastAt_of_reaches`). -/
namespace FlowFacts

namespace PointGraph
variable {c : ControlFlowGraph} {count : Nat} {g r : PlainGraph}

/-! ### The graph -/

/-- A graph whose vertices are the numbers below `count`. -/
structure Numbers (count : Nat) (g : PlainGraph) : Prop where
  consistent : g.Consistent
  vertices : ∀ i, g.hasVertex i ↔ i < count

theorem Numbers.insertEdge (h : Numbers count g) {e : PlainEdge}
    (hok : Graph.insertEdge e g = .ok () r) : Numbers count r := by
  rcases Graph.insertEdge_cases g e with ⟨-, hhead, htail, hadd⟩ | ⟨_, hno⟩
  · cases hok.symm.trans hadd
    exact ⟨h.consistent.addEdge hhead htail, h.vertices⟩
  · cases hok.symm.trans hno

section Joins
variable {numbers : Std.ExtTreeMap Point Nat} {motive : PlainGraph → Prop}
  (edge : ∀ g r p q i j, numberIn numbers p = .ok i → numberIn numbers q = .ok j → motive g →
    Graph.insertEdge (PlainEdge.mk i j) g = .ok () r → motive r)
include edge

/-- What is kept when two numbers are joined is kept when two points are. -/
theorem join_keeps {p q : Point} (hg : motive g) (hok : join numbers p q g = .ok () r) :
    motive r := by
  simp only [join, bind_eq_ok, ofExcept_eq_ok] at hok
  obtain ⟨head, _, ⟨hhead, rfl⟩, tail, _, ⟨htail, rfl⟩, hinsert⟩ := hok
  exact edge _ _ _ _ _ _ hhead htail hg hinsert

theorem joinEdge_keeps {e : Edge} (hg : motive g) (hok : joinEdge c numbers e g = .ok () r) :
    motive r := by
  simp only [joinEdge, bind_eq_ok, ofExcept_eq_ok] at hok
  obtain ⟨head, _, ⟨-, rfl⟩, tail, _, ⟨-, rfl⟩, hjoin⟩ := hok
  exact join_keeps edge hg hjoin

/-- What holds of the numbers alone, and is kept when two of them are joined, holds of the
graph. -/
theorem buildGraph_keeps
    (first : ∀ v : PlainGraph, Numbers count v → (∀ i j, v.hasEdge i j = false) → motive v)
    (hok : buildGraph c count numbers Graph.empty = .ok () r) : motive r := by
  obtain ⟨v, hv, hconsistent, hvertices, hedge⟩ := Graph.insertVertices (List.range count)
    List.nodup_range Graph.empty Graph.consistent_empty (by simp)
  have hnumbers : Numbers count v := ⟨hconsistent, fun i => by simp [hvertices]⟩
  have hok := (bind_ok hv).symm.trans hok
  obtain ⟨⟨⟩, u, hblocks, hedges⟩ := bind_eq_ok.1 hok
  have hfirst : motive v := first v hnumbers fun i j => by simp [hedge]
  have hjoined : motive u :=
    forM_keeps (fun b _ _ _ hg hb => forM_keeps (fun _ _ _ _ => join_keeps edge) hg hb) hfirst
      hblocks
  exact forM_keeps (fun _ _ _ _ => joinEdge_keeps edge) hjoined hedges

end Joins

theorem numbers_buildGraph {numbers : Std.ExtTreeMap Point Nat}
    (hok : buildGraph c count numbers Graph.empty = .ok () r) : Numbers count r :=
  buildGraph_keeps (fun _ _ _ _ _ _ _ _ hg => hg.insertEdge) (fun _ hv _ => hv) hok

/-- Both ends of an edge are numbers of points. -/
theorem named_buildGraph {numbers : Std.ExtTreeMap Point Nat}
    (hok : buildGraph c count numbers Graph.empty = .ok () r) {i j : Nat} (hij : r.hasEdge i j) :
    ∃ p q, numberIn numbers p = .ok i ∧ numberIn numbers q = .ok j := by
  refine buildGraph_keeps (motive := fun g => ∀ i j, g.hasEdge i j →
    ∃ p q, numberIn numbers p = .ok i ∧ numberIn numbers q = .ok j) ?_ ?_ hok i j hij
  · intro g r p q head tail hhead htail hg hinsert i j hij
    rcases Graph.insertEdge_cases g (PlainEdge.mk head tail) with ⟨-, -, -, hadd⟩ | ⟨_, hno⟩
    · cases hinsert.symm.trans hadd
      rcases (Graph.hasEdge_addEdge ..).1 hij with ⟨rfl, rfl⟩ | hij
      · exact ⟨p, q, hhead, htail⟩
      · exact hg i j hij
    · cases hinsert.symm.trans hno
  · intro v _ hnone i j hij
    simp [hnone] at hij

/-! ### The numbers -/

theorem lastAt_of_getElem? {points : List Point} {p : Point} {i : Nat}
    (h : (Std.ExtTreeMap.ofList points.zipIdx)[p]? = some i) : LastAt points i p := by
  -- A later insertion replaces an earlier one, so the points are taken from the end.
  induction points using List.reverseRecOn with
  | nil => simp at h
  | append_singleton points q ih =>
    rw [Std.ExtTreeMap.ofList_eq_insertMany_empty, List.zipIdx_append,
      Std.ExtTreeMap.insertMany_append, List.zipIdx_singleton,
      Std.ExtTreeMap.insertMany_list_singleton, ← Std.ExtTreeMap.ofList_eq_insertMany_empty,
      Std.ExtTreeMap.getElem?_insert] at h
    split at h
    · rename_i heq
      cases h
      cases Std.LawfulEqOrd.eq_of_compare heq
      rw [Nat.zero_add]
      exact lastAt_concat ..
    · rename_i hne
      exact (ih h).concat fun heq => hne (heq ▸ Std.ReflOrd.compare_self)

/-- A point has the number of its last place. -/
theorem numberIn_last {points : List Point} {p : Point} {i : Nat}
    (h : numberIn (.ofList points.zipIdx) p = .ok i) : LastAt points i p := by
  unfold numberIn at h
  split at h <;> cases h
  exact lastAt_of_getElem? ‹_›

theorem map_fst_nodes {points : List Point} {nodes : List (Point × Location)}
    (h : points.mapM (fun p => do return (p, ← c.locate p)) = .ok nodes) :
    nodes.map Prod.fst = points := by
  have hnodes := mapM_eq_ok.1 h
  clear h
  induction hnodes with
  | nil => rfl
  | cons hnode _ ih =>
    obtain ⟨l, -, hpure⟩ := needs_eq_ok.1 hnode
    cases hpure
    rw [List.map_cons, ih]

/-- A point graph is built from the nodes, the numbers and the joins between them. -/
theorem build_eq_ok {g : PointGraph} (h : build c = .ok g) :
    g.nodes.toList.map Prod.fst = c.points ∧ g.numbers = .ofList c.points.zipIdx ∧
      buildGraph c c.points.length (.ofList c.points.zipIdx) Graph.empty = .ok () g.graph := by
  unfold build at h
  obtain ⟨nodes, hnodes, h⟩ := needs_eq_ok.1 h
  have hpoints := map_fst_nodes hnodes
  have hlength : nodes.length = c.points.length := by
    rw [← hpoints, List.length_map]
  dsimp only at h
  split at h
  · rename_i r hbuild
    cases h
    exact ⟨hpoints, rfl, hlength ▸ hbuild⟩
  · cases h

/-- The nodes are the points in their order, the vertices are theirs, a point has the number of
its last place, and edges join such numbers only. -/
theorem build_spec {g : PointGraph} (h : build c = .ok g) :
    g.nodes.toList.map Prod.fst = c.points ∧ Numbers c.points.length g.graph ∧
      (∀ p i, g.number p = .ok i → LastAt c.points i p) ∧
        ∀ i j, g.graph.hasEdge i j → ∃ p q, LastAt c.points i p ∧ LastAt c.points j q := by
  obtain ⟨hpoints, hnumbers, hbuild⟩ := build_eq_ok h
  refine ⟨hpoints, numbers_buildGraph hbuild, fun p i hi => ?_, fun i j hij => ?_⟩
  · rw [number, hnumbers] at hi
    exact numberIn_last hi
  · obtain ⟨p, q, hp, hq⟩ := named_buildGraph hbuild hij
    exact ⟨p, q, numberIn_last hp, numberIn_last hq⟩

end PointGraph

/-! ### The problem and the first state -/

namespace Solver
open PointGraph (Numbers)
variable {α : Type} {A : Analysis α} {c : ControlFlowGraph} {initial : α} {o : Options}
  {P : Problem α} {s : State α}

/-- What a run starts with. -/
structure Prepared (A : Analysis α) (c : ControlFlowGraph) (o : Options) (P : Problem α)
    (s : State α) : Prop where
  analysis : P.analysis = A
  options : P.options = o
  nodes : P.nodes.toList.map Prod.fst = c.points
  wellFormed : P.WellFormed
  first : ∃ order, s = initialState P order
  invariant : Invariant P s

theorem Prepared.size (h : Prepared A c o P s) : P.nodes.size = c.points.length := by
  rw [← h.nodes, List.length_map, Array.length_toList]

theorem numbers_flowGraph {g : PointGraph} {count : Nat} (h : Numbers count g.graph)
    {d : Direction} {flow : PlainGraph} (hflow : flowGraph g d = .ok flow) :
    Numbers count flow := by
  cases d with
  | forward =>
    cases hflow
    exact h
  | backward =>
    obtain ⟨r, hr, hconsistent, hvertices, -⟩ := h.consistent.reversed
    cases hflow.symm.trans hr
    exact ⟨hconsistent, fun i => (hvertices i).trans (h.vertices i)⟩

/-- Turned round or not, the graph joins the same vertices. -/
theorem edge_of_flowGraph {g : PointGraph} {count : Nat} (h : Numbers count g.graph)
    {d : Direction} {flow : PlainGraph} (hflow : flowGraph g d = .ok flow) {i j : Nat}
    (hij : flow.hasEdge i j) : g.graph.hasEdge i j ∨ g.graph.hasEdge j i := by
  cases d with
  | forward =>
    cases hflow
    exact .inl hij
  | backward =>
    obtain ⟨r, hr, -, -, hedges⟩ := h.consistent.reversed
    cases hflow.symm.trans hr
    exact .inr ((hedges i j).1 hij)

/-- Where preparing succeeds, its problem and its first state are in order. -/
theorem prepare_spec (h : prepare A c initial o = .ok (P, s)) : Prepared A c o P s := by
  obtain ⟨point, g, flow, start, order, -, hg, hflow, hstart, horder, rfl, rfl⟩ :=
    prepare_eq_ok.1 h
  obtain ⟨hnodes, hgraph, hnumber, -⟩ := PointGraph.build_spec hg
  have hlt : start < c.points.length :=
    (List.getElem?_eq_some_iff.1 (hnumber point start hstart).1).1
  have hnumbers := numbers_flowGraph hgraph hflow
  have hsize : g.nodes.size = c.points.length := by
    rw [← hnodes, List.length_map, Array.length_toList]
  obtain ⟨order', horder', hnodup, hreaches⟩ :=
    hnumbers.consistent.reversePostOrder ((hnumbers.vertices start).2 hlt)
  cases horder.symm.trans horder'
  constructor
  case analysis => rfl
  case options => rfl
  case nodes => exact hnodes
  case wellFormed =>
    exact ⟨hnumbers.consistent, fun i => hsize ▸ hnumbers.vertices i, hsize ▸ hlt⟩
  case first => exact ⟨order, rfl⟩
  case invariant => exact .initial hnodup hreaches

/-- A place that the start reaches is the last of its point. -/
theorem lastAt_of_reaches (h : prepare A c initial o = .ok (P, s)) {i : Nat}
    (hi : P.flow.Reaches P.start i) : ∃ p, LastAt c.points i p := by
  obtain ⟨point, g, flow, start, order, -, hg, hflow, hstart, -, rfl, -⟩ := prepare_eq_ok.1 h
  obtain ⟨-, hgraph, hnumber, hjoins⟩ := PointGraph.build_spec hg
  have hconsistent := (numbers_flowGraph hgraph hflow).consistent
  cases hi with
  | refl => exact ⟨point, hnumber point start hstart⟩
  | tail _ hedge =>
    rcases edge_of_flowGraph hgraph hflow ((hconsistent.successors ..).1 hedge) with hij | hji
    · obtain ⟨-, q, -, hq⟩ := hjoins _ _ hij
      exact ⟨q, hq⟩
    · obtain ⟨p, -, hp, -⟩ := hjoins _ _ hji
      exact ⟨p, hp⟩

end Solver

end FlowFacts
