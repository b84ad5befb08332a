import FlowFacts.Proofs.Solver.Invariant
import FlowFacts.Proofs.Solver.PointGraph
import Mathlib.Data.List.Sort

/-! The problem that the solver makes of a program.

The nodes are the points of the program in their order, and the graph is its flow in
the direction of the options (`Problem.Poses`). Preparing fails only where the
program has no place to start from (`prepare_ok`), and the state it begins with
satisfies the invariant. A point of the program is reached as its number is. -/
namespace FlowFacts.Solver
variable {α : Type}

/-- The problem is that of a program, with `start` as the point where facts flow in. -/
structure Problem.Poses (P : Problem α) (c : ControlFlowGraph) (start : Point) : Prop where
  wellFormed : P.WellFormed
  size : P.nodes.size = c.points.length
  node : ∀ (i : Nat) (p : Point) (l : Location),
    P.nodes[i]? = some (p, l) → c.points[i]? = some p ∧ c.locate p = .ok l
  start : c.points[P.start]? = some start
  edges : ∀ {i j p q}, c.points[i]? = some p → c.points[j]? = some q →
    (P.flow.hasEdge i j ↔ c.flows P.options.direction p q)

/-! ### Preparing -/

theorem startPoint_mem {c : ControlFlowGraph} (h : c.WellFormed) {d : Direction} {start : Point}
    (hstart : startPoint c d = .ok start) : start ∈ c.points := by
  unfold startPoint at hstart
  cases d with
  | forward =>
    rcases h.entryBlock_cases with ⟨-, hno⟩ | ⟨i, b, -, hb, hok⟩
    · simp [hno, Except.map] at hstart
    · simp only [hok, Except.map, Except.ok.injEq] at hstart
      exact hstart ▸ ControlFlowGraph.mem_points.2 ⟨b, (h.of_block hb).2.1, b.firstPoint_mem⟩
  | backward =>
    rcases h.exitBlock_cases with ⟨-, hno⟩ | ⟨i, b, -, hb, hok⟩
    · simp [hno, Except.map] at hstart
    · simp only [hok, Except.map, Except.ok.injEq] at hstart
      exact hstart ▸ ControlFlowGraph.mem_points.2 ⟨b, (h.of_block hb).2.1, b.lastPoint_mem⟩

/-- Facts flow in at the entry, where there is one. -/
theorem exists_startPoint {c : ControlFlowGraph} (h : c.WellFormed) {entry : Nat}
    (hentry : c.entry = some entry) : ∃ start, startPoint c .forward = .ok start := by
  obtain ⟨b, hb⟩ := ControlFlowGraph.block_of_hasVertex (h.entry entry hentry)
  exact ⟨b.firstPoint, by simp [startPoint, ControlFlowGraph.entryBlock, hentry, hb, Except.map]⟩

/-- The flow of a direction has the vertices of the point graph, and its arcs that way. -/
theorem flowGraph_ok {c : ControlFlowGraph} {g : PointGraph} (h : g.Shows c) (d : Direction) :
    ∃ flow, flowGraph g d = .ok flow ∧ flow.Consistent ∧
      (∀ i, flow.hasVertex i ↔ i < c.points.length) ∧
        ∀ {i j p q}, c.points[i]? = some p → c.points[j]? = some q →
          (flow.hasEdge i j ↔ c.flows d p q) := by
  cases d with
  | forward =>
    exact ⟨g.graph, rfl, h.consistent, h.vertices, fun hi hj => by
      rw [h.edges hi hj, ControlFlowGraph.flows, decide_eq_true_iff]⟩
  | backward =>
    obtain ⟨r, hr, hc, hv, he⟩ := h.consistent.reversed
    exact ⟨r, hr, hc, fun i => by rw [hv, h.vertices], fun hi hj => by
      rw [he, h.edges hj hi, ControlFlowGraph.flows, decide_eq_true_iff]⟩

theorem prepare_eq_ok {A : Analysis α} {c : ControlFlowGraph} {initial : α} {o : Options}
    {P : Problem α} {s : State α} : prepare A c initial o = .ok (P, s) ↔
      ∃ point g flow start order, startPoint c o.direction = .ok point ∧
        PointGraph.build c = .ok g ∧ flowGraph g o.direction = .ok flow ∧
          g.number point = .ok start ∧ flow.reversePostOrder start = .ok order ∧
            P = ⟨A, o, g.nodes, flow, start, initial⟩ ∧ s = initialState P order := by
  simp only [prepare, needs_eq_ok, pure, Except.pure, Except.ok.injEq, Prod.mk.injEq]
  constructor
  · intro h
    obtain ⟨point, hpoint, g, hg, flow, hflow, start, hstart, order, horder, rfl, rfl⟩ := h
    exact ⟨point, g, flow, start, order, hpoint, hg, hflow, hstart, horder, rfl, rfl⟩
  · intro h
    obtain ⟨point, g, flow, start, order, hpoint, hg, hflow, hstart, horder, rfl, rfl⟩ := h
    exact ⟨point, hpoint, g, hg, flow, hflow, start, hstart, order, horder, rfl, rfl⟩

/-- A program with a place to start from can be prepared. -/
theorem prepare_ok {c : ControlFlowGraph} (h : c.WellFormed) (A : Analysis α) (initial : α)
    {o : Options} {start : Point} (hstart : startPoint c o.direction = .ok start) :
    ∃ P order, prepare A c initial o = .ok (P, initialState P order) ∧ P.analysis = A ∧
      P.options = o ∧ P.initial = initial ∧ P.Poses c start ∧
        Invariant P (initialState P order) := by
  obtain ⟨g, hg, hshows⟩ := PointGraph.build_ok h
  obtain ⟨flow, hflow, hc, hv, he⟩ := flowGraph_ok hshows o.direction
  have hmem := startPoint_mem h hstart
  have hlt : c.points.idxOf start < c.points.length := List.idxOf_lt_length_iff.2 hmem
  obtain ⟨order, horder, hnodup, hreaches⟩ := hc.reversePostOrder ((hv _).2 hlt)
  refine ⟨⟨A, o, g.nodes, flow, c.points.idxOf start, initial⟩, order, ?_, rfl, rfl, rfl, ?_, ?_⟩
  · exact prepare_eq_ok.2 ⟨start, g, flow, _, order, hstart, hg, hflow, hshows.number start hmem,
      horder, rfl, rfl⟩
  · constructor
    case wellFormed => exact ⟨hc, fun i => by rw [hv, hshows.size], by rw [hshows.size]; exact hlt⟩
    case size => exact hshows.size
    case node => exact hshows.node
    case start => exact List.getElem?_idxOf hmem
    case edges => exact he
  · exact .initial hnodup hreaches

theorem prepare_error {c : ControlFlowGraph} {A : Analysis α} {initial : α} {o : Options}
    {e : Error} (hstart : startPoint c o.direction = .error e) :
    prepare A c initial o = .error e := by
  simp only [prepare, hstart, bind, Except.bind]

/-- The first queue is the order that the flow is walked in. -/
theorem prepare_order {A : Analysis α} {c : ControlFlowGraph} {initial : α} {o : Options}
    {P : Problem α} {order : List Nat}
    (h : prepare A c initial o = .ok (P, initialState P order)) :
    P.flow.reversePostOrder P.start = .ok order := by
  obtain ⟨point, g, flow, start, first, -, -, -, -, horder, rfl, hstate⟩ := prepare_eq_ok.1 h
  have hqueue : order = first := congrArg State.queue hstate
  exact hqueue ▸ horder

/-- The start is the first point to visit. -/
theorem prepare_head {A : Analysis α} {c : ControlFlowGraph} {initial : α} {o : Options}
    {P : Problem α} {order : List Nat} (hP : P.WellFormed)
    (h : prepare A c initial o = .ok (P, initialState P order)) : ∃ rest, order = P.start :: rest :=
  List.head?_eq_some_iff.1 <|
    hP.consistent.reversePostOrder_head ((hP.vertices P.start).2 hP.start) (prepare_order h)

/-! ### Points and their numbers -/

namespace Problem.Poses
variable {P : Problem α} {c : ControlFlowGraph} {start : Point}

theorem node_of_point (h : P.Poses c start) {i : Nat} {p : Point} (hp : c.points[i]? = some p) :
    ∃ l, P.nodes[i]? = some (p, l) ∧ c.locate p = .ok l := by
  have hlt : i < P.nodes.size := h.size ▸ (List.getElem?_eq_some_iff.1 hp).1
  obtain ⟨hq, hl⟩ := h.node i _ _ (Array.getElem?_eq_getElem hlt)
  cases hp.symm.trans hq
  exact ⟨_, Array.getElem?_eq_getElem hlt, hl⟩

theorem point_of_lt (h : P.Poses c start) {i : Nat} (hi : i < P.nodes.size) :
    ∃ p, c.points[i]? = some p :=
  ⟨_, List.getElem?_eq_getElem (h.size ▸ hi)⟩

theorem start_iff (h : P.Poses c start) (hc : c.WellFormed) {i : Nat} {p : Point}
    (hp : c.points[i]? = some p) : i = P.start ↔ p = start := by
  constructor
  · intro heq
    subst heq
    exact Option.some.inj (hp.symm.trans h.start)
  · intro heq
    subst heq
    exact (List.getElem?_inj (List.getElem?_eq_some_iff.1 hp).1 hc.points_nodup).1
      (hp.trans h.start.symm)

/-- Both ends of an edge are points. -/
theorem points_of_edge (h : P.Poses c start) {i j : Nat} (hij : P.flow.hasEdge i j) :
    ∃ p q, c.points[i]? = some p ∧ c.points[j]? = some q ∧ c.flows P.options.direction p q := by
  obtain ⟨hi, hj⟩ := h.wellFormed.consistent.ends_are_vertices i j hij
  obtain ⟨p, hp⟩ := h.point_of_lt ((h.wellFormed.vertices i).1 hi)
  obtain ⟨q, hq⟩ := h.point_of_lt ((h.wellFormed.vertices j).1 hj)
  exact ⟨p, q, hp, hq, (h.edges hp hq).1 hij⟩

/-- What a number reaches, its point reaches. -/
theorem reaches_of_numbers (h : P.Poses c start) {i j : Nat} {p q : Point}
    (hp : c.points[i]? = some p) (hq : c.points[j]? = some q) (hij : P.flow.Reaches i j) :
    c.Reaches P.options.direction p q := by
  induction hij generalizing q with
  | refl =>
    cases hp.symm.trans hq
    exact .start ..
  | tail _ hedge ih =>
    obtain ⟨r, q', hr, hq', flow⟩ :=
      h.points_of_edge ((h.wellFormed.consistent.successors ..).1 hedge)
    cases hq.symm.trans hq'
    exact (ih hr).step flow

theorem reaches_iff (h : P.Poses c start) (hc : c.WellFormed) {i : Nat} {p : Point}
    (hp : c.points[i]? = some p) :
    P.flow.Reaches P.start i ↔ c.Reaches P.options.direction start p := by
  constructor
  · exact h.reaches_of_numbers h.start hp
  · intro hway
    obtain ⟨passed, way⟩ := hway
    induction way generalizing i with
    | start =>
      cases (h.start_iff hc hp).2 rfl
      exact .refl
    | step way flow ih =>
      obtain ⟨j, hj⟩ := List.mem_iff_getElem?.1 (hc.mem_points_of_flows flow).1
      exact h.wellFormed.reaches_step (ih hj) ((h.edges hj hp).2 flow)

/-- Numbers in order, those of the points with a property, stand beside these points. -/
theorem numbers_forall {points : List Point} {numbers : List Nat} {property : Point → Bool}
    (sorted : numbers.Pairwise (· < ·))
    (mem : ∀ j, j ∈ numbers ↔ ∃ q, points[j]? = some q ∧ property q) :
    List.Forall₂ (points[·]? = some ·) numbers (points.filter property) := by
  let found := points.zipIdx.filter fun e => property e.1
  have hnumbers : numbers = found.map Prod.snd := by
    refine sorted.eq_of_mem_iff ?_ fun j => ?_
    · refine List.Pairwise.sublist (List.filter_sublist.map Prod.snd) ?_
      rw [List.zipIdx_map_snd]
      exact List.pairwise_lt_range'
    · simp only [mem, found, List.mem_map, List.mem_filter, Prod.exists, exists_eq_right,
        List.mk_mem_zipIdx_iff_getElem?]
  have hpoints : points.filter property = found.map Prod.fst := by
    rw [← List.zipIdx_map_fst 0 points, List.filter_map]
    rfl
  rw [hnumbers, hpoints, List.forall₂_map_left_iff, List.forall₂_map_right_iff, List.forall₂_same]
  exact fun e he => List.mk_mem_zipIdx_iff_getElem?.1 (List.mem_filter.1 he).1

/-- The sources of a point are those of its number, in the same order. -/
theorem sources_forall (h : P.Poses c start) {i : Nat} {p : Point} (hp : c.points[i]? = some p)
    {sources : List Nat} (hsources : P.flow.predecessorIndices i = .ok sources) :
    List.Forall₂ (c.points[·]? = some ·) sources (c.sources P.options.direction p) := by
  have hlt : i < P.nodes.size := h.size ▸ (List.getElem?_eq_some_iff.1 hp).1
  obtain ⟨l, hl, hsorted, hmem⟩ := h.wellFormed.predecessors hlt
  cases hsources.symm.trans hl
  refine numbers_forall hsorted fun j => (hmem j).trans ⟨fun hedge => ?_, fun hflow => ?_⟩
  · obtain ⟨q, r, hq, hr, flow⟩ := h.points_of_edge hedge
    cases hp.symm.trans hr
    exact ⟨q, hq, flow⟩
  · obtain ⟨q, hq, flow⟩ := hflow
    exact (h.edges hq hp).2 flow

/-- The points that a point flows to are those of its number, in the same order. -/
theorem targets_forall (h : P.Poses c start) {i : Nat} {p : Point} (hp : c.points[i]? = some p)
    {targets : List Nat} (htargets : P.flow.successorIndices i = .ok targets) :
    List.Forall₂ (c.points[·]? = some ·) targets
      (c.points.filter (c.flows P.options.direction p)) := by
  have hlt : i < P.nodes.size := h.size ▸ (List.getElem?_eq_some_iff.1 hp).1
  obtain ⟨l, hl, hsorted, hmem⟩ := h.wellFormed.successors hlt
  cases htargets.symm.trans hl
  refine numbers_forall hsorted fun j => (hmem j).trans ⟨fun hedge => ?_, fun hflow => ?_⟩
  · obtain ⟨q, r, hq, hr, flow⟩ := h.points_of_edge hedge
    cases hp.symm.trans hq
    exact ⟨r, hr, flow⟩
  · obtain ⟨q, hq, flow⟩ := hflow
    exact (h.edges hp hq).2 flow

end Problem.Poses

end FlowFacts.Solver
