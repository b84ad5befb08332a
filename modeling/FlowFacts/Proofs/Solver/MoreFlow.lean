import FlowFacts.Proofs.Solver.Greatest

/-! More edges and less at the start.

A program with more edges between the same blocks has the same points and more ways between
them (`MoreEdges`). What solves its equations, from a lower initial fact, therefore lies below
what makes it in the first program too (`SubSolution.of_moreEdges`), and the greatest facts of
the first lie above it. A point that the first program does not reach has the top there, so the
facts of the program with more edges are the lower ones at every point (`Greatest.below`). -/
namespace FlowFacts

namespace ControlFlowGraph

/-- The program with more edges; one that is there, or that joins no blocks, is left out. -/
def withEdges (c : ControlFlowGraph) (edges : List (Nat × Nat)) : ControlFlowGraph :=
  edges.foldl (fun c e => Change.apply c (.addEdge e.1 e.2)) c

/-- The second program has the blocks, the entry and the exit of the first, and its edges. -/
structure MoreEdges (c more : ControlFlowGraph) : Prop where
  blocks : more.graph.vertexMap = c.graph.vertexMap
  edges : ∀ i j, c.graph.hasEdge i j → more.graph.hasEdge i j
  entry : more.entry = c.entry
  exit : more.exit = c.exit

namespace MoreEdges
variable {c more : ControlFlowGraph}

theorem refl (c : ControlFlowGraph) : MoreEdges c c := ⟨rfl, fun _ _ => id, rfl, rfl⟩

theorem trans {most : ControlFlowGraph} (h : MoreEdges c more) (h' : MoreEdges more most) :
    MoreEdges c most where
  blocks := h'.blocks.trans h.blocks
  edges i j hij := h'.edges i j (h.edges i j hij)
  entry := h'.entry.trans h.entry
  exit := h'.exit.trans h.exit

/-- One edge more, or none if it is refused. -/
theorem addEdge (c : ControlFlowGraph) (head tail : Nat) :
    MoreEdges c (Change.apply c (.addEdge head tail)) := by
  rw [Change.apply]
  rcases addEdge_cases c head tail with ⟨-, -, hok⟩ | ⟨_, hno⟩
  · rw [after_ok hok]
    exact ⟨rfl, fun i j hij => (Graph.hasEdge_addEdge ..).2 (.inr hij), rfl, rfl⟩
  · rw [after_error hno]
    exact refl c

theorem withEdges (c : ControlFlowGraph) (edges : List (Nat × Nat)) :
    MoreEdges c (c.withEdges edges) := by
  induction edges generalizing c with
  | nil => exact refl c
  | cons e edges ih => exact (addEdge c e.1 e.2).trans (ih _)

end MoreEdges

theorem WellFormed.withEdges {c : ControlFlowGraph} (h : c.WellFormed) (edges : List (Nat × Nat)) :
    (c.withEdges edges).WellFormed := by
  induction edges generalizing c with
  | nil => exact h
  | cons e edges ih => exact ih (h.apply (.addEdge e.1 e.2))

/-! ### The same points, and the ways between them -/

namespace MoreEdges
variable {c more : ControlFlowGraph} (h : MoreEdges c more)
include h

theorem blocks_eq : more.blocks = c.blocks := by
  simp only [ControlFlowGraph.blocks, Graph.vertices, h.blocks]

theorem block_eq (i : Nat) : more.block i = c.block i := by
  rw [block, block, Graph.vertex, Graph.vertex, h.blocks]

theorem points_eq : more.points = c.points := by
  rw [points, points, h.blocks_eq]

theorem locate_eq (p : Point) : more.locate p = c.locate p := by
  rw [locate, locate, h.block_eq]

theorem startPoint_eq (d : Direction) : Solver.startPoint more d = Solver.startPoint c d := by
  cases d with
  | forward => simp only [Solver.startPoint, entryBlock, h.entry, h.block_eq]
  | backward => simp only [Solver.startPoint, exitBlock, h.exit, h.block_eq]

variable (hc : c.WellFormed) (hmore : more.WellFormed)
include hc hmore

theorem mem_arcs {p q : Point} (hpq : (p, q) ∈ c.arcs) : (p, q) ∈ more.arcs := by
  rcases ControlFlowGraph.mem_arcs.1 hpq with ⟨b, hb, hpq⟩ | ⟨e, he, head, tail, hhead, htail, hends⟩
  · exact ControlFlowGraph.mem_arcs.2 (.inl ⟨b, h.blocks_eq ▸ hb, hpq⟩)
  · have hedge := (hc.consistent.hasEdge_iff_mem_edges e.head e.tail).2 ⟨e, he, rfl, rfl⟩
    obtain ⟨f, hf, (hfhead : f.head = e.head), (hftail : f.tail = e.tail)⟩ :=
      (hmore.consistent.hasEdge_iff_mem_edges _ _).1 (h.edges _ _ hedge)
    refine ControlFlowGraph.mem_arcs.2 (.inr ⟨f, hf, head, tail, ?_, ?_, hends⟩)
    · rw [h.block_eq, hfhead, hhead]
    · rw [h.block_eq, hftail, htail]

theorem flows {d : Direction} {p q : Point} (hpq : c.flows d p q) : more.flows d p q := by
  cases d with
  | forward => exact decide_eq_true (h.mem_arcs hc hmore (of_decide_eq_true hpq))
  | backward => exact decide_eq_true (h.mem_arcs hc hmore (of_decide_eq_true hpq))

theorem reaches {d : Direction} {start p : Point} (hp : c.Reaches d start p) :
    more.Reaches d start p := by
  obtain ⟨passed, way⟩ := hp
  induction way with
  | start => exact .start ..
  | step _ flow ih => exact ih.step (h.flows hc hmore flow)

end MoreEdges

end ControlFlowGraph

/-! ### The facts -/

namespace Solver
open ControlFlowGraph (MoreEdges)
variable {α : Type} {A : Analysis α} {K : α → Prop} {c more : ControlFlowGraph} {d : Direction}
  {start : Point} {initial initial' : α} {store store' : FactStore α} {into out : Point → α}

/-- A sub-solution of the program with more edges is one of the program itself. -/
theorem SubSolution.of_moreEdges (h : SubSolution A K more d start initial' into out)
    (hm : MoreEdges c more) (hc : c.WellFormed) (hmore : more.WellFormed)
    (hL : A.lattice.LawfulOn K) (hinitial : K initial) (hinitial' : K initial')
    (lower : A.lattice.Below initial' initial) : SubSolution A K c d start initial into out := by
  have hreaches {p : Point} (hp : c.Reaches d start p) := hm.reaches hc hmore hp
  constructor
  case into_mem => exact fun p hp => h.into_mem p (hreaches hp)
  case out_mem => exact fun p hp => h.out_mem p (hreaches hp)
  case starts =>
    exact hL.trans (h.into_mem start (.start more d start)) hinitial' hinitial h.starts lower
  case flow => exact fun p q hp hpq => h.flow p q (hreaches hp) (hm.flows hc hmore hpq)
  case transfer => exact fun p l hp hl => h.transfer p l (hreaches hp) ((hm.locate_eq p).trans hl)

/-- The greatest facts of the program with more edges lie below those of the program itself,
also at the points that only one of the two reaches. -/
theorem Greatest.below (h : Greatest A K c d start initial store)
    (h' : Greatest A K more d start initial' store') (hm : MoreEdges c more) (hc : c.WellFormed)
    (hmore : more.WellFormed) (hA : A.MonotoneOn K) (hinitial : K initial)
    (hinitial' : K initial') (lower : A.lattice.Below initial' initial)
    (hstart : start ∈ c.points) {p : Point} (hp : p ∈ c.points) : ∃ fact fact' result result',
      store.incoming d p = .ok fact ∧ store'.incoming d p = .ok fact' ∧
        store.outgoing d p = .ok result ∧ store'.outgoing d p = .ok result' ∧
          A.lattice.Below fact' fact ∧ A.lattice.Below result' result := by
  obtain ⟨fact, result, hin, -, hout, -⟩ := h.within p hp
  obtain ⟨fact', result', hin', hfact', hout', hresult'⟩ := h'.within p (hm.points_eq ▸ hp)
  refine ⟨fact, fact', result, result', hin, hin', hout, hout', ?_⟩
  by_cases hreach : c.Reaches d start p
  · have hsub := h'.solution.subSolution hmore (hm.points_eq ▸ hstart) hA hinitial' h'.within
    have hbelow := h.above _ _ (hsub.of_moreEdges hm hc hmore hA.lawful hinitial hinitial' lower)
      p hp hreach
    rwa [FactStore.into_of_incoming hin, FactStore.into_of_incoming hin',
      FactStore.out_of_outgoing hout, FactStore.out_of_outgoing hout'] at hbelow
  · obtain ⟨htop, htop', -⟩ := h.solution.unreached p hp hreach
    cases hin.symm.trans htop
    cases hout.symm.trans htop'
    exact ⟨hA.lawful.below_top hfact', hA.lawful.below_top hresult'⟩

variable [DecidableEq α] {o o' : Options}

/-- With more edges and a lower initial fact, the facts before and after every point are lower. -/
theorem fixedPoint_withEdges (built : c.Built) (hA : A.MonotoneOn K) (hinitial : K initial)
    (hinitial' : K initial') (lower : A.lattice.lessOrEqual initial' initial)
    (edges : List (Nat × Nat)) (direction : o'.direction = o.direction)
    (h : fixedPoint A c initial o = .ok store)
    (h' : fixedPoint A (c.withEdges edges) initial' o' = .ok store') :
    store.points = c.points ∧ store'.points = c.points ∧
      ∀ p ∈ c.points, ∃ before before' after after',
        store.before p = .ok before ∧ store'.before p = .ok before' ∧
          store.after p = .ok after ∧ store'.after p = .ok after' ∧
            A.lattice.lessOrEqual before' before ∧ A.lattice.lessOrEqual after' after := by
  have hc := built.wellFormed
  have hmore := hc.withEdges edges
  have hm := MoreEdges.withEdges c edges
  obtain ⟨start, hstart, -⟩ := fixedPoint_solution hc h
  have hstart' : startPoint (c.withEdges edges) o'.direction = .ok start := by
    rw [direction, hm.startPoint_eq, hstart]
  have hgreatest := fixedPoint_isGreatest hc hA hinitial h hstart
  have hgreatest' := fixedPoint_isGreatest hmore hA hinitial' h' hstart'
  rw [direction] at hgreatest'
  refine ⟨hgreatest.solution.points, hgreatest'.solution.points.trans hm.points_eq,
    fun p hp => ?_⟩
  obtain ⟨fact, fact', result, result', hin, hin', hout, hout', hfact, hresult⟩ :=
    hgreatest.below hgreatest' hm hc hmore hA hinitial hinitial'
      ((A.lattice.lessOrEqual_iff ..).1 lower) (startPoint_mem hc hstart) hp
  rw [← A.lattice.lessOrEqual_iff] at hfact hresult
  -- which side of a point facts flow into depends on the direction
  cases hd : o.direction with
  | forward =>
    rw [hd] at hin hin' hout hout'
    exact ⟨fact, fact', result, result', hin, hin', hout, hout', hfact, hresult⟩
  | backward =>
    rw [hd] at hin hin' hout hout'
    exact ⟨result, result', fact, fact', hout, hout', hin, hin', hresult, hfact⟩

/-- Control does not come from the first block to the second. -/
def apartChanges : List ControlFlowGraph.Change :=
  [.newBlock, .newBlock, .push 0 .nop, .push 1 .nop, .setEntry 0, .setExit 1]

theorem fixedPoint_withEdges_joined : ∃ store store',
    fixedPoint countdown (.build apartChanges) 4 {} = .ok store ∧
      fixedPoint countdown ((ControlFlowGraph.build apartChanges).withEdges [(0, 1), (1, 1)]) 2 {} =
        .ok store' ∧
      countdown.lattice.lessOrEqual 2 4 ∧
        ∀ p ∈ (ControlFlowGraph.build apartChanges).points, ∃ before before' after after',
          store.before p = .ok before ∧ store'.before p = .ok before' ∧
            store.after p = .ok after ∧ store'.after p = .ok after' ∧
              countdown.lattice.lessOrEqual before' before ∧
                countdown.lattice.lessOrEqual after' after := by
  obtain ⟨store, h⟩ := exists_of_isOk (e := fixedPoint countdown (.build apartChanges) 4 {})
    (by decide +kernel)
  obtain ⟨store', h'⟩ := exists_of_isOk
    (e := fixedPoint countdown
      ((ControlFlowGraph.build apartChanges).withEdges [(0, 1), (1, 1)]) 2 {})
    (by decide +kernel)
  have hlower : countdown.lattice.lessOrEqual 2 4 := by decide
  obtain ⟨-, -, hall⟩ := fixedPoint_withEdges ⟨apartChanges, rfl⟩ countdown_monotone (by decide)
    (by decide) hlower [(0, 1), (1, 1)] rfl h h'
  exact ⟨store, store', h, h', hlower, hall⟩

end Solver

end FlowFacts
