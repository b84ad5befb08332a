import FlowFacts.Proofs.Program.Changes
import FlowFacts.Proofs.Solver.Course
import FlowFacts.Proofs.Solver.SubSolution

/-! The flow between points, and what it leaves to go wrong.

Control passes directly from an instruction to the next of its block, and from the last point
of a block to the first of one that an edge joins to it (`ControlFlowGraph.Leads`); an empty
block has one point, which is both. Numbered in their order, the points of a built program
have a graph with an edge where control passes and nowhere else, so that the solver never
stumbles over its own graph: with transfers that do not fail, a run ends with an answer or for
one of the reasons in `Foreseen` (`PointGraph.build_controlFlow`). -/
namespace FlowFacts

/-! ### Where control passes -/

namespace ControlFlowGraph

/-- Control passes from the first point to the second directly. -/
inductive Leads (c : ControlFlowGraph) : Point → Point → Prop
  /-- To the next instruction of a block. -/
  | next {b : Block} {k : Nat} (block : b ∈ c.blocks) (position : k + 1 < b.instructions.length) :
      Leads c (.instruction b.index k) (.instruction b.index (k + 1))
  /-- From the end of a block to the start of another, or of the same. -/
  | along {e : Edge} {head tail : Block} (edge : e ∈ c.edges) (leaves : c.block e.head = .ok head)
      (enters : c.block e.tail = .ok tail) : Leads c head.lastPoint tail.firstPoint

variable {c : ControlFlowGraph}

theorem WellFormed.mem_arcs_iff_leads (h : c.WellFormed) {p q : Point} :
    (p, q) ∈ c.arcs ↔ c.Leads p q := by
  rw [mem_arcs]
  constructor
  · rintro (⟨b, hb, hstep⟩ | ⟨e, he, head, tail, hhead, htail, rfl, rfl⟩)
    · have hnumbered := h.numbered_of_mem hb
      by_cases hempty : b.instructions = []
      · -- an empty block has one point, and so no step
        simp [Block.steps, Block.points, Block.isEmpty, hempty] at hstep
      · obtain ⟨k, hk, rfl, rfl⟩ := (hnumbered.mem_steps hempty).1 hstep
        exact .next hb hk
    · exact .along he hhead htail
  · intro hleads
    cases hleads with
    | @next b k hb hk =>
      have hne : b.instructions ≠ [] := by
        intro hnil
        simp [hnil] at hk
      exact .inl ⟨b, hb, ((h.numbered_of_mem hb).mem_steps hne).2 ⟨k, hk, rfl, rfl⟩⟩
    | along he hhead htail => exact .inr ⟨_, he, _, _, hhead, htail, rfl, rfl⟩

end ControlFlowGraph

/-! ### The graph -/

namespace PointGraph
variable {c : ControlFlowGraph} {g : PointGraph}

/-- The vertices are the numbers of the points. -/
theorem Shows.vertices_eq (h : g.Shows c) :
    g.graph.vertices.map IsVertex.index = List.range c.points.length := by
  have hordered : (g.graph.vertices.map IsVertex.index).Pairwise (· < ·) :=
    List.pairwise_map.2 h.consistent.vertices_ordered
  refine hordered.eq_of_mem_iff List.pairwise_lt_range fun i => ?_
  rw [List.mem_range, ← h.vertices, Graph.hasVertex_iff, List.mem_map]
  constructor
  · rintro ⟨v, hv, rfl⟩
    exact ⟨v, h.consistent.vertexMap_eq_some.2 ⟨hv, rfl⟩⟩
  · rintro ⟨v, hv⟩
    exact ⟨v, h.consistent.vertexMap_eq_some.1 hv⟩

/-- Nodes are the points in their order. -/
theorem Shows.nodes_eq (h : g.Shows c) : g.nodes.toList.map Prod.fst = c.points := by
  refine List.ext_getElem (by simpa using h.size) fun i hi _ => ?_
  rw [List.length_map, Array.length_toList] at hi
  have hnode := (h.node i g.nodes[i].1 g.nodes[i].2 (Array.getElem?_eq_getElem hi)).1
  simpa using (List.getElem?_eq_some_iff.1 hnode).2.symm

/-- Edges join the numbers of points between which control passes. -/
theorem Shows.hasEdge_iff_leads (h : g.Shows c) (hc : c.WellFormed) (i j : Nat) :
    g.graph.hasEdge i j ↔
      ∃ p q, c.points[i]? = some p ∧ c.points[j]? = some q ∧ c.Leads p q := by
  constructor
  · intro hedge
    obtain ⟨hi, hj⟩ := h.consistent.ends_are_vertices i j hedge
    have hp := List.getElem?_eq_getElem ((h.vertices i).1 hi)
    have hq := List.getElem?_eq_getElem ((h.vertices j).1 hj)
    exact ⟨_, _, hp, hq, hc.mem_arcs_iff_leads.1 ((h.edges hp hq).1 hedge)⟩
  · rintro ⟨p, q, hp, hq, hleads⟩
    exact (h.edges hp hq).2 (hc.mem_arcs_iff_leads.2 hleads)

end PointGraph

/-! ### What can go wrong -/

namespace Solver
variable {α : Type} {A : Analysis α} {c : ControlFlowGraph} {initial : α} {o : Options}

/-- Why a run whose transfers do not fail can end without an answer. -/
inductive Foreseen (c : ControlFlowGraph) (o : Options) : Stop → Prop
  | noEntry (forward : o.direction = .forward) (unset : c.entry = none) :
      Foreseen c o (.error .entryNotFound)
  | noExit (backward : o.direction = .backward) (unset : c.exit = none) :
      Foreseen c o (.error .exitNotFound)
  | cancelled (flag : o.cancellation.isSome) : Foreseen c o (.error .cancelled)
  | overBudget {p : Point} (point : p ∈ c.points) :
      Foreseen c o (.error (.budgetExceeded p o.budget))
  | rose {p : Point} (point : p ∈ c.points) (verify : o.verify) :
      Foreseen c o (.error (.nonMonotone p))

/-- There is no place to start from only where the entry, or the exit, is not set. -/
theorem startPoint_eq_error (hc : c.WellFormed) {d : Direction} {e : Error} :
    startPoint c d = .error e ↔ (d = .forward ∧ c.entry = none ∧ e = .entryNotFound) ∨
      (d = .backward ∧ c.exit = none ∧ e = .exitNotFound) := by
  cases d with
  | forward =>
    have hentry := hc.entryBlock_spec.2 e
    cases hblock : c.entryBlock <;> simp_all [startPoint, Except.map]
  | backward =>
    have hexit := hc.exitBlock_spec.2 e
    cases hblock : c.exitBlock <;> simp_all [startPoint, Except.map]

variable [DecidableEq α]

theorem fixedPoint_foreseen (hc : c.WellFormed) (total : A.TotalOn fun _ => True) {why : Stop}
    (h : fixedPoint A c initial o = .error why) : Foreseen c o why := by
  rcases fixedPoint_stopped hc h with ⟨e, hstart, rfl⟩ | ⟨P, t, hpasses, hstops⟩
  · rcases (startPoint_eq_error hc).1 hstart with ⟨hd, hunset, rfl⟩ | ⟨hd, hunset, rfl⟩
    · exact .noEntry hd hunset
    · exact .noExit hd hunset
  obtain ⟨start, -, rfl, rfl, -, hposes⟩ := hpasses.poses hc
  have hpoint {i : Nat} {p : Point} {l : Location} (hnode : P.nodes[i]? = some (p, l)) :
      p ∈ c.points := List.mem_of_getElem? (hposes.node i p l hnode).1
  cases hstops with
  | cancelled raised =>
    refine .cancelled ?_
    by_contra hnone
    rw [Bool.not_eq_true, Option.isSome_eq_false_iff, Option.isNone_iff_eq_none] at hnone
    cases raised.symm.trans (hpasses.free hc (.inl hnone))
  | budget _ node _ _ => exact .overBudget (hpoint node)
  | transfer _ _ fails =>
    obtain ⟨b, hb⟩ := total _ _ trivial
    cases fails.symm.trans hb
  | rose node _ _ _ verify _ => exact .rose (hpoint node) verify

/-- The place to start from is looked for first. -/
theorem fixedPoint_eq_unset (hc : c.WellFormed) (total : A.TotalOn fun _ => True) :
    (fixedPoint A c initial o = .error (.error .entryNotFound) ↔
      o.direction = .forward ∧ c.entry = none) ∧
    (fixedPoint A c initial o = .error (.error .exitNotFound) ↔
      o.direction = .backward ∧ c.exit = none) := by
  constructor
  · constructor
    · intro h
      cases fixedPoint_foreseen hc total h with
      | noEntry forward unset => exact ⟨forward, unset⟩
    · rintro ⟨forward, unset⟩
      exact fixedPoint_error ((startPoint_eq_error hc).2 (.inl ⟨forward, unset, rfl⟩))
  · constructor
    · intro h
      cases fixedPoint_foreseen hc total h with
      | noExit backward unset => exact ⟨backward, unset⟩
    · rintro ⟨backward, unset⟩
      exact fixedPoint_error ((startPoint_eq_error hc).2 (.inr ⟨backward, unset, rfl⟩))

end Solver
open Solver

/-- The point graph of a built program is its control flow. It can be made, its nodes are the
points in their order and its vertices their numbers, and it has an edge where control passes
directly from one point to another and nowhere else. So a run whose transfers do not fail ends
with an answer, or for a reason that is foreseen: the entry or the exit that it needs is not set,
which is found exactly then, it is cancelled, or one of the guards stops it. -/
theorem PointGraph.build_controlFlow {c : ControlFlowGraph} (built : c.Built) :
    (∃ g, PointGraph.build c = .ok g ∧ g.nodes.toList.map Prod.fst = c.points ∧
      g.graph.vertices.map IsVertex.index = List.range c.points.length ∧
        ∀ i j, g.graph.hasEdge i j ↔
          ∃ p q, c.points[i]? = some p ∧ c.points[j]? = some q ∧ c.Leads p q) ∧
    ∀ {α : Type} [DecidableEq α] (A : Analysis α) (initial : α) (o : Options),
      (A.TotalOn fun _ => True) →
        (∀ why, fixedPoint A c initial o = .error why → Foreseen c o why) ∧
        (fixedPoint A c initial o = .error (.error .entryNotFound) ↔
          o.direction = .forward ∧ c.entry = none) ∧
        (fixedPoint A c initial o = .error (.error .exitNotFound) ↔
          o.direction = .backward ∧ c.exit = none) := by
  have hc := built.wellFormed
  obtain ⟨g, hg, hshows⟩ := PointGraph.build_ok hc
  refine ⟨⟨g, hg, hshows.nodes_eq, hshows.vertices_eq, hshows.hasEdge_iff_leads hc⟩,
    fun A initial o total => ⟨fun why => fixedPoint_foreseen hc total, ?_⟩⟩
  exact fixedPoint_eq_unset hc total

/-- A block of two instructions and an empty one, each with an edge to itself, and an edge from
the first to the second. Control comes in, but there is no exit. -/
def looped : ControlFlowGraph :=
  .build [.newBlock, .newBlock, .push 0 .nop, .push 0 (.load ⟨0⟩), .addEdge 0 0, .addEdge 0 1,
    .addEdge 1 1, .setEntry 0]

theorem PointGraph.build_controlFlow_looped : looped.Built ∧ (countdown.TotalOn fun _ => True) ∧
    (∃ g, PointGraph.build looped = .ok g ∧ g.graph.vertices.map IsVertex.index = [0, 1, 2] ∧
      g.graph.hasEdge 0 1 ∧ g.graph.hasEdge 1 0 ∧ g.graph.hasEdge 2 2) ∧
    (∀ why, fixedPoint countdown looped 4 {} = .error why → Foreseen looped {} why) ∧
      fixedPoint countdown looped 4 { direction := .backward } = .error (.error .exitNotFound) := by
  have hbuilt : looped.Built := ⟨_, rfl⟩
  have htotal : countdown.TotalOn fun _ => True := fun _ a _ => ⟨a - 1, rfl⟩
  obtain ⟨⟨g, hg, -, hvertices, hedges⟩, hruns⟩ := PointGraph.build_controlFlow hbuilt
  have hpoints : looped.points = [.instruction 0 0, .instruction 0 1, .emptyBlock 1] := by
    decide +kernel
  rw [hpoints] at hvertices hedges
  have hfirst : looped.block 0 = .ok ⟨0, 2, [⟨.nop, 0⟩, ⟨.load ⟨0⟩, 1⟩]⟩ := by decide +kernel
  have hsecond : looped.block 1 = .ok (.empty 1) := by decide +kernel
  have hnext : looped.Leads (.instruction 0 0) (.instruction 0 1) :=
    .next (b := ⟨0, 2, [⟨.nop, 0⟩, ⟨.load ⟨0⟩, 1⟩]⟩) (by decide +kernel) (by decide)
  have hback : looped.Leads (.instruction 0 1) (.instruction 0 0) :=
    .along (e := ⟨0, 0⟩) (by decide +kernel) hfirst hfirst
  have hstay : looped.Leads (.emptyBlock 1) (.emptyBlock 1) :=
    .along (e := ⟨1, 1⟩) (by decide +kernel) hsecond hsecond
  have hnoExit : looped.exit = none := by decide +kernel
  refine ⟨hbuilt, htotal, ⟨g, hg, hvertices, ?_, ?_, ?_⟩, (hruns countdown 4 {} htotal).1, ?_⟩
  · exact (hedges 0 1).2 ⟨_, _, rfl, rfl, hnext⟩
  · exact (hedges 1 0).2 ⟨_, _, rfl, rfl, hback⟩
  · exact (hedges 2 2).2 ⟨_, _, rfl, rfl, hstay⟩
  · exact (hruns countdown 4 { direction := .backward } htotal).2.2.2 ⟨rfl, hnoExit⟩

end FlowFacts
