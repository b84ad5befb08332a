import FlowFacts.Proofs.Graph.PostOrder
import FlowFacts.Proofs.Program.ControlFlow

/-! Control flow between blocks.

Edges lead from one block to another when control can pass from the first to the second
(`EdgesLead`). The first point of a block leads to all of its points and they lead to the last,
an empty block having one point that is both; so the points that a block's first point leads to
are those of the blocks that edges lead to, and the points that lead to a block's last point are
those of the blocks from which edges lead to it. Facts that flow backward take the ways of
control from their ends, so either says where facts come to (`reaches_iff_edgesLead`). -/
namespace FlowFacts.ControlFlowGraph
variable {c : ControlFlowGraph} {p q r : Point}

/-! ### Ways between points -/

theorem Reaches.trans {d : Direction} (hpq : c.Reaches d p q) (hqr : c.Reaches d q r) :
    c.Reaches d p r := by
  obtain ⟨passed, way⟩ := hqr
  induction way with
  | start => exact hpq
  | step _ flow ih => exact ih.step flow

theorem Reaches.single {d : Direction} (flow : c.flows d p q) : c.Reaches d p q :=
  (Reaches.start c d p).step flow

/-- Where every flow of one direction is one of the other the other way, so is every way. -/
theorem Reaches.turn {d d' : Direction} (turned : ∀ a b, c.flows d a b → c.flows d' b a)
    (h : c.Reaches d p q) : c.Reaches d' q p := by
  obtain ⟨passed, way⟩ := h
  induction way with
  | start => exact .start ..
  | step _ flow ih => exact (Reaches.single (turned _ _ flow)).trans ih

theorem reaches_backward : c.Reaches .backward p q ↔ c.Reaches .forward q p :=
  ⟨.turn fun _ _ => id, .turn fun _ _ => id⟩

namespace WellFormed

/-! ### Within a block -/

theorem reaches_position (h : c.WellFormed) {b : Block} (hb : b ∈ c.blocks) {k m : Nat}
    (le : k ≤ m) (hm : m < b.instructions.length) :
    c.Reaches .forward (.instruction b.index k) (.instruction b.index m) := by
  have hne : b.instructions ≠ [] := List.ne_nil_of_length_pos (by omega)
  induction le with
  | refl => exact .start ..
  | @step m _ ih =>
    have hstep : (.instruction b.index m, .instruction b.index (m + 1)) ∈ b.steps :=
      ((h.numbered_of_mem hb).mem_steps hne).2 ⟨m, hm, rfl, rfl⟩
    exact (ih (by omega)).step (decide_eq_true (mem_arcs.2 (.inl ⟨b, hb, hstep⟩)))

/-- Control passes from the start of a block to each of its points, and on to its end. -/
theorem reaches_within (h : c.WellFormed) {b : Block} (hb : b ∈ c.blocks) (hp : p ∈ b.points) :
    c.Reaches .forward b.firstPoint p ∧ c.Reaches .forward p b.lastPoint := by
  have hnumbered := h.numbered_of_mem hb
  by_cases hempty : b.instructions = []
  · -- an empty block has one point, where it starts and ends
    have hpoint : p = .emptyBlock b.index := by
      simpa [Block.points, Block.isEmpty, hempty] using hp
    rw [hpoint, Block.firstPoint, Block.lastPoint, hempty]
    exact ⟨.start .., .start ..⟩
  · rw [hnumbered.points_eq hempty] at hp
    obtain ⟨k, hk, rfl⟩ := List.mem_map.1 hp
    have hlt := List.mem_range.1 hk
    rw [hnumbered.firstPoint_eq hempty, hnumbered.lastPoint_eq hempty]
    exact ⟨h.reaches_position hb (Nat.zero_le k) hlt, h.reaches_position hb (by omega) (by omega)⟩

end WellFormed

/-! ### Between blocks -/

/-- Edges lead from the first block to the second, one after another. -/
def EdgesLead (c : ControlFlowGraph) : Nat → Nat → Prop :=
  Relation.ReflTransGen fun i j => ∃ e ∈ c.edges, e.head = i ∧ e.tail = j

namespace WellFormed
variable {i j : Nat} {b d : Block}

theorem edgesLead_iff (h : c.WellFormed) (i j : Nat) : c.EdgesLead i j ↔ c.graph.Reaches i j := by
  have harc : (fun i j => ∃ e ∈ c.edges, e.head = i ∧ e.tail = j) =
      Graph.Neighbour c.graph.successorMap := by
    funext i j
    rw [eq_iff_iff, h.consistent.successors, h.consistent.hasEdge_iff_mem_edges]
    rfl
  rw [EdgesLead, harc, Graph.Reaches]

/-- Control that passes from a point to another passes along edges between their blocks. -/
theorem edgesLead_of_reaches (h : c.WellFormed) (hpq : c.Reaches .forward p q) :
    c.EdgesLead p.block q.block := by
  obtain ⟨passed, way⟩ := hpq
  induction way with
  | start => exact .refl
  | step _ flow ih =>
    rcases mem_arcs.1 (of_decide_eq_true flow) with ⟨b, -, hstep⟩ | ⟨e, he, head, tail, hhead,
      htail, rfl, rfl⟩
    · obtain ⟨hp, hq⟩ := Block.mem_of_steps hstep
      rwa [Block.block_of_mem_points hq, ← Block.block_of_mem_points hp]
    · refine ih.tail ⟨e, he, ?_, ?_⟩
      · rw [Block.block_of_mem_points head.lastPoint_mem, (h.of_block hhead).1]
      · rw [Block.block_of_mem_points tail.firstPoint_mem, (h.of_block htail).1]

/-- Where edges lead, control passes between the starts of the blocks and between their ends. -/
theorem reaches_of_edgesLead (h : c.WellFormed) (hb : c.block i = .ok b) (hd : c.block j = .ok d)
    (lead : c.EdgesLead i j) : c.Reaches .forward b.firstPoint d.firstPoint ∧
      c.Reaches .forward b.lastPoint d.lastPoint := by
  induction lead generalizing d with
  | refl =>
    cases hb.symm.trans hd
    exact ⟨.start .., .start ..⟩
  | tail _ edge ih =>
    obtain ⟨e, he, rfl, rfl⟩ := edge
    have hhead := (h.consistent.ends_are_vertices e.head e.tail
      ((h.consistent.hasEdge_iff_mem_edges _ _).2 ⟨e, he, rfl, rfl⟩)).1
    obtain ⟨a, ha⟩ := block_of_hasVertex hhead
    obtain ⟨hfirst, hlast⟩ := ih ha
    have hjump : c.Reaches .forward a.lastPoint d.firstPoint :=
      .single (decide_eq_true (mem_arcs.2 (.inr ⟨e, he, a, d, ha, hd, rfl, rfl⟩)))
    have hthrough := (h.reaches_within (h.of_block ha).2.1 a.lastPoint_mem).1
    have hinto := (h.reaches_within (h.of_block hd).2.1 d.firstPoint_mem).2
    exact ⟨hfirst.trans (hthrough.trans hjump), hlast.trans (hjump.trans hinto)⟩

/-- Facts come forward from the start of a block to the points of the blocks that edges lead to,
and backward from its end to those of the blocks from which they do. -/
theorem reaches_iff_edgesLead (h : c.WellFormed) (hb : c.block i = .ok b) (hp : p ∈ c.points) :
    (c.Reaches .forward b.firstPoint p ↔ c.EdgesLead i p.block) ∧
      (c.Reaches .backward b.lastPoint p ↔ c.EdgesLead p.block i) := by
  obtain ⟨hindex, -, -⟩ := h.of_block hb
  obtain ⟨d, hd, hpoint⟩ := mem_points.1 hp
  have hblock : c.block p.block = .ok d := by
    rw [Block.block_of_mem_points hpoint]
    exact (h.mem_blocks d).1 hd
  obtain ⟨hfirst, hlast⟩ := h.reaches_within hd hpoint
  rw [reaches_backward]
  refine ⟨⟨fun hreach => ?_, fun lead => ?_⟩, fun hreach => ?_, fun lead => ?_⟩
  · rw [← hindex, ← Block.block_of_mem_points b.firstPoint_mem]
    exact h.edgesLead_of_reaches hreach
  · exact (h.reaches_of_edgesLead hb hblock lead).1.trans hfirst
  · rw [← hindex, ← Block.block_of_mem_points b.lastPoint_mem]
    exact h.edgesLead_of_reaches hreach
  · exact hlast.trans (h.reaches_of_edgesLead hblock hb lead).2

end WellFormed

end FlowFacts.ControlFlowGraph
