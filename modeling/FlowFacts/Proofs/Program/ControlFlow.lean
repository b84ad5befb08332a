import FlowFacts.Proofs.Program.Points
import FlowFacts.Solver.Options

/-! Control flow between the points of a program.

Control passes from a point to the next of its block, and from the last point of a
block to the first of a block that an edge joins to it (`arcs`). Facts flow with it
or against it (`flows`). A way is a run of points, each flowing into the next; it is
written as the points passed before the one where it has come (`Way`). -/
namespace FlowFacts

/-- The points of the block, each with the next. -/
def Block.steps (b : Block) : List (Point × Point) := b.points.zip b.points.tail

namespace ControlFlowGraph

/-- From the end of the block at an edge's start to the start of the block at its end. -/
def jump (c : ControlFlowGraph) (e : Edge) : List (Point × Point) :=
  match c.block e.head, c.block e.tail with
  | .ok head, .ok tail => [(head.lastPoint, tail.firstPoint)]
  | _, _ => []

/-- Every pair of points between which control passes directly. -/
def arcs (c : ControlFlowGraph) : List (Point × Point) :=
  c.blocks.flatMap Block.steps ++ c.edges.flatMap c.jump

/-- The operation of the instruction at a point. -/
def operationAt? (c : ControlFlowGraph) (p : Point) : Option Operation :=
  match c.locate p with
  | .ok l => l.operation?
  | .error _ => none

/-- Facts flow directly from one point to the other. -/
def flows (c : ControlFlowGraph) : Direction → Point → Point → Bool
  | .forward, p, q => decide ((p, q) ∈ c.arcs)
  | .backward, p, q => decide ((q, p) ∈ c.arcs)

/-- The points that flow into a point, in the order of points. -/
def sources (c : ControlFlowGraph) (d : Direction) (p : Point) : List Point :=
  c.points.filter fun q => c.flows d q p

/-- A way from `start` that has passed some points and come to another. -/
inductive Way (c : ControlFlowGraph) (d : Direction) (start : Point) : List Point → Point → Prop
  | start : Way c d start [] start
  | step {passed : List Point} {p q : Point} (way : Way c d start passed p)
      (flow : c.flows d p q) : Way c d start (passed ++ [p]) q

/-- Some way leads from `start` to the point. -/
def Reaches (c : ControlFlowGraph) (d : Direction) (start p : Point) : Prop :=
  ∃ passed, c.Way d start passed p

end ControlFlowGraph

theorem ControlFlowGraph.operationAt?_of_locate {c : ControlFlowGraph} {p : Point} {l : Location}
    (h : c.locate p = .ok l) : c.operationAt? p = l.operation? := by
  simp only [operationAt?, h]

/-! ### Within a block -/

namespace Block
variable {b : Block} {p q : Point}

theorem map_fst_steps (b : Block) : b.steps.map Prod.fst = b.points.dropLast := by
  unfold steps
  generalize b.points = l
  induction l with
  | nil => rfl
  | cons p l ih =>
    cases l with
    | nil => rfl
    | cons q l => simpa using ih

theorem fst_mem_of_steps (h : (p, q) ∈ b.steps) : p ∈ b.points.dropLast := by
  rw [← map_fst_steps]
  exact List.mem_map_of_mem h

theorem mem_of_steps (h : (p, q) ∈ b.steps) : p ∈ b.points ∧ q ∈ b.points :=
  ⟨(List.of_mem_zip h).1, List.mem_of_mem_tail (List.of_mem_zip h).2⟩

namespace Numbered

theorem steps_nodup (h : b.Numbered) : b.steps.Nodup := by
  refine List.Nodup.of_map Prod.fst ?_
  rw [map_fst_steps]
  exact h.points_nodup.sublist (List.dropLast_sublist _)

/-- A step leads from one position to the next. -/
theorem mem_steps (h : b.Numbered) (nonempty : b.instructions ≠ []) :
    (p, q) ∈ b.steps ↔ ∃ k, k + 1 < b.instructions.length ∧
      p = .instruction b.index k ∧ q = .instruction b.index (k + 1) := by
  have hrange (j i : Nat) : (List.range b.instructions.length)[j]? = some i ↔
      j < b.instructions.length ∧ j = i := by
    simp [List.getElem?_eq_some_iff]
  rw [steps, h.points_eq nonempty, List.mem_iff_getElem?]
  simp only [List.getElem?_zip_eq_some, List.getElem?_tail, List.getElem?_map,
    Option.map_eq_some_iff, hrange]
  constructor
  · rintro ⟨k, ⟨_, ⟨-, rfl⟩, rfl⟩, _, ⟨hlt, rfl⟩, rfl⟩
    exact ⟨k, hlt, rfl, rfl⟩
  · rintro ⟨k, hlt, rfl, rfl⟩
    exact ⟨k, ⟨k, ⟨by omega, rfl⟩, rfl⟩, k + 1, ⟨hlt, rfl⟩, rfl⟩

/-- No point of the block comes after its last. -/
theorem lastPoint_not_mem (h : b.Numbered) : b.lastPoint ∉ b.points.dropLast := by
  have hlast := b.getLast_points
  have hnodup := h.points_nodup
  rw [← List.dropLast_append_getLast? _ (Option.mem_def.2 hlast)] at hnodup
  exact fun hmem => (List.nodup_append.1 hnodup).2.2 _ hmem _ (List.mem_singleton_self _) rfl

end Numbered

end Block

/-! ### Arcs -/

namespace ControlFlowGraph

theorem mem_jump {c : ControlFlowGraph} {e : Edge} {p q : Point} :
    (p, q) ∈ c.jump e ↔ ∃ head tail, c.block e.head = .ok head ∧ c.block e.tail = .ok tail ∧
      p = head.lastPoint ∧ q = tail.firstPoint := by
  unfold jump
  cases c.block e.head <;> cases c.block e.tail <;> simp

theorem mem_arcs {c : ControlFlowGraph} {p q : Point} :
    (p, q) ∈ c.arcs ↔ (∃ b ∈ c.blocks, (p, q) ∈ b.steps) ∨ ∃ e ∈ c.edges, ∃ head tail,
      c.block e.head = .ok head ∧ c.block e.tail = .ok tail ∧
        p = head.lastPoint ∧ q = tail.firstPoint := by
  simp only [arcs, List.mem_append, List.mem_flatMap, mem_jump]

namespace WellFormed
variable {c : ControlFlowGraph}

theorem mem_points_of_arcs (h : c.WellFormed) {p q : Point} (hpq : (p, q) ∈ c.arcs) :
    p ∈ c.points ∧ q ∈ c.points := by
  rcases mem_arcs.1 hpq with ⟨b, hb, hpq⟩ | ⟨e, _, head, tail, hhead, htail, rfl, rfl⟩
  · exact ⟨mem_points.2 ⟨b, hb, (Block.mem_of_steps hpq).1⟩,
      mem_points.2 ⟨b, hb, (Block.mem_of_steps hpq).2⟩⟩
  · exact ⟨mem_points.2 ⟨head, (h.of_block hhead).2.1, head.lastPoint_mem⟩,
      mem_points.2 ⟨tail, (h.of_block htail).2.1, tail.firstPoint_mem⟩⟩

theorem mem_points_of_flows (h : c.WellFormed) {d : Direction} {p q : Point}
    (hpq : c.flows d p q) : p ∈ c.points ∧ q ∈ c.points := by
  cases d with
  | forward => exact h.mem_points_of_arcs (of_decide_eq_true hpq)
  | backward => exact (h.mem_points_of_arcs (of_decide_eq_true hpq)).symm

theorem mem_sources (h : c.WellFormed) {d : Direction} {p q : Point} :
    q ∈ c.sources d p ↔ c.flows d q p := by
  rw [sources, List.mem_filter]
  exact and_iff_right_of_imp fun hq => (h.mem_points_of_flows hq).1

/-- Control passes directly between two points in one way only. -/
theorem arcs_nodup (h : c.WellFormed) : c.arcs.Nodup := by
  refine List.nodup_append.2 ⟨List.nodup_flatMap.2 ⟨fun b hb => ?_, ?_⟩,
    List.nodup_flatMap.2 ⟨fun e _ => ?_, ?_⟩, ?_⟩
  · exact (h.numbered_of_mem hb).steps_nodup
  · refine h.blocks_pairwise.imp fun {b d} hlt a hb hd => ?_
    rw [← Block.block_of_mem_points (Block.mem_of_steps hb).1,
      Block.block_of_mem_points (Block.mem_of_steps hd).1] at hlt
    exact Nat.lt_irrefl _ hlt
  · unfold jump
    split <;> simp
  · refine h.consistent.edges_distinct.imp_of_mem fun {e f} _ _ hne a he hf => hne ?_
    obtain ⟨p, q⟩ := a
    obtain ⟨head, tail, hhead, htail, rfl, rfl⟩ := mem_jump.1 he
    obtain ⟨head', tail', hhead', htail', hlast, hfirst⟩ := mem_jump.1 hf
    obtain ⟨hi, hmem, _⟩ := h.of_block hhead
    obtain ⟨hi', hmem', _⟩ := h.of_block hhead'
    obtain ⟨hj, hmemt, _⟩ := h.of_block htail
    obtain ⟨hj', hmemt', _⟩ := h.of_block htail'
    have := h.block_unique hmem hmem' head.lastPoint_mem (hlast ▸ head'.lastPoint_mem)
    have := h.block_unique hmemt hmemt' tail.firstPoint_mem (hfirst ▸ tail'.firstPoint_mem)
    subst_vars
    exact ⟨hi.symm.trans hi', hj.symm.trans hj'⟩
  · intro a hstep _ hjump heq
    obtain ⟨p, q⟩ := a
    subst heq
    obtain ⟨b, hb, hstep⟩ := List.mem_flatMap.1 hstep
    obtain ⟨e, _, hjump⟩ := List.mem_flatMap.1 hjump
    obtain ⟨head, tail, hhead, _, rfl, _⟩ := mem_jump.1 hjump
    -- the last point of a block leads to no other point of the block
    obtain ⟨_, hmem, hnumbered⟩ := h.of_block hhead
    have := h.block_unique hmem hb head.lastPoint_mem (Block.mem_of_steps hstep).1
    subst this
    exact hnumbered.lastPoint_not_mem (Block.fst_mem_of_steps hstep)

end WellFormed

/-! ### Ways -/

theorem Reaches.start (c : ControlFlowGraph) (d : Direction) (p : Point) : c.Reaches d p p :=
  ⟨[], .start⟩

theorem Reaches.step {c : ControlFlowGraph} {d : Direction} {start p q : Point}
    (h : c.Reaches d start p) (flow : c.flows d p q) : c.Reaches d start q := by
  obtain ⟨passed, way⟩ := h
  exact ⟨passed ++ [p], way.step flow⟩

/-- Ways from a point lead to points. -/
theorem Way.mem_points {c : ControlFlowGraph} (h : c.WellFormed) {d : Direction} {start q : Point}
    {passed : List Point} (hstart : start ∈ c.points) (way : c.Way d start passed q) :
    q ∈ c.points := by
  cases way with
  | start => exact hstart
  | step _ flow => exact (h.mem_points_of_flows flow).2

end ControlFlowGraph

end FlowFacts
