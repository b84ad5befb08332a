import FlowFacts.Proofs.Program.ControlFlow
import Mathlib.Logic.Equiv.Defs

/-! Programs that differ in the numbers of their blocks.

A permutation of numbers gives every block another number, and with it every point and
every location. One program renumbers another when it has the same blocks under the other
numbers, with the same edges between them and the same entry and exit
(`ControlFlowGraph.Renumbers`). Its points are the other points, and facts flow between
them in the same way (`Renumbers.reaches_iff`). -/
namespace FlowFacts
variable {π : Equiv.Perm Nat}

/-! ### Other numbers -/

/-- The same place of the block that has the other number. -/
def Point.renumber (π : Equiv.Perm Nat) : Point → Point
  | .instruction block index => .instruction (π block) index
  | .emptyBlock block => .emptyBlock (π block)

@[simp]
theorem Point.renumber_renumber (p : Point) : (p.renumber π).renumber π.symm = p := by
  cases p <;> simp [renumber]

@[simp]
theorem Point.renumber_refl (p : Point) : p.renumber (Equiv.refl Nat) = p := by
  cases p <;> rfl

@[simp]
theorem Point.block_renumber (p : Point) : (p.renumber π).block = π p.block := by
  cases p <;> rfl

namespace Block

def renumber (π : Equiv.Perm Nat) (b : Block) : Block := { b with index := π b.index }

variable (b : Block)

@[simp]
theorem renumber_renumber : (b.renumber π).renumber π.symm = b := by
  simp [renumber]

@[simp]
theorem isEmpty_renumber : (b.renumber π).isEmpty = b.isEmpty := rfl

@[simp]
theorem instruction?_renumber (index : Nat) :
    (b.renumber π).instruction? index = b.instruction? index := rfl

theorem points_renumber : (b.renumber π).points = b.points.map (Point.renumber π) := by
  rw [points, points, isEmpty_renumber]
  split
  · rfl
  · rw [List.map_map]
    rfl

theorem firstPoint_renumber : (b.renumber π).firstPoint = b.firstPoint.renumber π := by
  simp only [firstPoint, renumber]
  cases b.instructions.head? <;> rfl

theorem lastPoint_renumber : (b.renumber π).lastPoint = b.lastPoint.renumber π := by
  simp only [lastPoint, renumber]
  cases b.instructions.getLast? <;> rfl

theorem steps_renumber :
    (b.renumber π).steps = b.steps.map (Prod.map (Point.renumber π) (Point.renumber π)) := by
  rw [steps, steps, points_renumber, ← List.map_tail, List.zip_map]

end Block

def Location.renumber (π : Equiv.Perm Nat) (l : Location) : Location :=
  { l with block := l.block.renumber π }

@[simp]
theorem Location.renumber_symm (l : Location) : (l.renumber π.symm).renumber π = l := by
  simp [renumber, Block.renumber]

/-! ### The same blocks under other numbers -/

namespace ControlFlowGraph

structure Renumbers (π : Equiv.Perm Nat) (c other : ControlFlowGraph) : Prop where
  blocks : ∀ i, other.graph.vertexMap[π i]? = c.graph.vertexMap[i]?.map (Block.renumber π)
  edges : ∀ i j, other.graph.hasEdge (π i) (π j) = c.graph.hasEdge i j
  entry : other.entry = c.entry.map π
  exit : other.exit = c.exit.map π

namespace Renumbers
variable {c other : ControlFlowGraph} {p q start : Point} {d : Direction}

theorem refl (c : ControlFlowGraph) : Renumbers (Equiv.refl Nat) c c where
  blocks i := by
    show c.graph.vertexMap[i]? = _
    cases c.graph.vertexMap[i]? <;> rfl
  edges _ _ := rfl
  entry := by cases c.entry <;> rfl
  exit := by cases c.exit <;> rfl

/-- Only the numbers that blocks have are to be compared. -/
theorem of_lt (hc : c.WellFormed) (hother : other.WellFormed)
    (far : ∀ i, c.nextIndex ≤ i → other.nextIndex ≤ π i)
    (blocks : ∀ i < c.nextIndex,
      other.graph.vertexMap[π i]? = c.graph.vertexMap[i]?.map (Block.renumber π))
    (edges : ∀ i < c.nextIndex, ∀ j < c.nextIndex,
      other.graph.hasEdge (π i) (π j) = c.graph.hasEdge i j)
    (entry : other.entry = c.entry.map π) (exit : other.exit = c.exit.map π) :
    Renumbers π c other := by
  refine ⟨fun i => ?_, fun i j => ?_, entry, exit⟩
  · rcases Nat.lt_or_ge i c.nextIndex with hi | hi
    · exact blocks i hi
    · rw [hc.no_block hi, hother.no_block (far i hi)]
      rfl
  · by_cases hij : i < c.nextIndex ∧ j < c.nextIndex
    · exact edges i hij.1 j hij.2
    · rw [hc.no_edge hij, hother.no_edge]
      rcases not_and_or.1 hij with h | h
      · have := far i (Nat.not_lt.1 h)
        omega
      · have := far j (Nat.not_lt.1 h)
        omega

/-- With the inverse permutation the first program renumbers the second. -/
theorem symm (h : Renumbers π c other) : Renumbers π.symm other c where
  blocks i := by
    have := h.blocks (π.symm i)
    rw [Equiv.apply_symm_apply] at this
    rw [this, Option.map_map]
    cases c.graph.vertexMap[π.symm i]? <;> simp
  edges i j := by simp [← h.edges]
  entry := by simp [h.entry, Function.comp_def]
  exit := by simp [h.exit, Function.comp_def]

theorem block (h : Renumbers π c other) {i : Nat} {b : Block} (hb : c.block i = .ok b) :
    other.block (π i) = .ok (b.renumber π) := by
  unfold ControlFlowGraph.block Graph.vertex at hb ⊢
  rw [h.blocks]
  split at hb <;> simp_all

theorem locate (h : Renumbers π c other) {l : Location} (hl : c.locate p = .ok l) :
    other.locate (p.renumber π) = .ok (l.renumber π) := by
  unfold ControlFlowGraph.locate at hl ⊢
  cases hb : c.block p.block with
  | error e => simp [hb, bind, Except.bind] at hl
  | ok b =>
    have hother := h.block hb
    simp only [hb, bind, Except.bind] at hl
    simp only [Point.block_renumber, hother, bind, Except.bind]
    cases p with
    | instruction block index =>
      simp only [Point.renumber, Block.instruction?_renumber] at hl ⊢
      cases hi : b.instruction? index with
      | none => simp [hi] at hl
      | some i =>
        simp only [hi, pure, Except.pure, Except.ok.injEq] at hl ⊢
        rw [← hl]
        rfl
    | emptyBlock block =>
      by_cases hempty : b.isEmpty
      · simp only [if_pos hempty, pure, Except.pure, Except.ok.injEq] at hl
        rw [← hl]
        exact if_pos hempty
      · simp [hempty] at hl

theorem mem_blocks (h : Renumbers π c other) (hc : c.WellFormed) (hother : other.WellFormed)
    {b : Block} (hb : b ∈ c.blocks) : b.renumber π ∈ other.blocks :=
  (hother.mem_blocks _).2 (h.block ((hc.mem_blocks b).1 hb))

theorem mem_points (h : Renumbers π c other) (hc : c.WellFormed) (hother : other.WellFormed)
    (hp : p ∈ c.points) : p.renumber π ∈ other.points := by
  obtain ⟨b, hb, hp⟩ := ControlFlowGraph.mem_points.1 hp
  refine ControlFlowGraph.mem_points.2 ⟨_, h.mem_blocks hc hother hb, ?_⟩
  rw [b.points_renumber]
  exact List.mem_map_of_mem hp

theorem mem_arcs (h : Renumbers π c other) (hc : c.WellFormed) (hother : other.WellFormed)
    (hpq : (p, q) ∈ c.arcs) : (p.renumber π, q.renumber π) ∈ other.arcs := by
  rw [ControlFlowGraph.mem_arcs] at hpq ⊢
  rcases hpq with ⟨b, hb, hpq⟩ | ⟨e, he, head, tail, hhead, htail, rfl, rfl⟩
  · refine .inl ⟨_, h.mem_blocks hc hother hb, ?_⟩
    rw [b.steps_renumber]
    exact List.mem_map_of_mem hpq
  · have hedge := (hc.consistent.hasEdge_iff_mem_edges e.head e.tail).2 ⟨e, he, rfl, rfl⟩
    rw [← h.edges] at hedge
    obtain ⟨f, hf, hfhead, hftail⟩ := (hother.consistent.hasEdge_iff_mem_edges _ _).1 hedge
    refine .inr ⟨f, hf, _, _, ?_, ?_, (head.lastPoint_renumber).symm,
      (tail.firstPoint_renumber).symm⟩
    · exact (congrArg other.block hfhead).trans (h.block hhead)
    · exact (congrArg other.block hftail).trans (h.block htail)

theorem flows (h : Renumbers π c other) (hc : c.WellFormed) (hother : other.WellFormed)
    (hpq : c.flows d p q) : other.flows d (p.renumber π) (q.renumber π) := by
  cases d with
  | forward => exact decide_eq_true (h.mem_arcs hc hother (of_decide_eq_true hpq))
  | backward => exact decide_eq_true (h.mem_arcs hc hother (of_decide_eq_true hpq))

theorem reaches (h : Renumbers π c other) (hc : c.WellFormed) (hother : other.WellFormed)
    (hp : c.Reaches d start p) : other.Reaches d (start.renumber π) (p.renumber π) := by
  obtain ⟨passed, way⟩ := hp
  induction way with
  | start => exact .start ..
  | step _ flow ih => exact ih.step (h.flows hc hother flow)

theorem reaches_iff (h : Renumbers π c other) (hc : c.WellFormed) (hother : other.WellFormed) :
    other.Reaches d (start.renumber π) (p.renumber π) ↔ c.Reaches d start p :=
  ⟨fun hp => by simpa using h.symm.reaches hother hc hp, h.reaches hc hother⟩

end Renumbers

end ControlFlowGraph

end FlowFacts
