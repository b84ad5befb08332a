import FlowFacts.Proofs.Program.Built
import Mathlib.Data.List.Nodup

/-! The points of a program.

In a well-formed program no point occurs twice (`WellFormed.points_nodup`), and every
point names the place it was made from: its block, and the instruction of that number
unless the block is empty (`WellFormed.locate_point`). Such a number is a position, so what
points name can be said by positions alone (`Names`); what is looked up is just that
(`WellFormed.names_of_locate`, `WellFormed.locate_of_names`), and it carries its point
(`WellFormed.point_of_names`). -/
namespace FlowFacts

namespace Block
variable {b : Block}

theorem head_points (b : Block) : b.points.head? = some b.firstPoint := by
  cases h : b.instructions <;> simp [points, firstPoint, isEmpty, h]

theorem getLast_points (b : Block) : b.points.getLast? = some b.lastPoint := by
  unfold points lastPoint isEmpty
  cases h : b.instructions.getLast? with
  | none => simp_all
  | some i =>
    have : b.instructions ≠ [] := by
      intro hnil
      simp [hnil] at h
    simp [this, h]

theorem firstPoint_mem (b : Block) : b.firstPoint ∈ b.points :=
  List.mem_of_mem_head? (Option.mem_def.2 b.head_points)

theorem lastPoint_mem (b : Block) : b.lastPoint ∈ b.points :=
  List.mem_of_getLast? b.getLast_points

theorem block_of_mem_points {p : Point} (hp : p ∈ b.points) : p.block = b.index := by
  unfold points at hp
  split at hp
  · rw [List.mem_singleton.1 hp]
    rfl
  · obtain ⟨i, _, rfl⟩ := List.mem_map.1 hp
    rfl

namespace Numbered

/-- The number of an instruction finds it. -/
theorem instruction? (h : b.Numbered) {i : Instruction} (hi : i ∈ b.instructions) :
    b.instruction? i.index = some i := by
  obtain ⟨k, hk⟩ := List.mem_iff_getElem?.1 hi
  obtain ⟨hlt, hget⟩ := List.getElem?_eq_some_iff.1 hk
  rw [Block.instruction?, List.find?_eq_some_iff_getElem]
  refine ⟨by simp, k, hlt, hget, fun j hj => ?_⟩
  have := h.position j _ (List.getElem?_eq_getElem (by omega))
  have := h.position k i hk
  simp only [Bool.not_eq_true', beq_eq_false_iff_ne]
  omega

/-- The instruction with a number is the one in that position. -/
theorem instruction?_eq (h : b.Numbered) (k : Nat) : b.instruction? k = b.instructions[k]? := by
  cases hk : b.instructions[k]? with
  | some i =>
    have hfound := h.instruction? (List.mem_of_getElem? hk)
    rwa [h.position k i hk] at hfound
  | none =>
    rw [Block.instruction?, List.find?_eq_none]
    intro i hi heq
    obtain ⟨j, hj⟩ := List.mem_iff_getElem?.1 hi
    have hindex : j = k := (h.position j i hj).symm.trans (by simpa using heq)
    rw [hindex, hk] at hj
    cases hj

theorem points_nodup (h : b.Numbered) : b.points.Nodup := by
  unfold points
  split
  · simp
  · refine List.Nodup.map_on (fun i hi j hj heq => ?_) ?_
    · have hindex : i.index = j.index := by
        simpa [pointOf] using heq
      have := h.instruction? hi
      rw [hindex, h.instruction? hj] at this
      exact (Option.some.inj this).symm
    · rw [List.nodup_iff_getElem?_ne_getElem?]
      intro k l hkl hlen heq
      obtain ⟨i, hi⟩ : ∃ i, b.instructions[k]? = some i :=
        ⟨_, List.getElem?_eq_getElem (by omega)⟩
      have := h.position k i hi
      have := h.position l i (heq ▸ hi)
      omega

/-- The points of a block with instructions are their positions. -/
theorem points_eq (h : b.Numbered) (nonempty : b.instructions ≠ []) :
    b.points = (List.range b.instructions.length).map (.instruction b.index) := by
  rw [points, isEmpty, List.isEmpty_eq_false_iff.2 nonempty]
  refine List.ext_getElem? fun k => ?_
  rw [if_neg Bool.false_ne_true, List.getElem?_map, List.getElem?_map]
  cases hk : b.instructions[k]? with
  | none =>
    have : b.instructions.length ≤ k := List.getElem?_eq_none_iff.1 hk
    simp [this]
  | some i =>
    have hlt : k < b.instructions.length := (List.getElem?_eq_some_iff.1 hk).1
    simp [pointOf, h.position k i hk, List.getElem?_range hlt]

theorem firstPoint_eq (h : b.Numbered) (nonempty : b.instructions ≠ []) :
    b.firstPoint = .instruction b.index 0 := by
  have hhead := b.head_points
  have hlength := List.length_pos_iff.2 nonempty
  rw [h.points_eq nonempty, List.head?_map, List.head?_range, if_neg (by omega)] at hhead
  exact (Option.some.inj hhead).symm

theorem lastPoint_eq (h : b.Numbered) (nonempty : b.instructions ≠ []) :
    b.lastPoint = .instruction b.index (b.instructions.length - 1) := by
  have hlast := b.getLast_points
  have hlength := List.length_pos_iff.2 nonempty
  rw [h.points_eq nonempty, List.getLast?_map, List.getLast?_range, if_neg (by omega)] at hlast
  exact (Option.some.inj hlast).symm

end Numbered

end Block

namespace ControlFlowGraph

theorem mem_points {c : ControlFlowGraph} {p : Point} :
    p ∈ c.points ↔ ∃ b ∈ c.blocks, p ∈ b.points := List.mem_flatMap

/-- A block stands in the points of the program as a whole. -/
theorem points_split {c : ControlFlowGraph} {b : Block} (hb : b ∈ c.blocks) :
    ∃ before after, c.points = before ++ b.points ++ after := by
  obtain ⟨first, last, hsplit⟩ := List.append_of_mem hb
  refine ⟨first.flatMap Block.points, last.flatMap Block.points, ?_⟩
  rw [points, hsplit, List.flatMap_append, List.flatMap_cons, List.append_assoc]

theorem block_of_hasVertex {c : ControlFlowGraph} {i : Nat} (hi : c.graph.hasVertex i) :
    ∃ b, c.block i = .ok b := by
  obtain ⟨b, hb⟩ := (c.graph.hasVertex_iff i).1 hi
  exact ⟨b, by simp [block, Graph.vertex, hb]⟩

/-- The point names a block of the program, and the instruction in a position there, or the block
as one without instructions. -/
inductive Names (c : ControlFlowGraph) : Point → Location → Prop
  | instruction {n k : Nat} {b : Block} {i : Instruction} (block : c.block n = .ok b)
      (position : b.instructions[k]? = some i) : Names c (.instruction n k) ⟨b, some i⟩
  | emptyBlock {n : Nat} {b : Block} (block : c.block n = .ok b) (empty : b.instructions = []) :
      Names c (.emptyBlock n) ⟨b, none⟩

namespace WellFormed
variable {c : ControlFlowGraph}

/-! ### Blocks -/

/-- Blocks have the numbers below the next one. -/
theorem no_block (h : c.WellFormed) {i : Nat} (hi : c.nextIndex ≤ i) :
    c.graph.vertexMap[i]? = none := by
  rw [Option.eq_none_iff_forall_ne_some]
  intro b hb
  exact Nat.not_lt.2 hi ((h.numbers i).1 ((c.graph.hasVertex_iff i).2 ⟨b, hb⟩))

theorem no_edge (h : c.WellFormed) {i j : Nat} (hij : ¬ (i < c.nextIndex ∧ j < c.nextIndex)) :
    c.graph.hasEdge i j = false := by
  rw [Bool.eq_false_iff]
  intro hedge
  obtain ⟨hi, hj⟩ := h.consistent.ends_are_vertices i j hedge
  exact hij ⟨(h.numbers i).1 hi, (h.numbers j).1 hj⟩

theorem mem_blocks (h : c.WellFormed) (b : Block) : b ∈ c.blocks ↔ c.block b.index = .ok b :=
  h.consistent.mem_vertices b

theorem of_block (h : c.WellFormed) {i : Nat} {b : Block} (hb : c.block i = .ok b) :
    b.index = i ∧ b ∈ c.blocks ∧ b.Numbered := by
  have hget : c.graph.vertexMap[i]? = some b := by
    unfold ControlFlowGraph.block Graph.vertex at hb
    split at hb <;> simp_all
  have hindex : b.index = i := h.consistent.vertex_index i b hget
  exact ⟨hindex, (h.mem_blocks b).2 (hindex ▸ hb), h.numbered i b hget⟩

/-- The entry is not set, or it is a block. -/
theorem entryBlock_cases (h : c.WellFormed) :
    (c.entry = none ∧ c.entryBlock = .error .entryNotFound) ∨
      ∃ i b, c.entry = some i ∧ c.block i = .ok b ∧ c.entryBlock = .ok b := by
  cases hentry : c.entry with
  | none => exact .inl ⟨rfl, by simp only [entryBlock, hentry]⟩
  | some i =>
    obtain ⟨b, hb⟩ := block_of_hasVertex (h.entry i hentry)
    exact .inr ⟨i, b, rfl, hb, by simp only [entryBlock, hentry, hb]⟩

theorem exitBlock_cases (h : c.WellFormed) :
    (c.exit = none ∧ c.exitBlock = .error .exitNotFound) ∨
      ∃ i b, c.exit = some i ∧ c.block i = .ok b ∧ c.exitBlock = .ok b := by
  cases hexit : c.exit with
  | none => exact .inl ⟨rfl, by simp only [exitBlock, hexit]⟩
  | some i =>
    obtain ⟨b, hb⟩ := block_of_hasVertex (h.exit i hexit)
    exact .inr ⟨i, b, rfl, hb, by simp only [exitBlock, hexit, hb]⟩

theorem numbered_of_mem (h : c.WellFormed) {b : Block} (hb : b ∈ c.blocks) : b.Numbered :=
  (h.of_block ((h.mem_blocks b).1 hb)).2.2

/-- A point lies in one block only. -/
theorem block_unique (h : c.WellFormed) {b d : Block} {p : Point} (hb : b ∈ c.blocks)
    (hd : d ∈ c.blocks) (hpb : p ∈ b.points) (hpd : p ∈ d.points) : b = d := by
  have hindex : b.index = d.index := by
    rw [← Block.block_of_mem_points hpb, Block.block_of_mem_points hpd]
  have := (h.mem_blocks b).1 hb
  rw [hindex, (h.mem_blocks d).1 hd] at this
  exact (Except.ok.inj this).symm

theorem blocks_pairwise (h : c.WellFormed) : c.blocks.Pairwise fun b d => b.index < d.index :=
  h.consistent.vertices_ordered

/-! ### Points -/

theorem points_nodup (h : c.WellFormed) : c.points.Nodup := by
  refine List.nodup_flatMap.2 ⟨fun b hb => (h.numbered_of_mem hb).points_nodup, ?_⟩
  refine h.blocks_pairwise.imp fun {b d} hlt p hb hd => ?_
  rw [← Block.block_of_mem_points hb, Block.block_of_mem_points hd] at hlt
  exact Nat.lt_irrefl _ hlt

theorem locate_instruction (h : c.WellFormed) {b : Block} (hb : b ∈ c.blocks) {i : Instruction}
    (hi : i ∈ b.instructions) : c.locate (b.pointOf i) = .ok ⟨b, some i⟩ := by
  have hblock := (h.mem_blocks b).1 hb
  have := (h.numbered_of_mem hb).instruction? hi
  simp [locate, Block.pointOf, Point.block, hblock, this, bind, Except.bind, pure, Except.pure]

theorem locate_emptyBlock (h : c.WellFormed) {b : Block} (hb : b ∈ c.blocks) (he : b.isEmpty) :
    c.locate (.emptyBlock b.index) = .ok ⟨b, none⟩ := by
  have hblock := (h.mem_blocks b).1 hb
  simp [locate, Point.block, hblock, he, bind, Except.bind, pure, Except.pure]

theorem locate_point (h : c.WellFormed) {p : Point} (hp : p ∈ c.points) :
    ∃ l, c.locate p = .ok l ∧ l.point = p := by
  obtain ⟨b, hb, hp⟩ := mem_points.1 hp
  unfold Block.points at hp
  split at hp
  · rename_i he
    rw [List.mem_singleton.1 hp]
    exact ⟨_, h.locate_emptyBlock hb he, rfl⟩
  · obtain ⟨i, hi, rfl⟩ := List.mem_map.1 hp
    exact ⟨_, h.locate_instruction hb hi, rfl⟩

/-- What is found of a point is what it names. -/
theorem names_of_locate (h : c.WellFormed) {p : Point} {l : Location} (hl : c.locate p = .ok l) :
    c.Names p l := by
  rw [locate, needs_eq_ok] at hl
  obtain ⟨b, hb, hl⟩ := hl
  obtain ⟨-, -, hnumbered⟩ := h.of_block hb
  cases p with
  | instruction n k =>
    simp only [hnumbered.instruction?_eq] at hl
    cases hk : b.instructions[k]? with
    | none => simp [hk, throw, throwThe, MonadExceptOf.throw] at hl
    | some i =>
      obtain rfl : ⟨b, some i⟩ = l := by simpa [hk, pure, Except.pure] using hl
      exact .instruction hb hk
  | emptyBlock n =>
    cases hempty : b.isEmpty with
    | false => simp [hempty, throw, throwThe, MonadExceptOf.throw] at hl
    | true =>
      obtain rfl : ⟨b, none⟩ = l := by simpa [hempty, pure, Except.pure] using hl
      exact .emptyBlock hb (List.isEmpty_iff.1 hempty)

theorem locate_of_names (h : c.WellFormed) {p : Point} {l : Location} (names : c.Names p l) :
    c.locate p = .ok l := by
  cases names with
  | @instruction n k b i hb hk =>
    obtain ⟨rfl, hmem, hnumbered⟩ := h.of_block hb
    have hlocate := h.locate_instruction hmem (List.mem_of_getElem? hk)
    rwa [Block.pointOf, hnumbered.position k i hk] at hlocate
  | @emptyBlock n b hb hnone =>
    obtain ⟨rfl, hmem, -⟩ := h.of_block hb
    exact h.locate_emptyBlock hmem (List.isEmpty_iff.2 hnone)

/-- What a point names carries the point, which is one of the program. -/
theorem point_of_names (h : c.WellFormed) {p : Point} {l : Location} (names : c.Names p l) :
    p ∈ c.points ∧ l.point = p := by
  cases names with
  | @instruction n k b i hb hk =>
    obtain ⟨rfl, hmem, hnumbered⟩ := h.of_block hb
    have hpoint : b.pointOf i = .instruction b.index k := by
      rw [Block.pointOf, hnumbered.position k i hk]
    have hi : i ∈ b.instructions := List.mem_of_getElem? hk
    have hpoints : b.points = b.instructions.map b.pointOf :=
      if_neg (by simpa [Block.isEmpty] using List.ne_nil_of_mem hi)
    exact ⟨mem_points.2 ⟨b, hmem, hpoints ▸ hpoint ▸ List.mem_map_of_mem hi⟩, hpoint⟩
  | @emptyBlock n b hb hnone =>
    obtain ⟨rfl, hmem, -⟩ := h.of_block hb
    have hpoints : b.points = [.emptyBlock b.index] := if_pos (List.isEmpty_iff.2 hnone)
    exact ⟨mem_points.2 ⟨b, hmem, by simp [hpoints]⟩, rfl⟩

end WellFormed

end ControlFlowGraph

end FlowFacts
