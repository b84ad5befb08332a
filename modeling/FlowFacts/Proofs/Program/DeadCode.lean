import FlowFacts.Proofs.Graph.PostOrder
import FlowFacts.Proofs.Program.ControlFlow
import Mathlib.Data.List.Sort

/-! Code that control does not come to.

A block is live when edges lead to it from the entry. New blocks, more operations in blocks
that are not live and more edges out of them (`Change.Dead`) leave the live blocks and the
edges out of those as they are, wherever the new edges lead, and so they leave the same blocks
live (`SameLive`). Programs with the same live code name the same things at live points, list
these points in the same order, and pass control from them in the same ways. -/
namespace FlowFacts.ControlFlowGraph

/-- Control can come from the entry to the block. -/
def Live (c : ControlFlowGraph) (block : Nat) : Prop :=
  ∃ entry, c.entry = some entry ∧ c.graph.Reaches entry block

/-- A change that adds a block, an operation to a block that is not live, or an edge out of
one. -/
def Change.Dead (c : ControlFlowGraph) : Change → Prop
  | .newBlock => True
  | .push block _ => ¬ c.Live block
  | .addEdge head _ => ¬ c.Live head
  | .setEntry _ | .setExit _ => False

/-- Two programs have the same entry, and the same code where it leads in the first. -/
structure SameLive (c more : ControlFlowGraph) : Prop where
  first : c.WellFormed
  second : more.WellFormed
  entry : more.entry = c.entry
  blocks : ∀ i, c.Live i → more.graph.vertexMap[i]? = c.graph.vertexMap[i]?
  edges : ∀ i j, c.Live i → more.graph.hasEdge i j = c.graph.hasEdge i j

/-! ### Live blocks -/

section Live
variable {c : ControlFlowGraph} {i j : Nat}

theorem WellFormed.live_step (hc : c.WellFormed) (h : c.Live i) (edge : c.graph.hasEdge i j) :
    c.Live j := by
  obtain ⟨entry, hentry, hreach⟩ := h
  exact ⟨entry, hentry, hreach.tail ((hc.consistent.successors i j).2 edge)⟩

/-- What holds of the entry, and is kept along edges out of live blocks, holds of live blocks. -/
theorem WellFormed.live_induction (hc : c.WellFormed) {motive : Nat → Prop}
    (entry : ∀ i, c.entry = some i → motive i)
    (step : ∀ i j, c.Live i → motive i → c.graph.hasEdge i j → motive j) (h : c.Live i) :
    motive i := by
  obtain ⟨start, hstart, hreach⟩ := h
  induction hreach with
  | refl => exact entry start hstart
  | tail hreach edge ih =>
    exact step _ _ ⟨start, hstart, hreach⟩ ih ((hc.consistent.successors ..).1 edge)

theorem WellFormed.live_vertex (hc : c.WellFormed) (h : c.Live i) : c.graph.hasVertex i :=
  hc.live_induction hc.entry (fun i j _ _ edge => (hc.consistent.ends_are_vertices i j edge).2) h

end Live

/-! ### Dead changes -/

namespace SameLive
variable {c more : ControlFlowGraph}

theorem refl (hc : c.WellFormed) : SameLive c c := ⟨hc, hc, rfl, fun _ _ => rfl, fun _ _ _ => rfl⟩

/-- A program with the live code of the second has that of the first. -/
theorem next (h : SameLive c more) {next : ControlFlowGraph} (hnext : next.WellFormed)
    (entry : next.entry = more.entry)
    (blocks : ∀ i, c.Live i → next.graph.vertexMap[i]? = more.graph.vertexMap[i]?)
    (edges : ∀ i j, c.Live i → next.graph.hasEdge i j = more.graph.hasEdge i j) :
    SameLive c next where
  first := h.first
  second := hnext
  entry := entry.trans h.entry
  blocks i live := (blocks i live).trans (h.blocks i live)
  edges i j live := (edges i j live).trans (h.edges i j live)

theorem live_vertex (h : SameLive c more) {i : Nat} (live : c.Live i) :
    more.graph.hasVertex i := by
  rw [Graph.hasVertex_iff, h.blocks i live, ← Graph.hasVertex_iff]
  exact h.first.live_vertex live

/-- A dead change leaves the live code as it is, also when it is refused. -/
theorem apply (h : SameLive c more) {change : Change} (dead : change.Dead c) :
    SameLive c (change.apply more) := by
  have hnext := h.second.apply change
  cases change with
  | newBlock =>
    rw [Change.apply, after_ok (newBlock_ok h.second.fresh)] at hnext ⊢
    refine h.next hnext rfl (fun i live => ?_) fun _ _ _ => rfl
    have hne : more.nextIndex ≠ i := ((h.second.numbers i).1 (h.live_vertex live)).ne'
    simp [Graph.addVertex, IsVertex.index, Block.empty, Std.ExtTreeMap.getElem?_insert, hne]
  | push block operation =>
    rcases push_cases more block operation with ⟨_, hok⟩ | ⟨-, _, hno⟩
    · rw [Change.apply, after_ok hok] at hnext ⊢
      refine h.next hnext rfl (fun i live => ?_) fun _ _ _ => rfl
      have hne : block ≠ i := fun heq => dead (heq ▸ live)
      simp [Graph.modifyVertex, Std.ExtTreeMap.getElem?_modify, hne]
    · rwa [Change.apply, after_error hno]
  | addEdge head tail =>
    rcases addEdge_cases more head tail with ⟨-, -, hok⟩ | ⟨_, hno⟩
    · rw [Change.apply, after_ok hok] at hnext ⊢
      refine h.next hnext rfl (fun _ _ => rfl) fun i j live => ?_
      have hne : head ≠ i := fun heq => dead (heq ▸ live)
      rw [Bool.eq_iff_iff, Graph.hasEdge_addEdge]
      simp [IsEdge.head, hne]
    · rwa [Change.apply, after_error hno]
  | setEntry | setExit => exact dead.elim

end SameLive

theorem sameLive_of_dead {c : ControlFlowGraph} (hc : c.WellFormed) {changes : List Change}
    (dead : ∀ change ∈ changes, change.Dead c) : SameLive c (changes.foldl Change.apply c) := by
  suffices ∀ more, SameLive c more → SameLive c (changes.foldl Change.apply more) from
    this c (.refl hc)
  induction changes with
  | nil => exact fun _ h => h
  | cons change changes ih =>
    exact fun more h => ih (fun d hd => dead d (List.mem_cons_of_mem _ hd)) _
      (h.apply (dead change List.mem_cons_self))

namespace SameLive
variable {c more : ControlFlowGraph} (h : SameLive c more)
include h

/-! ### Live blocks of both -/

theorem live_iff (i : Nat) : more.Live i ↔ c.Live i := by
  constructor
  · refine h.second.live_induction (fun i hi => ?_) fun i j _ live edge => ?_
    · exact ⟨i, h.entry ▸ hi, .refl⟩
    · exact h.first.live_step live (h.edges i j live ▸ edge)
  · refine fun live => h.first.live_induction (motive := more.Live) (fun i hi => ?_)
      (fun i j live hi edge => ?_) live
    · exact ⟨i, h.entry ▸ hi, .refl⟩
    · exact h.second.live_step hi ((h.edges i j live).trans edge)

theorem symm : SameLive more c where
  first := h.second
  second := h.first
  entry := h.entry.symm
  blocks i live := (h.blocks i ((h.live_iff i).1 live)).symm
  edges i j live := (h.edges i j ((h.live_iff i).1 live)).symm

theorem block_eq {i : Nat} (live : c.Live i) : more.block i = c.block i := by
  rw [block, block, Graph.vertex, Graph.vertex, h.blocks i live]

/-- What a live point names. -/
theorem locate_eq {p : Point} (live : c.Live p.block) : more.locate p = c.locate p := by
  rw [locate, locate, h.block_eq live]

/-! ### Live points -/

theorem mem_blocks_of_live {b : Block} (live : c.Live b.index) (hb : b ∈ c.blocks) :
    b ∈ more.blocks := by
  rw [h.second.mem_blocks, h.block_eq live]
  exact (h.first.mem_blocks b).1 hb

open scoped Classical in
theorem blocks_filter : (more.blocks.filter fun b => c.Live b.index) =
    c.blocks.filter fun b => c.Live b.index := by
  have : Std.Irrefl fun b d : Block => b.index < d.index := ⟨fun b => Nat.lt_irrefl b.index⟩
  refine (h.second.blocks_pairwise.filter _).eq_of_mem_iff (h.first.blocks_pairwise.filter _)
    fun b => ?_
  simp only [List.mem_filter, decide_eq_true_iff]
  refine and_congr_left fun live => ⟨?_, h.mem_blocks_of_live live⟩
  exact h.symm.mem_blocks_of_live ((h.live_iff _).2 live)

open scoped Classical in
/-- The live points of both come in one order. -/
theorem points_filter : (more.points.filter fun p => c.Live p.block) =
    c.points.filter fun p => c.Live p.block := by
  have hblocks (blocks : List Block) :
      ((blocks.flatMap Block.points).filter fun p => c.Live p.block) =
        (blocks.filter fun b => c.Live b.index).flatMap Block.points := by
    induction blocks with
    | nil => rfl
    | cons b blocks ih =>
      rw [List.flatMap_cons, List.filter_append, ih, List.filter_cons]
      split
      · rename_i live
        rw [List.filter_eq_self.2, List.flatMap_cons]
        exact fun p hp => by rwa [Block.block_of_mem_points hp]
      · rename_i dead
        rw [List.filter_eq_nil_iff.2, List.nil_append]
        exact fun p hp => by rwa [Block.block_of_mem_points hp]
  rw [points, points, hblocks, hblocks, h.blocks_filter]

theorem mem_points_of_live {p : Point} (live : c.Live p.block) (hp : p ∈ c.points) :
    p ∈ more.points := by
  obtain ⟨b, hb, hp⟩ := mem_points.1 hp
  rw [Block.block_of_mem_points hp] at live
  exact mem_points.2 ⟨b, h.mem_blocks_of_live live hb, hp⟩

/-! ### Control flow from live points -/

theorem arcs_of_live {p q : Point} (live : c.Live p.block) (hpq : (p, q) ∈ c.arcs) :
    (p, q) ∈ more.arcs ∧ c.Live q.block := by
  rcases mem_arcs.1 hpq with ⟨b, hb, hpq⟩ | ⟨e, he, head, tail, hhead, htail, rfl, rfl⟩
  · obtain ⟨hp, hq⟩ := Block.mem_of_steps hpq
    have hindex := Block.block_of_mem_points hp
    refine ⟨mem_arcs.2 (.inl ⟨b, h.mem_blocks_of_live (hindex ▸ live) hb, hpq⟩), ?_⟩
    rwa [Block.block_of_mem_points hq, ← hindex]
  · rw [Block.block_of_mem_points head.lastPoint_mem, (h.first.of_block hhead).1] at live
    have hedge := (h.first.consistent.hasEdge_iff_mem_edges _ _).2 ⟨e, he, rfl, rfl⟩
    have live' := h.first.live_step live hedge
    have hmore : more.graph.hasEdge e.head e.tail := (h.edges _ _ live).trans hedge
    obtain ⟨e', he', (hh : e'.head = e.head), (ht : e'.tail = e.tail)⟩ :=
      (h.second.consistent.hasEdge_iff_mem_edges _ _).1 hmore
    refine ⟨mem_arcs.2 (.inr ⟨e', he', head, tail, ?_, ?_, rfl, rfl⟩), ?_⟩
    · exact hh ▸ (h.block_eq live).trans hhead
    · exact ht ▸ (h.block_eq live').trans htail
    · rwa [Block.block_of_mem_points tail.firstPoint_mem, (h.first.of_block htail).1]

theorem flows_eq {p q : Point} (live : c.Live p.block) :
    more.flows .forward p q = c.flows .forward p q := by
  rw [Bool.eq_iff_iff, flows, flows, decide_eq_true_iff, decide_eq_true_iff]
  exact ⟨fun hpq => (h.symm.arcs_of_live ((h.live_iff _).2 live) hpq).1,
    fun hpq => (h.arcs_of_live live hpq).1⟩

open scoped Classical in
/-- The live sources of a point, in order. -/
theorem sources_filter (p : Point) : ((more.sources .forward p).filter fun q => c.Live q.block) =
    (c.sources .forward p).filter fun q => c.Live q.block := by
  have hflows : ∀ q ∈ c.points.filter fun q => c.Live q.block,
      more.flows .forward q p = c.flows .forward q p := fun q hq =>
    h.flows_eq (of_decide_eq_true (List.mem_filter.1 hq).2)
  rw [sources, sources, List.filter_comm, h.points_filter, List.filter_congr hflows,
    List.filter_comm]

/-- Where control passes to from a live point, in order. -/
theorem targets_eq {p : Point} (live : c.Live p.block) :
    more.points.filter (more.flows .forward p) = c.points.filter (c.flows .forward p) := by
  classical
  have hlive (q : Point) :
      c.flows .forward p q = (decide (c.Live q.block) && c.flows .forward p q) := by
    rw [Bool.eq_iff_iff, Bool.and_eq_true, decide_eq_true_iff]
    exact (and_iff_right_of_imp fun hpq => (h.arcs_of_live live (of_decide_eq_true hpq)).2).symm
  have hflows : more.flows .forward p = c.flows .forward p := funext fun q => h.flows_eq live
  rw [hflows, funext hlive, ← List.filter_filter, ← List.filter_filter, List.filter_comm,
    List.filter_comm (l := c.points), h.points_filter]

/-! ### What a live point reaches -/

theorem live_of_reaches {start p : Point} (hstart : c.Live start.block)
    (reach : c.Reaches .forward start p) : c.Live p.block := by
  obtain ⟨passed, way⟩ := reach
  induction way with
  | start => exact hstart
  | step _ flow live => exact (h.arcs_of_live live (of_decide_eq_true flow)).2

end SameLive

end FlowFacts.ControlFlowGraph
