import FlowFacts.Program.Form
import FlowFacts.Proofs.Graph.Made
import FlowFacts.Proofs.Program.Points
import Mathlib.Data.List.Sort

/-! What changes make of a control flow graph, and what they leave when they are refused.

In a graph that changes have made the blocks are numbered without gaps, so a new block is
never refused, and the entry and the exit are blocks as soon as they are set
(`Built.blocks_numbered`).

A step is atomic when its failure leaves what it was given (`Atomic`). Every change of a graph
is atomic, and of a control flow graph every change but one: a new block takes its number
before its place is known to be free (`Change.atomic_iff`). In a graph read from elsewhere the
place may be taken, and then the number is used up (`newBlock_stale`). -/
namespace FlowFacts

/-! ### Graphs that changes have made -/

namespace ControlFlowGraph
variable {c : ControlFlowGraph}

theorem Built.apply (h : c.Built) (change : Change) : (change.apply c).Built := by
  obtain ⟨changes, rfl⟩ := h
  exact ⟨changes ++ [change], build_append ..⟩

/-- Blocks are numbered without gaps. -/
theorem WellFormed.keys (h : c.WellFormed) :
    c.graph.vertexMap.keys = List.range c.nextIndex := by
  refine c.graph.keys_sorted.eq_of_mem_iff List.pairwise_lt_range fun i => ?_
  rw [c.graph.mem_keys, List.mem_range, h.numbers]

/-- The entry block is there when the entry is set, and missing only when it is not. -/
theorem WellFormed.entryBlock_spec (h : c.WellFormed) :
    (∀ i, c.entry = some i → ∃ b, c.block i = .ok b ∧ c.entryBlock = .ok b) ∧
      ∀ e, c.entryBlock = .error e ↔ c.entry = none ∧ e = .entryNotFound := by
  rcases h.entryBlock_cases with ⟨hnone, hno⟩ | ⟨i, b, hi, hb, hok⟩
  · simp [hnone, hno, eq_comm]
  · simp [hi, hb, hok]

theorem WellFormed.exitBlock_spec (h : c.WellFormed) :
    (∀ i, c.exit = some i → ∃ b, c.block i = .ok b ∧ c.exitBlock = .ok b) ∧
      ∀ e, c.exitBlock = .error e ↔ c.exit = none ∧ e = .exitNotFound := by
  rcases h.exitBlock_cases with ⟨hnone, hno⟩ | ⟨i, b, hi, hb, hok⟩
  · simp [hnone, hno, eq_comm]
  · simp [hi, hb, hok]

/-- A new block is empty, has the next number, and leaves the other blocks as they were. -/
theorem newBlock_spec (fresh : c.graph.hasVertex c.nextIndex = false) :
    ∃ next, newBlock c = .ok c.nextIndex next ∧
      ∀ i, next.block i = if c.nextIndex = i then .ok (Block.empty i) else c.block i := by
  refine ⟨_, newBlock_ok fresh, fun i => ?_⟩
  simp only [block, Graph.vertex, Graph.addVertex, Std.ExtTreeMap.getElem?_insert, IsVertex.index,
    Nat.compare_eq_eq]
  by_cases h : c.nextIndex = i <;> simp [h, Block.empty]

/-- The blocks of a graph that changes have made are numbered without gaps, each lies under its
own number and has its instructions numbered by their positions. There is always room for a new
block. The entry and the exit are blocks when they are set. -/
theorem Built.blocks_numbered (built : c.Built) :
    c.graph.vertexMap.keys = List.range c.nextIndex ∧
      (∀ i b, c.block i = .ok b → b.index = i ∧ b.nextInstruction = b.instructions.length ∧
        ∀ (k : Nat) (instruction : Instruction),
          b.instructions[k]? = some instruction → instruction.index = k) ∧
      (∃ next, newBlock c = .ok c.nextIndex next ∧ c.graph.hasVertex c.nextIndex = false ∧
        (∀ i, next.block i = if c.nextIndex = i then .ok (Block.empty i) else c.block i) ∧
          next.Built) ∧
      (∀ i, c.entry = some i → ∃ b, c.block i = .ok b ∧ c.entryBlock = .ok b) ∧
      (∀ i, c.exit = some i → ∃ b, c.block i = .ok b ∧ c.exitBlock = .ok b) ∧
      (∀ e, c.entryBlock = .error e ↔ c.entry = none ∧ e = .entryNotFound) ∧
      (∀ e, c.exitBlock = .error e ↔ c.exit = none ∧ e = .exitNotFound) ∧
      c.graph.Consistent := by
  have h := built.wellFormed
  obtain ⟨hentry, hnoEntry⟩ := h.entryBlock_spec
  obtain ⟨hexit, hnoExit⟩ := h.exitBlock_spec
  refine ⟨h.keys, fun i b hb => ?_, ?_, hentry, hexit, hnoEntry, hnoExit, h.consistent⟩
  · obtain ⟨hindex, -, hnumbered⟩ := h.of_block hb
    exact ⟨hindex, hnumbered.next, hnumbered.position⟩
  · obtain ⟨next, hnext, hblocks⟩ := newBlock_spec h.fresh
    have hbuilt := built.apply .newBlock
    rw [Change.apply, after_ok hnext] at hbuilt
    exact ⟨next, hnext, h.fresh, hblocks, hbuilt⟩

/-- Two blocks and the edge between them, made among changes that are refused. -/
def insisted : ControlFlowGraph :=
  build [.addEdge 0 0, .setEntry 0, .newBlock, .push 0 .nop, .push 3 .nop, .newBlock,
    .addEdge 0 1, .addEdge 0 1, .push 0 (.ret none), .setEntry 7, .setEntry 0, .setExit 2]

theorem blocks_numbered_insisted : insisted.Built ∧ insisted.entry = some 0 ∧ insisted.exit = none ∧
    insisted.graph.vertexMap.keys = [0, 1] ∧ (∃ next, newBlock insisted = .ok 2 next) ∧
      (∃ b, insisted.entryBlock = .ok b) ∧ insisted.exitBlock = .error .exitNotFound ∧
        insisted.graph.Consistent := by
  have hbuilt : insisted.Built := ⟨_, rfl⟩
  have hnext : insisted.nextIndex = 2 := by decide +kernel
  have hentry : insisted.entry = some 0 := by decide +kernel
  have hexit : insisted.exit = none := by decide +kernel
  obtain ⟨hkeys, -, ⟨next, hnew, -⟩, hblock, -, -, hnoExit, hconsistent⟩ := hbuilt.blocks_numbered
  obtain ⟨b, -, hb⟩ := hblock 0 hentry
  rw [hnext] at hkeys hnew
  exact ⟨hbuilt, hentry, hexit, hkeys, ⟨next, hnew⟩, ⟨b, hb⟩, (hnoExit _).2 ⟨hexit, rfl⟩,
    hconsistent⟩

end ControlFlowGraph

/-! ### Changes that are refused -/

/-- When the step fails, it leaves what it was given. -/
def Atomic {σ α : Type} (step : EStateM Error σ α) (s : σ) : Prop :=
  ∀ e t, step s = .error e t → t = s

section Atomic
variable {σ α : Type} {step : EStateM Error σ α} {s t : σ}

theorem atomic_of_ok {a : α} (h : step s = .ok a t) : Atomic step s := by
  intro e u hfails
  rw [h] at hfails
  cases hfails

theorem atomic_of_error {e : Error} (h : step s = .error e s) : Atomic step s := by
  intro e' u hfails
  rw [h] at hfails
  cases hfails
  rfl

theorem discard_ok {a : α} (h : step s = .ok a t) : discard step s = .ok () t := by
  show EStateM.map _ step s = _
  simp only [EStateM.map, h]

theorem discard_error {e : Error} (h : step s = .error e t) : discard step s = .error e t := by
  show EStateM.map _ step s = _
  simp only [EStateM.map, h]

end Atomic

namespace Graph
variable {ν ε : Type} [IsVertex ν] [IsEdge ε]

theorem Change.atomic (change : Change ν ε) (g : Graph ν ε) : Atomic change.step g := by
  cases change with
  | insertVertex v =>
    rcases insertVertex_cases g v with ⟨-, h⟩ | ⟨-, e, h⟩
    · exact atomic_of_ok h
    · exact atomic_of_error h
  | insertEdge e =>
    rcases insertEdge_cases g e with ⟨-, -, -, h⟩ | ⟨error, h⟩
    · exact atomic_of_ok h
    · exact atomic_of_error h
  | updateVertex i f =>
    rcases updateVertex_cases g i f with h | ⟨-, error, h⟩
    · exact atomic_of_ok h
    · exact atomic_of_error h

end Graph

namespace ControlFlowGraph

/-- The step a change takes, whatever it answers. -/
def Change.step : Change → EStateM Error ControlFlowGraph Unit
  | .newBlock => discard ControlFlowGraph.newBlock
  | .push block operation => discard (ControlFlowGraph.push block operation)
  | .addEdge head tail => ControlFlowGraph.addEdge head tail
  | .setEntry block => ControlFlowGraph.setEntry block
  | .setExit block => ControlFlowGraph.setExit block

variable {c : ControlFlowGraph}

/-- Without room for the block, its number is used up. -/
theorem newBlock_error (taken : c.graph.hasVertex c.nextIndex) : newBlock c =
    .error (.custom "duplicate vertex index") { c with nextIndex := c.nextIndex + 1 } := by
  refine (bind_ok rfl).trans ((bind_ok rfl).trans (bind_error ?_))
  simp only [onGraph, EStateM.run, Graph.insertVertex, IsVertex.index, Block.empty, taken, if_true]

theorem atomic_newBlock_iff :
    Atomic Change.newBlock.step c ↔ c.graph.hasVertex c.nextIndex = false := by
  cases h : c.graph.hasVertex c.nextIndex with
  | false => exact iff_of_true (atomic_of_ok (discard_ok (newBlock_ok h))) rfl
  | true =>
    refine iff_of_false (fun hatomic => ?_) (by decide)
    have hsame := hatomic _ _ (discard_error (newBlock_error h))
    exact Nat.succ_ne_self _ (congrArg nextIndex hsame)

theorem Change.atomic {change : Change} (other : change ≠ .newBlock) : Atomic change.step c := by
  cases change with
  | newBlock => exact absurd rfl other
  | push block operation =>
    rcases push_cases c block operation with ⟨i, h⟩ | ⟨-, e, h⟩
    · exact atomic_of_ok (discard_ok h)
    · exact atomic_of_error (discard_error h)
  | addEdge head tail =>
    rcases addEdge_cases c head tail with ⟨-, -, h⟩ | ⟨e, h⟩
    · exact atomic_of_ok h
    · exact atomic_of_error h
  | setEntry block =>
    rcases setEntry_cases c block with ⟨-, h⟩ | ⟨e, h⟩
    · exact atomic_of_ok h
    · exact atomic_of_error h
  | setExit block =>
    rcases setExit_cases c block with ⟨-, h⟩ | ⟨e, h⟩
    · exact atomic_of_ok h
    · exact atomic_of_error h

theorem Change.atomic_iff (c : ControlFlowGraph) (change : Change) : Atomic change.step c ↔
    (change = .newBlock → c.graph.hasVertex c.nextIndex = false) := by
  by_cases h : change = .newBlock
  · subst h
    simpa using atomic_newBlock_iff
  · exact iff_of_true (Change.atomic h) fun heq => absurd heq h

/-- A change of a graph that fails leaves the graph as it was. A change of a control flow graph
does so unless it is a new block whose place is taken, and that leaves all but the next number
as it was. -/
theorem Change.refused {ν ε : Type} [IsVertex ν] [IsEdge ε] (g : Graph ν ε)
    (inner : Graph.Change ν ε) (c : ControlFlowGraph) (change : Change) :
    Atomic inner.step g ∧
      (Atomic change.step c ↔
        (change = .newBlock → c.graph.hasVertex c.nextIndex = false)) ∧
      ∀ e t, change.step c = .error e t → t = c ∨ change = .newBlock ∧
        c.graph.hasVertex c.nextIndex ∧ t = { c with nextIndex := c.nextIndex + 1 } := by
  refine ⟨inner.atomic g, change.atomic_iff c, fun e t h => ?_⟩
  by_cases hroom : change = .newBlock → c.graph.hasVertex c.nextIndex = false
  · exact .inl ((change.atomic_iff c).2 hroom e t h)
  · obtain ⟨rfl, htaken⟩ := Classical.not_imp.1 hroom
    have htaken : c.graph.hasVertex c.nextIndex := by simpa using htaken
    have hfails : Change.newBlock.step c = _ := discard_error (newBlock_error htaken)
    rw [hfails] at h
    cases h
    exact .inr ⟨rfl, htaken, rfl⟩

/-- A block under the number that the next one would get. -/
def staleForm : Json :=
  .object [("graph", .object [("vertices", .object [("0", (Block.empty 0).toJson)]),
      ("edges", .object []), ("successors", .object [("0", .array [])]),
      ("predecessors", .object [("0", .array [])])]),
    ("next_index", Json.nat 0), ("entry", .null), ("exit", .null)]

def stale : ControlFlowGraph := { build [.newBlock] with nextIndex := 0 }

/-- A graph that can be read, in which a new block is refused and leaves something else. -/
theorem newBlock_stale : Json.decode staleForm = some stale ∧
    newBlock stale = .error (.custom "duplicate vertex index") { stale with nextIndex := 1 } ∧
      { stale with nextIndex := 1 } ≠ stale ∧ ¬ Atomic Change.newBlock.step stale := by
  have hread : Json.decode staleForm = some stale := by decide +kernel
  have htaken : stale.graph.hasVertex stale.nextIndex := by decide +kernel
  have hfails := newBlock_error htaken
  have hother : { stale with nextIndex := 1 } ≠ stale := by decide +kernel
  exact ⟨hread, hfails, hother, fun h => hother (h _ _ (discard_error hfails))⟩

end ControlFlowGraph

end FlowFacts
