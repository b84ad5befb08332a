import FlowFacts.Program.ControlFlowGraph
import FlowFacts.Proofs.Graph.Consistent
import FlowFacts.Proofs.Sequence
import Mathlib.Data.List.Induction

/-! Control flow graphs that changes have made.

A graph is built when some changes, one after another, have made it from the graph
without blocks (`Built`); a change that is refused counts too. Every built graph is
well formed: its maps agree, its blocks have the numbers below the next one, the
instructions of a block are numbered by their positions, and the entry and the exit
are blocks (`Built.wellFormed`). -/
namespace FlowFacts

/-- The instructions of a block carry their positions as numbers. -/
structure Block.Numbered (b : Block) : Prop where
  next : b.nextInstruction = b.instructions.length
  position : ∀ (k : Nat) (i : Instruction), b.instructions[k]? = some i → i.index = k

theorem Block.Numbered.push {b : Block} (h : b.Numbered) (operation : Operation) :
    (b.push operation).Numbered where
  next := by simp [Block.push, h.next]
  position k i hk := by
    simp only [Block.push, List.getElem?_append] at hk
    split at hk
    · exact h.position k i hk
    · obtain ⟨hlt, hi⟩ := List.getElem?_eq_some_iff.1 hk
      simp only [List.length_singleton] at hlt
      have : k = b.instructions.length := by omega
      subst this
      simp only [Nat.sub_self, List.getElem_cons_zero] at hi
      rw [← hi, Block.nextFor, h.next]

namespace ControlFlowGraph

/-! ### Changes -/

inductive Change where
  | newBlock
  | push (block : Nat) (operation : Operation)
  | addEdge (head tail : Nat)
  | setEntry (block : Nat)
  | setExit (block : Nat)
deriving DecidableEq

/-- What a step leaves, whether it succeeds or fails. -/
def after {α : Type} (step : EStateM Error ControlFlowGraph α) (c : ControlFlowGraph) :
    ControlFlowGraph :=
  match step c with
  | .ok _ next => next
  | .error _ next => next

theorem after_ok {α : Type} {step : EStateM Error ControlFlowGraph α} {c next : ControlFlowGraph}
    {a : α} (h : step c = .ok a next) : after step c = next := by
  rw [after, h]

theorem after_error {α : Type} {step : EStateM Error ControlFlowGraph α} {c next : ControlFlowGraph}
    {e : Error} (h : step c = .error e next) : after step c = next := by
  rw [after, h]

def Change.apply (c : ControlFlowGraph) : Change → ControlFlowGraph
  | .newBlock => after ControlFlowGraph.newBlock c
  | .push block operation => after (ControlFlowGraph.push block operation) c
  | .addEdge head tail => after (ControlFlowGraph.addEdge head tail) c
  | .setEntry block => after (ControlFlowGraph.setEntry block) c
  | .setExit block => after (ControlFlowGraph.setExit block) c

/-- The graph that some changes make, one after another. -/
def build (changes : List Change) : ControlFlowGraph := changes.foldl Change.apply empty

def Built (c : ControlFlowGraph) : Prop := ∃ changes, build changes = c

/-! ### What every built graph is -/

structure WellFormed (c : ControlFlowGraph) : Prop where
  consistent : c.graph.Consistent
  numbers : ∀ i, c.graph.hasVertex i ↔ i < c.nextIndex
  numbered : ∀ (i : Nat) (b : Block), c.graph.vertexMap[i]? = some b → b.Numbered
  entry : ∀ i, c.entry = some i → c.graph.hasVertex i
  exit : ∀ i, c.exit = some i → c.graph.hasVertex i

theorem wellFormed_empty : empty.WellFormed where
  consistent := Graph.consistent_empty
  numbers i := by simp [empty]
  numbered i b hb := by simp [empty, Graph.empty] at hb
  entry i hi := by simp [empty] at hi
  exit i hi := by simp [empty] at hi

/-! ### One change -/

theorem newBlock_ok {c : ControlFlowGraph} (fresh : c.graph.hasVertex c.nextIndex = false) :
    newBlock c = .ok c.nextIndex { c with
      graph := c.graph.addVertex (Block.empty c.nextIndex)
      nextIndex := c.nextIndex + 1 } := by
  rcases Graph.insertVertex_cases c.graph (Block.empty c.nextIndex) with ⟨_, h⟩ | ⟨h, _⟩
  · refine (bind_ok rfl).trans ((bind_ok rfl).trans (bind_ok (a := ()) ?_))
    simp only [onGraph, EStateM.run, h]
  · exact absurd h (by simpa [IsVertex.index, Block.empty] using fresh)

theorem push_cases (c : ControlFlowGraph) (block : Nat) (operation : Operation) :
    (∃ i, push block operation c =
        .ok i { c with graph := c.graph.modifyVertex block fun b => b.push operation }) ∨
      c.graph.hasVertex block = false ∧ ∃ error, push block operation c = .error error c := by
  cases hblock : c.graph.vertex block with
  | error e =>
    refine .inr ⟨?_, e, (bind_ok rfl).trans (bind_error ?_)⟩
    · unfold Graph.vertex at hblock
      rw [Bool.eq_false_iff, Ne, Graph.hasVertex_iff]
      grind
    · rw [hblock]
      rfl
  | ok b =>
    have hread : (MonadExcept.ofExcept (c.graph.vertex block) :
        EStateM Error ControlFlowGraph Block) c = .ok b c := by
      rw [hblock]
      rfl
    rcases Graph.updateVertex_cases c.graph block fun b => b.push operation with h | ⟨hno, e, h⟩
    · refine .inl ⟨b.nextFor operation,
        (bind_ok rfl).trans ((bind_ok hread).trans (bind_ok (a := ()) ?_))⟩
      simp only [onGraph, EStateM.run, h]
    · refine .inr ⟨hno, e, (bind_ok rfl).trans ((bind_ok hread).trans (bind_error ?_))⟩
      simp only [onGraph, EStateM.run, h]

theorem addEdge_cases (c : ControlFlowGraph) (head tail : Nat) :
    (c.graph.hasVertex head ∧ c.graph.hasVertex tail ∧
        addEdge head tail c = .ok () { c with graph := c.graph.addEdge ⟨head, tail⟩ }) ∨
      ∃ error, addEdge head tail c = .error error c := by
  rcases Graph.insertEdge_cases c.graph (Edge.mk head tail) with ⟨_, hh, ht, h⟩ | ⟨e, h⟩
  · exact .inl ⟨hh, ht, by simp [addEdge, onGraph, EStateM.run, h]⟩
  · exact .inr ⟨e, by simp [addEdge, onGraph, EStateM.run, h]⟩

theorem setEntry_cases (c : ControlFlowGraph) (block : Nat) :
    (c.graph.hasVertex block ∧ setEntry block c = .ok () { c with entry := some block }) ∨
      ∃ error, setEntry block c = .error error c := by
  cases hv : c.graph.hasVertex block
  · exact .inr ⟨.vertexNotFound block, by simp [setEntry, hv]⟩
  · exact .inl ⟨rfl, by simp [setEntry, hv]⟩

theorem setExit_cases (c : ControlFlowGraph) (block : Nat) :
    (c.graph.hasVertex block ∧ setExit block c = .ok () { c with exit := some block }) ∨
      ∃ error, setExit block c = .error error c := by
  cases hv : c.graph.hasVertex block
  · exact .inr ⟨.vertexNotFound block, by simp [setExit, hv]⟩
  · exact .inl ⟨rfl, by simp [setExit, hv]⟩

namespace WellFormed
variable {c : ControlFlowGraph}

theorem fresh (h : c.WellFormed) : c.graph.hasVertex c.nextIndex = false := by
  rw [Bool.eq_false_iff]
  exact fun hv => Nat.lt_irrefl _ ((h.numbers _).1 hv)

theorem newBlock (h : c.WellFormed) : (after ControlFlowGraph.newBlock c).WellFormed := by
  rw [after_ok (newBlock_ok h.fresh)]
  constructor
  case consistent => exact h.consistent.addVertex h.fresh
  case numbers =>
    intro i
    simp only [Graph.hasVertex_addVertex, IsVertex.index, Block.empty, h.numbers]
    omega
  case numbered =>
    intro i b hb
    simp only [Graph.addVertex, Std.ExtTreeMap.getElem?_insert] at hb
    split at hb
    · cases hb
      exact ⟨rfl, by simp [Block.empty]⟩
    · exact h.numbered i b hb
  case entry => exact fun i hi => (Graph.hasVertex_addVertex ..).2 (.inr (h.entry i hi))
  case exit => exact fun i hi => (Graph.hasVertex_addVertex ..).2 (.inr (h.exit i hi))

theorem push (h : c.WellFormed) (block : Nat) (operation : Operation) :
    (after (ControlFlowGraph.push block operation) c).WellFormed := by
  rcases push_cases c block operation with ⟨i, hok⟩ | ⟨-, e, hno⟩
  · rw [after_ok hok]
    constructor
    case consistent =>
      exact h.consistent.modifyVertex fun _ _ => rfl
    case numbers => simpa using h.numbers
    case numbered =>
      intro j b hb
      simp only [Graph.modifyVertex, Std.ExtTreeMap.getElem?_modify] at hb
      split at hb
      · obtain ⟨old, hold, rfl⟩ := Option.map_eq_some_iff.1 hb
        exact (h.numbered _ old hold).push operation
      · exact h.numbered j b hb
    case entry => simpa using h.entry
    case exit => simpa using h.exit
  · rw [after_error hno]
    exact h

theorem addEdge (h : c.WellFormed) (head tail : Nat) :
    (after (ControlFlowGraph.addEdge head tail) c).WellFormed := by
  rcases addEdge_cases c head tail with ⟨hh, ht, hok⟩ | ⟨e, hno⟩
  · rw [after_ok hok]
    exact ⟨h.consistent.addEdge hh ht, h.numbers, h.numbered, h.entry, h.exit⟩
  · rw [after_error hno]
    exact h

theorem setEntry (h : c.WellFormed) (block : Nat) :
    (after (ControlFlowGraph.setEntry block) c).WellFormed := by
  rcases setEntry_cases c block with ⟨hv, hok⟩ | ⟨e, hno⟩
  · rw [after_ok hok]
    exact { h with entry := fun i hi => Option.some.inj hi ▸ hv }
  · rw [after_error hno]
    exact h

theorem setExit (h : c.WellFormed) (block : Nat) :
    (after (ControlFlowGraph.setExit block) c).WellFormed := by
  rcases setExit_cases c block with ⟨hv, hok⟩ | ⟨e, hno⟩
  · rw [after_ok hok]
    exact { h with exit := fun i hi => Option.some.inj hi ▸ hv }
  · rw [after_error hno]
    exact h

theorem apply (h : c.WellFormed) (change : Change) : (change.apply c).WellFormed := by
  cases change with
  | newBlock => exact h.newBlock
  | push block operation => exact h.push block operation
  | addEdge head tail => exact h.addEdge head tail
  | setEntry block => exact h.setEntry block
  | setExit block => exact h.setExit block

end WellFormed

theorem Built.wellFormed {c : ControlFlowGraph} (h : c.Built) : c.WellFormed := by
  obtain ⟨changes, rfl⟩ := h
  suffices ∀ start, WellFormed start → (changes.foldl Change.apply start).WellFormed from
    this empty wellFormed_empty
  induction changes with
  | nil => exact fun _ h => h
  | cons change changes ih => exact fun start h => ih (change.apply start) (h.apply change)

/-! ### Several operations, one after another -/

/-- A push to a block that there is changes that block alone. -/
theorem apply_push {c : ControlFlowGraph} {i : Nat} (hi : c.graph.hasVertex i)
    (operation : Operation) : Change.apply c (.push i operation) =
      { c with graph := c.graph.modifyVertex i fun b => b.push operation } := by
  rcases push_cases c i operation with ⟨_, hok⟩ | ⟨hno, _⟩
  · exact after_ok hok
  · simp [hi] at hno

theorem build_append (changes more : List Change) :
    build (changes ++ more) = more.foldl Change.apply (build changes) := List.foldl_append

/-- One program is another with more operations in a block. -/
structure Extends (c : ControlFlowGraph) (i : Nat) (operations : List Operation)
    (more : ControlFlowGraph) : Prop where
  blocks : ∀ j, more.graph.vertexMap[j]? =
    c.graph.vertexMap[j]?.map fun b => if i = j then operations.foldl Block.push b else b
  edges : ∀ j k, more.graph.hasEdge j k = c.graph.hasEdge j k
  nextIndex : more.nextIndex = c.nextIndex
  entry : more.entry = c.entry

theorem extends_push {c : ControlFlowGraph} {i : Nat} (hi : c.graph.hasVertex i)
    (operations : List Operation) :
    Extends c i operations ((operations.map (Change.push i)).foldl Change.apply c) := by
  induction operations generalizing c with
  | nil => exact ⟨fun j => by simp, fun _ _ => rfl, rfl, rfl⟩
  | cons operation operations ih =>
    rw [List.map_cons, List.foldl_cons, apply_push hi]
    have hrest := ih (c := { c with graph := c.graph.modifyVertex i fun b => b.push operation })
      (by simpa using hi)
    refine ⟨fun j => ?_, hrest.edges, hrest.nextIndex, hrest.entry⟩
    rw [hrest.blocks]
    simp only [Graph.modifyVertex, Std.ExtTreeMap.getElem?_modify, Nat.compare_eq_eq]
    split
    · rename_i heq
      subst heq
      rw [Option.map_map]
      rfl
    · rfl

end ControlFlowGraph

/-- The operations of a block are numbered in their order. -/
theorem Block.foldl_push_empty (i : Nat) (operations : List Operation) :
    operations.foldl Block.push (Block.empty i) = ⟨i, operations.length,
      operations.mapIdx fun k operation => ⟨operation, k⟩⟩ := by
  induction operations using List.reverseRecOn with
  | nil => rfl
  | append_singleton operations operation ih =>
    rw [List.foldl_append, ih]
    simp [Block.push, Block.nextFor]

end FlowFacts
