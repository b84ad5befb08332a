import FlowFacts.Graph.Dot
import FlowFacts.Program.Block

/-! Control flow graphs: blocks and the edges between them, an entry where control
comes in and an exit where it leaves, and what a point names in them.

Blocks are numbered as they are made. A graph that was read from elsewhere may
break that; then the number counts up even when a block cannot be made. -/
namespace FlowFacts

structure ControlFlowGraph where
  graph : Graph Block Edge
  /-- The number the next block gets. -/
  nextIndex : Nat
  entry : Option Nat
  exit : Option Nat
deriving DecidableEq

/-- A point in its program: the block, and the instruction unless the block is empty. -/
structure Location where
  block : Block
  instruction : Option Instruction
deriving DecidableEq

namespace Location

def point (l : Location) : Point :=
  match l.instruction with
  | some i => .instruction l.block.index i.index
  | none => .emptyBlock l.block.index

def operation? (l : Location) : Option Operation := l.instruction.map (·.operation)

def display (l : Location) : String :=
  Text.hexNumberCapital l.block.index ++ ":" ++
    match l.instruction with
    | some i => i.display
    | none => "empty"

end Location

namespace ControlFlowGraph

/-- No blocks. -/
def empty : ControlFlowGraph := ⟨Graph.empty, 0, none, none⟩

instance : Inhabited ControlFlowGraph := ⟨empty⟩

/-! ### Changes -/

/-- Do to the blocks and edges what `step` does. -/
def onGraph {α : Type} (step : EStateM Error (Graph Block Edge) α) :
    EStateM Error ControlFlowGraph α := fun c =>
  match step.run c.graph with
  | .ok a g => .ok a { c with graph := g }
  | .error e g => .error e { c with graph := g }

/-- Make an empty block, and answer with its number. The next number counts up without an end,
where a number of a fixed width overflows at its last value; only a graph that was read with
that value tells them apart. -/
def newBlock : EStateM Error ControlFlowGraph Nat := do
  let index := (← get).nextIndex
  modify fun c => { c with nextIndex := c.nextIndex + 1 }
  onGraph (Graph.insertVertex (Block.empty index))
  return index

/-- Add an operation at the end of a block, and answer with the instruction. -/
def push (index : Nat) (operation : Operation) : EStateM Error ControlFlowGraph Instruction := do
  let block ← MonadExcept.ofExcept ((← get).graph.vertex index)
  onGraph (Graph.updateVertex index fun b => b.push operation)
  return block.nextFor operation

/-- Make a block with operations, and answer with its number. -/
def addBlock (operations : List Operation) : EStateM Error ControlFlowGraph Nat := do
  let index ← newBlock
  operations.forM fun operation => discard (push index operation)
  return index

/-- Let control pass from one block to another. -/
def addEdge (head tail : Nat) : EStateM Error ControlFlowGraph Unit :=
  onGraph (Graph.insertEdge (Edge.mk head tail))

def setEntry (index : Nat) : EStateM Error ControlFlowGraph Unit := fun c =>
  if c.graph.hasVertex index then .ok () { c with entry := some index }
  else .error (.vertexNotFound index) c

def setExit (index : Nat) : EStateM Error ControlFlowGraph Unit := fun c =>
  if c.graph.hasVertex index then .ok () { c with exit := some index }
  else .error (.vertexNotFound index) c

/-! ### Queries -/

def block (c : ControlFlowGraph) (index : Nat) : Except Error Block := c.graph.vertex index

def blocks (c : ControlFlowGraph) : List Block := c.graph.vertices

def edges (c : ControlFlowGraph) : List Edge := c.graph.edges

def entryBlock (c : ControlFlowGraph) : Except Error Block :=
  match c.entry with
  | some index => c.block index
  | none => .error .entryNotFound

def exitBlock (c : ControlFlowGraph) : Except Error Block :=
  match c.exit with
  | some index => c.block index
  | none => .error .exitNotFound

/-! ### Points -/

/-- Every point, by block and then by position. -/
def points (c : ControlFlowGraph) : List Point := c.blocks.flatMap Block.points

/-- What a point names: the block under its number, and there the first instruction
with its number. -/
def locate (c : ControlFlowGraph) (p : Point) : Except Error Location := do
  let b ← c.block p.block
  match p with
  | .instruction _ index =>
    match b.instruction? index with
    | some i => return ⟨b, some i⟩
    | none => throw (.pointNotFound p)
  | .emptyBlock _ => if b.isEmpty then return ⟨b, none⟩ else throw (.pointNotFound p)

/-! ### Text -/

def dot (c : ControlFlowGraph) : String := c.graph.dot

/-- The blocks with a blank line after each, then a line for each edge. -/
def display (c : ControlFlowGraph) : String :=
  String.join (c.blocks.map fun b => b.display ++ "\n") ++
    String.join (c.edges.map fun e => "edge " ++ e.display ++ "\n")

end ControlFlowGraph

end FlowFacts
