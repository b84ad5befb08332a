import FlowFacts.Graph.Basic
import FlowFacts.Program.Operation

/-! Blocks: instructions that run one after another, and the edges between blocks. -/
namespace FlowFacts

structure Block where
  index : Nat
  /-- The number the next instruction gets. -/
  nextInstruction : Nat
  instructions : List Instruction
deriving DecidableEq

namespace Block

/-- A block without instructions. -/
def empty (index : Nat) : Block := ⟨index, 0, []⟩

def isEmpty (b : Block) : Bool := b.instructions.isEmpty

/-- The instruction an operation becomes at the end of the block. -/
def nextFor (b : Block) (operation : Operation) : Instruction := ⟨operation, b.nextInstruction⟩

/-- Add an operation at the end. The number counts up without an end, where a number of a fixed
width overflows at its last value; only a block that was read with that value tells them
apart. -/
def push (b : Block) (operation : Operation) : Block :=
  { b with
    nextInstruction := b.nextInstruction + 1
    instructions := b.instructions ++ [b.nextFor operation] }

/-- The first instruction with this number. -/
def instruction? (b : Block) (index : Nat) : Option Instruction :=
  b.instructions.find? fun i => i.index == index

/-! ### Points -/

def pointOf (b : Block) (i : Instruction) : Point := .instruction b.index i.index

/-- Where the block begins. -/
def firstPoint (b : Block) : Point :=
  match b.instructions.head? with
  | some i => b.pointOf i
  | none => .emptyBlock b.index

/-- Where the block ends. -/
def lastPoint (b : Block) : Point :=
  match b.instructions.getLast? with
  | some i => b.pointOf i
  | none => .emptyBlock b.index

/-- The points of the block in the order they run; an empty block has one. -/
def points (b : Block) : List Point :=
  if b.isEmpty then [.emptyBlock b.index] else b.instructions.map b.pointOf

/-! ### Text -/

/-- A heading, and a line for each instruction. -/
def display (b : Block) : String :=
  "[ Block: " ++ Text.hexNumberCapital b.index ++ " ]\n" ++
    String.join (b.instructions.map fun i => i.display ++ "\n")

end Block

instance : IsVertex Block where
  index b := b.index
  label b := b.display

/-- Control may pass from the end of one block to the start of another. -/
structure Edge where
  head : Nat
  tail : Nat
deriving DecidableEq, Ord

namespace Edge

def display (e : Edge) : String :=
  "(" ++ Text.hexNumberCapital e.head ++ "->" ++ Text.hexNumberCapital e.tail ++ ")"

end Edge

instance : IsEdge Edge where
  head e := e.head
  tail e := e.tail
  label _ := ""

end FlowFacts
