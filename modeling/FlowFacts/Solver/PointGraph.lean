import FlowFacts.Graph.Plain
import FlowFacts.Program.ControlFlowGraph

/-! Control flow between points.

The points of a program are numbered in their order. One point leads to the next
of its block, and the last point of a block to the first of every block that an
edge joins to it. -/
namespace FlowFacts

structure PointGraph where
  /-- Every point with what it names; the position is the point's number. -/
  nodes : Array (Point × Location)
  /-- The number of each point. -/
  numbers : Std.ExtTreeMap Point Nat
  graph : PlainGraph

namespace PointGraph

/-- The number of a point, the last should it occur twice. -/
def numberIn (numbers : Std.ExtTreeMap Point Nat) (p : Point) : Except Error Nat :=
  match numbers[p]? with
  | some n => .ok n
  | none => .error (.pointNotFound p)

/-- Join two points. -/
def join (numbers : Std.ExtTreeMap Point Nat) (p q : Point) : EStateM Error PlainGraph Unit := do
  let head ← MonadExcept.ofExcept (numberIn numbers p)
  let tail ← MonadExcept.ofExcept (numberIn numbers q)
  Graph.insertEdge (PlainEdge.mk head tail)

/-- Join the points of a block, each to the next. -/
def joinBlock (numbers : Std.ExtTreeMap Point Nat) (b : Block) : EStateM Error PlainGraph Unit :=
  (b.points.zip b.points.tail).forM fun pair => join numbers pair.1 pair.2

/-- Join the blocks at the ends of an edge. -/
def joinEdge (c : ControlFlowGraph) (numbers : Std.ExtTreeMap Point Nat) (e : Edge) :
    EStateM Error PlainGraph Unit := do
  let head ← MonadExcept.ofExcept (c.block e.head)
  let tail ← MonadExcept.ofExcept (c.block e.tail)
  join numbers head.lastPoint tail.firstPoint

/-- The numbers as vertices, then the joins within blocks, then those between them. -/
def buildGraph (c : ControlFlowGraph) (count : Nat) (numbers : Std.ExtTreeMap Point Nat) :
    EStateM Error PlainGraph Unit := do
  (List.range count).forM fun i => Graph.insertVertex (PlainVertex.mk i)
  c.blocks.forM (joinBlock numbers)
  c.edges.forM (joinEdge c numbers)

def build (c : ControlFlowGraph) : Except Error PointGraph := do
  let nodes ← c.points.mapM fun p => do return (p, ← c.locate p)
  let numbers := .ofList c.points.zipIdx
  match (buildGraph c nodes.length numbers).run Graph.empty with
  | .ok _ graph => return { nodes := nodes.toArray, numbers, graph }
  | .error e _ => throw e

def number (g : PointGraph) (p : Point) : Except Error Nat := numberIn g.numbers p

end PointGraph

end FlowFacts
