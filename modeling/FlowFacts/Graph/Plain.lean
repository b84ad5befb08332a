import FlowFacts.Graph.Basic

/-! Vertices and edges that carry numbers alone, and those that carry a label, and
the graph with every edge turned round. -/
namespace FlowFacts

/-! ### Numbers alone -/

structure PlainVertex where
  index : Nat
deriving DecidableEq, Ord

structure PlainEdge where
  head : Nat
  tail : Nat
deriving DecidableEq, Ord

instance : IsVertex PlainVertex where
  index v := v.index
  label v := v.index.repr

instance : IsEdge PlainEdge where
  head e := e.head
  tail e := e.tail
  label e := e.head.repr ++ " -> " ++ e.tail.repr

/-- A graph of numbers. -/
abbrev PlainGraph := Graph PlainVertex PlainEdge

/-! ### Labels -/

structure LabelledVertex where
  index : Nat
  label : String
deriving DecidableEq

structure LabelledEdge where
  head : Nat
  tail : Nat
  label : String
deriving DecidableEq

instance : IsVertex LabelledVertex where
  index v := v.index
  label v := v.label

instance : IsEdge LabelledEdge where
  head e := e.head
  tail e := e.tail
  label e := e.label

abbrev LabelledGraph := Graph LabelledVertex LabelledEdge

namespace Graph
variable {ν ε : Type}

/-! ### Turning round -/

/-- The vertices of `g` by number, then its edges with their ends exchanged. -/
def buildReversed (g : Graph ν ε) : EStateM Error PlainGraph Unit := do
  g.vertexMap.keys.forM fun i => insertVertex (PlainVertex.mk i)
  g.edgeMap.keys.forM fun e => insertEdge (PlainEdge.mk e.tail e.head)

/-- The same numbers with every edge turned round. -/
def reversed (g : Graph ν ε) : Except Error PlainGraph :=
  match g.buildReversed.run empty with
  | .ok _ r => .ok r
  | .error e _ => .error e

end Graph

end FlowFacts
