import FlowFacts.Error
import Std.Data.ExtTreeMap
import Std.Data.ExtTreeSet

/-! Directed graphs whose vertices have numbers and whose edges have two ends.

A graph keeps its vertices and edges in maps, and beside them the successors and
predecessors of each vertex. A graph built by the insertions below keeps the four
in step; one that was read from elsewhere need not, so every query says what it
does when they disagree.

A change is a step on the graph that succeeds or fails with an error and leaves a
graph either way. -/
namespace FlowFacts

/-- What a graph needs to know of a vertex. -/
class IsVertex (ν : Type) where
  index : ν → Nat
  label : ν → String

/-- What a graph needs to know of an edge. -/
class IsEdge (ε : Type) where
  head : ε → Nat
  tail : ε → Nat
  label : ε → String

/-- The two ends of an edge, in their order from the edge's start. -/
structure Ends where
  head : Nat
  tail : Nat
deriving DecidableEq

namespace Ends

instance : Ord Ends := ⟨compareLex (compareOn head) (compareOn tail)⟩

instance : Std.TransOrd Ends :=
  inferInstanceAs (Std.TransCmp (compareLex (compareOn head) (compareOn tail)))

instance : Std.LawfulEqOrd Ends where
  eq_of_compare {a b} h := by
    have h : (compare a.head b.head).then (compare a.tail b.tail) = .eq := h
    rw [Ordering.then_eq_eq, Nat.compare_eq_eq, Nat.compare_eq_eq] at h
    cases a
    cases b
    simpa using h

theorem compare_eq_lt {a b : Ends} :
    compare a b = .lt ↔ a.head < b.head ∨ a.head = b.head ∧ a.tail < b.tail := by
  show (compare a.head b.head).then (compare a.tail b.tail) = .lt ↔ _
  rw [Ordering.then_eq_lt, Nat.compare_eq_lt, Nat.compare_eq_eq, Nat.compare_eq_lt]

end Ends

/-- A set of indices. -/
abbrev Indices := Std.ExtTreeSet Nat

structure Graph (ν ε : Type) where
  vertexMap : Std.ExtTreeMap Nat ν
  edgeMap : Std.ExtTreeMap Ends ε
  successorMap : Std.ExtTreeMap Nat Indices
  predecessorMap : Std.ExtTreeMap Nat Indices
deriving DecidableEq

namespace Graph
variable {ν ε : Type}

/-- No vertices, no edges. -/
def empty : Graph ν ε := ⟨∅, ∅, ∅, ∅⟩

instance : Inhabited (Graph ν ε) := ⟨empty⟩

/-! ### Membership -/

def vertexCount (g : Graph ν ε) : Nat := g.vertexMap.size

def hasVertex (g : Graph ν ε) (index : Nat) : Bool := g.vertexMap.contains index

def hasEdge (g : Graph ν ε) (head tail : Nat) : Bool := g.edgeMap.contains ⟨head, tail⟩

/-! ### Changes -/

/-- A vertex comes without neighbours, and its number must be free. -/
def insertVertex [IsVertex ν] (v : ν) : EStateM Error (Graph ν ε) Unit := fun g =>
  if g.hasVertex (IsVertex.index v) then .error (.custom "duplicate vertex index") g
  else .ok () {
    vertexMap := g.vertexMap.insert (IsVertex.index v) v
    edgeMap := g.edgeMap
    successorMap := g.successorMap.insert (IsVertex.index v) ∅
    predecessorMap := g.predecessorMap.insert (IsVertex.index v) ∅ }

/-- Note that `index` has `neighbour`. -/
def addNeighbour (m : Std.ExtTreeMap Nat Indices) (index neighbour : Nat) :
    Std.ExtTreeMap Nat Indices :=
  m.alter index fun known => some ((known.getD ∅).insert neighbour)

/-- An edge joins two vertices, at most once in each direction. -/
def insertEdge [IsEdge ε] (e : ε) : EStateM Error (Graph ν ε) Unit := fun g =>
  if g.hasEdge (IsEdge.head e) (IsEdge.tail e) then .error (.custom "duplicate edge") g
  else if !g.hasVertex (IsEdge.head e) then .error (.vertexNotFound (IsEdge.head e)) g
  else if !g.hasVertex (IsEdge.tail e) then .error (.vertexNotFound (IsEdge.tail e)) g
  else .ok () {
    vertexMap := g.vertexMap
    edgeMap := g.edgeMap.insert ⟨IsEdge.head e, IsEdge.tail e⟩ e
    successorMap := addNeighbour g.successorMap (IsEdge.head e) (IsEdge.tail e)
    predecessorMap := addNeighbour g.predecessorMap (IsEdge.tail e) (IsEdge.head e) }

/-- Change the vertex stored under `index`, wherever `f` puts it in its own eyes. -/
def updateVertex (index : Nat) (f : ν → ν) : EStateM Error (Graph ν ε) Unit := fun g =>
  if g.hasVertex index then .ok () { g with vertexMap := g.vertexMap.modify index f }
  else .error (.vertexNotFound index) g

/-! ### Queries -/

/-- All vertices, by number. -/
def vertices (g : Graph ν ε) : List ν := g.vertexMap.values

/-- All edges, by their ends. -/
def edges (g : Graph ν ε) : List ε := g.edgeMap.values

def vertex (g : Graph ν ε) (index : Nat) : Except Error ν :=
  match g.vertexMap[index]? with
  | some v => .ok v
  | none => .error (.vertexNotFound index)

def edge (g : Graph ν ε) (head tail : Nat) : Except Error ε :=
  match g.edgeMap[Ends.mk head tail]? with
  | some e => .ok e
  | none => .error (.edgeNotFound head tail)

/-- The numbers of the vertices one edge ahead, in ascending order. -/
def successorIndices (g : Graph ν ε) (index : Nat) : Except Error (List Nat) :=
  match g.successorMap[index]? with
  | some s => .ok s.toList
  | none => .error (.vertexNotFound index)

/-- The numbers of the vertices one edge back, in ascending order. -/
def predecessorIndices (g : Graph ν ε) (index : Nat) : Except Error (List Nat) :=
  match g.predecessorMap[index]? with
  | some s => .ok s.toList
  | none => .error (.vertexNotFound index)

/-- The vertices one edge ahead, those the graph holds. -/
def successors (g : Graph ν ε) (index : Nat) : Except Error (List ν) :=
  (g.successorIndices index).map fun s => s.filterMap fun i => g.vertexMap[i]?

def predecessors (g : Graph ν ε) (index : Nat) : Except Error (List ν) :=
  (g.predecessorIndices index).map fun s => s.filterMap fun i => g.vertexMap[i]?

/-- The edges that start here, those the graph holds. -/
def edgesOut (g : Graph ν ε) (index : Nat) : Except Error (List ε) :=
  (g.successorIndices index).map fun s => s.filterMap fun i => g.edgeMap[Ends.mk index i]?

def edgesIn (g : Graph ν ε) (index : Nat) : Except Error (List ε) :=
  (g.predecessorIndices index).map fun s => s.filterMap fun i => g.edgeMap[Ends.mk i index]?

end Graph

end FlowFacts
