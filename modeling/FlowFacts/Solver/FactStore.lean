import FlowFacts.Json.Printer
import FlowFacts.Program.Form
import FlowFacts.Solver.Options

/-! The facts an analysis ends with: for every point of the program the fact before
it, the fact after it, and how often it was visited. A point that was never visited
has the top on both sides. -/
namespace FlowFacts

/-- What is known of one point. -/
structure PointFacts (α : Type) where
  point : Point
  before : α
  after : α
  visits : Nat
deriving DecidableEq

structure FactStore (α : Type) where
  direction : Direction
  /-- By block and then by position. -/
  facts : List (PointFacts α)
deriving DecidableEq

namespace FactStore
variable {α : Type}

def points (s : FactStore α) : List Point := s.facts.map (·.point)

def size (s : FactStore α) : Nat := s.facts.length

def isEmpty (s : FactStore α) : Bool := s.facts.isEmpty

def totalVisits (s : FactStore α) : Nat := (s.facts.map (·.visits)).foldr (· + ·) 0

/-! ### One point -/

/-- What is known of a point; the last entry counts should it occur twice. -/
def lookup (s : FactStore α) (p : Point) : Except Error (PointFacts α) :=
  match s.facts.reverse.find? fun f => f.point = p with
  | some f => .ok f
  | none => .error (.pointNotFound p)

def before (s : FactStore α) (p : Point) : Except Error α := (s.lookup p).map (·.before)

def after (s : FactStore α) (p : Point) : Except Error α := (s.lookup p).map (·.after)

def visits (s : FactStore α) (p : Point) : Except Error Nat := (s.lookup p).map (·.visits)

/-- The analysis came to the point. -/
def isReachable (s : FactStore α) (p : Point) : Except Error Bool :=
  (s.visits p).map fun n => decide (0 < n)

/-! ### JSON text -/

instance [Json.Encode α] : Json.Encode (PointFacts α) where
  encode f := do
    let before ← Json.encode f.before
    let after ← Json.encode f.after
    return .object [("point", f.point.toJson), ("before", before), ("after", after),
      ("visits", Json.nat f.visits)]

instance [Json.Encode α] : Json.Encode (FactStore α) where
  encode s := do
    let facts ← Json.encode s.facts
    return .object [("direction", s.direction.toJson), ("facts", facts)]

/-- The whole store over lines, if its facts can be written. -/
def dump [Json.Encode α] (s : FactStore α) : Except Error String :=
  match Json.encode s with
  | .ok j => .ok j.pretty
  | .error cause => .error (.json cause)

end FactStore

end FlowFacts
