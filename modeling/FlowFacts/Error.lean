import FlowFacts.Json.Basic
import FlowFacts.Program.Point

/-! What can go wrong with a graph, a program or an analysis, and the words for it. A
computation ends without an answer for an error that it reports to its caller, or for an
abort, which is a defect no caller is meant to handle (`Stop`). -/
namespace FlowFacts

inductive Error where
  | cancelled
  | entryNotFound
  | exitNotFound
  /-- An error of a caller's own. -/
  | custom (text : String)
  | edgeNotFound (head tail : Nat)
  | vertexNotFound (index : Nat)
  | budgetExceeded (point : Point) (budget : Nat)
  | json (cause : Json.WriteError)
  /-- An error met while one method was analyzed. -/
  | method (name : String) (source : Error)
  | nonMonotone (point : Point)
  | pointNotFound (point : Point)
deriving DecidableEq

namespace Error

def message : Error → String
  | .cancelled => "Analysis cancelled"
  | .entryNotFound => "Control flow graph has no entry block"
  | .exitNotFound => "Control flow graph has no exit block"
  | .custom text => text
  | .edgeNotFound head tail =>
    "Graph edge not found: (" ++ Text.hexNumber head ++ ", " ++ Text.hexNumber tail ++ ")"
  | .vertexNotFound index => "Graph vertex not found: " ++ Text.hexNumber index
  | .budgetExceeded point budget =>
    "Iteration budget of " ++ budget.repr ++ " visits exceeded at " ++ point.display
  | .json cause => "Json error: " ++ cause.message
  | .method name source => "Analysis of method " ++ name ++ " failed: " ++ source.message
  | .nonMonotone point => "Transfer function is not monotone at " ++ point.display
  | .pointNotFound point => "Program point not found: " ++ point.display

/-- Name the method whose analysis met the error. -/
def inMethod (e : Error) (name : String) : Error := .method name e

/-- The error this one was made from. -/
def cause? : Error → Option String
  | .json cause => some cause.message
  | .method _ source => some source.message
  | _ => none

/-- The error speaks of a broken analysis, not of the program under analysis. -/
def isContractViolation : Error → Bool
  | .budgetExceeded _ _ => true
  | .nonMonotone _ => true
  | .method _ source => source.isContractViolation
  | _ => false

end Error

/-- Why a computation ends without an answer. -/
inductive Stop where
  | error (e : Error)
  | abort (message : String)
deriving DecidableEq

/-- The answer of a step that can only fail with an error. -/
def Stop.ofError {α : Type} : Except Error α → Except Stop α
  | .ok a => .ok a
  | .error e => .error (.error e)

end FlowFacts
