import FlowFacts.Order
import FlowFacts.Text.Literal

/-! What operations read and write: the locals of a method, and the literals that
stand in its text. -/
namespace FlowFacts

/-- A storage slot of one method. -/
structure Local where
  index : Nat
deriving DecidableEq

namespace Local

instance : Ord Local := ⟨compareOn index⟩

instance : Std.TransOrd Local := inferInstanceAs (Std.TransCmp (compareOn index))

instance : Std.LawfulEqOrd Local :=
  lawfulEq_compareOn fun a b h => by cases a; cases b; simpa using h

def display (l : Local) : String := "loc" ++ l.index.repr

end Local

/-- What an operation reads. -/
inductive Operand where
  /-- What a local holds. -/
  | slot (l : Local)
  /-- A text literal. -/
  | text (value : String)
  /-- A type token, by the type's name. -/
  | type (name : String)
  | null
deriving DecidableEq, Ord

namespace Operand

/-- The local that is read, if one is. -/
def local? : Operand → Option Local
  | .slot l => some l
  | _ => none

def display : Operand → String
  | .slot l => l.display
  | .text value => Text.quoted value
  | .type name => "typeof(" ++ name ++ ")"
  | .null => "null"

end Operand

end FlowFacts
