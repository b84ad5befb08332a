import FlowFacts.Json.Basic
import FlowFacts.Lattice.Basic

/-! Constants: one value, or no single value known. Two constants that differ meet
to unknown, and unknown absorbs everything. There is no top; `Optional.lattice` puts
one above. -/
namespace FlowFacts

inductive Constant (α : Type) where
  | value (a : α)
  | unknown
deriving DecidableEq, Ord

namespace Constant
variable {α : Type}

def value? : Constant α → Option α
  | .value a => some a
  | .unknown => none

def isUnknown : Constant α → Bool
  | .value _ => false
  | .unknown => true

def meet [DecidableEq α] : Constant α → Constant α → Constant α
  | .value a, .value b => if a = b then .value a else .unknown
  | _, _ => .unknown

def lattice [DecidableEq α] : SemiLattice (Constant α) := ⟨meet⟩

/-! ### Text and JSON -/

def display (f : α → String) : Constant α → String
  | .value a => f a
  | .unknown => "⊥"

def debug (f : α → String) : Constant α → String
  | .value a => "Value(" ++ f a ++ ")"
  | .unknown => "Unknown"

instance [Json.Encode α] : Json.Encode (Constant α) where
  encode
    | .value a => (Json.encode a).map (Json.tagged "Value")
    | .unknown => .ok (.text "Unknown")

instance [Json.Decode α] : Json.Decode (Constant α) where
  decode j := do
    match ← j.case? with
    | ("Value", c) => (Json.content? Json.decode c).map .value
    | ("Unknown", c) => Json.plain? .unknown c
    | _ => none

end Constant

end FlowFacts
