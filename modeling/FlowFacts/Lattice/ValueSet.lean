import FlowFacts.Json.Codec
import FlowFacts.Lattice.Basic

/-! May-sets: every value that may reach a point.

Facts meet by union, so no possibility is lost, and the empty set is the top. A
set may have as many members as its bound; beyond that nothing is known of it. -/
namespace FlowFacts

inductive ValueSet (α : Type) [Ord α] where
  | values (members : Std.ExtTreeSet α)
  | unknown

namespace ValueSet
variable {α : Type} [Ord α]

instance [Std.TransOrd α] [Std.LawfulEqOrd α] : DecidableEq (ValueSet α)
  | .values s, .values t => decidable_of_iff (s = t) (by simp)
  | .values _, .unknown => isFalse nofun
  | .unknown, .values _ => isFalse nofun
  | .unknown, .unknown => isTrue rfl

def values? : ValueSet α → Option (Std.ExtTreeSet α)
  | .values s => some s
  | .unknown => none

def isUnknown : ValueSet α → Bool
  | .values _ => false
  | .unknown => true

variable [Std.TransOrd α]

/-! ### Sets within a bound -/

/-- A set that is larger than the bound is unknown. -/
def bounded (bound : Nat) (s : Std.ExtTreeSet α) : ValueSet α :=
  if bound < s.size then .unknown else .values s

def ofList (bound : Nat) (items : List α) : ValueSet α := bounded bound (.ofList items)

def singleton (bound : Nat) (a : α) : ValueSet α := ofList bound [a]

/-- One more value; what is unknown stays unknown. -/
def insert (bound : Nat) (a : α) : ValueSet α → ValueSet α
  | .values s => bounded bound (s.insert a)
  | .unknown => .unknown

def mayContain (a : α) : ValueSet α → Bool
  | .values s => s.contains a
  | .unknown => true

/-- Every value the second may have, the first may have; unknown may have any. -/
def isSuperset : ValueSet α → ValueSet α → Bool
  | .unknown, _ => true
  | .values _, .unknown => false
  | .values s, .values t => t.toList.all fun a => s.contains a

def meet (bound : Nat) : ValueSet α → ValueSet α → ValueSet α
  | .values s, .values t => bounded bound (s ∪ t)
  | _, _ => .unknown

def lattice [Std.LawfulEqOrd α] (bound : Nat) : Lattice (ValueSet α) :=
  .ofMeet (meet bound) (.values ∅)

/-! ### Order, text and JSON -/

/-- Sets by their members in order, the unknown after them. -/
def ordering : ValueSet α → ValueSet α → Ordering
  | .values s, .values t => compare s.toList t.toList
  | .values _, .unknown => .lt
  | .unknown, .values _ => .gt
  | .unknown, .unknown => .eq

instance : Ord (ValueSet α) := ⟨ordering⟩

/-- Members between braces. -/
def braced (f : α → String) (s : Std.ExtTreeSet α) : String :=
  "\x7b" ++ ", ".intercalate (s.toList.map f) ++ "\x7d"

def display (f : α → String) : ValueSet α → String
  | .values s => braced f s
  | .unknown => "?"

def debug (f : α → String) : ValueSet α → String
  | .values s => "Values(" ++ braced f s ++ ")"
  | .unknown => "Unknown"

instance [Json.Encode α] : Json.Encode (ValueSet α) where
  encode
    | .values s => (Json.encode s).map (Json.tagged "Values")
    | .unknown => .ok (.text "Unknown")

instance [Json.Decode α] : Json.Decode (ValueSet α) where
  decode j := do
    match ← j.case? with
    | ("Values", c) => (Json.content? Json.decode c).map .values
    | ("Unknown", c) => Json.plain? .unknown c
    | _ => none

end ValueSet

end FlowFacts
