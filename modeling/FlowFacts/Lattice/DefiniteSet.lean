import FlowFacts.Json.Codec
import FlowFacts.Lattice.Basic
import FlowFacts.Lattice.ValueSet

/-! Must-sets: every value that holds on all ways to a point.

Facts meet by intersection. Where no way leads, every value holds: that set is the
top, and it is kept apart from the sets with members to list. -/
namespace FlowFacts

inductive DefiniteSet (α : Type) [Ord α] where
  /-- All values there are. -/
  | everything
  | values (members : Std.ExtTreeSet α)

namespace DefiniteSet
variable {α : Type} [Ord α]

instance [Std.TransOrd α] [Std.LawfulEqOrd α] : DecidableEq (DefiniteSet α)
  | .values s, .values t => decidable_of_iff (s = t) (by simp)
  | .values _, .everything => isFalse nofun
  | .everything, .values _ => isFalse nofun
  | .everything, .everything => isTrue rfl

def values? : DefiniteSet α → Option (Std.ExtTreeSet α)
  | .everything => none
  | .values s => some s

/-- No value holds. -/
def empty : DefiniteSet α := .values ∅

variable [Std.TransOrd α]

def ofList (items : List α) : DefiniteSet α := .values (.ofList items)

/-- One more value holds. -/
def insert (a : α) : DefiniteSet α → DefiniteSet α
  | .everything => .everything
  | .values s => .values (s.insert a)

def contains (a : α) : DefiniteSet α → Bool
  | .everything => true
  | .values s => s.contains a

def meet : DefiniteSet α → DefiniteSet α → DefiniteSet α
  | .everything, b => b
  | a, .everything => a
  | .values s, .values t => .values (s ∩ t)

def lattice [Std.LawfulEqOrd α] : Lattice (DefiniteSet α) := .ofMeet meet .everything

/-! ### Order, text and JSON -/

/-- The set of all values first, then sets by their members in order. -/
def ordering : DefiniteSet α → DefiniteSet α → Ordering
  | .everything, .everything => .eq
  | .everything, .values _ => .lt
  | .values _, .everything => .gt
  | .values s, .values t => compare s.toList t.toList

instance : Ord (DefiniteSet α) := ⟨ordering⟩

def display (f : α → String) : DefiniteSet α → String
  | .everything => "*"
  | .values s => ValueSet.braced f s

def debug (f : α → String) : DefiniteSet α → String
  | .everything => "Universe"
  | .values s => "Values(" ++ ValueSet.braced f s ++ ")"

instance [Json.Encode α] : Json.Encode (DefiniteSet α) where
  encode
    | .everything => .ok (.text "Universe")
    | .values s => (Json.encode s).map (Json.tagged "Values")

instance [Json.Decode α] : Json.Decode (DefiniteSet α) where
  decode j := do
    match ← j.case? with
    | ("Universe", c) => Json.plain? .everything c
    | ("Values", c) => (Json.content? Json.decode c).map .values
    | _ => none

end DefiniteSet

end FlowFacts
