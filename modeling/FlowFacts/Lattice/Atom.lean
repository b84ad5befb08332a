import FlowFacts.Program.Form
import FlowFacts.Program.SymbolicValue

/-! What sets hold and maps go by: numbers, texts, and the names that programs give
to locals, symbolic values and points, all in one order. -/
namespace FlowFacts

inductive Atom where
  | int (n : Int)
  | text (s : String)
  | slot (l : Local)
  | symbol (v : SymbolicValue)
  | point (p : Point)
deriving DecidableEq

namespace Atom

/-! ### Order: by kind, then by value -/

def rank : Atom → Nat
  | .int _ => 0
  | .text _ => 1
  | .slot _ => 2
  | .symbol _ => 3
  | .point _ => 4

def number : Atom → Int
  | .int n => n
  | _ => 0

def name : Atom → String
  | .text s => s
  | _ => ""

def slotIndex : Atom → Nat
  | .slot l => l.index
  | _ => 0

def symbolPart : Atom → SymbolicValue
  | .symbol v => v
  | _ => .null

def pointPart : Atom → Point
  | .point p => p
  | _ => .emptyBlock 0

/-- The kinds differ, or all parts but the one of the kind agree. -/
def ordering : Atom → Atom → Ordering :=
  compareLex (compareOn rank) <| compareLex (compareOn number) <| compareLex (compareOn name) <|
    compareLex (compareOn slotIndex) <| compareLex (compareOn symbolPart) (compareOn pointPart)

instance : Ord Atom := ⟨ordering⟩

instance : Std.TransOrd Atom :=
  inferInstanceAs (Std.TransCmp (compareLex (compareOn rank) <| compareLex (compareOn number) <|
    compareLex (compareOn name) <| compareLex (compareOn slotIndex) <|
      compareLex (compareOn symbolPart) (compareOn pointPart)))

instance : Std.LawfulEqOrd Atom where
  eq_of_compare {a b} h := by
    replace h : (compare a.rank b.rank).then ((compare a.number b.number).then
        ((compare a.name b.name).then ((compare a.slotIndex b.slotIndex).then
          ((compare a.symbolPart b.symbolPart).then (compare a.pointPart b.pointPart))))) =
        .eq := h
    simp only [Ordering.then_eq_eq, Std.LawfulEqOrd.compare_eq_iff_eq] at h
    cases a <;> cases b <;>
      simp_all [rank, number, name, slotIndex, symbolPart, pointPart]
    next l m =>
      cases l
      cases m
      simp_all

/-! ### Text and JSON -/

def display : Atom → String
  | .int n => n.repr
  | .text s => s
  | .slot l => l.display
  | .symbol v => v.display
  | .point p => p.display

/-- As displayed, with texts in quotes. -/
def debug : Atom → String
  | .text s => Text.quoted s
  | a => a.display

instance : Json.Encode Atom where
  encode
    | .int n => .ok (.int n)
    | .text s => .ok (.text s)
    | .slot l => .ok l.toJson
    | .symbol v => .ok v.toJson
    | .point p => .ok p.toJson

instance : Json.EncodeKey Atom where
  encodeKey
    | .int n => .ok n.repr
    | .text s => .ok s
    | .symbol v => Json.encodeKey v
    | .slot _ | .point _ => .error .keyNotText

end Atom

end FlowFacts
