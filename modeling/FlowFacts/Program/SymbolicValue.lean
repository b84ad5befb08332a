import FlowFacts.Json.Codec
import FlowFacts.Text.Literal

/-! What a method's text alone says of the value in a local: a literal, a type
token, null, or nothing. -/
namespace FlowFacts

inductive SymbolicValue where
  | text (value : String)
  | type (name : String)
  | null
  /-- A value the method's text does not show. -/
  | opaqueValue
deriving DecidableEq

namespace SymbolicValue

/-- The member name that the value stands for, if it stands for one. -/
def name? : SymbolicValue → Option String
  | .text name => some name
  | .type name => some name
  | .null | .opaqueValue => none

/-! ### Order: by kind, then by name -/

def rank : SymbolicValue → Nat
  | .text _ => 0
  | .type _ => 1
  | .null => 2
  | .opaqueValue => 3

def sortName (v : SymbolicValue) : String := v.name?.getD ""

instance : Ord SymbolicValue := ⟨compareLex (compareOn rank) (compareOn sortName)⟩

instance : Std.TransOrd SymbolicValue :=
  inferInstanceAs (Std.TransCmp (compareLex (compareOn rank) (compareOn sortName)))

instance : Std.LawfulEqOrd SymbolicValue where
  eq_of_compare {a b} h := by
    have h : (compare a.rank b.rank).then (compare a.sortName b.sortName) = .eq := h
    rw [Ordering.then_eq_eq, Std.LawfulEqOrd.compare_eq_iff_eq,
      Std.LawfulEqOrd.compare_eq_iff_eq] at h
    cases a <;> cases b <;> simp_all [rank, sortName, name?]

/-! ### Text and JSON -/

def display : SymbolicValue → String
  | .text value => Text.quoted value
  | .type name => "typeof(" ++ name ++ ")"
  | .null => "null"
  | .opaqueValue => "opaque"

def debug : SymbolicValue → String
  | .text value => "Str(" ++ Text.quoted value ++ ")"
  | .type name => "Type(" ++ Text.quoted name ++ ")"
  | .null => "Null"
  | .opaqueValue => "Opaque"

def toJson : SymbolicValue → Json
  | .text value => Json.tagged "Str" (.text value)
  | .type name => Json.tagged "Type" (.text name)
  | .null => .text "Null"
  | .opaqueValue => .text "Opaque"

def ofJson? (j : Json) : Option SymbolicValue := do
  match ← j.case? with
  | ("Str", c) => (Json.content? Json.text? c).map .text
  | ("Type", c) => (Json.content? Json.text? c).map .type
  | ("Null", c) => Json.plain? .null c
  | ("Opaque", c) => Json.plain? .opaqueValue c
  | _ => none

instance : Json.Encode SymbolicValue := ⟨fun v => .ok v.toJson⟩
instance : Json.Decode SymbolicValue := ⟨ofJson?⟩

/-- Only the cases without content are texts. -/
instance : Json.EncodeKey SymbolicValue where
  encodeKey
    | .null => .ok "Null"
    | .opaqueValue => .ok "Opaque"
    | .text _ | .type _ => .error .keyNotText

end SymbolicValue

end FlowFacts
