/-! JSON values: what facts, methods and findings are written as and read from.

An object keeps its fields in the order they are written. Whole numbers are exact;
a number with a fraction is kept as its text, and nothing here reads it as a number. -/
namespace FlowFacts

inductive Json where
  | null
  | bool (value : Bool)
  | int (value : Int)
  /-- Any other number, by its text. -/
  | fraction (digits : String)
  | text (value : String)
  | array (items : List Json)
  | object (fields : List (String × Json))
deriving Inhabited

namespace Json

/-- Why a value has no JSON form. -/
inductive WriteError where
  /-- A map key that is neither a text, a number nor the name of a plain case. -/
  | keyNotText
deriving DecidableEq

def WriteError.message : WriteError → String
  | .keyNotText => "key must be a string"

/-- Values with a JSON form, if it can be written. -/
class Encode (α : Type) where
  encode : α → Except WriteError Json

/-- Values that can be read from JSON. -/
class Decode (α : Type) where
  decode : Json → Option α

/-- Keys of maps: their text in a written object, if they have one. -/
class EncodeKey (κ : Type) where
  encodeKey : κ → Except WriteError String

class DecodeKey (κ : Type) where
  decodeKey : String → Option κ

export Encode (encode)
export Decode (decode)
export EncodeKey (encodeKey)
export DecodeKey (decodeKey)

/-! ### Writing -/

/-- A natural number. -/
def nat (n : Nat) : Json := .int n

/-- A case with named fields: an object whose one key is the case. -/
def tagged (case : String) (content : Json) : Json := .object [(case, content)]

/-- An optional part: absent is null. -/
def optional {α : Type} (f : α → Json) : Option α → Json
  | none => .null
  | some a => f a

/-! ### Reading -/

/-- The field of an object. -/
def field? (key : String) : Json → Option Json
  | .object fields => (fields.find? (·.1 == key)).map (·.2)
  | _ => none

/-- A field of an object that may be missing or null. -/
def optionalField? {α : Type} (f : Json → Option α) (key : String) : Json → Option (Option α)
  | .object fields =>
    match (Json.object fields).field? key with
    | none | some .null => some none
    | some v => (f v).map some
  | _ => none

/-- Indices have 64 bits. -/
def indexBound : Nat := 0x10000000000000000

/-- A whole number within `indexBound`. -/
def index? : Json → Option Nat
  | .int n => if 0 ≤ n ∧ n < indexBound then some n.toNat else none
  | _ => none

/-- A signed number of 64 bits. -/
def int64? : Json → Option Int
  | .int n => if -0x8000000000000000 ≤ n ∧ n < 0x8000000000000000 then some n else none
  | _ => none

def text? : Json → Option String
  | .text s => some s
  | _ => none

def bool? : Json → Option Bool
  | .bool b => some b
  | _ => none

def array? : Json → Option (List Json)
  | .array items => some items
  | _ => none

/-- Every item of an array, read by `f`. -/
def list? {α : Type} (f : Json → Option α) (j : Json) : Option (List α) :=
  j.array?.bind (·.mapM f)

/-- The entries of an object. -/
def object? : Json → Option (List (String × Json))
  | .object fields => some fields
  | _ => none

/-- The case of a written variant: a plain text, or an object with one key. -/
def case? : Json → Option (String × Option Json)
  | .text s => some (s, none)
  | .object [(s, content)] => some (s, some content)
  | _ => none

/-- A plain case holds nothing or null. -/
def plain? {α : Type} (a : α) : Option Json → Option α
  | none | some .null => some a
  | some _ => none

/-- A case with content. -/
def content? {α : Type} (f : Json → Option α) : Option Json → Option α
  | none => none
  | some j => f j

/-- A decimal without sign or leading zeros, within `indexBound`. -/
def indexKey? (s : String) : Option Nat :=
  match s.toList with
  | [] => none
  | c :: rest =>
    if (c :: rest).all Char.isDigit && (c != '0' || rest.isEmpty) then
      let n := Nat.ofDigitChars 10 (c :: rest) 0
      if n < indexBound then some n else none
    else none

end Json

end FlowFacts
