import FlowFacts.Lattice.Shape

/-! Order, texts and JSON forms of the facts of a shape. -/
namespace FlowFacts.Shape
variable {κ : Type} [Ord κ] [Std.TransOrd κ]

/-- Absent before present, pairs by their first parts, maps by their entries. -/
def ordering : {hasTop : Bool} → (s : Shape hasTop) → Fact κ s → Fact κ s → Ordering
  | _, .constant, a, b => compare a b
  | _, .withoutTop s, a, b => ordering s a b
  | _, .maybe s, a, b => Optional.ordering (ordering s) a b
  | _, .union _, a, b => a.ordering b
  | _, .inter, a, b => a.ordering b
  | _, .product s t, a, b => (ordering s a.1 b.1).then (ordering t a.2 b.2)
  | _, .map s, a, b =>
    List.compareLex (fun x y => (compare x.1 y.1).then (ordering s x.2 y.2)) a.toList b.toList

/-- As people read it; `f` writes an atom. -/
def display (f : κ → String) : {hasTop : Bool} → (s : Shape hasTop) → Fact κ s → String
  | _, .constant, a => a.display f
  | _, .withoutTop s, a => display f s a
  | _, .maybe s, a => Optional.display (display f s) a
  | _, .union _, a => a.display f
  | _, .inter, a => a.display f
  | _, .product s t, a => "(" ++ display f s a.1 ++ ", " ++ display f t a.2 ++ ")"
  | _, .map s, a => a.display f (display f s)

/-- With every case by its name; `f` writes an atom. -/
def debug (f : κ → String) : {hasTop : Bool} → (s : Shape hasTop) → Fact κ s → String
  | _, .constant, a => a.debug f
  | _, .withoutTop s, a => debug f s a
  | _, .maybe s, a => Optional.debug (debug f s) a
  | _, .union _, a => a.debug f
  | _, .inter, a => a.debug f
  | _, .product s t, a => "(" ++ debug f s a.1 ++ ", " ++ debug f t a.2 ++ ")"
  | _, .map s, a => a.debug f (debug f s)

/-- Facts are written where their atoms are. -/
@[reducible] def encodeFact [Json.Encode κ] [Json.EncodeKey κ] :
    {hasTop : Bool} → (s : Shape hasTop) → Json.Encode (Fact κ s)
  | _, .constant => inferInstanceAs (Json.Encode (Constant κ))
  | _, .withoutTop s => encodeFact s
  | _, .maybe s =>
    let _ := encodeFact s
    inferInstanceAs (Json.Encode (Option (Fact κ s)))
  | _, .union _ => inferInstanceAs (Json.Encode (ValueSet κ))
  | _, .inter => inferInstanceAs (Json.Encode (DefiniteSet κ))
  | _, .product s t =>
    let _ := encodeFact s
    let _ := encodeFact t
    inferInstanceAs (Json.Encode (Fact κ s × Fact κ t))
  | _, .map s =>
    let _ := encodeFact s
    inferInstanceAs (Json.Encode (MapFact κ (Fact κ s)))

instance [Json.Encode κ] [Json.EncodeKey κ] {hasTop : Bool} (s : Shape hasTop) :
    Json.Encode (Fact κ s) := encodeFact s

/-- Facts are read where their atoms are. -/
@[reducible] def decodeFact [Json.Decode κ] [Json.DecodeKey κ] :
    {hasTop : Bool} → (s : Shape hasTop) → Json.Decode (Fact κ s)
  | _, .constant => inferInstanceAs (Json.Decode (Constant κ))
  | _, .withoutTop s => decodeFact s
  | _, .maybe s =>
    let _ := decodeFact s
    inferInstanceAs (Json.Decode (Option (Fact κ s)))
  | _, .union _ => inferInstanceAs (Json.Decode (ValueSet κ))
  | _, .inter => inferInstanceAs (Json.Decode (DefiniteSet κ))
  | _, .product s t =>
    let _ := decodeFact s
    let _ := decodeFact t
    inferInstanceAs (Json.Decode (Fact κ s × Fact κ t))
  | _, .map s =>
    let _ := decodeFact s
    inferInstanceAs (Json.Decode (MapFact κ (Fact κ s)))

instance [Json.Decode κ] [Json.DecodeKey κ] {hasTop : Bool} (s : Shape hasTop) :
    Json.Decode (Fact κ s) := decodeFact s

end FlowFacts.Shape
