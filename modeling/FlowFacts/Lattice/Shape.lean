import FlowFacts.Lattice.Constant
import FlowFacts.Lattice.DefiniteSet
import FlowFacts.Lattice.MapFact
import FlowFacts.Lattice.Optional
import FlowFacts.Lattice.ValueSet

/-! Every lattice that the constructions build, described as a value.

A `Shape` says how a lattice is put together and whether it has a top; `Fact` is
the type of its facts over one type of atoms, which are its constants, the members
of its sets and the keys of its maps. The operations, the texts and the JSON form
of a shape's facts follow the shape. -/
namespace FlowFacts

inductive Shape : Bool → Type where
  | constant : Shape false
  /-- A lattice whose top is not asked for. -/
  | withoutTop (s : Shape true) : Shape false
  | maybe {hasTop : Bool} (s : Shape hasTop) : Shape true
  | union (bound : Nat) : Shape true
  | inter : Shape true
  | product {hasTop : Bool} (s t : Shape hasTop) : Shape hasTop
  | map (s : Shape true) : Shape true

namespace Shape

/-- A map is somewhere in the shape. -/
def hasMap : {hasTop : Bool} → Shape hasTop → Bool
  | _, .constant => false
  | _, .withoutTop s => s.hasMap
  | _, .maybe s => s.hasMap
  | _, .union _ => false
  | _, .inter => false
  | _, .product s t => s.hasMap || t.hasMap
  | _, .map _ => true

/-- A pair is somewhere in the shape. -/
def hasProduct : {hasTop : Bool} → Shape hasTop → Bool
  | _, .constant => false
  | _, .withoutTop s => s.hasProduct
  | _, .maybe s => s.hasProduct
  | _, .union _ => false
  | _, .inter => false
  | _, .product _ _ => true
  | _, .map s => s.hasProduct

variable (κ : Type) [Ord κ]

/-- The facts of a shape. -/
@[reducible] def Fact : {hasTop : Bool} → Shape hasTop → Type
  | _, .constant => Constant κ
  | _, .withoutTop s => Fact s
  | _, .maybe s => Option (Fact s)
  | _, .union _ => ValueSet κ
  | _, .inter => DefiniteSet κ
  | _, .product s t => Fact s × Fact t
  | _, .map s => MapFact κ (Fact s)

variable {κ}

/-- Facts can be told apart. -/
@[reducible] def decideEq [DecidableEq κ] [Std.TransOrd κ] [Std.LawfulEqOrd κ] :
    {hasTop : Bool} → (s : Shape hasTop) → DecidableEq (Fact κ s)
  | _, .constant => inferInstanceAs (DecidableEq (Constant κ))
  | _, .withoutTop s => decideEq s
  | _, .maybe s =>
    let _ := decideEq s
    inferInstanceAs (DecidableEq (Option (Fact κ s)))
  | _, .union _ => inferInstanceAs (DecidableEq (ValueSet κ))
  | _, .inter => inferInstanceAs (DecidableEq (DefiniteSet κ))
  | _, .product s t =>
    let _ := decideEq s
    let _ := decideEq t
    inferInstanceAs (DecidableEq (Fact κ s × Fact κ t))
  | _, .map s =>
    let _ := decideEq s
    inferInstanceAs (DecidableEq (MapFact κ (Fact κ s)))

instance [DecidableEq κ] [Std.TransOrd κ] [Std.LawfulEqOrd κ] {hasTop : Bool}
    (s : Shape hasTop) : DecidableEq (Fact κ s) := decideEq s

/-! ### Operations -/

/-- A lattice, or a semilattice where there is no top. -/
@[reducible] def Ops (hasTop : Bool) (α : Type) : Type :=
  if hasTop then Lattice α else SemiLattice α

/-- The meet alone. -/
def Ops.semi {α : Type} : {hasTop : Bool} → Ops hasTop α → SemiLattice α
  | true, L => Lattice.toSemiLattice L
  | false, L => L

def Ops.product {α β : Type} [DecidableEq α] [DecidableEq β] :
    {hasTop : Bool} → Ops hasTop α → Ops hasTop β → Ops hasTop (α × β)
  | true, L, M => Lattice.product L M
  | false, L, M => SemiLattice.product L M

variable [DecidableEq κ] [Std.TransOrd κ] [Std.LawfulEqOrd κ]

/-- The operations of a shape. -/
def ops : {hasTop : Bool} → (s : Shape hasTop) → Ops hasTop (Fact κ s)
  | _, .constant => Constant.lattice
  | _, .withoutTop s => Ops.semi (ops s)
  | _, .maybe s => Optional.lattice (Ops.semi (ops s))
  | _, .union bound => ValueSet.lattice bound
  | _, .inter => DefiniteSet.lattice
  | _, .product s t => Ops.product (ops s) (ops t)
  | _, .map s => MapFact.lattice (ops s)

/-- The meet of a shape. -/
def semi {hasTop : Bool} (s : Shape hasTop) : SemiLattice (Fact κ s) := Ops.semi s.ops

/-- The lattice of a shape with a top. -/
def lattice (s : Shape true) : Lattice (Fact κ s) := s.ops

/-- The lattice of a shape, if it has a top. -/
def lattice? : {hasTop : Bool} → (s : Shape hasTop) → Option (Lattice (Fact κ s))
  | true, s => some s.lattice
  | false, _ => none

end Shape

end FlowFacts
