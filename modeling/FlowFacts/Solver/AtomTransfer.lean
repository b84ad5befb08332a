import FlowFacts.Lattice.Atom
import FlowFacts.Lattice.Shape
import FlowFacts.Solver.Analysis

/-! Transfers over the facts of a shape, with atoms for what programs name: members
added to sets, live locals, and the values of locals in a map. -/
namespace FlowFacts

namespace Shape

/-- Add a member to every set of the fact: the fact itself, or a part of a pair.
Other facts stay as they are. -/
def addAtom (x : Atom) : {hasTop : Bool} → (s : Shape hasTop) → Fact Atom s → Fact Atom s
  | _, .withoutTop s, a => addAtom x s a
  | _, .union bound, a => a.insert bound x
  | _, .inter, a => a.insert x
  | _, .product s t, a => (addAtom x s a.1, addAtom x t a.2)
  | _, .constant, a => a
  | _, .maybe _, a => a
  | _, .map _, a => a

/-- The fact that says one atom; maps and pairs have none. -/
def single? (x : Atom) : {hasTop : Bool} → (s : Shape hasTop) → Option (Fact Atom s)
  | _, .constant => some (.value x)
  | _, .withoutTop s => single? x s
  | _, .maybe s => (single? x s).map some
  | _, .union bound => some (.singleton bound x)
  | _, .inter => some (.ofList [x])
  | _, .product _ _ => none
  | _, .map _ => none

/-- The fact that says one atom, or the top where there is none. -/
def single (x : Atom) (s : Shape true) : Fact Atom s := (single? x s).getD s.lattice.top

end Shape

namespace Transfer

/-! ### Any shape -/

variable {s : Shape true}

def add (s : Shape true) (x : Atom) : Transfer (s.Fact Atom) := total fun _ a => s.addAtom x a

/-- Add the number of the block. -/
def addBlock (s : Shape true) : Transfer (s.Fact Atom) :=
  total fun l a => s.addAtom (.int l.block.index) a

def addPoint (s : Shape true) : Transfer (s.Fact Atom) :=
  total fun l a => s.addAtom (.point l.point) a

/-- Add the capability that is assumed here. -/
def addCapability (s : Shape true) : Transfer (s.Fact Atom) :=
  total fun l a =>
    match l.operation? with
    | some (.assume capability) => s.addAtom (.text capability) a
    | _ => a

/-- Replace the fact. -/
def const {α : Type} (value : α) : Transfer α := total fun _ _ => value

def meet {α : Type} (L : SemiLattice α) (value : α) : Transfer α := total fun _ a => L.meet a value

/-! ### May-sets -/

/-- Add the number of members, while there are fewer than `limit`. -/
def widen (bound limit : Nat) : Transfer (ValueSet Atom) :=
  total fun _ a =>
    match a with
    | .values members =>
      if members.size < limit then a.insert bound (.int members.size) else a
    | .unknown => a

/-- Take out the local that is written, then add those that are read. -/
def live (bound : Nat) : Transfer (ValueSet Atom) :=
  total fun l a =>
    match l.operation?, a with
    | some operation, .values members =>
      let kept := match operation.written? with
        | some dst => members.erase (.slot dst)
        | none => members
      .bounded bound (operation.localsRead.foldl (fun m l => m.insert (.slot l)) kept)
    | _, _ => a

/-! ### Maps -/

/-- Give a key its fact. -/
def set {ν : Type} (L : Lattice ν) (key : Atom) (value : ν) : Transfer (MapFact Atom ν) :=
  total fun _ m => m.insert L key value

/-- The value of an operand: what is known of a local, or what the literal says. -/
def operandFact (s : Shape true) (m : MapFact Atom (s.Fact Atom)) : Operand → s.Fact Atom
  | .slot l => m.getOrTop s.lattice (.slot l)
  | .text value => s.single (.symbol (.text value))
  | .type name => s.single (.symbol (.type name))
  | .null => s.single (.symbol .null)

/-- Follow the values of locals through assignments. -/
def evaluate (s : Shape true) : Transfer (MapFact Atom (s.Fact Atom)) :=
  total fun l m =>
    match l.operation? with
    | some (.assign dst src) => m.insert s.lattice (.slot dst) (operandFact s m src)
    | some (.load dst) | some (.call _ _ (some dst)) =>
      m.insert s.lattice (.slot dst) (s.single (.symbol .opaqueValue))
    | _ => m

end Transfer

end FlowFacts
