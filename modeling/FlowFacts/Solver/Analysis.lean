import FlowFacts.Lattice.Basic
import FlowFacts.Program.ControlFlowGraph
import FlowFacts.Solver.Options

/-! Analyses: a lattice of facts, and what each location does to the fact that flows
into it. -/
namespace FlowFacts

/-- What locations do to facts. -/
structure Transfer (α : Type) where
  /-- The fact that flows out. -/
  apply : Location → α → Except Error α
  /-- The caller's cancellation flag is raised on the way. Another thread that raises it
  between two visits is not modelled. -/
  raises : Location → α → Bool := fun _ _ => false

structure Analysis (α : Type) where
  lattice : Lattice α
  transfer : Transfer α

namespace Transfer
variable {α : Type}

/-- The fact flows through. -/
def keep : Transfer α := ⟨fun _ a => .ok a, fun _ _ => false⟩

/-- A transfer that cannot fail. -/
def total (f : Location → α → α) : Transfer α := ⟨fun l a => .ok (f l a), fun _ _ => false⟩

def fail (e : Error) : Transfer α := ⟨fun _ _ => .error e, fun _ _ => false⟩

/-- Raise the flag and let the fact through. -/
def raise : Transfer α := ⟨fun _ a => .ok a, fun _ _ => true⟩

/-- One after the other; the first error ends it. -/
def andThen (s t : Transfer α) : Transfer α where
  apply l a := (s.apply l a).bind (t.apply l)
  raises l a := s.raises l a ||
    match s.apply l a with
    | .ok b => t.raises l b
    | .error _ => false

def sequence (parts : List (Transfer α)) : Transfer α := parts.foldl andThen keep

/-- Choose by the location and the fact. -/
def choose (test : Location → α → Bool) (yes no : Transfer α) : Transfer α where
  apply l a := if test l a then yes.apply l a else no.apply l a
  raises l a := if test l a then yes.raises l a else no.raises l a

end Transfer

/-- Transfers by the kind of operation, with one for the other kinds and one for
empty blocks. What is not given lets facts through. -/
structure TransferTable (α : Type) where
  rows : OperationKind → Option (Transfer α)
  other : Option (Transfer α)
  emptyBlock : Option (Transfer α)

namespace TransferTable
variable {α : Type}

def empty : TransferTable α := ⟨fun _ => none, none, none⟩

/-- Use a transfer for one kind. -/
def setRow (t : TransferTable α) (kind : OperationKind) (transfer : Transfer α) :
    TransferTable α :=
  { t with rows := fun k => if k = kind then some transfer else t.rows k }

def setOther (t : TransferTable α) (transfer : Transfer α) : TransferTable α :=
  { t with other := some transfer }

def setEmptyBlock (t : TransferTable α) (transfer : Transfer α) : TransferTable α :=
  { t with emptyBlock := some transfer }

/-- The kind has a transfer of its own. -/
def handles (t : TransferTable α) (kind : OperationKind) : Bool := (t.rows kind).isSome

/-- The transfer for a location. -/
def select (t : TransferTable α) (l : Location) : Transfer α :=
  match l.instruction with
  | some i => ((t.rows i.kind).or t.other).getD .keep
  | none => t.emptyBlock.getD .keep

def transfer (t : TransferTable α) : Transfer α where
  apply l a := (t.select l).apply l a
  raises l a := (t.select l).raises l a

end TransferTable

end FlowFacts
