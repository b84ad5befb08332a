import FlowFacts.Lattice.Basic

/-! Optional facts: a top put above facts that have none of their own. An absent
fact says nothing; present facts meet as they would alone. -/
namespace FlowFacts.Optional
variable {α : Type}

def meet (L : SemiLattice α) : Option α → Option α → Option α
  | none, b => b
  | a, none => a
  | some a, some b => some (L.meet a b)

def lattice [DecidableEq α] (L : SemiLattice α) : Lattice (Option α) := .ofMeet (meet L) none

/-- Absent before present. -/
def ordering (f : α → α → Ordering) : Option α → Option α → Ordering
  | none, none => .eq
  | none, some _ => .lt
  | some _, none => .gt
  | some a, some b => f a b

def display (f : α → String) : Option α → String
  | none => "⊤"
  | some a => f a

def debug (f : α → String) : Option α → String
  | none => "Maybe(None)"
  | some a => "Maybe(Some(" ++ f a ++ "))"

end FlowFacts.Optional
