/-! Lattices of facts, as records of functions.

A fact lies below another when it says more; the meet of two facts is what holds
where either may, and the top says nothing. A lattice is a value, so that it can
carry a setting such as the size a set may have. The records hold no laws: the
solver runs over any of them, and the laws are stated of those that have them. -/
namespace FlowFacts

/-- Facts that can be met. -/
structure SemiLattice (α : Type) where
  meet : α → α → α

/-- Facts that can be met and have a top. -/
structure Lattice (α : Type) extends SemiLattice α where
  top : α
  isTop : α → Bool

namespace Lattice
variable {α : Type}

/-- A fact is the top when it equals it. -/
def ofMeet [DecidableEq α] (meet : α → α → α) (top : α) : Lattice α :=
  { meet, top, isTop := fun a => decide (a = top) }

/-- The meet of the two is the first. -/
def lessOrEqual [DecidableEq α] (L : Lattice α) (a b : α) : Bool := decide (L.meet a b = a)

/-- The meet of all items, from the top. -/
def meetAll (L : Lattice α) (items : List α) : α := items.foldl L.meet L.top

end Lattice

/-! ### Pairs -/

/-- Pairs meet side by side. -/
def SemiLattice.product {α β : Type} (L : SemiLattice α) (M : SemiLattice β) :
    SemiLattice (α × β) :=
  ⟨fun a b => (L.meet a.1 b.1, M.meet a.2 b.2)⟩

def Lattice.product {α β : Type} [DecidableEq α] [DecidableEq β] (L : Lattice α) (M : Lattice β) :
    Lattice (α × β) :=
  ofMeet (L.toSemiLattice.product M.toSemiLattice).meet (L.top, M.top)

end FlowFacts
