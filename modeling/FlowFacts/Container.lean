/-! Containers of numbers, and copies that are changed apart from them.

A container is a value here, and a copy is the value again: places in memory that two
containers could share are not modelled. So a change to a copy leaves what it was copied
from as it was, whatever is copied: `CopyPair.isAliased_eq_false` holds by construction and
says nothing of how a container is laid out. -/
namespace FlowFacts

inductive Container where
  /-- One list that can grow. -/
  | list (items : List Int)
  /-- A number of places, each of which can be set. -/
  | cells (items : List Int)
  /-- At most one place. -/
  | single (item : Option Int)
deriving DecidableEq

namespace Container

def items : Container → List Int
  | .list items => items
  | .cells items => items
  | .single item => item.toList

/-- Add a zero to a list; set every place to zero. -/
def change : Container → Container
  | .list items => .list (items ++ [0])
  | .cells items => .cells (items.map fun _ => 0)
  | .single item => .single (item.map fun _ => 0)

end Container

/-- A container and a copy of it. -/
structure CopyPair where
  source : Container
  copy : Container
deriving DecidableEq

namespace CopyPair

def ofContainer (c : Container) : CopyPair := ⟨c, c⟩

/-- Change the copy. -/
def changeCopy (p : CopyPair) : CopyPair := { p with copy := p.copy.change }

/-- A change of the copy shows in what it was copied from. -/
def isAliased (p : CopyPair) : Bool := decide (p.changeCopy.source ≠ p.source)

theorem isAliased_eq_false (p : CopyPair) : p.isAliased = false := by
  simp [isAliased, changeCopy]

end CopyPair

end FlowFacts
