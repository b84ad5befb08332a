import FlowFacts.Order
import FlowFacts.Text.Literal

/-! Where a fact is tracked: at an instruction of a block, or in a block that has
none. A point names its place by numbers alone, apart from any program. -/
namespace FlowFacts

inductive Point where
  /-- The instruction with this index in this block. -/
  | instruction (block index : Nat)
  /-- A block without instructions. -/
  | emptyBlock (block : Nat)
deriving DecidableEq

namespace Point

/-- The block the point lies in. -/
def block : Point → Nat
  | .instruction block _ => block
  | .emptyBlock block => block

/-! ### Order: instructions first, then by number -/

def sortKey : Point → List Nat
  | .instruction block index => [0, block, index]
  | .emptyBlock block => [1, block]

theorem sortKey_injective (p q : Point) (h : p.sortKey = q.sortKey) : p = q := by
  cases p <;> cases q <;> simp_all [sortKey]

instance : Ord Point := ⟨compareOn sortKey⟩

instance : Std.TransOrd Point := inferInstanceAs (Std.TransCmp (compareOn sortKey))

instance : Std.LawfulEqOrd Point := lawfulEq_compareOn sortKey_injective

/-! ### Text -/

/-- `0x1A:0F` for an instruction, `0x1A:empty` for an empty block. -/
def display : Point → String
  | .instruction block index =>
    Text.hexNumberCapital block ++ ":" ++ String.ofList (Text.hexPair index)
  | .emptyBlock block => Text.hexNumberCapital block ++ ":empty"

end Point

end FlowFacts
