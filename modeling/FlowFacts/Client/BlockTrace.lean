import FlowFacts.Lattice.ValueSet
import FlowFacts.Program.Method
import FlowFacts.Solver.Worklist

/-! The blocks that control may have passed on the way to a point.

The facts are may-sets of block numbers. Every operation adds the number of its block, and
empty blocks leave no trace. Forward a trace tells what may come before a point, backward
what may come after it. -/
namespace FlowFacts.BlockTrace

/-- Every operation adds the number of its block. -/
def analysis (bound : Nat) : Analysis (ValueSet Nat) where
  lattice := ValueSet.lattice bound
  transfer :=
    (TransferTable.empty.setOther (.total fun l fact => fact.insert bound l.block.index)).transfer

/-- The traces, from a start where no block has been passed. -/
def solve (m : Method) (o : Options) : Solver.Run (ValueSet Nat) :=
  Solver.run (analysis o.bound) m.body (.values ∅) o

/-- How many visits the solver needs. -/
def visits (m : Method) (o : Options) : Logged Nat :=
  let r := solve m o
  ⟨r.outcome.map FactStore.totalVisits, r.log (ValueSet.debug Nat.repr)⟩

end FlowFacts.BlockTrace
