import FlowFacts.Client.BlockTrace
import FlowFacts.Client.Capability
import FlowFacts.Client.Pool
import FlowFacts.Client.Reflection
import FlowFacts.Container
import FlowFacts.Error
import FlowFacts.Graph.Basic
import FlowFacts.Graph.Dot
import FlowFacts.Graph.Form
import FlowFacts.Graph.Plain
import FlowFacts.Graph.Walk
import FlowFacts.Json.Basic
import FlowFacts.Json.Codec
import FlowFacts.Json.Printer
import FlowFacts.Lattice.Atom
import FlowFacts.Lattice.Basic
import FlowFacts.Lattice.Constant
import FlowFacts.Lattice.DefiniteSet
import FlowFacts.Lattice.MapFact
import FlowFacts.Lattice.Optional
import FlowFacts.Lattice.Shape
import FlowFacts.Lattice.ShapeForm
import FlowFacts.Lattice.ValueSet
import FlowFacts.Order
import FlowFacts.Program.Annotation
import FlowFacts.Program.Block
import FlowFacts.Program.ControlFlowGraph
import FlowFacts.Program.Form
import FlowFacts.Program.Method
import FlowFacts.Program.Operand
import FlowFacts.Program.Operation
import FlowFacts.Program.Point
import FlowFacts.Program.SymbolicValue
import FlowFacts.Proofs.Client.Capability
import FlowFacts.Proofs.Client.Reflection
import FlowFacts.Proofs.Graph.Consistent
import FlowFacts.Proofs.Graph.Insertion
import FlowFacts.Proofs.Graph.PostOrder
import FlowFacts.Proofs.Lattice.DefiniteSet
import FlowFacts.Proofs.Lattice.Laws
import FlowFacts.Proofs.Lattice.MapFact
import FlowFacts.Proofs.Lattice.ValueSet
import FlowFacts.Proofs.Program.Built
import FlowFacts.Proofs.Program.ControlFlow
import FlowFacts.Proofs.Program.Execution
import FlowFacts.Proofs.Program.Points
import FlowFacts.Proofs.Sequence
import FlowFacts.Proofs.Solver.Induction
import FlowFacts.Proofs.Solver.Invariant
import FlowFacts.Proofs.Solver.Monotone
import FlowFacts.Proofs.Solver.PointGraph
import FlowFacts.Proofs.Solver.Prepared
import FlowFacts.Proofs.Solver.Solution
import FlowFacts.Proofs.Solver.Visit
import FlowFacts.Solver.Analysis
import FlowFacts.Solver.AtomTransfer
import FlowFacts.Solver.FactStore
import FlowFacts.Solver.Log
import FlowFacts.Solver.Options
import FlowFacts.Solver.PointGraph
import FlowFacts.Solver.Worklist
import FlowFacts.Text.Literal
import FlowFacts.Text.Printable
import FlowFacts.Proofs.Lattice.Composed
import FlowFacts.Proofs.Program.Renumbering
import FlowFacts.Proofs.Solver.SubSolution
import FlowFacts.Proofs.Solver.Greatest
import FlowFacts.Proofs.Solver.Progress
import FlowFacts.Proofs.Solver.VisitBound
import FlowFacts.Proofs.Lattice.Rank
import FlowFacts.Proofs.Client.ReflectionBudget
import FlowFacts.Proofs.Solver.Rounds
import FlowFacts.Proofs.Client.DelayLine
import FlowFacts.Proofs.Client.Pool
import FlowFacts.Proofs.Program.DeadCode
import FlowFacts.Proofs.Solver.Lockstep
import FlowFacts.Proofs.Solver.DeadCode
import FlowFacts.Proofs.Client.DeadCode
import FlowFacts.Proofs.Solver.MoreFlow
import FlowFacts.Proofs.Solver.Preparing
import FlowFacts.Proofs.Solver.Halting
import FlowFacts.Proofs.Graph.Made
import FlowFacts.Proofs.Json.RoundTrip
import FlowFacts.Proofs.Program.RoundTrip
import FlowFacts.Proofs.Program.Changes
import FlowFacts.Proofs.Solver.Guards
import FlowFacts.Proofs.Solver.Acyclic
import FlowFacts.Proofs.Lattice.ChainCondition
import FlowFacts.Proofs.Client.Outcome
import FlowFacts.Proofs.Client.Accesses
import FlowFacts.Proofs.Solver.PointFlow
import FlowFacts.Proofs.Lattice.FactForm
import FlowFacts.Proofs.Client.RoundTrip
import FlowFacts.Proofs.Solver.Dump
import FlowFacts.Proofs.Solver.Reachability
import FlowFacts.Proofs.Lattice.StoredTop
import FlowFacts.Proofs.Solver.Oversized
import FlowFacts.Proofs.Lattice.SetExpr
import FlowFacts.Proofs.Lattice.Pointwise
import FlowFacts.Proofs.Lattice.Structure
import FlowFacts.Proofs.Graph.PreOrder
import FlowFacts.Proofs.Graph.Traversal
import FlowFacts.Proofs.Graph.Arcs
import FlowFacts.Proofs.Graph.TopologicalOrder
import FlowFacts.Proofs.Graph.DepthFirst
import FlowFacts.Proofs.Graph.Outline
import FlowFacts.Proofs.Graph.Reversal
import FlowFacts.Proofs.Graph.Incidence
import FlowFacts.Proofs.Solver.PointNames
import FlowFacts.Proofs.Solver.InRange
import FlowFacts.Proofs.Client.DefUse
import FlowFacts.Proofs.Lattice.LastWrite
import FlowFacts.Proofs.Graph.DotStrings
import FlowFacts.Proofs.Program.DotLabels
import FlowFacts.Proofs.Solver.Pending
import FlowFacts.Proofs.Client.PointTexts
import FlowFacts.Proofs.Client.BlockTrace
