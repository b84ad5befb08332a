import FlowFacts.Program.SymbolicValue
import FlowFacts.Proofs.Program.ControlFlow
import Mathlib.Data.Set.Basic

/-! What the locals of a method hold along a way.

At first no local holds anything. An operation that writes a local puts a value there, or
nothing when it copies a local that holds nothing (`Operation.execute`). A way executes the
operations of the points it has passed (`executed`), and over all ways to a point an
operand takes a set of values there (`arising`). -/
namespace FlowFacts

/-- What each local holds, if it holds anything. -/
abbrev Locals := Local → Option SymbolicValue

/-- What an operand evaluates to. -/
def Operand.value? (locals : Locals) : Operand → Option SymbolicValue
  | .slot l => locals l
  | .text value => some (.text value)
  | .type name => some (.type name)
  | .null => some .null

/-- The values that an operand takes in some states. -/
def Operand.valuesIn (states : Set Locals) (operand : Operand) : Set SymbolicValue :=
  {v | ∃ locals ∈ states, operand.value? locals = some v}

/-- The local that is written holds what is copied, or a value from elsewhere. -/
def Operation.execute (locals : Locals) : Operation → Locals
  | .assign dst src => fun l => if dst = l then src.value? locals else locals l
  | .load dst => fun l => if dst = l then some .opaqueValue else locals l
  | .call _ _ (some dst) => fun l => if dst = l then some .opaqueValue else locals l
  | .call _ _ none | .assume _ | .ret _ | .nop => locals

namespace ControlFlowGraph

/-- Execute the operation at a point. -/
def pass (c : ControlFlowGraph) (locals : Locals) (p : Point) : Locals :=
  match c.operationAt? p with
  | some operation => operation.execute locals
  | none => locals

theorem pass_of_locate {c : ControlFlowGraph} {p : Point} {l : Location} (h : c.locate p = .ok l)
    (locals : Locals) : c.pass locals p = match l.operation? with
      | some operation => operation.execute locals
      | none => locals := by
  simp only [pass, operationAt?_of_locate h]

/-- What the locals hold after some points have been passed. -/
def executed (c : ControlFlowGraph) (passed : List Point) : Locals :=
  passed.foldl c.pass fun _ => none

theorem executed_append (c : ControlFlowGraph) (passed : List Point) (p : Point) :
    c.executed (passed ++ [p]) = c.pass (c.executed passed) p := by
  simp [executed]

/-- What the locals may hold before a point. -/
def localsAt (c : ControlFlowGraph) (first p : Point) : Set Locals :=
  {locals | ∃ passed, c.Way .forward first passed p ∧ c.executed passed = locals}

/-- The values that an operand takes at a point, over all ways to it. -/
def arising (c : ControlFlowGraph) (first p : Point) (operand : Operand) : Set SymbolicValue :=
  operand.valuesIn (c.localsAt first p)

theorem mem_arising {c : ControlFlowGraph} {first p : Point} {operand : Operand}
    {v : SymbolicValue} : v ∈ c.arising first p operand ↔ ∃ passed,
      c.Way .forward first passed p ∧ operand.value? (c.executed passed) = some v := by
  simp [arising, Operand.valuesIn, localsAt]

/-- Executing a point on a way to it leads to where it flows. -/
theorem pass_mem_localsAt {c : ControlFlowGraph} {first p q : Point} (flow : c.flows .forward p q)
    {locals : Locals} (h : locals ∈ c.localsAt first p) : c.pass locals p ∈ c.localsAt first q := by
  obtain ⟨passed, way, rfl⟩ := h
  exact ⟨passed ++ [p], way.step flow, c.executed_append passed p⟩

theorem localsAt_nonempty {c : ControlFlowGraph} {first p : Point}
    (h : c.Reaches .forward first p) : (c.localsAt first p).Nonempty := by
  obtain ⟨passed, way⟩ := h
  exact ⟨_, passed, way, rfl⟩

end ControlFlowGraph

end FlowFacts
