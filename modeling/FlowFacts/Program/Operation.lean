import FlowFacts.Program.Annotation
import FlowFacts.Program.Operand

/-! Operations, and the instructions that give them a place in a block. -/
namespace FlowFacts

inductive Operation where
  /-- Copy `src` into `dst`. -/
  | assign (dst : Local) (src : Operand)
  /-- Put a value from outside the method into `dst`. -/
  | load (dst : Local)
  /-- Invoke a method, and put its result into `dst` if there is one. -/
  | call (callee : MethodRef) (args : List Operand) (dst : Option Local)
  /-- Control comes here only where the capability is available. -/
  | assume (capability : String)
  /-- Leave the method. -/
  | ret (value : Option Operand)
  | nop
deriving DecidableEq, Ord

/-- The kind of an operation, which transfer tables go by. -/
inductive OperationKind where
  | assign
  | load
  | call
  | assume
  | ret
  | nop
deriving DecidableEq, Ord

/-- Every kind, in its order. -/
def OperationKind.all : List OperationKind := [.assign, .load, .call, .assume, .ret, .nop]

namespace Operation

def kind : Operation → OperationKind
  | .assign .. => .assign
  | .load .. => .load
  | .call .. => .call
  | .assume .. => .assume
  | .ret .. => .ret
  | .nop => .nop

/-- The local the operation writes, if it writes one. -/
def written? : Operation → Option Local
  | .assign dst _ => some dst
  | .load dst => some dst
  | .call _ _ dst => dst
  | .assume _ | .ret _ | .nop => none

/-- The locals the operation reads, in order and with repeats. -/
def localsRead : Operation → List Local
  | .assign _ src => src.local?.toList
  | .call _ args _ => args.filterMap Operand.local?
  | .ret value => (value.bind Operand.local?).toList
  | .load _ | .assume _ | .nop => []

def display : Operation → String
  | .assign dst src => dst.display ++ " = " ++ src.display
  | .load dst => dst.display ++ " = load"
  | .call callee args dst =>
    (match dst with
      | some dst => dst.display ++ " = "
      | none => "") ++
      "call " ++ callee.display ++ "(" ++ ", ".intercalate (args.map Operand.display) ++ ")"
  | .assume capability => "assume " ++ capability
  | .ret (some value) => "ret " ++ value.display
  | .ret none => "ret"
  | .nop => "nop"

end Operation

/-- An operation with its number in its block. -/
structure Instruction where
  operation : Operation
  index : Nat
deriving DecidableEq, Ord

namespace Instruction

def kind (i : Instruction) : OperationKind := i.operation.kind

def display (i : Instruction) : String :=
  String.ofList (Text.hexPair i.index) ++ " " ++ i.operation.display

end Instruction

end FlowFacts
