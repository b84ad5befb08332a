import FlowFacts.Text.Literal

/-! Annotations of methods, and the reference to a method that a call carries. -/
namespace FlowFacts

inductive Annotation where
  /-- Calls are safe only where the capability is available. -/
  | requires (capability message : String)
  /-- The method looks a member up by the name in this argument. -/
  | reflectionAccess (argument : Nat)
deriving DecidableEq, Ord

namespace Annotation

def display : Annotation → String
  | .requires capability message =>
    "[Requires" ++ capability ++ "(" ++ Text.quoted message ++ ")]"
  | .reflectionAccess argument => "[ReflectionAccess(arg" ++ argument.repr ++ ")]"

/-- The capability and the message of a requirement. -/
def requirement? : Annotation → Option (String × String)
  | .requires capability message => some (capability, message)
  | .reflectionAccess _ => none

def reflectionArgument? : Annotation → Option Nat
  | .requires _ _ => none
  | .reflectionAccess argument => some argument

end Annotation

/-- Every capability that is required, with its message, in order. -/
def requirements (annotations : List Annotation) : List (String × String) :=
  annotations.filterMap Annotation.requirement?

/-- A method as a call names it. -/
structure MethodRef where
  name : String
  annotations : List Annotation
deriving DecidableEq, Ord

namespace MethodRef

def requirements (m : MethodRef) : List (String × String) :=
  FlowFacts.requirements m.annotations

/-- The position of the argument that names the member, by the first annotation
that gives one. -/
def reflectionArgument? (m : MethodRef) : Option Nat :=
  m.annotations.findSome? Annotation.reflectionArgument?

def display (m : MethodRef) : String := m.name

end MethodRef

end FlowFacts
