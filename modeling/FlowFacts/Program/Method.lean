import FlowFacts.Program.ControlFlowGraph

/-! Methods, the unit of analysis: a name, annotations and a body. -/
namespace FlowFacts

structure Method where
  name : String
  annotations : List Annotation
  body : ControlFlowGraph
deriving DecidableEq

namespace Method

/-- The message of the first annotation by which the method itself requires the
capability. -/
def requires? (m : Method) (capability : String) : Option String :=
  ((requirements m.annotations).find? fun r => r.1 == capability).map (·.2)

/-- The annotations, a line each, then the name and the body. -/
def display (m : Method) : String :=
  String.join (m.annotations.map fun a => a.display ++ "\n") ++
    "method " ++ m.name ++ "\n" ++ m.body.display

end Method

end FlowFacts
