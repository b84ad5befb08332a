import FlowFacts.Json.Codec

/-! The settings of an analysis. -/
namespace FlowFacts

/-- Which way facts flow along the edges of a program. -/
inductive Direction where
  | forward
  | backward
deriving DecidableEq

namespace Direction

def display : Direction → String
  | .forward => "forward"
  | .backward => "backward"

def toJson : Direction → Json
  | .forward => .text "Forward"
  | .backward => .text "Backward"

def ofJson? (j : Json) : Option Direction := do
  match ← j.case? with
  | ("Forward", c) => Json.plain? .forward c
  | ("Backward", c) => Json.plain? .backward c
  | _ => none

instance : Json.Encode Direction := ⟨fun d => .ok d.toJson⟩
instance : Json.Decode Direction := ⟨ofJson?⟩

end Direction

structure Options where
  direction : Direction := .forward
  /-- How often a point may be visited. -/
  budget : Nat := 1024
  /-- How many members a may-set may have. -/
  bound : Nat := 16
  /-- Check that no fact rises. -/
  verify : Bool := true
  /-- The cancellation flag, if there is one, as it stands when the analysis starts. From then
  on only a transfer raises it (`Transfer.raises`), never another thread. -/
  cancellation : Option Bool := none
deriving DecidableEq

/-- Cancellation has been asked for. -/
def Options.isCancelled (o : Options) : Bool := o.cancellation.getD false

end FlowFacts
