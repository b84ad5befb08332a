import FlowFacts.Lattice.DefiniteSet
import FlowFacts.Program.Method
import FlowFacts.Solver.Worklist

/-! Calls that need a runtime capability, and whether each is safe.

A call is safe where every way to it assumes the capability, or where the calling
method requires it in turn and so passes the need on to its own callers. -/
namespace FlowFacts

inductive UseStatus where
  /-- Control never comes here. -/
  | unreachable
  /-- Every way here assumes the capability. -/
  | guarded
  /-- The calling method requires the capability itself. -/
  | suppressedByCaller
  | unguarded
deriving DecidableEq, Ord

namespace UseStatus

def display : UseStatus → String
  | .unreachable => "unreachable"
  | .guarded => "guarded"
  | .suppressedByCaller => "suppressed by caller"
  | .unguarded => "unguarded"

def name : UseStatus → String
  | .unreachable => "Unreachable"
  | .guarded => "Guarded"
  | .suppressedByCaller => "SuppressedByCaller"
  | .unguarded => "Unguarded"

def toJson (s : UseStatus) : Json := .text s.name

def ofJson? (j : Json) : Option UseStatus := do
  match ← j.case? with
  | ("Unreachable", c) => Json.plain? .unreachable c
  | ("Guarded", c) => Json.plain? .guarded c
  | ("SuppressedByCaller", c) => Json.plain? .suppressedByCaller c
  | ("Unguarded", c) => Json.plain? .unguarded c
  | _ => none

instance : Json.Encode UseStatus := ⟨fun s => .ok s.toJson⟩
instance : Json.Decode UseStatus := ⟨ofJson?⟩

end UseStatus

/-- A call to a method that requires a capability. -/
structure CapabilityUse where
  point : Point
  callee : String
  capability : String
  message : String
  status : UseStatus
deriving DecidableEq

namespace CapabilityUse

def isUnguarded (u : CapabilityUse) : Bool := u.status = .unguarded

def display (u : CapabilityUse) : String :=
  u.point.display ++ " call " ++ u.callee ++ " requires " ++ u.capability ++ ": " ++
    u.status.display

def toJson (u : CapabilityUse) : Json :=
  .object [("point", u.point.toJson), ("callee", .text u.callee),
    ("capability", .text u.capability), ("message", .text u.message),
    ("status", u.status.toJson)]

def ofJson? (j : Json) : Option CapabilityUse := do
  return ⟨← Point.ofJson? (← j.field? "point"), ← (← j.field? "callee").text?,
    ← (← j.field? "capability").text?, ← (← j.field? "message").text?,
    ← UseStatus.ofJson? (← j.field? "status")⟩

instance : Json.Encode CapabilityUse := ⟨fun u => .ok u.toJson⟩
instance : Json.Decode CapabilityUse := ⟨ofJson?⟩

end CapabilityUse

namespace Capability

/-! ### The analysis -/

/-- What an operation assumes is available after it. -/
def assumeTransfer : Transfer (DefiniteSet String) :=
  .total fun l fact =>
    match l.operation? with
    | some (.assume capability) => fact.insert capability
    | _ => fact

/-- The capabilities that every way to a point assumes. -/
def assumed : Analysis (DefiniteSet String) where
  lattice := DefiniteSet.lattice
  transfer := (TransferTable.empty.setRow .assume assumeTransfer).transfer

/-- The facts, from an entry where nothing is assumed. -/
def solve (m : Method) (o : Options) : Solver.Run (DefiniteSet String) :=
  Solver.runForward assumed m.body .empty o

/-! ### The uses -/

def status (m : Method) (facts : PointFacts (DefiniteSet String)) (capability : String) :
    UseStatus :=
  if facts.visits = 0 then .unreachable
  else if (m.requires? capability).isSome then .suppressedByCaller
  else if facts.before.contains capability then .guarded
  else .unguarded

/-- The uses at one point. -/
def usesAt (m : Method) (store : FactStore (DefiniteSet String)) (p : Point) :
    Except Error (List CapabilityUse) := do
  match (← m.body.locate p).operation? with
  | some (.call callee _ _) =>
    let facts ← store.lookup p
    return callee.requirements.map fun (capability, message) =>
      { point := p, callee := callee.name, capability, message
        status := status m facts capability }
  | _ => return []

/-- Every use, by point and then in the order of the callee's annotations. -/
def usesOf (m : Method) (store : FactStore (DefiniteSet String)) :
    Except Error (List CapabilityUse) :=
  (store.points.mapM (usesAt m store)).map List.flatten

/-- The uses, when the solver came to an end. -/
def usesAfter (m : Method) (r : Solver.Run (DefiniteSet String)) :
    Except Stop (List CapabilityUse) := do
  let store ← r.outcome
  Stop.ofError (usesOf m store)

/-- Every call of the method that requires a capability. -/
def uses (m : Method) (o : Options) : Except Stop (List CapabilityUse) := usesAfter m (solve m o)

/-! ### The log -/

def useRecord (m : Method) (u : CapabilityUse) : Record :=
  ⟨.trace, u.point.display ++ " in " ++ m.name ++ ": " ++ u.callee ++ " " ++ u.status.display⟩

/-- The uses, with the records of the solver and one for each use. -/
def report (m : Method) (o : Options) : Logged (List CapabilityUse) :=
  let r := solve m o
  let outcome := usesAfter m r
  let records := match outcome with
    | .ok found => found.map (useRecord m)
    | .error _ => []
  ⟨outcome, r.log (DefiniteSet.debug Text.quoted) ++ records⟩

end Capability

end FlowFacts
