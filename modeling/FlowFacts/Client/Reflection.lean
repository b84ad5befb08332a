import FlowFacts.Lattice.MapFact
import FlowFacts.Lattice.ValueSet
import FlowFacts.Program.Method
import FlowFacts.Program.SymbolicValue
import FlowFacts.Solver.Worklist

/-! The members that reflective calls may name.

A call to a method that looks a member up reads the name from one argument. The
values that may reach the argument are followed forward through the locals of the
method; a call is resolved when all of them are names, and few enough to list. -/
namespace FlowFacts

inductive Resolution where
  /-- Control never comes here. -/
  | unreachable
  /-- The call can name these members and no others. -/
  | resolved (names : Std.ExtTreeSet String)
  | unresolvable
deriving DecidableEq

namespace Resolution

def names? : Resolution → Option (Std.ExtTreeSet String)
  | .resolved names => some names
  | .unreachable | .unresolvable => none

def toJson : Resolution → Json
  | .unreachable => .text "Unreachable"
  | .resolved names => Json.tagged "Resolved" (.array (names.toList.map .text))
  | .unresolvable => .text "Unresolvable"

def ofJson? (j : Json) : Option Resolution := do
  match ← j.case? with
  | ("Unreachable", c) => Json.plain? .unreachable c
  | ("Resolved", c) => (Json.content? Json.decode c).map .resolved
  | ("Unresolvable", c) => Json.plain? .unresolvable c
  | _ => none

instance : Json.Encode Resolution := ⟨fun r => .ok r.toJson⟩
instance : Json.Decode Resolution := ⟨ofJson?⟩

end Resolution

/-- A call to a method that looks a member up. -/
structure ReflectionSite where
  point : Point
  callee : String
  argument : Nat
  resolution : Resolution
deriving DecidableEq

namespace ReflectionSite

def targets? (s : ReflectionSite) : Option (Std.ExtTreeSet String) := s.resolution.names?

def toJson (s : ReflectionSite) : Json :=
  .object [("point", s.point.toJson), ("callee", .text s.callee),
    ("argument", Json.nat s.argument), ("resolution", s.resolution.toJson)]

def ofJson? (j : Json) : Option ReflectionSite := do
  return ⟨← Point.ofJson? (← j.field? "point"), ← (← j.field? "callee").text?,
    ← (← j.field? "argument").index?, ← Resolution.ofJson? (← j.field? "resolution")⟩

instance : Json.Encode ReflectionSite := ⟨fun s => .ok s.toJson⟩
instance : Json.Decode ReflectionSite := ⟨ofJson?⟩

end ReflectionSite

namespace Reflection

/-! ### The analysis -/

/-- The values each local may hold. -/
abbrev LocalValues := MapFact Local (ValueSet SymbolicValue)

def values (bound : Nat) : Lattice (ValueSet SymbolicValue) := ValueSet.lattice bound

/-- The values of an operand. -/
def eval (bound : Nat) (fact : LocalValues) : Operand → ValueSet SymbolicValue
  | .slot l => fact.getOrTop (values bound) l
  | .text value => .singleton bound (.text value)
  | .type name => .singleton bound (.type name)
  | .null => .singleton bound .null

/-- What an operation does to the values of locals. -/
def execute (bound : Nat) (fact : LocalValues) : Operation → LocalValues
  | .assign dst src => fact.insert (values bound) dst (eval bound fact src)
  | .load dst => fact.insert (values bound) dst (.singleton bound .opaqueValue)
  | .call _ _ (some dst) => fact.insert (values bound) dst (.singleton bound .opaqueValue)
  | .call _ _ none | .assume _ | .ret _ | .nop => fact

def localValues (bound : Nat) : Analysis LocalValues where
  lattice := MapFact.lattice (values bound)
  transfer := .total fun l fact =>
    match l.operation? with
    | some operation => execute bound fact operation
    | none => fact

/-- The facts, from an entry where no local has a value. -/
def solve (m : Method) (o : Options) : Solver.Run LocalValues :=
  Solver.runForward (localValues o.bound) m.body .empty o

/-! ### The sites -/

/-- A set with members that all are names. -/
def resolve : ValueSet SymbolicValue → Resolution
  | .unknown => .unresolvable
  | .values members =>
    if members.isEmpty then .unresolvable
    else
      match members.toList.mapM SymbolicValue.name? with
      | some names => .resolved (.ofList names)
      | none => .unresolvable

def resolution (bound : Nat) (facts : PointFacts LocalValues) (args : List Operand)
    (argument : Nat) : Resolution :=
  if facts.visits = 0 then .unreachable
  else
    match args[argument]? with
    | some operand => resolve (eval bound facts.before operand)
    | none => .unresolvable

/-- The site at one point, if the call there looks a member up. -/
def siteAt (m : Method) (bound : Nat) (store : FactStore LocalValues) (p : Point) :
    Except Error (Option ReflectionSite) := do
  match (← m.body.locate p).operation? with
  | some (.call callee args _) =>
    match callee.reflectionArgument? with
    | some argument =>
      let facts ← store.lookup p
      return some {
        point := p, callee := callee.name, argument
        resolution := resolution bound facts args argument }
    | none => return none
  | _ => return none

/-- Every site, by point. -/
def sitesOf (m : Method) (bound : Nat) (store : FactStore LocalValues) :
    Except Error (List ReflectionSite) :=
  (store.points.mapM (siteAt m bound store)).map fun found => found.filterMap id

/-- The sites, when the solver came to an end. -/
def sitesAfter (m : Method) (bound : Nat) (r : Solver.Run LocalValues) :
    Except Stop (List ReflectionSite) := do
  let store ← r.outcome
  Stop.ofError (sitesOf m bound store)

/-- Every call of the method that looks a member up. -/
def sites (m : Method) (o : Options) : Except Stop (List ReflectionSite) :=
  sitesAfter m o.bound (solve m o)

/-! ### The log -/

def debugLocal (l : Local) : String := "Local \x7b index: " ++ l.index.repr ++ " \x7d"

def debugFact (fact : LocalValues) : String :=
  fact.debug debugLocal (ValueSet.debug SymbolicValue.debug)

/-- A site that could not be resolved is worth a record. -/
def siteRecord? (m : Method) (s : ReflectionSite) : Option Record :=
  if s.resolution = .unresolvable then
    some ⟨.debug, s.point.display ++ " in " ++ m.name ++ ": " ++ s.callee ++ " argument " ++
      s.argument.repr ++ " is unresolvable"⟩
  else none

/-- The sites, with the records of the solver and one for each unresolvable site. -/
def report (m : Method) (o : Options) : Logged (List ReflectionSite) :=
  let r := solve m o
  let outcome := sitesAfter m o.bound r
  let records := match outcome with
    | .ok found => found.filterMap (siteRecord? m)
    | .error _ => []
  ⟨outcome, r.log debugFact ++ records⟩

end Reflection

end FlowFacts
