import FlowFacts.Graph.Walk
import FlowFacts.Solver.Analysis
import FlowFacts.Solver.FactStore
import FlowFacts.Solver.Log
import FlowFacts.Solver.PointGraph

/-! The solver: facts for every point, by a list of points whose facts may change.

All facts start at the top. A visit to a point meets what flows into it, applies
the transfer, and, when the fact that flows out has changed, lists the points that
depend on it. Two guards turn a broken analysis into an error: a bound on the
visits of each point, and a check that no fact rises. A visit more than the bound
ends the run, so the bound and the number of points limit its steps (`stepLimit`).

A run is a sequence of steps (`step`) on a `State`; what it did is kept as events,
apart from how events are written. -/
namespace FlowFacts.Solver
variable {α : Type}

/-! ### What a run works on, and what it does -/

structure Problem (α : Type) where
  analysis : Analysis α
  options : Options
  nodes : Array (Point × Location)
  /-- The edges along which facts flow. -/
  flow : PlainGraph
  /-- The point where `initial` flows in. -/
  start : Nat
  initial : α

structure State (α : Type) where
  /-- The points to visit, the next one first. -/
  queue : List Nat
  /-- The points in the queue. -/
  queued : Indices
  /-- The fact that flowed into each point at its last visit. -/
  incoming : Array α
  /-- The fact that flows out of each point. -/
  outgoing : Array α
  visits : Array Nat
  cancelled : Bool

inductive Event (α : Type) where
  | cancelled (direction : Direction)
  | visited (visit : Nat) (point : Point) (incoming outgoing : α)
  | overBudget (visits : Nat) (point : Point)
  | rose (point : Point) (old new : α)
  | converged (direction : Direction) (points visits : Nat)

/-- What becomes of a state. -/
inductive Step (α : Type) where
  /-- No point is left to visit. -/
  | finished
  | stopped (events : List (Event α)) (why : Stop)
  | went (event : Event α) (next : State α)

/-! ### One visit -/

/-- A number that is no point's. -/
def outOfRange (index size : Nat) : Stop :=
  .abort ("index out of bounds: the len is " ++ size.repr ++ " but the index is " ++ index.repr)

/-- Meet a fact with what flows out of each point, in order. -/
def meetAt (L : Lattice α) (outgoing : Array α) (fact : α) (points : List Nat) : Except Stop α :=
  points.foldlM (fun met i =>
    match outgoing[i]? with
    | some out => .ok (L.meet met out)
    | none => .error (outOfRange i outgoing.size)) fact

/-- The fact that flows into a point. -/
def flowIn (P : Problem α) (s : State α) (index : Nat) : Except Stop α := do
  let sources ← Stop.ofError (P.flow.predecessorIndices index)
  meetAt P.analysis.lattice s.outgoing
    (if index = P.start then P.initial else P.analysis.lattice.top) sources

/-- List a point, unless it is listed. -/
def enqueue (s : State α) (index : Nat) : State α :=
  if s.queued.contains index then s
  else { s with queue := s.queue ++ [index], queued := s.queued.insert index }

/-- The state after a visit that leaves what flows out as it was. -/
def settle (P : Problem α) (s : State α) (index count : Nat) (location : Location) (fact : α)
    (rest : List Nat) : State α :=
  { s with
    queue := rest
    queued := s.queued.erase index
    incoming := s.incoming.setIfInBounds index fact
    visits := s.visits.setIfInBounds index (count + 1)
    cancelled := s.cancelled ||
      (P.options.cancellation.isSome && P.analysis.transfer.raises location fact) }

/-- What flows out is `out` from now on, and the points it flows to are listed. -/
def spread (s : State α) (index : Nat) (out : α) (targets : List Nat) : State α :=
  targets.foldl enqueue { s with outgoing := s.outgoing.setIfInBounds index out }

/-- Compare what flows out with what did, and take it over. -/
def update [DecidableEq α] (P : Problem α) (settled : State α) (index count : Nat) (point : Point)
    (fact old out : α) : Step α :=
  let visited := .visited (count + 1) point fact out
  if out = old then .went visited settled
  else if P.options.verify && !P.analysis.lattice.lessOrEqual out old then
    .stopped [visited, .rose point old out] (.error (.nonMonotone point))
  else
    match P.flow.successorIndices index with
    | .error e => .stopped [visited] (.error e)
    | .ok targets => .went visited (spread settled index out targets)

/-- Visit a point. -/
def visit [DecidableEq α] (P : Problem α) (s : State α) (index : Nat) (rest : List Nat) : Step α :=
  match P.nodes[index]?, s.visits[index]?, s.outgoing[index]? with
  | some (point, location), some count, some old =>
    if P.options.budget < count + 1 then
      .stopped [.overBudget (count + 1) point]
        (.error (.budgetExceeded point P.options.budget))
    else
      match flowIn P s index with
      | .error why => .stopped [] why
      | .ok fact =>
        match P.analysis.transfer.apply location fact with
        | .error e => .stopped [] (.error e)
        | .ok out => update P (settle P s index count location fact rest) index count point fact old out
  | _, _, _ => .stopped [] (outOfRange index P.nodes.size)

def step [DecidableEq α] (P : Problem α) (s : State α) : Step α :=
  match s.queue with
  | [] => .finished
  | index :: rest =>
    if s.cancelled then .stopped [.cancelled P.options.direction] (.error .cancelled)
    else visit P s index rest

/-! ### A run -/

/-- No run has more steps: each but the last adds a visit within the budget. -/
def stepLimit (P : Problem α) : Nat := P.nodes.size * P.options.budget + 2

/-- Step until it ends; the events so far come last first. -/
def loop [DecidableEq α] (P : Problem α) :
    Nat → State α → List (Event α) → List (Event α) × Except Stop (State α)
  | 0, _, events => (events, .error (.abort "step limit reached"))
  | steps + 1, s, events =>
    match step P s with
    | .finished => (events, .ok s)
    | .stopped more why => (more.reverse ++ events, .error why)
    | .went event next => loop P steps next (event :: events)

/-- The points in an order that puts causes first, all facts at the top. -/
def initialState (P : Problem α) (order : List Nat) : State α where
  queue := order
  queued := .ofList order
  incoming := .replicate P.nodes.size P.analysis.lattice.top
  outgoing := .replicate P.nodes.size P.analysis.lattice.top
  visits := .replicate P.nodes.size 0
  cancelled := P.options.isCancelled

/-- Where facts flow in: the start of the entry, or the end of the exit. -/
def startPoint (c : ControlFlowGraph) : Direction → Except Error Point
  | .forward => c.entryBlock.map Block.firstPoint
  | .backward => c.exitBlock.map Block.lastPoint

/-- The edges along which facts flow. -/
def flowGraph (g : PointGraph) : Direction → Except Error PlainGraph
  | .forward => .ok g.graph
  | .backward => g.graph.reversed

/-- The problem and the state it starts from. -/
def prepare (A : Analysis α) (c : ControlFlowGraph) (initial : α) (o : Options) :
    Except Error (Problem α × State α) := do
  let point ← startPoint c o.direction
  let g ← PointGraph.build c
  let flow ← flowGraph g o.direction
  let start ← g.number point
  let P : Problem α := { analysis := A, options := o, nodes := g.nodes, flow, start, initial }
  let order ← flow.reversePostOrder start
  return (P, initialState P order)

/-- The facts on both sides of each point. -/
def collect (P : Problem α) (s : State α) : FactStore α where
  direction := P.options.direction
  facts := (P.nodes.toList.zip (s.incoming.toList.zip (s.outgoing.toList.zip s.visits.toList))).map
    fun (node, incoming, outgoing, visits) =>
      match P.options.direction with
      | .forward => ⟨node.1, incoming, outgoing, visits⟩
      | .backward => ⟨node.1, outgoing, incoming, visits⟩

/-- What a run ends with, and what it did. -/
structure Run (α : Type) where
  outcome : Except Stop (FactStore α)
  events : List (Event α)

def run [DecidableEq α] (A : Analysis α) (c : ControlFlowGraph) (initial : α) (o : Options) :
    Run α :=
  match prepare A c initial o with
  | .error e => ⟨.error (.error e), []⟩
  | .ok (P, s) =>
    match loop P (stepLimit P) s [] with
    | (events, .error why) => ⟨.error why, events.reverse⟩
    | (events, .ok final) =>
      let store := collect P final
      ⟨.ok store, (.converged o.direction store.size store.totalVisits :: events).reverse⟩

/-- The facts that solve the analysis, in the direction of the options. -/
def fixedPoint [DecidableEq α] (A : Analysis α) (c : ControlFlowGraph) (initial : α) (o : Options) :
    Except Stop (FactStore α) :=
  (run A c initial o).outcome

/-- Forward from the entry, whatever the options say. -/
def runForward [DecidableEq α] (A : Analysis α) (c : ControlFlowGraph) (initial : α)
    (o : Options) : Run α :=
  run A c initial { o with direction := .forward }

/-- Backward from the exit, whatever the options say. -/
def runBackward [DecidableEq α] (A : Analysis α) (c : ControlFlowGraph) (initial : α)
    (o : Options) : Run α :=
  run A c initial { o with direction := .backward }

/-! ### The log of a run -/

/-- The record of an event; `f` writes a fact. -/
def Event.record (f : α → String) : Event α → Record
  | .cancelled direction => ⟨.debug, direction.display ++ " analysis cancelled"⟩
  | .visited visit point incoming outgoing =>
    ⟨.trace, "visit " ++ visit.repr ++ " at " ++ point.display ++ ": " ++ f incoming ++ " -> " ++
      f outgoing⟩
  | .overBudget visits point =>
    ⟨.warn, visits.repr ++ " visits at " ++ point.display ++ ", iteration budget exceeded"⟩
  | .rose point old new =>
    ⟨.warn, "fact at " ++ point.display ++ " rose from " ++ f old ++ " to " ++ f new⟩
  | .converged direction points visits =>
    ⟨.debug, direction.display ++ " analysis converged over " ++ points.repr ++ " points after " ++
      visits.repr ++ " visits"⟩

def Run.log (r : Run α) (f : α → String) : List Record := r.events.map (Event.record f)

end FlowFacts.Solver
