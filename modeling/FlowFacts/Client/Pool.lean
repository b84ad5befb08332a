import FlowFacts.Program.Method
import FlowFacts.Solver.Log

/-! Many methods, analyzed by several workers.

The workers share a counter. A worker claims the next number, stops when it is past
the last method, and else analyzes the method of that number and keeps the result
with the number. A schedule says which worker moves when; `run` follows any
schedule, and the results in the order of their numbers do not depend on it. -/
namespace FlowFacts.Pool
variable {α : Type}

/-- What a worker is doing. -/
inductive Activity where
  | idle
  /-- It has claimed this number and not yet analyzed the method. -/
  | claimed (index : Nat)
  | stopped
  | aborted (message : String)
deriving DecidableEq

structure Worker (α : Type) where
  activity : Activity
  results : List (Nat × Except Error α)

structure State (α : Type) where
  /-- The next number to claim. -/
  next : Nat
  workers : Array (Worker α)
  /-- Last first. -/
  log : List Record

/-! ### One move -/

/-- An error that speaks of a broken analysis is worth a record. -/
def failureRecord? (m : Method) (e : Error) : Option Record :=
  if e.isContractViolation then
    some ⟨.error, "analysis of " ++ m.name ++ " failed: " ++ e.message⟩
  else none

/-- The records of one analysis. -/
def records (m : Method) (answer : Logged α) : List Record :=
  match answer.outcome with
  | .error (.error e) => answer.log ++ (failureRecord? m e).toList
  | _ => answer.log

/-- The worker with the result of its method, the method's name put on an error. -/
def finish (w : Worker α) (index : Nat) (m : Method) (outcome : Except Stop α) : Worker α :=
  match outcome with
  | .ok a => ⟨.idle, w.results ++ [(index, .ok a)]⟩
  | .error (.error e) => ⟨.idle, w.results ++ [(index, .error (e.inMethod m.name))]⟩
  | .error (.abort message) => ⟨.aborted message, w.results⟩

/-- What one worker does when its turn comes. -/
def move (methods : List Method) (analysis : Method → Logged α) (s : State α) (worker : Nat) :
    State α :=
  match s.workers[worker]? with
  | none => s
  | some w =>
    match w.activity with
    | .idle =>
      let activity := if s.next < methods.length then .claimed s.next else .stopped
      { s with
        next := s.next + 1
        workers := s.workers.setIfInBounds worker { w with activity } }
    | .claimed index =>
      match methods[index]? with
      | none => s
      | some m =>
        let answer := analysis m
        { s with
          workers := s.workers.setIfInBounds worker (finish w index m answer.outcome)
          log := (records m answer).reverse ++ s.log }
    | .stopped | .aborted _ => s

/-! ### A run -/

def initial (workers : Nat) : State α := ⟨0, .replicate workers ⟨.idle, []⟩, []⟩

/-- Follow a schedule. -/
def run (methods : List Method) (analysis : Method → Logged α) (workers : Nat)
    (schedule : List Nat) : State α :=
  schedule.foldl (move methods analysis) (initial workers)

/-- All results in the order of their numbers. -/
def results (s : State α) : List (Except Error α) :=
  ((s.workers.toList.flatMap (·.results)).mergeSort fun a b => a.1 ≤ b.1).map (·.2)

/-- The message of the first worker that aborted. -/
def aborted? (s : State α) : Option String :=
  s.workers.toList.findSome? fun w =>
    match w.activity with
    | .aborted message => some message
    | _ => none

/-- Every worker in turn, often enough for one of them to do all the work. -/
def rounds (methods workers : Nat) : List Nat :=
  (List.range (2 * methods + 1)).flatMap fun _ => List.range workers

/-- As many workers as asked for, or as there are cores, and no more than methods. -/
def workerCount (threads cores methods : Nat) : Nat :=
  max 1 (min (if threads = 0 then cores else threads) methods)

def startRecord (methods workers : Nat) : Record :=
  ⟨.debug, "analyzing " ++ methods.repr ++ " methods on " ++ workers.repr ++ " threads"⟩

/-- Analyze every method; the results come in the order of the methods. -/
def analyze (methods : List Method) (threads cores : Nat) (analysis : Method → Logged α) :
    Logged (List (Except Error α)) :=
  let workers := workerCount threads cores methods.length
  let final := run methods analysis workers (rounds methods.length workers)
  { outcome := match aborted? final with
      | some message => .error (.abort message)
      | none => .ok (results final)
    log := startRecord methods.length workers :: final.log.reverse }

end FlowFacts.Pool
