import FlowFacts.Proofs.Solver.Course
import FlowFacts.Proofs.Solver.Halting

/-! Every number that a run looks up is a point's.

A run keeps its points, what they name, their facts and their visits in columns, and reads and
writes them by number (`Touches`). The program may be any: two of its blocks may pass for one, so
that several places share a number, and what it says of neighbours may be wrong. The numbers are
still the run's own. They come from the graph that preparing makes of the points, turned round or
not, and from the walk over that graph, and both know of no other vertices (`prepare_spec`). As
what is listed is reached, and what is reached is a vertex, every lookup finds its place, in every
state that a run passes (`Passes.inRange`), and no run aborts (`touches_points`). -/
namespace FlowFacts.Solver
variable {α : Type}

/-- The columns have a place for each of so many points. -/
structure Columns (P : Problem α) (s : State α) (count : Nat) : Prop where
  nodes : P.nodes.size = count
  incoming : s.incoming.size = count
  outgoing : s.outgoing.size = count
  visits : s.visits.size = count

/-- The next step looks up this number: it visits the point, or the point's fact flows into the
one that it visits. -/
inductive Touches (P : Problem α) (s : State α) : Nat → Prop
  | visited {index : Nat} {rest : List Nat} (head : s.queue = index :: rest) : Touches P s index
  | source {index i : Nat} {rest sources : List Nat} (head : s.queue = index :: rest)
      (flows : P.flow.predecessorIndices index = .ok sources) (mem : i ∈ sources) : Touches P s i

section States
variable {P : Problem α} {s : State α}

theorem Invariant.columns (h : Invariant P s) : Columns P s P.nodes.size :=
  ⟨rfl, h.incoming_size, h.outgoing_size, h.visits_size⟩

/-- What is listed is a vertex, and so is what leads to it. -/
theorem Invariant.touches_lt (hP : P.WellFormed) (h : Invariant P s) {i : Nat}
    (touches : Touches P s i) : i < P.nodes.size := by
  have hlisted {index : Nat} {rest : List Nat} (head : s.queue = index :: rest) :
      index < P.nodes.size := hP.lt_of_reaches (h.reached index (head ▸ List.mem_cons_self))
  cases touches with
  | visited head => exact hlisted head
  | @source index _ _ sources head flows mem =>
    obtain ⟨sources', hsources, -, hmem⟩ := hP.predecessors (hlisted head)
    cases flows.symm.trans hsources
    exact (hP.vertices i).1 (hP.consistent.ends_are_vertices i index ((hmem i).1 mem)).1

end States

section Runs
variable [DecidableEq α] {A : Analysis α} {c : ControlFlowGraph} {initial : α} {o : Options}
  {P : Problem α} {s : State α}

/-- The invariant holds in every state that is passed, whatever the program. -/
theorem Passes.steady (h : Passes A c initial o P s) :
    P.WellFormed ∧ P.nodes.size = c.points.length ∧ Invariant P s := by
  obtain ⟨first, hprepare, hpasses⟩ := h
  have hspec := prepare_spec hprepare
  refine ⟨hspec.wellFormed, hspec.size, ?_⟩
  induction hpasses with
  | refl => exact hspec.invariant
  | tail _ hstep ih =>
    obtain ⟨event, hwent⟩ := hstep
    obtain ⟨v, rfl, -⟩ := step_went hwent
    exact ih.next hspec.wellFormed v

theorem Passes.inRange (h : Passes A c initial o P s) : Columns P s c.points.length ∧
    ∀ i, Touches P s i → i < c.points.length := by
  obtain ⟨hP, hsize, hinv⟩ := h.steady
  rw [← hsize]
  exact ⟨hinv.columns, fun i => hinv.touches_lt hP⟩

/-- A step that stops has an error to report. -/
theorem Passes.stops_with_error (h : Passes A c initial o P s) {events : List (Event α)}
    {why : Stop} (stops : step P s = .stopped events why) : ∃ e, why = .error e := by
  obtain ⟨hP, -, hinv⟩ := h.steady
  exact (step_stopped hP hinv stops).exists_error

/-- The solver gives an answer or reports an error. -/
theorem fixedPoint_answers (A : Analysis α) (c : ControlFlowGraph) (initial : α) (o : Options) :
    (∃ store, fixedPoint A c initial o = .ok store) ∨
      ∃ e, fixedPoint A c initial o = .error (.error e) := by
  cases hprepare : prepare A c initial o with
  | error e => exact .inr ⟨e, by simp only [fixedPoint, run, hprepare]⟩
  | ok prepared =>
    obtain ⟨pops, outcome, -, -, hanswer, hend⟩ := prepare_ends hprepare
    rcases hend with ⟨final, rfl, -⟩ | ⟨t, why, rfl, -, -, hstops⟩
    · exact .inl ⟨_, hanswer⟩
    · obtain ⟨e, rfl⟩ := hstops.exists_error
      exact .inr ⟨e, hanswer⟩

end Runs

/-- **No lookup of a run is out of range**, whatever the program, the analysis and the options. In
every state that the run passes all columns are as long as the list of points, the next step looks
up numbers below that length only, and it does not abort; and so the solver gives an answer or
reports an error. -/
theorem touches_points [DecidableEq α] (A : Analysis α) (c : ControlFlowGraph) (initial : α)
    (o : Options) :
    (∀ P s, Passes A c initial o P s → Columns P s c.points.length ∧
        (∀ i, Touches P s i → i < c.points.length) ∧
          ∀ events why, step P s = .stopped events why → ∃ e, why = .error e) ∧
      ((∃ store, fixedPoint A c initial o = .ok store) ∨
        ∃ e, fixedPoint A c initial o = .error (.error e)) := by
  refine ⟨fun P s h => ?_, fixedPoint_answers A c initial o⟩
  obtain ⟨hcolumns, htouches⟩ := h.inRange
  exact ⟨hcolumns, htouches, fun _ _ => h.stops_with_error⟩

/-- The first block is stored twice, once with an instruction more, all under one number; there
are neighbours without blocks, and the exit is no block. -/
def misfiled : ControlFlowGraph where
  graph := {
    vertexMap := .ofList [(0, Block.mk 0 1 [⟨.nop, 0⟩]), (4, Block.mk 0 0 [⟨.nop, 0⟩, ⟨.nop, 0⟩])]
    edgeMap := ∅
    successorMap := .ofList [(0, Std.ExtTreeSet.ofList [7])]
    predecessorMap := .ofList [(9, Std.ExtTreeSet.ofList [0, 4])] }
  nextIndex := 0
  entry := some 4
  exit := some 9

/-- All three points have one name. Forward the last place counts and is visited, in a circle;
backward there is no place to start from. -/
theorem touches_points_misfiled : misfiled.points.length = 3 ∧
    (∃ store, fixedPoint countdown misfiled 4 {} = .ok store ∧
      store.facts.map (·.visits) = [0, 0, 5]) ∧
    ∃ e, fixedPoint countdown misfiled 4 { direction := .backward } = .error (.error e) := by
  have hvisits : (fixedPoint countdown misfiled 4 {}).map (fun s => s.facts.map (·.visits)) =
      .ok [0, 0, 5] := by decide +kernel
  have hstops : ¬ (fixedPoint countdown misfiled 4 { direction := .backward }).isOk := by
    decide +kernel
  obtain ⟨store, h, hcount⟩ := map_eq_ok.1 hvisits
  refine ⟨by decide +kernel, ⟨store, h, hcount.symm⟩, ?_⟩
  refine (touches_points countdown misfiled 4 { direction := .backward }).2.resolve_left fun hok => ?_
  obtain ⟨store, hok⟩ := hok
  exact hstops (by rw [hok]; rfl)

end FlowFacts.Solver
