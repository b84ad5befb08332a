import FlowFacts.Proofs.Solver.Preparing
import FlowFacts.Proofs.Solver.Progress

/-! Every run halts.

Nothing is asked of the program here, and nothing of the analysis: its facts may rise and
fall for ever, its meet need be none, and its transfers may fail. Every run has an end, after
at most as many points as there are visits in all budgets and one more (`exists_ends`); it
has no other end (`Ends.unique`), and the solver gives back that one. -/
namespace FlowFacts.Solver
variable {α : Type} [DecidableEq α]

/-- There is one end, and one way to it. -/
theorem Ends.unique {P : Problem α} {s : State α} {pops pops' : Nat}
    {outcome outcome' : Except Stop (State α)} (h : Ends P s pops outcome)
    (h' : Ends P s pops' outcome') : pops = pops' ∧ outcome = outcome' := by
  induction h generalizing pops' with
  | finished done =>
    cases h' with
    | finished => exact ⟨rfl, rfl⟩
    | stopped stops => cases done.symm.trans stops
    | went goes => cases done.symm.trans goes
  | stopped stops =>
    cases h' with
    | finished done => cases stops.symm.trans done
    | stopped stops' =>
      cases stops.symm.trans stops'
      exact ⟨rfl, rfl⟩
    | went goes => cases stops.symm.trans goes
  | went goes _ ih =>
    cases h' with
    | finished done => cases goes.symm.trans done
    | stopped stops => cases goes.symm.trans stops
    | went goes' rest' =>
      cases goes.symm.trans goes'
      obtain ⟨hpops, houtcome⟩ := ih rest'
      exact ⟨congrArg (· + 1) hpops, houtcome⟩

omit [DecidableEq α] in
/-- A store has the visits of the state that it is collected from. -/
theorem visits_le_of_collect {P : Problem α} {s : State α} (hb : Budgeted P s) {f : PointFacts α}
    (hf : f ∈ (collect P s).facts) : f.visits ≤ P.options.budget := by
  rw [facts_collect] at hf
  obtain ⟨⟨node, fact, out, visits⟩, hentry, rfl⟩ := List.mem_map.1 hf
  have hvisits : visits ∈ s.visits.toList :=
    (List.of_mem_zip (List.of_mem_zip (List.of_mem_zip hentry).2).2).2
  obtain ⟨i, hi⟩ := List.mem_iff_getElem?.1 hvisits
  have hle := hb i
  rw [visitsOf, ← Array.getElem?_toList, hi] at hle
  rw [visits_factsAt]
  exact hle

/-- What was prepared has an end, and the solver gives back that one. -/
theorem prepare_ends {A : Analysis α} {c : ControlFlowGraph} {initial : α} {o : Options}
    {P : Problem α} {s : State α} (h : prepare A c initial o = .ok (P, s)) :
    ∃ pops outcome, Ends P s pops outcome ∧ pops ≤ c.points.length * o.budget + 1 ∧
      fixedPoint A c initial o = outcome.map (collect P) ∧
        ((∃ final, outcome = .ok final ∧ Invariant P final ∧ Budgeted P final) ∨
          ∃ t why, outcome = .error why ∧ Invariant P t ∧ Budgeted P t ∧ StopsFor P t why) := by
  have hspec := prepare_spec h
  obtain ⟨order, rfl⟩ := hspec.first
  obtain ⟨pops, outcome, hends, hpops, hend⟩ :=
    exists_ends hspec.wellFormed (fun _ _ hb v => Budgeted.next hb v) hspec.invariant
      (budgeted_initial P order) (budgeted_initial P order)
  have hsteps : pops < stepLimit P := by
    unfold stepLimit
    omega
  rw [hspec.size, hspec.options] at hpops
  refine ⟨pops, outcome, hends, by omega, ?_, hend⟩
  rw [fixedPoint_eq h, hends.loop_eq hsteps]

/-- However a prepared run is followed to an end, the solver gives back that one. -/
theorem fixedPoint_of_ends {A : Analysis α} {c : ControlFlowGraph} {initial : α} {o : Options}
    {P : Problem α} {s : State α} (h : prepare A c initial o = .ok (P, s)) {pops : Nat}
    {outcome : Except Stop (State α)} (ends : Ends P s pops outcome) :
    fixedPoint A c initial o = outcome.map (collect P) := by
  obtain ⟨pops', outcome', hends, -, hanswer, -⟩ := prepare_ends h
  rw [(ends.unique hends).2, hanswer]

/-- Every run halts, whatever the program and the analysis. Preparing fails, or the run takes
no more points off the queue than there are visits in the budgets of all points, and one; it
ends with an error or with an answer in which every point is within its budget. -/
theorem fixedPoint_halts (A : Analysis α) (c : ControlFlowGraph) (initial : α) (o : Options) :
    (∃ e, prepare A c initial o = .error e ∧ fixedPoint A c initial o = .error (.error e)) ∨
      ∃ P s pops outcome, prepare A c initial o = .ok (P, s) ∧ Ends P s pops outcome ∧
        pops ≤ c.points.length * o.budget + 1 ∧
          ((∃ e, outcome = .error (.error e) ∧ fixedPoint A c initial o = .error (.error e)) ∨
            ∃ final, outcome = .ok final ∧ fixedPoint A c initial o = .ok (collect P final) ∧
              (collect P final).points = c.points ∧
                ∀ f ∈ (collect P final).facts, f.visits ≤ o.budget) := by
  cases hprepare : prepare A c initial o with
  | error e => exact .inl ⟨e, rfl, by simp only [fixedPoint, run, hprepare]⟩
  | ok prepared =>
    obtain ⟨P, s⟩ := prepared
    have hspec := prepare_spec hprepare
    obtain ⟨pops, outcome, hends, hpops, hanswer, hend⟩ := prepare_ends hprepare
    refine .inr ⟨P, s, pops, outcome, rfl, hends, hpops, ?_⟩
    rcases hend with ⟨final, rfl, hinv, hb⟩ | ⟨t, why, rfl, -, -, hstops⟩
    · refine .inr ⟨final, rfl, hanswer, ?_, fun f hf => ?_⟩
      · rw [points_collect_nodes hinv, hspec.nodes]
      · rw [← hspec.options]
        exact visits_le_of_collect hb hf
    · obtain ⟨e, rfl⟩ := hstops.exists_error
      exact .inl ⟨e, rfl, hanswer⟩

end FlowFacts.Solver
