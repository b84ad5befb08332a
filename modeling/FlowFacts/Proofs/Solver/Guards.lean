import FlowFacts.Proofs.Solver.Halting

/-! What the two guards change.

A run under stricter settings, with a smaller budget or with the check of falling facts, takes
the steps of the laxer run until a guard stops it (`step_withOptions`). So it either ends as the
laxer run does, or at a state that the laxer run passes, for a reason that its guard gives
(`Guarded`, `fixedPoint_stricter`). Nothing is asked of the program, and nothing of the analysis.

The check therefore adds one error and changes nothing else (`fixedPoint_verify`). The budget is
a cut-off: what ends within one budget ends alike within every larger one, and an answer is
given exactly by the budgets that are no smaller than the visits of its most visited point
(`fixedPoint_cutOff`). -/
namespace FlowFacts

namespace FactStore
variable {α : Type}

/-- The visits of the point that was visited most. -/
def mostVisits (s : FactStore α) : Nat := (s.facts.map (·.visits)).foldr max 0

theorem lt_mostVisits {s : FactStore α} {n : Nat} :
    n < s.mostVisits ↔ ∃ f ∈ s.facts, n < f.visits := by
  unfold mostVisits
  induction s.facts with
  | nil => simp
  | cons f facts ih => simp [ih]

theorem visits_le_mostVisits {s : FactStore α} {p : Point} {n : Nat} (h : s.visits p = .ok n) :
    n ≤ s.mostVisits := by
  obtain ⟨f, hf, rfl⟩ := map_eq_ok.1 h
  have hmem : f ∈ s.facts := by
    unfold lookup at hf
    split at hf <;> cases hf
    exact List.mem_reverse.1 (List.mem_of_find?_eq_some ‹_›)
  exact Nat.le_of_not_lt fun hlt => Nat.lt_irrefl _ (lt_mostVisits.2 ⟨f, hmem, hlt⟩)

end FactStore

namespace Solver
variable {α : Type}

/-! ### A run -/

section Run
variable [DecidableEq α] {P : Problem α} {s : State α} {pops : Nat}

/-- Under stricter settings the run ends alike, or a guard stops it in a state that it comes to
under the laxer ones. -/
theorem Ends.withOptions {o : Options} (h : o.Stricter P.options)
    {outcome : Except Stop (State α)} (ends : Ends P s pops outcome) :
    Ends (P.withOptions o) s pops outcome ∨ ∃ t before left why,
      Ends (P.withOptions o) s before (.error why) ∧ Guarded P o t why ∧
        Ends P t left outcome := by
  -- The laxer run gives the states; the first of them that a guard stops settles the matter.
  induction ends with
  | @finished s done =>
    rcases step_withOptions h s with hsame | ⟨events, why, hstops, hguarded⟩
    · exact .inl (.finished (hsame.trans done))
    · exact .inr ⟨s, 1, _, why, .stopped hstops, hguarded, .finished done⟩
  | @stopped s _ _ stops =>
    rcases step_withOptions h s with hsame | ⟨events, why, hstops, hguarded⟩
    · exact .inl (.stopped (hsame.trans stops))
    · exact .inr ⟨s, 1, _, why, .stopped hstops, hguarded, .stopped stops⟩
  | @went s _ _ _ _ goes rest ih =>
    rcases step_withOptions h s with hsame | ⟨events, why, hstops, hguarded⟩
    · refine ih.imp (.went (hsame.trans goes)) fun hstopped => ?_
      obtain ⟨t, before, left, why, hends, hguarded, hleft⟩ := hstopped
      exact ⟨t, before + 1, left, why, .went (hsame.trans goes) hends, hguarded, hleft⟩
    · exact .inr ⟨s, 1, _, why, .stopped hstops, hguarded, .went goes rest⟩

theorem Ends.visitsOf_le {final : State α} (ends : Ends P s pops (.ok final)) (i : Nat) :
    visitsOf s i ≤ visitsOf final i := by
  generalize houtcome : (.ok final : Except Stop (State α)) = outcome at ends
  induction ends with
  | finished done =>
    cases houtcome
    exact le_rfl
  | stopped stops => cases houtcome
  | went goes rest ih =>
    obtain ⟨v, rfl, -⟩ := step_went goes
    have hrest := ih houtcome
    rw [v.visitsOf_next] at hrest
    omega

/-- What is next to visit is visited, if the run comes to an answer. -/
theorem Ends.visitsOf_lt {final : State α} (ends : Ends P s pops (.ok final)) {index : Nat}
    {rest : List Nat} (head : s.queue = index :: rest) :
    visitsOf s index < visitsOf final index := by
  cases ends with
  | finished done => cases head.symm.trans (step_finished done)
  | went goes ends =>
    obtain ⟨v, rfl, -⟩ := step_went goes
    have hindex : index = v.index := (List.cons.inj (head.symm.trans v.head)).1
    have hle := ends.visitsOf_le index
    rw [v.visitsOf_next, if_pos hindex] at hle
    omega

end Run

/-! ### The answer -/

section Answer
variable {P : Problem α} {s final : State α}

theorem collect_withOptions {o : Options} (direction : o.direction = P.options.direction) :
    collect (P.withOptions o) = collect P := by
  funext s
  simp only [collect, nodes_withOptions, options_withOptions, direction]

variable {A : Analysis α} {c : ControlFlowGraph} {initial : α} {o : Options}

/-- A point that was visited has the visits of its last place, and those are the visits that the
store gives. -/
theorem visits_collect_last (hprepare : prepare A c initial o = .ok (P, s))
    (hfinal : Invariant P final) {i : Nat} {point : Point} {location : Location}
    (node : P.nodes[i]? = some (point, location)) (visited : 0 < visitsOf final i) :
    (collect P final).visits point = .ok (visitsOf final i) := by
  obtain ⟨fact, out, n, hin, hout, hn⟩ := hfinal.entries (Array.getElem?_eq_some_iff.1 node).1
  have hvisits : visitsOf final i = n := by simp [visitsOf, hn]
  obtain ⟨m, rfl⟩ := Nat.exists_eq_add_one.2 (hvisits ▸ visited)
  -- The point may stand in several places, but only its last is ever visited.
  obtain ⟨p, hlast⟩ := lastAt_of_reaches hprepare (hfinal.visited i m hn).1
  have hnodes := (prepare_spec hprepare).nodes
  have hpoint : c.points[i]? = some point := by simp [← hnodes, node]
  cases hpoint.symm.trans hlast.1
  have hlookup := FactStore.lookup_of_last (entry_collect node hin hout hn)
    (by rwa [points_collect_nodes hfinal, hnodes, point_factsAt])
  rw [point_factsAt] at hlookup
  rw [FactStore.visits, hlookup, hvisits, Except.map, visits_factsAt]

variable [DecidableEq α]

theorem final_of_ends (hprepare : prepare A c initial o = .ok (P, s)) {pops : Nat}
    (ends : Ends P s pops (.ok final)) : Invariant P final ∧ Budgeted P final := by
  obtain ⟨_, outcome, hends, -, -, hend⟩ := prepare_ends hprepare
  cases (ends.unique hends).2
  rcases hend with ⟨final', hsame, hkept⟩ | ⟨t, why, hsame, -⟩
  · cases hsame
    exact hkept
  · cases hsame

theorem mostVisits_le {store : FactStore α} (h : fixedPoint A c initial o = .ok store) :
    store.mostVisits ≤ o.budget := by
  cases hprepare : prepare A c initial o with
  | error e =>
    simp only [fixedPoint, run, hprepare] at h
    cases h
  | ok prepared =>
    obtain ⟨pops, outcome, hends, -, hanswer, -⟩ := prepare_ends hprepare
    obtain ⟨final, rfl, rfl⟩ := map_eq_ok.1 (hanswer.symm.trans h)
    refine Nat.le_of_not_lt fun hlt => ?_
    obtain ⟨f, hf, hover⟩ := FactStore.lt_mostVisits.1 hlt
    have hle := visits_le_of_collect (final_of_ends hprepare hends).2 hf
    rw [(prepare_spec hprepare).options] at hle
    omega

/-- Under stricter settings the solver answers alike, or a guard stops it in a state that it
comes to under the laxer ones. -/
theorem fixedPoint_stricter (A : Analysis α) (c : ControlFlowGraph) (initial : α)
    {o lax : Options} (h : o.Stricter lax) :
    fixedPoint A c initial o = fixedPoint A c initial lax ∨
      ∃ P s t pops left outcome why, prepare A c initial lax = .ok (P, s) ∧
        Ends P s pops outcome ∧ Ends P t left outcome ∧ Guarded P o t why ∧
          fixedPoint A c initial o = .error why := by
  have hprepare := prepare_withOptions A c initial lax o h.direction h.cancellation
  cases hlax : prepare A c initial lax with
  | error e =>
    rw [hlax] at hprepare
    exact .inl (by simp only [fixedPoint, run, hlax, hprepare, Except.map])
  | ok prepared =>
    obtain ⟨P, s⟩ := prepared
    rw [hlax] at hprepare
    obtain ⟨pops, outcome, hends, -, hanswer, -⟩ := prepare_ends hlax
    cases (prepare_spec hlax).options
    rcases hends.withOptions h with hsame | ⟨t, before, left, why, hstopped, hguarded, hleft⟩
    · refine .inl ?_
      rw [fixedPoint_of_ends hprepare hsame, collect_withOptions h.direction, hanswer]
    · exact .inr ⟨P, s, t, pops, left, outcome, why, rfl, hends, hleft, hguarded,
        fixedPoint_of_ends hprepare hstopped⟩

/-! ### The check -/

theorem fixedPoint_checked (A : Analysis α) (c : ControlFlowGraph) (initial : α) (o : Options) :
    fixedPoint A c initial { o with verify := true } =
        fixedPoint A c initial { o with verify := false } ∨
      ∃ p, fixedPoint A c initial { o with verify := true } =
        .error (.error (.nonMonotone p)) := by
  refine (fixedPoint_stricter A c initial (.of_verify o)).imp id fun hstopped => ?_
  obtain ⟨P, s, t, pops, left, outcome, why, hprepare, -, -, hguarded, hwhy⟩ := hstopped
  have hoptions := (prepare_spec hprepare).options
  cases hguarded with
  | budget _ _ _ _ smaller =>
    rw [hoptions] at smaller
    exact absurd smaller (Nat.lt_irrefl _)
  | rose _ _ _ _ _ _ _ => exact ⟨_, hwhy⟩

/-- The check that no fact rises adds one error and changes nothing else. -/
theorem fixedPoint_verify (A : Analysis α) (c : ControlFlowGraph) (initial : α) (o : Options) :
    (∀ store, fixedPoint A c initial { o with verify := true } = .ok store →
        fixedPoint A c initial { o with verify := false } = .ok store) ∧
      (∀ why, fixedPoint A c initial { o with verify := true } = .error why →
        (∀ p, why ≠ .error (.nonMonotone p)) →
          fixedPoint A c initial { o with verify := false } = .error why) ∧
      ∀ store, fixedPoint A c initial { o with verify := false } = .ok store →
        fixedPoint A c initial { o with verify := true } = .ok store ∨
          ∃ p, fixedPoint A c initial { o with verify := true } =
            .error (.error (.nonMonotone p)) := by
  rcases fixedPoint_checked A c initial o with hsame | ⟨p, hrose⟩
  · rw [hsame]
    exact ⟨fun _ h => h, fun _ h _ => h, fun _ h => .inl h⟩
  · refine ⟨fun store h => ?_, fun why h hother => ?_, fun _ _ => .inr ⟨p, hrose⟩⟩
    · cases hrose.symm.trans h
    · exact absurd (Except.error.inj (h.symm.trans hrose)) (hother p)

/-- What flows out of the top is lower than what flows out of anything lower. -/
def rebound : Analysis Nat := ⟨.ofMeet min 9, .total fun _ n => if n = 9 then 3 else 5⟩

/-- One block that leads to itself. -/
def turnChanges : List ControlFlowGraph.Change :=
  [.newBlock, .push 0 .nop, .addEdge 0 0, .setEntry 0]

theorem fixedPoint_verify_rebound : ∃ store p,
    fixedPoint rebound (.build turnChanges) 9 { verify := false } = .ok store ∧
      fixedPoint rebound (.build turnChanges) 9 { verify := true } =
        .error (.error (.nonMonotone p)) := by
  obtain ⟨store, h⟩ := exists_of_isOk
    (e := fixedPoint rebound (.build turnChanges) 9 { verify := false }) (by decide +kernel)
  have hstops : ¬ (fixedPoint rebound (.build turnChanges) 9 { verify := true }).isOk := by
    decide +kernel
  obtain ⟨-, -, hunchecked⟩ := fixedPoint_verify rebound (.build turnChanges) 9 {}
  rcases hunchecked store h with hchecked | ⟨p, hrose⟩
  · exact absurd (by rw [hchecked]; rfl) hstops
  · exact ⟨store, p, h, hrose⟩

/-! ### The budget -/

/-- Within a smaller budget the solver answers alike, or it comes to a point that the larger
budget lets it visit again. -/
theorem fixedPoint_smaller (A : Analysis α) (c : ControlFlowGraph) (initial : α) (o : Options)
    {b b' : Nat} (le : b ≤ b') :
    fixedPoint A c initial { o with budget := b } =
        fixedPoint A c initial { o with budget := b' } ∨
      ∃ p, fixedPoint A c initial { o with budget := b } =
          .error (.error (.budgetExceeded p b)) ∧
        ∀ store, fixedPoint A c initial { o with budget := b' } = .ok store →
          ∃ n, store.visits p = .ok n ∧ b < n := by
  refine (fixedPoint_stricter A c initial (.of_budget_le o le)).imp id fun hstopped => ?_
  obtain ⟨P, s, t, pops, left, outcome, why, hprepare, hends, hleft, hguarded, hwhy⟩ := hstopped
  cases hguarded with
  | rose _ _ _ _ _ on off =>
    rw [(prepare_spec hprepare).options] at off
    cases on.symm.trans off
  | @budget index count _ p _ head node visited spent _ =>
    refine ⟨p, hwhy, fun store hstore => ?_⟩
    rw [fixedPoint_of_ends hprepare hends] at hstore
    obtain ⟨final, rfl, rfl⟩ := map_eq_ok.1 hstore
    have hcount : visitsOf t index = count := by simp [visitsOf, visited]
    have hspent : b ≤ count := spent
    have hagain := hleft.visitsOf_lt head
    refine ⟨visitsOf final index, ?_, by omega⟩
    exact visits_collect_last hprepare (final_of_ends hprepare hends).1 node (by omega)

/-- The budget is a cut-off. What does not end for the budget ends alike within every larger one;
and an answer is given within the budgets that are no smaller than the visits of its most visited
point, while a smaller one is exceeded at a point with more visits. -/
theorem fixedPoint_cutOff (A : Analysis α) (c : ControlFlowGraph) (initial : α) (o : Options)
    (b : Nat) :
    (∀ b', b ≤ b' →
        (∀ p, fixedPoint A c initial { o with budget := b } ≠
          .error (.error (.budgetExceeded p b))) →
        fixedPoint A c initial { o with budget := b' } =
          fixedPoint A c initial { o with budget := b }) ∧
      ∀ store, fixedPoint A c initial { o with budget := b } = .ok store →
        (∀ b', store.mostVisits ≤ b' →
          fixedPoint A c initial { o with budget := b' } = .ok store) ∧
        ∀ b', b' < store.mostVisits → ∃ p n,
          fixedPoint A c initial { o with budget := b' } =
              .error (.error (.budgetExceeded p b')) ∧
            store.visits p = .ok n ∧ b' < n := by
  refine ⟨fun b' le hwithin => ?_, fun store h => ⟨fun b' hmost => ?_, fun b' hmost => ?_⟩⟩
  · rcases fixedPoint_smaller A c initial o le with hsame | ⟨p, hexceeded, -⟩
    · exact hsame.symm
    · exact absurd hexceeded (hwithin p)
  · rcases Nat.le_total b b' with le | le
    · rcases fixedPoint_smaller A c initial o le with hsame | ⟨p, hexceeded, -⟩
      · exact hsame.symm.trans h
      · cases h.symm.trans hexceeded
    · rcases fixedPoint_smaller A c initial o le with hsame | ⟨p, -, hvisits⟩
      · exact hsame.trans h
      · obtain ⟨n, hn, hlt⟩ := hvisits store h
        have hle := FactStore.visits_le_mostVisits hn
        omega
  · have le : b' ≤ b := hmost.le.trans (mostVisits_le h)
    rcases fixedPoint_smaller A c initial o le with hsame | ⟨p, hexceeded, hvisits⟩
    · exact absurd (mostVisits_le (hsame.trans h)) (Nat.not_le.2 hmost)
    · obtain ⟨n, hn, hlt⟩ := hvisits store h
      exact ⟨p, n, hexceeded, hn, hlt⟩

theorem fixedPoint_cutOff_loop : ∃ store p,
    fixedPoint countdown (.build loopChanges) 4 {} = .ok store ∧ store.mostVisits = 3 ∧
      fixedPoint countdown (.build loopChanges) 4 { budget := 3 } = .ok store ∧
        fixedPoint countdown (.build loopChanges) 4 { budget := 2 } =
          .error (.error (.budgetExceeded p 2)) := by
  have hvisits : (fixedPoint countdown (.build loopChanges) 4 {}).map FactStore.mostVisits =
      .ok 3 := by decide +kernel
  obtain ⟨store, h, hmost⟩ := map_eq_ok.1 hvisits
  obtain ⟨-, hcut⟩ := fixedPoint_cutOff countdown (.build loopChanges) 4 {} 1024
  obtain ⟨henough, hfewer⟩ := hcut store h
  obtain ⟨p, n, hexceeded, -⟩ := hfewer 2 (by omega)
  exact ⟨store, p, h, hmost.symm, henough 3 hmost.ge, hexceeded⟩

end Answer

end Solver

end FlowFacts
