import FlowFacts.Proofs.Solver.Monotone
import FlowFacts.Proofs.Solver.SubSolution
import Mathlib.Algebra.Order.BigOperators.Group.Finset

/-! How runs end.

A run that does not come to its end stops for one of four reasons (`StopsFor`): it was
cancelled, a listed point has used up its visits, a transfer failed, or the check found a
fact that rose. A run is followed without a limit on its steps, and what is counted are the
points that it takes off the queue (`Ends`). Each of them but the last adds a visit, and no
point is visited more often than the budget allows, so that every run has an end
(`exists_ends`). The limit that the solver steps under lies above, and never shows
(`Ends.loop_eq`). Of the four reasons a monotone and total analysis that no one cancels
leaves one, the budget (`StopsFor.over_budget`). -/
namespace FlowFacts

/-- No transfer raises the cancellation flag. -/
def Analysis.Quiet {α : Type} (A : Analysis α) : Prop := ∀ l a, A.transfer.raises l a = false

namespace Solver
variable {α : Type}

/-! ### Why a step stops -/

inductive StopsFor [DecidableEq α] (P : Problem α) (s : State α) : Stop → Prop
  | cancelled (raised : s.cancelled) : StopsFor P s (.error .cancelled)
  | budget {index count : Nat} {point : Point} {location : Location} (listed : index ∈ s.queue)
      (node : P.nodes[index]? = some (point, location)) (visited : s.visits[index]? = some count)
      (spent : P.options.budget ≤ count) :
      StopsFor P s (.error (.budgetExceeded point P.options.budget))
  | transfer {index : Nat} {point : Point} {location : Location} {fact : α} {e : Error}
      (node : P.nodes[index]? = some (point, location)) (flows : flowIn P s index = .ok fact)
      (fails : P.analysis.transfer.apply location fact = .error e) : StopsFor P s (.error e)
  | rose {index : Nat} {point : Point} {location : Location} {fact old out : α}
      (node : P.nodes[index]? = some (point, location)) (flows : flowIn P s index = .ok fact)
      (transfers : P.analysis.transfer.apply location fact = .ok out)
      (flowed : s.outgoing[index]? = some old) (verify : P.options.verify)
      (rises : ¬ P.analysis.lattice.lessOrEqual out old) :
      StopsFor P s (.error (.nonMonotone point))

/-- No step aborts. -/
theorem StopsFor.exists_error [DecidableEq α] {P : Problem α} {s : State α} {why : Stop}
    (h : StopsFor P s why) : ∃ e, why = .error e := by
  cases h <;> exact ⟨_, rfl⟩

theorem Problem.WellFormed.lt_of_reaches {P : Problem α} (h : P.WellFormed) {i : Nat}
    (hi : P.flow.Reaches P.start i) : i < P.nodes.size :=
  (h.vertices i).1 (h.consistent.linked.hasVertex_of_reaches ((h.vertices _).2 h.start) hi)

/-- Facts flow into every point. -/
theorem Invariant.exists_flowIn {P : Problem α} {s : State α} (hP : P.WellFormed)
    (h : Invariant P s) {i : Nat} (hi : i < P.nodes.size) : ∃ fact, flowIn P s i = .ok fact := by
  obtain ⟨sources, hsources, -, hmem⟩ := hP.predecessors hi
  let facts := sources.map fun j => s.outgoing[j]?.getD P.analysis.lattice.top
  refine ⟨_, (hP.flowIn_ok hi).2 ⟨sources, facts, hsources, ?_, rfl⟩⟩
  rw [List.forall₂_map_right_iff, List.forall₂_same]
  intro j hj
  have hedge := (hmem j).1 hj
  have hlt : j < P.nodes.size :=
    (hP.vertices j).1 (hP.consistent.ends_are_vertices j i hedge).1
  obtain ⟨-, out, -, -, hout, -⟩ := h.entries hlt
  simp [hout]

section Steps
variable [DecidableEq α] {P : Problem α} {s : State α}

theorem step_stopped (hP : P.WellFormed) (hs : Invariant P s) {events : List (Event α)}
    {why : Stop} (h : step P s = .stopped events why) : StopsFor P s why := by
  unfold step at h
  split at h
  · cases h
  rename_i index rest hhead
  have hlisted : index ∈ s.queue := hhead ▸ List.mem_cons_self
  have hindex := hP.lt_of_reaches (hs.reached index hlisted)
  split at h
  · rename_i hraised
    cases h
    exact .cancelled hraised
  unfold visit at h
  split at h
  rotate_left
  · rename_i hmissing
    obtain ⟨fact, out, count, -, hout, hcount⟩ := hs.entries hindex
    exact absurd hout (hmissing _ _ _ _ (Array.getElem?_eq_getElem hindex) hcount)
  rename_i point location count old hnode hcount hold
  split at h
  · rename_i hover
    cases h
    exact .budget hlisted hnode hcount (Nat.lt_succ_iff.1 hover)
  obtain ⟨fact, hfact⟩ := hs.exists_flowIn hP hindex
  simp only [hfact] at h
  split at h
  · rename_i e hfails
    cases h
    exact .transfer hnode hfact hfails
  rename_i out hout
  unfold update at h
  split at h
  · cases h
  split at h
  · rename_i hrises
    cases h
    simp only [Bool.and_eq_true, Bool.not_eq_true'] at hrises
    exact .rose hnode hfact hout hold hrises.1 (by simp [hrises.2])
  obtain ⟨targets, htargets, -⟩ := hP.successors hindex
  simp [htargets] at h

end Steps

/-! ### Counting visits -/

/-- How often a point has been visited. -/
def visitsOf (s : State α) (i : Nat) : Nat := s.visits[i]?.getD 0

def visitsOfAll (P : Problem α) (s : State α) : Nat :=
  ∑ i ∈ Finset.range P.nodes.size, visitsOf s i

/-- No point has more visits than the budget. -/
def Budgeted (P : Problem α) (s : State α) : Prop := ∀ i, visitsOf s i ≤ P.options.budget

@[simp]
theorem visitsOf_initial (P : Problem α) (order : List Nat) (i : Nat) :
    visitsOf (initialState P order) i = 0 := by
  unfold visitsOf
  cases h : (initialState P order).visits[i]? with
  | none => rfl
  | some n => exact initialState_visits h

theorem budgeted_initial (P : Problem α) (order : List Nat) : Budgeted P (initialState P order) :=
  fun i => (visitsOf_initial P order i).le.trans (Nat.zero_le _)

theorem Budgeted.visitsOfAll_le {P : Problem α} {s : State α} (h : Budgeted P s) :
    visitsOfAll P s ≤ P.nodes.size * P.options.budget := by
  have := Finset.sum_le_card_nsmul (Finset.range P.nodes.size) (visitsOf s) P.options.budget
    fun i _ => h i
  simpa [visitsOfAll] using this

section Visits
variable [DecidableEq α] {P : Problem α} {s : State α}

theorem Visit.visitsOf_next (v : Visit P s) (i : Nat) :
    visitsOf v.next i = visitsOf s i + if i = v.index then 1 else 0 := by
  have hcount := v.visited
  have hsize : v.index < s.visits.size := (Array.getElem?_eq_some_iff.1 hcount).1
  unfold visitsOf
  rw [v.visits_next]
  by_cases h : i = v.index
  · subst h
    rw [Array.getElem?_setIfInBounds_self_of_lt hsize, hcount, if_pos rfl]
    rfl
  · rw [Array.getElem?_setIfInBounds_ne (Ne.symm h), if_neg h, Nat.add_zero]

theorem Budgeted.next (h : Budgeted P s) (v : Visit P s) : Budgeted P v.next := by
  intro i
  rw [v.visitsOf_next]
  split
  · rename_i heq
    have : visitsOf s i = v.count := by simp [visitsOf, heq, v.visited]
    have := v.budget
    omega
  · exact h i

/-- Every visit counts. -/
theorem Visit.visitsOfAll_next (v : Visit P s) : visitsOfAll P s < visitsOfAll P v.next := by
  refine Finset.sum_lt_sum (fun i _ => ?_) ⟨v.index, Finset.mem_range.2 v.index_lt, ?_⟩
  · simp only [v.visitsOf_next, Nat.le_add_right]
  · simp only [v.visitsOf_next, if_pos, Nat.lt_add_one]

/-! ### The end of a run -/

/-- From the state on, the solver takes so many points off the queue and comes to this end. -/
inductive Ends (P : Problem α) : State α → Nat → Except Stop (State α) → Prop
  | finished {s : State α} (done : step P s = .finished) : Ends P s 0 (.ok s)
  | stopped {s : State α} {events : List (Event α)} {why : Stop}
      (stops : step P s = .stopped events why) : Ends P s 1 (.error why)
  | went {s next : State α} {event : Event α} {pops : Nat} {outcome : Except Stop (State α)}
      (goes : step P s = .went event next) (rest : Ends P next pops outcome) :
      Ends P s (pops + 1) outcome

/-- With a step for every point that is taken, and one more, the loop comes to the same end. -/
theorem Ends.loop_eq {pops : Nat} {outcome : Except Stop (State α)} (h : Ends P s pops outcome)
    {steps : Nat} (enough : pops < steps) (before : List (Event α)) :
    (loop P steps s before).2 = outcome := by
  induction h generalizing steps before with
  | finished done =>
    obtain ⟨steps, rfl⟩ := Nat.exists_eq_add_of_lt enough
    simp only [loop, done]
  | stopped stops =>
    obtain ⟨steps, rfl⟩ := Nat.exists_eq_add_of_lt enough
    simp only [loop, stops]
  | went goes _ ih =>
    obtain ⟨steps, rfl⟩ := Nat.exists_eq_add_of_lt enough
    simp only [loop, goes]
    exact ih (by omega) _

/-- The visits that the budget leaves are the points still to take, but for one. A run comes to
its end or stops for a reason; what the steps keep holds there. -/
theorem exists_ends (hP : P.WellFormed) {keeps : State α → Prop}
    (hstep : ∀ t, Invariant P t → keeps t → ∀ v : Visit P t, keeps v.next)
    (hs : Invariant P s) (hb : Budgeted P s) (hk : keeps s) :
    ∃ pops outcome, Ends P s pops outcome ∧
      pops + visitsOfAll P s ≤ P.nodes.size * P.options.budget + 1 ∧
        ((∃ final, outcome = .ok final ∧ Invariant P final ∧ keeps final) ∨
          ∃ t why, outcome = .error why ∧ Invariant P t ∧ keeps t ∧ StopsFor P t why) := by
  have hroom := hb.visitsOfAll_le
  induction hleft : P.nodes.size * P.options.budget - visitsOfAll P s
    using Nat.strong_induction_on generalizing s with
  | h left ih =>
    cases hnext : step P s with
    | finished => exact ⟨0, _, .finished hnext, by omega, .inl ⟨s, rfl, hs, hk⟩⟩
    | stopped events why =>
      exact ⟨1, _, .stopped hnext, by omega,
        .inr ⟨s, why, rfl, hs, hk, step_stopped hP hs hnext⟩⟩
    | went event next =>
      obtain ⟨v, rfl, -⟩ := step_went hnext
      have hcounts := v.visitsOfAll_next
      have hroom' := (hb.next v).visitsOfAll_le
      obtain ⟨pops, outcome, hends, hpops, hend⟩ :=
        ih _ (by omega) (hs.next hP v) (hb.next v) (hstep s hs hk v) hroom' rfl
      exact ⟨pops + 1, outcome, .went hnext hends, by omega, hend⟩

end Visits

theorem fixedPoint_ends [DecidableEq α] {A : Analysis α} {c : ControlFlowGraph} {initial : α}
    {o : Options} {P : Problem α} {order : List Nat}
    (hprepare : prepare A c initial o = .ok (P, initialState P order)) (hP : P.WellFormed)
    (hs : Invariant P (initialState P order)) (keeps : State α → Prop)
    (hk : keeps (initialState P order))
    (hstep : ∀ t, Invariant P t → keeps t → ∀ v : Visit P t, keeps v.next) :
    (∃ store, fixedPoint A c initial o = .ok store) ∨
      ∃ t why, fixedPoint A c initial o = .error why ∧ Invariant P t ∧ keeps t ∧
        StopsFor P t why := by
  obtain ⟨pops, outcome, hends, hpops, hend⟩ :=
    exists_ends hP hstep hs (budgeted_initial P order) hk
  have hsteps : pops < stepLimit P := by
    unfold stepLimit
    omega
  rw [fixedPoint_eq hprepare, hends.loop_eq hsteps]
  rcases hend with ⟨final, rfl, -⟩ | ⟨t, why, rfl, ht⟩
  · exact .inl ⟨_, rfl⟩
  · exact .inr ⟨t, why, rfl, ht⟩

/-! ### Monotone analyses that no one cancels -/

section Monotone
variable [DecidableEq α] {P : Problem α} {K : α → Prop} {s : State α}

/-- A visit raises the flag, if there is one, when the transfer does. -/
theorem Visit.cancelled_next_eq (v : Visit P s) : v.next.cancelled = (s.cancelled ||
    (P.options.cancellation.isSome && P.analysis.transfer.raises v.location v.fact)) := by
  obtain ⟨queue, queued, h⟩ := enqueueAll_eq v.settled v.targets
  rw [v.next_eq, h]
  rfl

theorem Visit.cancelled_next (v : Visit P s) (quiet : P.analysis.Quiet) :
    v.next.cancelled = s.cancelled := by
  simp [v.cancelled_next_eq, quiet v.location v.fact]

/-- A listed point has used up its visits. -/
structure OverBudget (P : Problem α) (s : State α) (index : Nat) (point : Point) : Prop where
  listed : index ∈ s.queue
  node : ∃ location, P.nodes[index]? = some (point, location)
  spent : P.options.budget ≤ visitsOf s index

theorem StopsFor.over_budget {why : Stop} (h : StopsFor P s why) (hP : P.WellFormed)
    (hA : P.analysis.MonotoneOn K) (total : P.analysis.TotalOn K) (hinitial : K P.initial)
    (hs : Invariant P s) (hf : Falling P K s) (free : s.cancelled = false) :
    ∃ index point, why = .error (.budgetExceeded point P.options.budget) ∧
      OverBudget P s index point := by
  cases h with
  | cancelled raised => simp [free] at raised
  | budget listed node visited spent =>
    exact ⟨_, _, rfl, listed, ⟨_, node⟩, by simpa [visitsOf, visited] using spent⟩
  | @transfer index point location fact e node flows fails =>
    have hfact := flowIn_mem hP hA.lawful hinitial hf.outgoing_mem
      (Array.getElem?_eq_some_iff.1 node).1 flows
    obtain ⟨b, hb⟩ := total location fact hfact
    cases fails.symm.trans hb
  | rose node flows transfers flowed verify rises =>
    have hbelow := hf.outgoing_below hP hA hinitial hs node flowed flows transfers
    exact absurd ((P.analysis.lattice.lessOrEqual_iff ..).2 hbelow) rises

/-- Such an analysis comes to its end, or a point is over the budget. -/
theorem fixedPoint_ok_or_over_budget {A : Analysis α} {c : ControlFlowGraph} {initial : α}
    {o : Options} {order : List Nat}
    (hprepare : prepare A c initial o = .ok (P, initialState P order)) (hP : P.WellFormed)
    (hA : P.analysis.MonotoneOn K) (total : P.analysis.TotalOn K) (quiet : P.analysis.Quiet)
    (hinitial : K P.initial) (free : P.options.isCancelled = false)
    (hs : Invariant P (initialState P order)) (keeps : State α → Prop)
    (hk : keeps (initialState P order))
    (hstep : ∀ t, Invariant P t → Falling P K t → keeps t → ∀ v : Visit P t, keeps v.next) :
    (∃ store, fixedPoint A c initial o = .ok store) ∨
      ∃ t index point,
        fixedPoint A c initial o = .error (.error (.budgetExceeded point P.options.budget)) ∧
          keeps t ∧ OverBudget P t index point := by
  have hends := fixedPoint_ends hprepare hP hs
    (fun t => Falling P K t ∧ keeps t ∧ t.cancelled = false)
    ⟨.initial hA order, hk, free⟩ fun t hinv ht v => ⟨ht.1.next hP hA hinitial hinv v,
      hstep t hinv ht.1 ht.2.1 v, (v.cancelled_next quiet).trans ht.2.2⟩
  refine hends.imp id fun hstopped => ?_
  obtain ⟨t, why, hwhy, hinv, ⟨hfalling, hkeeps, hcancelled⟩, hstops⟩ := hstopped
  obtain ⟨index, point, rfl, hover⟩ :=
    hstops.over_budget hP hA total hinitial hinv hfalling hcancelled
  exact ⟨t, index, point, hwhy, hkeeps, hover⟩

/-- Nothing but the budget stops such an analysis short. -/
theorem fixedPoint_ok_or_exceeded {A : Analysis α} {c : ControlFlowGraph} {initial : α}
    {o : Options} {start : Point} (hc : c.WellFormed)
    (hstart : startPoint c o.direction = .ok start) (hA : A.MonotoneOn K) (total : A.TotalOn K)
    (quiet : A.Quiet) (hinitial : K initial) (free : o.isCancelled = false) :
    (∃ store, fixedPoint A c initial o = .ok store) ∨ ∃ point ∈ c.points,
      fixedPoint A c initial o = .error (.error (.budgetExceeded point o.budget)) := by
  obtain ⟨P, order, hprepare, rfl, rfl, rfl, hposes, hinv⟩ := prepare_ok hc A initial hstart
  have hends := fixedPoint_ok_or_over_budget hprepare hposes.wellFormed hA total quiet hinitial free
    hinv (fun _ => True) trivial fun _ _ _ _ _ => trivial
  refine hends.imp id fun hstopped => ?_
  obtain ⟨_, _, point, hexceeded, -, hover⟩ := hstopped
  obtain ⟨location, hnode⟩ := hover.node
  exact ⟨point, List.mem_of_getElem? (hposes.node _ _ _ hnode).1, hexceeded⟩

end Monotone

end Solver

end FlowFacts
