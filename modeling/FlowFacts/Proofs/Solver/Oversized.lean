import FlowFacts.Proofs.Lattice.ValueSet
import FlowFacts.Proofs.Solver.Halting
import FlowFacts.Proofs.Solver.PointFlow

/-! May-sets above the bound.

A may-set can be read, or listed, with more members than the lattice that meets it allows. What it
makes with any set is unknown then, also with itself and with the top, so these laws fail of it.

The solver meets facts where a point has sources. So when the fact that flows in at the start is
above the bound and the start has sources, what flows in there is unknown at once, and the run is
that from the unknown (`fixedPoint_oversized`). A start without sources passes the fact on as it
is, and the check finds that it does not lie below the top: in the run of an analysis that keeps
every fact, the check fires there and nowhere else (`withinBound_decides`). -/
namespace FlowFacts

namespace Solver
variable {α : Type}

/-! ### The fact that flows in at the start -/

/-- The problem with another fact to flow in at the start. -/
def Problem.withInitial (P : Problem α) (initial : α) : Problem α := { P with initial }

theorem prepare_withInitial (A : Analysis α) (c : ControlFlowGraph) (initial other : α)
    (o : Options) : prepare A c other o =
      (prepare A c initial o).map fun r => (r.1.withInitial other, r.2) := by
  simp only [prepare, map_needs]
  rfl

variable [DecidableEq α]

section WithInitial
variable {P : Problem α} {other : α}
  (same : ∀ s, flowIn (P.withInitial other) s P.start = flowIn P s P.start)
include same

theorem step_withInitial (s : State α) : step (P.withInitial other) s = step P s := by
  have hflows (i : Nat) : flowIn (P.withInitial other) s i = flowIn P s i := by
    by_cases hi : i = P.start
    · exact hi ▸ same s
    · simp [flowIn, Problem.withInitial, hi]
  have hvisit (index : Nat) (rest : List Nat) :
      visit (P.withInitial other) s index rest = visit P s index rest := by
    simp only [visit, hflows]
    rfl
  simp only [step, hvisit]
  rfl

theorem loop_withInitial (steps : Nat) (s : State α) (events : List (Event α)) :
    loop (P.withInitial other) steps s events = loop P steps s events := by
  induction steps generalizing s events with
  | zero => rfl
  | succ steps ih => simp only [loop, step_withInitial same, ih]

end WithInitial

/-- The solver reads the initial fact only in what flows into the start. -/
theorem fixedPoint_withInitial {A : Analysis α} {c : ControlFlowGraph} {initial other : α}
    {o : Options} {P : Problem α} {s : State α} (hprepare : prepare A c initial o = .ok (P, s))
    (same : ∀ s, flowIn (P.withInitial other) s P.start = flowIn P s P.start) :
    fixedPoint A c other o = fixedPoint A c initial o := by
  have hother := prepare_withInitial A c initial other o
  rw [hprepare] at hother
  rw [fixedPoint_eq hprepare, fixedPoint_eq hother, ← loop_withInitial same]
  rfl

section First
variable {A : Analysis α} {c : ControlFlowGraph} {initial : α} {o : Options} {start : Point}

/-- The start is visited first, and the run ends with that visit where the visit ends it. -/
theorem fixedPoint_first (A : Analysis α) (initial : α) (hc : c.WellFormed)
    (hstart : startPoint c o.direction = .ok start) (running : o.isCancelled = false) :
    ∃ P s rest location, P.analysis = A ∧ P.options = o ∧
      P.initial = initial ∧ P.Poses c start ∧ P.nodes[P.start]? = some (start, location) ∧
        s.visits[P.start]? = some 0 ∧ s.outgoing[P.start]? = some A.lattice.top ∧
          ∀ events why, visit P s P.start rest = .stopped events why →
            fixedPoint A c initial o = .error why := by
  obtain ⟨P, order, hprepare, rfl, rfl, rfl, hposes, -⟩ := prepare_ok hc A initial hstart
  have hP := hposes.wellFormed
  obtain ⟨rest, rfl⟩ := prepare_head hP hprepare
  obtain ⟨location, hnode, -⟩ := hposes.node_of_point hposes.start
  refine ⟨P, initialState P (P.start :: rest), rest, location, rfl, rfl, rfl, hposes, hnode,
    by simp [initialState, hP.start], by simp [initialState, hP.start],
    fun events why hstops => ?_⟩
  have hstep : step P (initialState P (P.start :: rest)) = .stopped events why := by
    rw [← hstops]
    exact if_neg (by simp [initialState, running])
  exact fixedPoint_of_ends hprepare (.stopped hstep)

theorem fixedPoint_noVisits (hc : c.WellFormed) (hstart : startPoint c o.direction = .ok start)
    (running : o.isCancelled = false) (spent : o.budget = 0) :
    fixedPoint A c initial o = .error (.error (.budgetExceeded start 0)) := by
  obtain ⟨P, s, rest, location, rfl, rfl, rfl, -, hnode, hvisits, hout, hstops⟩ :=
    fixedPoint_first A initial hc hstart running
  refine hstops [.overBudget 1 start] _ ?_
  simp [visit, hnode, hvisits, hout, spent]

/-- The check finds what flows out of the start to rise, where nothing is met with what flows
in. -/
theorem fixedPoint_rises (hc : c.WellFormed) (hstart : startPoint c o.direction = .ok start)
    (running : o.isCancelled = false) (room : 1 ≤ o.budget) (verify : o.verify)
    (sourceless : c.sources o.direction start = []) {out : α}
    (transfers : ∀ l, A.transfer.apply l initial = .ok out) (differs : out ≠ A.lattice.top)
    (rises : ¬ A.lattice.lessOrEqual out A.lattice.top) :
    fixedPoint A c initial o = .error (.error (.nonMonotone start)) := by
  obtain ⟨P, s, rest, location, rfl, rfl, rfl, hposes, hnode, hvisits, hout, hstops⟩ :=
    fixedPoint_first A initial hc hstart running
  have hP := hposes.wellFormed
  have hflows : flowIn P s P.start = .ok P.initial := by
    obtain ⟨sources, hsources, -⟩ := hP.predecessors hP.start
    have hnone := hposes.sources_forall hposes.start hsources
    rw [sourceless, List.forall₂_nil_right_iff] at hnone
    exact (hP.flowIn_ok hP.start).2 ⟨[], [], hnone ▸ hsources, .nil, (if_pos rfl).symm⟩
  refine hstops [.visited 1 start P.initial out, .rose start P.analysis.lattice.top out] _ ?_
  simp [visit, hnode, hvisits, hout, hflows, transfers, update, differs, verify, rises,
    Nat.not_lt.2 room]

end First

end Solver

namespace ValueSet
open Solver
variable {α : Type} [Ord α] [Std.TransOrd α] [Std.LawfulEqOrd α] {bound : Nat}
  {c : ControlFlowGraph} {initial : ValueSet α} {o : Options} {start : Point}

/-! ### May-sets -/

/-- Meets with a set above the bound are meets with the unknown, if there are any. -/
theorem meetAt_oversized (large : ¬ initial.WithinBound bound) {outgoing : Array (ValueSet α)}
    {points : List Nat} (nonempty : points ≠ []) :
    meetAt (lattice bound) outgoing initial points =
      meetAt (lattice bound) outgoing unknown points := by
  obtain ⟨i, rest, rfl⟩ := List.exists_cons_of_ne_nil nonempty
  have hmeet (t : ValueSet α) : (lattice bound).meet initial t = (lattice bound).meet unknown t :=
    meet_of_not_withinBound large t
  simp only [meetAt, List.foldlM_cons, hmeet]

/-- From a set above the bound the run is that from the unknown, where the start has sources. -/
theorem fixedPoint_oversized {A : Analysis (ValueSet α)} (hA : A.lattice = lattice bound)
    (hc : c.WellFormed) (hstart : startPoint c o.direction = .ok start)
    (large : ¬ initial.WithinBound bound) (met : c.sources o.direction start ≠ []) :
    fixedPoint A c initial o = fixedPoint A c unknown o := by
  obtain ⟨P, order, hprepare, rfl, rfl, rfl, hposes, -⟩ := prepare_ok hc A initial hstart
  have hP := hposes.wellFormed
  obtain ⟨sources, hsources, -⟩ := hP.predecessors hP.start
  have hsome : sources ≠ [] := by
    rintro rfl
    exact met (List.forall₂_nil_left_iff.1 (hposes.sources_forall hposes.start hsources))
  refine (fixedPoint_withInitial hprepare fun s => ?_).symm
  simp only [flowIn, Problem.withInitial, hsources, Stop.ofError, bind, Except.bind, if_true, hA]
  exact (meetAt_oversized large hsome).symm

/-! ### Facts that are kept -/

/-- Every location keeps the fact that flows in. -/
def keeping (bound : Nat) : Analysis (ValueSet α) := ⟨lattice bound, .keep⟩

theorem keeping_monotone :
    (keeping bound : Analysis (ValueSet α)).MonotoneOn (WithinBound bound) where
  lawful := lawful bound
  transfer_mem _ _ _ ha hb := Except.ok.inj hb ▸ ha
  transfer_mono _ _ _ _ _ _ _ hab ha hb := Except.ok.inj ha ▸ Except.ok.inj hb ▸ hab

theorem keeping_total (K : ValueSet α → Prop) :
    (keeping bound : Analysis (ValueSet α)).TotalOn K := fun _ a _ => ⟨a, rfl⟩

/-- From a set within the bound no fact rises. -/
theorem keeping_falls (hc : c.WellFormed) (hstart : startPoint c o.direction = .ok start)
    (small : initial.WithinBound bound) (p : Point) :
    fixedPoint (keeping bound) c initial o ≠ .error (.error (.nonMonotone p)) := by
  cases hcancelled : o.isCancelled with
  | true =>
    rw [fixedPoint_cancelled hc hstart hcancelled]
    exact nofun
  | false =>
    have hends := fixedPoint_ok_or_exceeded hc hstart keeping_monotone (keeping_total _)
      (fun _ _ => rfl) small hcancelled
    rcases hends with ⟨store, hstore⟩ | ⟨q, -, hexceeded⟩
    · rw [hstore]
      exact nofun
    · rw [hexceeded]
      exact nofun

/-- From a set above the bound a fact rises at a start without sources. -/
theorem keeping_rises (hc : c.WellFormed) (hstart : startPoint c o.direction = .ok start)
    (sourceless : c.sources o.direction start = []) (large : ¬ initial.WithinBound bound)
    (verify : o.verify) (room : 1 ≤ o.budget) (running : o.isCancelled = false) :
    fixedPoint (keeping bound) c initial o = .error (.error (.nonMonotone start)) := by
  refine fixedPoint_rises hc hstart running room verify sourceless (fun _ => rfl) ?_ ?_
  · rintro rfl
    exact large (lawful bound).top_mem
  · rw [Lattice.lessOrEqual_iff]
    exact fun hbelow => large (meet_top_iff.1 hbelow)

/-- A fact rises there and from such a set alone, and only where the guards before let the check
come to it. -/
theorem keeping_rises_iff (hc : c.WellFormed) {p : Point} :
    fixedPoint (keeping bound) c initial o = .error (.error (.nonMonotone p)) ↔
      startPoint c o.direction = .ok p ∧ c.sources o.direction p = [] ∧
        ¬ initial.WithinBound bound ∧ o.verify ∧ 1 ≤ o.budget ∧ o.isCancelled = false := by
  constructor
  · intro h
    cases hstart : startPoint c o.direction with
    | error e =>
      cases h.symm.trans (fixedPoint_error hstart)
      rcases startPoint_error hc hstart with heq | heq <;> cases heq
    | ok start =>
      have hverify : o.verify := by
        cases fixedPoint_foreseen hc (keeping_total _) h with
        | rose _ verify => exact verify
      have hlarge : ¬ initial.WithinBound bound := fun small => keeping_falls hc hstart small p h
      have hsourceless : c.sources o.direction start = [] := by
        by_contra hmet
        have hunknown : (unknown : ValueSet α).WithinBound bound := trivial
        rw [fixedPoint_oversized rfl hc hstart hlarge hmet] at h
        exact keeping_falls hc hstart hunknown p h
      have hrunning : o.isCancelled = false := by
        by_contra hraised
        cases h.symm.trans (fixedPoint_cancelled hc hstart (by simpa using hraised))
      have hroom : 1 ≤ o.budget := by
        by_contra hspent
        cases h.symm.trans (fixedPoint_noVisits hc hstart hrunning (by omega))
      cases h.symm.trans (keeping_rises hc hstart hsourceless hlarge hverify hroom hrunning)
      exact ⟨rfl, hsourceless, hlarge, hverify, hroom, hrunning⟩
  · intro h
    obtain ⟨hstart, sourceless, large, verify, room, running⟩ := h
    exact keeping_rises hc hstart sourceless large verify room running

/-- The bound decides which sets the laws hold of. A meet may be taken in any order and grouped in
any way, whatever the sets; a set is what it makes with itself, and with the top on either side,
exactly when it is within the bound, and what a larger one makes with any set is unknown. So where
every fact is kept as it is, the check finds one that rises exactly when the run begins with a
larger set at a point that nothing flows to, and is neither cancelled nor without any visit. -/
theorem withinBound_decides (bound : Nat) :
    (∀ s t u : ValueSet α, s.meet bound t = t.meet bound s ∧
      s.meet bound (t.meet bound u) = (s.meet bound t).meet bound u) ∧
    (∀ s : ValueSet α, (s.meet bound s = s ↔ s.WithinBound bound) ∧
      ((lattice bound).top.meet bound s = s ↔ s.WithinBound bound) ∧
      (s.meet bound (lattice bound).top = s ↔ s.WithinBound bound) ∧
      (¬ s.WithinBound bound → ∀ t, s.meet bound t = unknown)) ∧
    ∀ c : ControlFlowGraph, c.Built → ∀ (initial : ValueSet α) (o : Options) (p : Point),
      fixedPoint ⟨lattice bound, .keep⟩ c initial o = .error (.error (.nonMonotone p)) ↔
        startPoint c o.direction = .ok p ∧ c.sources o.direction p = [] ∧
          ¬ initial.WithinBound bound ∧ o.verify ∧ 1 ≤ o.budget ∧ o.isCancelled = false := by
  refine ⟨fun s t u => ⟨meet_comm bound s t, (meet_assoc bound s t u).symm⟩,
    fun s => ⟨meet_self_iff, ?_, meet_top_iff, meet_of_not_withinBound⟩,
    fun c built initial o p => keeping_rises_iff built.wellFormed⟩
  rw [meet_comm]
  exact meet_top_iff

/-- Two numbers. -/
def both : ValueSet Nat := values (.ofList [1, 2])

/-- The entry has an edge to itself and one to the exit. -/
def rounds : ControlFlowGraph :=
  .build [.newBlock, .newBlock, .addEdge 0 0, .addEdge 0 1, .setEntry 0, .setExit 1]

theorem withinBound_decides_rounds : rounds.Built ∧ ¬ both.WithinBound 1 ∧
    both.meet 1 both ≠ both ∧ both.meet 1 (singleton 1 1) = unknown ∧ both.meet 2 both = both ∧
    (∀ p, fixedPoint ⟨lattice 1, .keep⟩ rounds both {} ≠ .error (.error (.nonMonotone p))) ∧
    fixedPoint ⟨lattice 1, .keep⟩ rounds both { direction := .backward } =
      .error (.error (.nonMonotone (.emptyBlock 1))) := by
  have hbuilt : rounds.Built := ⟨_, rfl⟩
  have hlarge : ¬ both.WithinBound 1 := by unfold both WithinBound; decide +kernel
  have hsmall : both.WithinBound 2 := by unfold both WithinBound; decide +kernel
  obtain ⟨-, hsets, hruns⟩ := withinBound_decides (α := Nat) 1
  obtain ⟨hself, -, -, habsorbs⟩ := hsets both
  obtain ⟨-, hsets', -⟩ := withinBound_decides (α := Nat) 2
  refine ⟨hbuilt, hlarge, hself.not.2 hlarge, habsorbs hlarge _, (hsets' both).1.2 hsmall,
    fun p hrose => ?_, ?_⟩
  · obtain ⟨hstart, hsourceless, -⟩ := (hruns rounds hbuilt both {} p).1 hrose
    have hfirst : startPoint rounds .forward = .ok (.emptyBlock 0) := by decide +kernel
    cases hstart.symm.trans hfirst
    exact absurd hsourceless (by decide +kernel)
  · refine (hruns rounds hbuilt both _ _).2 ⟨?_, ?_, hlarge, rfl, ?_, rfl⟩ <;> decide +kernel

/-- The bound is one, and the set of two numbers is neither its own meet with itself nor that with
the top. A program of one point that keeps it is found to raise it. -/
theorem both_above_one :
    both.meet 1 both ≠ both ∧ (lattice 1).top.meet 1 both ≠ both ∧
      both.meet 1 (lattice 1).top ≠ both ∧
      fixedPoint ⟨lattice 1, .keep⟩ (.build [.newBlock, .setEntry 0]) both {} =
        .error (.error (.nonMonotone (.emptyBlock 0))) := by
  decide +kernel

end ValueSet

end FlowFacts
