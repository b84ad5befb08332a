import FlowFacts.Proofs.Lattice.Laws
import FlowFacts.Proofs.Solver.Prepared
import FlowFacts.Proofs.Solver.Settings

/-! Monotone analyses: facts fall at every visit.

Over a lawful lattice, with transfers that send lower facts to lower facts, what flows
into a visited point lies below what flowed in at its last visit (`Falling`). A visit
therefore finds a lower fact than before and sends a lower one on, so the check that no
fact rises never fires, and a run with the check is a run without it
(`run_withSettings`). -/
namespace FlowFacts

/-- The lattice has its laws on a class of facts, and transfers keep to the class. -/
structure Analysis.ClosedOn {α : Type} (A : Analysis α) (K : α → Prop) : Prop where
  lawful : A.lattice.LawfulOn K
  transfer_mem : ∀ l a b, K a → A.transfer.apply l a = .ok b → K b

/-- Lower facts have lower transfers, on a class of facts that the analysis keeps to. -/
structure Analysis.MonotoneOn {α : Type} (A : Analysis α) (K : α → Prop) : Prop where
  lawful : A.lattice.LawfulOn K
  transfer_mem : ∀ l a b, K a → A.transfer.apply l a = .ok b → K b
  transfer_mono : ∀ l a b a' b', K a → K b → A.lattice.Below a b →
    A.transfer.apply l a = .ok a' → A.transfer.apply l b = .ok b' → A.lattice.Below a' b'

theorem Analysis.MonotoneOn.closed {α : Type} {A : Analysis α} {K : α → Prop}
    (h : A.MonotoneOn K) : A.ClosedOn K := ⟨h.lawful, h.transfer_mem⟩

namespace Solver
variable {α : Type}

/-! ### What flows in -/

section FlowIn
variable {P : Problem α} {K : α → Prop} (hP : P.WellFormed)
  (hL : P.analysis.lattice.LawfulOn K) (hinitial : K P.initial)
include hL hinitial

theorem base_mem (i : Nat) : K (base P i) := by
  unfold base
  split
  · exact hinitial
  · exact hL.top_mem

include hP

theorem flowIn_mem {s : State α} (mem : ∀ (i : Nat) (a : α), s.outgoing[i]? = some a → K a)
    {i : Nat} (hi : i < P.nodes.size) {fact : α} (hflow : flowIn P s i = .ok fact) : K fact := by
  obtain ⟨sources, facts, -, hfacts, rfl⟩ := (hP.flowIn_ok hi).1 hflow
  refine hL.foldl_mem (fun f hf => ?_) (base_mem hL hinitial i)
  obtain ⟨j, -, hj⟩ := exists_left hfacts hf
  exact mem j f hj

/-- When less flows out of the sources, less flows in. -/
theorem flowIn_mono {low high : State α}
    (low_mem : ∀ (i : Nat) (a : α), low.outgoing[i]? = some a → K a)
    (high_mem : ∀ (i : Nat) (a : α), high.outgoing[i]? = some a → K a)
    (below : ∀ (i : Nat) (a : α), low.outgoing[i]? = some a →
      ∃ b, high.outgoing[i]? = some b ∧ P.analysis.lattice.Below a b)
    {i : Nat} (hi : i < P.nodes.size) {fact : α} (hflow : flowIn P low i = .ok fact) :
    ∃ old, flowIn P high i = .ok old ∧ P.analysis.lattice.Below fact old := by
  obtain ⟨sources, facts, hsources, hfacts, rfl⟩ := (hP.flowIn_ok hi).1 hflow
  obtain ⟨olds, holds, hbelow⟩ := forall_compare hfacts below
  have hbase := base_mem hL hinitial i
  refine ⟨_, (hP.flowIn_ok hi).2 ⟨sources, olds, hsources, holds, rfl⟩,
    hL.foldl_mono (fun f hf => ?_) (fun f hf => ?_) hbase hbase (hL.refl hbase) hbelow⟩
  · obtain ⟨j, -, hj⟩ := exists_left hfacts hf
    exact low_mem j f hj
  · obtain ⟨j, -, hj⟩ := exists_left holds hf
    exact high_mem j f hj

end FlowIn

/-! ### Facts fall -/

structure Falling (P : Problem α) (K : α → Prop) (s : State α) : Prop where
  incoming_mem : ∀ (i : Nat) (a : α), s.incoming[i]? = some a → K a
  outgoing_mem : ∀ (i : Nat) (a : α), s.outgoing[i]? = some a → K a
  falls : ∀ (i n : Nat) (old fact : α), s.visits[i]? = some (n + 1) →
    s.incoming[i]? = some old → flowIn P s i = .ok fact → P.analysis.lattice.Below fact old

namespace Falling
variable {P : Problem α} {K : α → Prop} {s : State α}

/-- All facts start at the top. -/
theorem initial (hA : P.analysis.MonotoneOn K) (order : List Nat) :
    Falling P K (initialState P order) where
  incoming_mem _ _ ha := initialState_incoming ha ▸ hA.lawful.top_mem
  outgoing_mem _ _ ha := initialState_outgoing ha ▸ hA.lawful.top_mem
  falls _ n _ _ hn := absurd (initialState_visits hn) (Nat.succ_ne_zero n)

/-- What flows into a point now lies below what flowed in. -/
theorem incoming_below (hP : P.WellFormed) (hA : P.analysis.MonotoneOn K) (hinitial : K P.initial)
    (hs : Invariant P s) (h : Falling P K s) {i : Nat} (hi : i < P.nodes.size) {fact : α}
    (flows : flowIn P s i = .ok fact) :
    ∃ before, s.incoming[i]? = some before ∧ P.analysis.lattice.Below fact before := by
  obtain ⟨before, -, n, hin, -, hn⟩ := hs.entries hi
  cases n with
  | zero =>
    obtain ⟨htop, -⟩ := hs.unvisited i hn
    exact ⟨_, htop, hA.lawful.below_top (flowIn_mem hP hA.lawful hinitial h.outgoing_mem hi flows)⟩
  | succ n => exact ⟨before, hin, h.falls i n before fact hn hin flows⟩

/-- What flows out of a point lies below what flowed out. -/
theorem outgoing_below (hP : P.WellFormed) (hA : P.analysis.MonotoneOn K) (hinitial : K P.initial)
    (hs : Invariant P s) (h : Falling P K s) {i : Nat} {point : Point} {location : Location}
    {old fact out : α} (node : P.nodes[i]? = some (point, location))
    (flowed : s.outgoing[i]? = some old) (flows : flowIn P s i = .ok fact)
    (transfers : P.analysis.transfer.apply location fact = .ok out) :
    P.analysis.lattice.Below out old := by
  have hi : i < P.nodes.size := (Array.getElem?_eq_some_iff.1 node).1
  have hfact : K fact := flowIn_mem hP hA.lawful hinitial h.outgoing_mem hi flows
  obtain ⟨-, -, n, -, -, hn⟩ := hs.entries hi
  cases n with
  | zero =>
    obtain ⟨-, htop, -⟩ := hs.unvisited i hn
    cases flowed.symm.trans htop
    exact hA.lawful.below_top (hA.transfer_mem _ _ _ hfact transfers)
  | succ n =>
    obtain ⟨-, q, l, before, old', hnode, hin, hold, htransfer, -⟩ := hs.visited i n hn
    cases node.symm.trans hnode
    cases flowed.symm.trans hold
    exact hA.transfer_mono _ _ _ _ _ hfact (h.incoming_mem i _ hin)
      (h.falls i n before fact hn hin flows) transfers htransfer

variable [DecidableEq α]

/-- Every visit lets facts fall. -/
theorem next (hP : P.WellFormed) (hA : P.analysis.MonotoneOn K) (hinitial : K P.initial)
    (hs : Invariant P s) (h : Falling P K s) (v : Visit P s) : Falling P K v.next := by
  have hfact : K v.fact := flowIn_mem hP hA.lawful hinitial h.outgoing_mem v.index_lt v.flows
  have hout : K v.out := hA.transfer_mem _ _ _ hfact v.transfers
  have hbelow := h.outgoing_below hP hA hinitial hs v.node v.flowed v.flows v.transfers
  have hmem (i : Nat) (a : α) (ha : v.next.outgoing[i]? = some a) : K a := by
    rcases v.outgoing_cases ha with ⟨-, rfl⟩ | ⟨-, ha⟩
    · exact hout
    · exact h.outgoing_mem i a ha
  have hlower (i : Nat) (a : α) (ha : v.next.outgoing[i]? = some a) :
      ∃ b, s.outgoing[i]? = some b ∧ P.analysis.lattice.Below a b := by
    rcases v.outgoing_cases ha with ⟨rfl, rfl⟩ | ⟨-, ha⟩
    · exact ⟨v.old, v.flowed, hbelow⟩
    · exact ⟨a, ha, hA.lawful.refl (h.outgoing_mem i a ha)⟩
  constructor
  case incoming_mem =>
    intro i a ha
    rcases v.incoming_cases ha with ⟨-, rfl⟩ | ⟨-, ha⟩
    · exact hfact
    · exact h.incoming_mem i a ha
  case outgoing_mem => exact hmem
  case falls =>
    intro i n old fact hn hin hflow
    have hi : i < P.nodes.size := by
      have := (Array.getElem?_eq_some_iff.1 hn).1
      rwa [v.visits_next, Array.size_setIfInBounds, hs.visits_size] at this
    obtain ⟨before, hbefore, hle⟩ :=
      flowIn_mono hP hA.lawful hinitial hmem h.outgoing_mem hlower hi hflow
    rcases v.visits_cases hn with ⟨rfl, -⟩ | ⟨hne, hn⟩
    · obtain ⟨-, rfl⟩ := (v.incoming_cases hin).resolve_right fun hother => hother.1 rfl
      cases hbefore.symm.trans v.flows
      exact hle
    · obtain ⟨-, hin⟩ := (v.incoming_cases hin).resolve_left fun hsame => hne hsame.1
      exact hA.lawful.trans (flowIn_mem hP hA.lawful hinitial hmem hi hflow)
        (flowIn_mem hP hA.lawful hinitial h.outgoing_mem hi hbefore) (h.incoming_mem i old hin) hle
        (h.falls i n old before hn hin hbefore)

end Falling

/-! ### The check never fires -/

/-- The problem with the check on or off, and another bound on sets. -/
def Problem.withSettings (P : Problem α) (verify : Bool) (bound : Nat) : Problem α :=
  { P with options := { P.options with verify, bound } }

section Verify
variable [DecidableEq α] {P : Problem α} {K : α → Prop} (hP : P.WellFormed)
  (hA : P.analysis.MonotoneOn K) (hinitial : K P.initial)
include hP hA hinitial

/-- No guard is stricter than none here, so every step is the step without the check. -/
theorem step_withSettings {s : State α} (hs : Invariant P s) (h : Falling P K s) (verify : Bool)
    (bound : Nat) : step (P.withSettings verify bound) s = step P s := by
  have hunchecked (verify : Bool) (bound : Nat) : step (P.withSettings verify bound) s =
      step (P.withSettings false P.options.bound) s := by
    have hstricter : Options.Stricter { P.options with verify, bound }
        (P.withSettings false P.options.bound).options := ⟨rfl, rfl, Nat.le_refl _, nofun⟩
    refine (step_withOptions hstricter s).resolve_right fun hstops => ?_
    obtain ⟨events, why, -, hguarded⟩ := hstops
    cases hguarded with
    | budget _ _ _ _ smaller => exact Nat.lt_irrefl _ smaller
    | rose node flows transfers flowed rises _ _ =>
      have hbelow := h.outgoing_below hP hA hinitial hs node flowed flows transfers
      exact rises ((P.analysis.lattice.lessOrEqual_iff ..).2 hbelow)
  exact (hunchecked verify bound).trans (hunchecked P.options.verify P.options.bound).symm

theorem loop_withSettings (verify : Bool) (bound steps : Nat) {s : State α} (hs : Invariant P s)
    (h : Falling P K s) (events : List (Event α)) :
    loop (P.withSettings verify bound) steps s events = loop P steps s events := by
  induction steps generalizing s events with
  | zero => rfl
  | succ steps ih =>
    rw [loop, loop, step_withSettings hP hA hinitial hs h verify bound]
    cases hstep : step P s with
    | finished => rfl
    | stopped more why => rfl
    | went event next =>
      obtain ⟨v, rfl, -⟩ := step_went hstep
      exact ih (hs.next hP v) (h.next hP hA hinitial hs v) (event :: events)

end Verify

theorem prepare_withSettings (A : Analysis α) (c : ControlFlowGraph) (initial : α) (o : Options)
    (verify : Bool) (bound : Nat) : prepare A c initial { o with verify, bound } =
      (prepare A c initial o).map fun r => (r.1.withSettings verify bound, r.2) := by
  rw [prepare_withOptions A c initial o { o with verify, bound } rfl rfl]
  cases hprepare : prepare A c initial o with
  | error e => rfl
  | ok prepared =>
    obtain ⟨point, g, flow, start, order, -, -, -, -, -, hP, -⟩ := prepare_eq_ok.1 hprepare
    simp only [Except.map, hP]
    rfl

/-- A monotone analysis runs the same with and without the check. -/
theorem run_withSettings [DecidableEq α] {A : Analysis α} {K : α → Prop} {c : ControlFlowGraph}
    {initial : α} (hc : c.WellFormed) (hA : A.MonotoneOn K) (hinitial : K initial) (o : Options)
    (verify : Bool) (bound : Nat) :
    run A c initial { o with verify, bound } = run A c initial o := by
  cases hstart : startPoint c o.direction with
  | error e =>
    rw [run, run, prepare_error hstart, prepare_error (o := { o with verify, bound }) hstart]
  | ok start =>
    obtain ⟨P, order, hprepare, rfl, rfl, rfl, hposes, hinv⟩ := prepare_ok hc A initial hstart
    have hfalling := Falling.initial hA order
    rw [run, run, prepare_withSettings, hprepare]
    simp only [Except.map]
    rw [show stepLimit (P.withSettings verify bound) = stepLimit P from rfl,
      loop_withSettings hposes.wellFormed hA hinitial verify bound _ hinv hfalling]
    rfl

end Solver

end FlowFacts
