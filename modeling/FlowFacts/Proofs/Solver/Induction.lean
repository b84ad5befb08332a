import FlowFacts.Proofs.Solver.Solution

/-! Two inductions for the facts of a store.

The first is over ways: what holds of the fact that flows into the start, and is kept
from a point to the next, holds at the end of every way (`Solution.along`). The second is
over how the solver makes facts, which it does in four ways: the top, the initial fact,
the meet of a fact that flows into a point with one that flows out of a source, and the
transfer of a fact. Relations between points and facts that these keep (`Kept`) hold of
the facts of every store that it returns (`fixedPoint_keeps`). -/
namespace FlowFacts.Solver
variable {α : Type}

/-! ### Over ways -/

namespace Solution
variable {A : Analysis α} {c : ControlFlowGraph} {d : Direction} {start : Point} {initial : α}
  {store : FactStore α}

/-- What flows out of a point is among the facts that are met where it flows to. -/
theorem met (h : Solution A c d start initial store) (hc : c.WellFormed) {p q : Point}
    (reach : c.Reaches d start p) (flow : c.flows d p q) :
    ∃ location before out base, ∃ facts : List α,
      c.locate p = .ok location ∧ store.incoming d p = .ok before ∧
        A.transfer.apply location before = .ok out ∧ out ∈ facts ∧
          store.incoming d q = .ok (facts.foldl A.lattice.meet base) := by
  obtain ⟨hp, hq⟩ := hc.mem_points_of_flows flow
  obtain ⟨l, -, before, out, -, hl, -, hbefore, hout, -, -, htransfer⟩ := h.reached p hp reach
  obtain ⟨-, facts, -, -, -, -, hfacts, hin, -, -, rfl, -⟩ := h.reached q hq (reach.step flow)
  obtain ⟨value, hvalue, hsame⟩ := exists_right (mapM_eq_ok.1 hfacts) (hc.mem_sources.2 flow)
  cases hout.symm.trans hsame
  exact ⟨l, before, out, _, facts, hl, hbefore, htransfer, hvalue, hin⟩

theorem along (h : Solution A c d start initial store) (hc : c.WellFormed)
    (hstart : start ∈ c.points) {motive : List Point → Point → α → Prop}
    (first : ∀ facts : List α, motive [] start (facts.foldl A.lattice.meet initial))
    (step : ∀ passed p q location before out base (facts : List α), motive passed p before →
      c.locate p = .ok location → A.transfer.apply location before = .ok out → out ∈ facts →
        motive (passed ++ [p]) q (facts.foldl A.lattice.meet base))
    {passed : List Point} {p : Point} (way : c.Way d start passed p) {fact : α}
    (hfact : store.incoming d p = .ok fact) : motive passed p fact := by
  induction way generalizing fact with
  | start =>
    obtain ⟨-, facts, fact', -, -, -, -, hin, -, -, hmeet, -⟩ :=
      h.reached start hstart (.start c d start)
    cases hfact.symm.trans hin
    rw [if_pos rfl] at hmeet
    exact hmeet ▸ first facts
  | @step passed p q way flow ih =>
    obtain ⟨l, before, out, base, facts, hl, hbefore, htransfer, hmem, hin⟩ :=
      h.met hc ⟨passed, way⟩ flow
    cases hfact.symm.trans hin
    exact step passed p q l before out base facts (ih hbefore) hl htransfer hmem

end Solution

/-! ### Over how facts are made -/

structure Kept (A : Analysis α) (c : ControlFlowGraph) (d : Direction) (start : Point)
    (initial : α) (into out : Point → α → Prop) : Prop where
  top_into : ∀ p, into p A.lattice.top
  top_out : ∀ p, out p A.lattice.top
  initial : into start initial
  meet : ∀ p q a b, into p a → out q b → c.flows d q p → into p (A.lattice.meet a b)
  transfer : ∀ p l a b, c.Reaches d start p → c.locate p = .ok l → into p a →
    A.transfer.apply l a = .ok b → out p b

/-- The facts of a state stand in the relations to their points. -/
structure Holds (c : ControlFlowGraph) (into out : Point → α → Prop) (s : State α) : Prop where
  incoming : ∀ (i : Nat) (p : Point) (a : α), c.points[i]? = some p → s.incoming[i]? = some a →
    into p a
  outgoing : ∀ (i : Nat) (p : Point) (a : α), c.points[i]? = some p → s.outgoing[i]? = some a →
    out p a

/-- What holds of the initial fact or the top, and of every meet with what flows out of a
source, holds of what flows in. -/
theorem flowIn_induction {P : Problem α} {c : ControlFlowGraph} {start : Point} {s : State α}
    (h : P.Poses c start) (hc : c.WellFormed) {i : Nat} {p : Point} (hp : c.points[i]? = some p)
    {holds : α → Prop} (initial : p = start → holds P.initial) (top : holds P.analysis.lattice.top)
    (meet : ∀ (j : Nat) (q : Point) (a b : α), c.points[j]? = some q → s.outgoing[j]? = some b →
      c.flows P.options.direction q p → holds a → holds (P.analysis.lattice.meet a b))
    {fact : α} (hflow : flowIn P s i = .ok fact) : holds fact := by
  have hi : i < P.nodes.size := h.size ▸ (List.getElem?_eq_some_iff.1 hp).1
  obtain ⟨sources, facts, hsources, hfacts, rfl⟩ := (h.wellFormed.flowIn_ok hi).1 hflow
  have hbase : holds (base P i) := by
    unfold base
    split
    · rename_i heq
      exact initial ((h.start_iff hc hp).1 heq)
    · exact top
  obtain ⟨l, hl, -, hmem⟩ := h.wellFormed.predecessors hi
  cases hsources.symm.trans hl
  have hedges (j : Nat) (hj : j ∈ sources) : P.flow.hasEdge j i := (hmem j).1 hj
  clear hsources hl hmem hflow
  generalize base P i = fact at hbase
  induction hfacts generalizing fact with
  | nil => exact hbase
  | @cons j b sources facts hb _ ih =>
    obtain ⟨q, r, hq, hr, flow⟩ := h.points_of_edge (hedges j List.mem_cons_self)
    cases hp.symm.trans hr
    exact ih (fun k hk => hedges k (List.mem_cons_of_mem j hk)) _ (meet j q fact b hq hb flow hbase)

namespace Holds
variable {P : Problem α} {c : ControlFlowGraph} {start : Point} {into out : Point → α → Prop}
  {s : State α}

theorem initial (hk : Kept P.analysis c P.options.direction start P.initial into out)
    (order : List Nat) : Holds c into out (initialState P order) where
  incoming _ p _ _ ha := initialState_incoming ha ▸ hk.top_into p
  outgoing _ p _ _ ha := initialState_outgoing ha ▸ hk.top_out p

theorem flowIn (h : P.Poses c start) (hc : c.WellFormed)
    (hk : Kept P.analysis c P.options.direction start P.initial into out) (hs : Holds c into out s)
    {i : Nat} {p : Point} {fact : α} (hp : c.points[i]? = some p)
    (hflow : Solver.flowIn P s i = .ok fact) : into p fact := by
  refine flowIn_induction h hc hp (fun heq => heq ▸ hk.initial) (hk.top_into p) ?_ hflow
  exact fun j q a b hq hb flow ha => hk.meet p q a b ha (hs.outgoing j q b hq hb) flow

theorem next [DecidableEq α] (h : P.Poses c start) (hc : c.WellFormed)
    (hk : Kept P.analysis c P.options.direction start P.initial into out) (hinv : Invariant P s)
    (hs : Holds c into out s) (v : Visit P s) : Holds c into out v.next := by
  obtain ⟨hp, hl⟩ := h.node _ _ _ v.node
  have hreach := (h.reaches_iff hc hp).1 (hinv.reached v.index (v.head ▸ List.mem_cons_self))
  have hinto : into v.point v.fact := hs.flowIn h hc hk hp v.flows
  constructor
  case incoming =>
    intro i p a hi ha
    rcases v.incoming_cases ha with ⟨rfl, rfl⟩ | ⟨-, ha⟩
    · cases hp.symm.trans hi
      exact hinto
    · exact hs.incoming i p a hi ha
  case outgoing =>
    intro i p a hi ha
    rcases v.outgoing_cases ha with ⟨rfl, rfl⟩ | ⟨-, ha⟩
    · cases hp.symm.trans hi
      exact hk.transfer _ _ _ _ hreach hl hinto v.transfers
    · exact hs.outgoing i p a hi ha

/-- What holds of the facts of a state holds of those that are collected from it. -/
theorem collect (h : P.Poses c start) (hc : c.WellFormed) (hinv : Invariant P s)
    (hs : Holds c into out s) {p : Point} (hp : p ∈ c.points) : ∃ fact result,
      (Solver.collect P s).incoming P.options.direction p = .ok fact ∧ into p fact ∧
        (Solver.collect P s).outgoing P.options.direction p = .ok result ∧ out p result := by
  obtain ⟨i, hi⟩ := List.mem_iff_getElem?.1 hp
  have hlt : i < P.nodes.size := h.size ▸ (List.getElem?_eq_some_iff.1 hi).1
  obtain ⟨fact, result, visits, hin, hout, hvisits⟩ := hinv.entries hlt
  obtain ⟨hincoming, houtgoing, -⟩ := sides_collect h hc hinv hi hin hout hvisits
  exact ⟨_, _, hincoming, hs.incoming i p _ hi hin, houtgoing, hs.outgoing i p _ hi hout⟩

end Holds

theorem fixedPoint_keeps [DecidableEq α] {A : Analysis α} {c : ControlFlowGraph} {initial : α}
    {o : Options} {store : FactStore α} {start : Point} {into out : Point → α → Prop}
    (hc : c.WellFormed) (h : fixedPoint A c initial o = .ok store)
    (hstart : startPoint c o.direction = .ok start)
    (hk : Kept A c o.direction start initial into out) {p : Point} (hp : p ∈ c.points) :
    ∃ fact result, store.incoming o.direction p = .ok fact ∧ into p fact ∧
      store.outgoing o.direction p = .ok result ∧ out p result := by
  obtain ⟨start', P, order, final, hstart', rfl, rfl, rfl, hposes, hinv,
    ⟨steps, before, after, hloop⟩, rfl⟩ := fixedPoint_ok hc h
  cases hstart.symm.trans hstart'
  have hstep (s : State α) (hs : Invariant P s ∧ Holds c into out s) (v : Visit P s) :
      Invariant P v.next ∧ Holds c into out v.next :=
    ⟨hs.1.next hposes.wellFormed v, hs.2.next hposes hc hk hs.1 v⟩
  obtain ⟨⟨hfinal, hholds⟩, -⟩ := loop_keeps hstep steps hloop ⟨hinv, .initial hk order⟩
  exact hholds.collect hposes hc hfinal hp

end FlowFacts.Solver
