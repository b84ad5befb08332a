import FlowFacts.Proofs.Solver.Course
import FlowFacts.Proofs.Solver.Guards
import Mathlib.Data.Set.Card

/-! Programs that do not turn back.

Where no way from the start comes back to a point that it has left (`AcyclicFrom`), the first
queue has every point before those that it flows to. What a visit has to list is then further
back in the queue, so the queue only loses its head: an end of the first queue is left, and its
points have not been visited yet (`Untouched.next`). Every point that the start reaches is
visited once, whatever the lattice and whatever the transfers, and nothing but a transfer, the
check or a cancellation can keep a run from its answer (`visited_once`). -/
namespace FlowFacts

/-! ### No way back -/

/-- From a point that the start reaches, no flow leads to a point that leads back. -/
def ControlFlowGraph.AcyclicFrom (c : ControlFlowGraph) (d : Direction) (start : Point) : Prop :=
  ∀ p q, c.Reaches d start p → c.flows d p q → ¬ c.Reaches d q p

/-- No way turns back among points that no flow leaves and along which a rank grows. -/
theorem ControlFlowGraph.acyclicFrom_of_rank {c : ControlFlowGraph} {d : Direction} {start : Point}
    (inside : Point → Prop) (rank : Point → Nat) (hstart : inside start)
    (grows : ∀ p q, inside p → c.flows d p q → inside q ∧ rank p < rank q) :
    c.AcyclicFrom d start := by
  have hway (p q : Point) (hp : inside p) (h : c.Reaches d p q) : inside q ∧ rank p ≤ rank q := by
    obtain ⟨passed, way⟩ := h
    induction way with
    | start => exact ⟨hp, le_rfl⟩
    | step _ flow ih =>
      obtain ⟨hq, hlt⟩ := grows _ _ ih.1 flow
      exact ⟨hq, ih.2.trans hlt.le⟩
  intro p q hp flow hback
  obtain ⟨hq, hlt⟩ := grows p q (hway start p hstart hp).1 flow
  have := (hway q p hq hback).2
  omega

namespace Solver
variable {α : Type}

/-! ### The queue -/

theorem mem_of_pair_sublist {front rest : List α} {a b : α} (nodup : (front ++ a :: rest).Nodup)
    (h : [a, b].Sublist (front ++ a :: rest)) : b ∈ rest := by
  induction front with
  | nil => exact List.singleton_sublist.1 h.tail
  | cons x front ih =>
    obtain ⟨hx, hrest⟩ := List.nodup_cons.1 nodup
    have hne : a ≠ x := fun heq => hx (heq ▸ List.mem_append_right front List.mem_cons_self)
    exact ih hrest (h.of_cons_of_ne hne)

/-- An end of the first queue is left, and what was visited was visited once. -/
structure Untouched (order : List Nat) (s : State α) : Prop where
  left : s.queue <:+ order
  once : ∀ i, visitsOf s i + (if i ∈ s.queue then 1 else 0) ≤ 1

theorem untouched_initial (P : Problem α) (order : List Nat) :
    Untouched order (initialState P order) where
  left := List.suffix_rfl
  once i := by
    rw [visitsOf_initial]
    split <;> omega

section Next
variable [DecidableEq α] {P : Problem α} {s : State α} {order : List Nat}

/-- The visit lists nothing that is not listed, where the first queue has every point before
those that it flows to. -/
theorem Untouched.next (h : Untouched order s) (hP : P.WellFormed) (hs : Invariant P s)
    (nodup : order.Nodup)
    (sorted : ∀ i ∈ order, ∀ j, P.flow.hasEdge i j → [i, j].Sublist order) (v : Visit P s) :
    Untouched order v.next := by
  obtain ⟨front, horder⟩ := h.left
  rw [v.head] at horder
  have hindex : v.index ∈ order := horder ▸ List.mem_append_right front List.mem_cons_self
  have hqueue : v.next.queue = v.rest := by
    refine v.queue_next_of_listed hs.listed fun j hj => ?_
    have hpair := sorted _ hindex j (v.edge_of_targets hP hj)
    rw [← horder] at nodup hpair
    exact mem_of_pair_sublist nodup hpair
  have hfresh : v.index ∉ v.rest := (List.nodup_cons.1 (v.head ▸ hs.listed.nodup)).1
  constructor
  case left =>
    rw [hqueue, ← horder]
    exact ⟨front ++ [v.index], by simp⟩
  case once =>
    intro i
    have hbefore := h.once i
    rw [v.head] at hbefore
    rw [v.visitsOf_next, hqueue]
    by_cases hi : i = v.index
    · subst hi
      simpa [hfresh] using hbefore
    · simpa [hi] using hbefore

end Next

/-! ### Runs -/

/-- The visits of a store add up to the number of points that the start reaches. -/
theorem Solution.totalVisits {A : Analysis α} {c : ControlFlowGraph} {start : Point} {initial : α}
    {store : FactStore α} {d : Direction}
    (h : Solution A c d start initial store) (hc : c.WellFormed) (hstart : start ∈ c.points)
    (once : ∀ p ∈ c.points, c.Reaches d start p → store.visits p = .ok 1) :
    store.totalVisits = {p | c.Reaches d start p}.ncard := by
  classical
  have hnodup : store.points.Nodup := h.points ▸ hc.points_nodup
  have hvisits : store.facts.map (·.visits) =
      c.points.map fun p => if c.Reaches d start p then 1 else 0 := by
    rw [← h.points, FactStore.points, List.map_map]
    refine List.map_congr_left fun f hf => ?_
    have hfound : store.visits f.point = .ok f.visits := by
      rw [FactStore.visits, FactStore.lookup_of_mem hnodup hf, Except.map]
    have hpoint : f.point ∈ c.points := h.points ▸ List.mem_map_of_mem hf
    rw [Function.comp_apply]
    split
    · rename_i hreach
      exact Except.ok.inj (hfound.symm.trans (once _ hpoint hreach))
    · rename_i hreach
      exact Except.ok.inj (hfound.symm.trans (h.unreached _ hpoint hreach).2.2)
  have hreached : {p | c.Reaches d start p} = (c.points.toFinset.filter (c.Reaches d start ·)) := by
    ext p
    simp only [Set.mem_ofPred_eq, Finset.coe_filter, List.mem_toFinset]
    exact ⟨fun hp => ⟨hp.elim fun _ way => way.mem_points hc hstart, hp⟩, And.right⟩
  rw [hreached, Set.ncard_coe_finset, Finset.card_filter, List.sum_toFinset _ hc.points_nodup,
    ← hvisits]
  rfl

section Runs
variable [DecidableEq α] {A : Analysis α} {c : ControlFlowGraph} {start : Point} {initial : α}
  {o : Options} {P : Problem α} {t : State α}

section Acyclic
variable (hc : c.WellFormed) (hstart : startPoint c o.direction = .ok start)
  (acyclic : c.AcyclicFrom o.direction start)
include hc hstart acyclic

theorem Passes.untouched (h : Passes A c initial o P t) : ∃ order, Untouched order t := by
  obtain ⟨start', hstart', -, ho, -, hposes⟩ := h.poses hc
  cases hstart.symm.trans hstart'
  have hP := hposes.wellFormed
  have hroot := (hP.vertices P.start).2 hP.start
  obtain ⟨order, horder, hnodup, hreaches⟩ := hP.consistent.reversePostOrder hroot
  have hsorted (i : Nat) (hi : i ∈ order) (j : Nat) (edge : P.flow.hasEdge i j) :
      [i, j].Sublist order := by
    have hreach := (hreaches i).1 hi
    refine hP.consistent.reversePostOrder_sorted hroot horder hreach edge fun hback => ?_
    obtain ⟨p, q, hp, hq, flow⟩ := hposes.points_of_edge edge
    have hback := hposes.reaches_of_numbers hq hp hback
    rw [ho] at flow hback
    exact acyclic p q (ho ▸ (hposes.reaches_iff hc hp).1 hreach) flow hback
  refine ⟨order, (h.keeps hc (fun order' horder' => ?_) fun s _ hinv hs v => ?_).2⟩
  · cases horder.symm.trans horder'
    exact untouched_initial P order
  · exact hs.next hP hinv hnodup hsorted v

theorem Passes.visitsOf_le_one (h : Passes A c initial o P t) (i : Nat) :
    visitsOf t i + (if i ∈ t.queue then 1 else 0) ≤ 1 := by
  obtain ⟨order, huntouched⟩ := h.untouched hc hstart acyclic
  exact huntouched.once i

theorem visits_of_reaches {store : FactStore α} (h : fixedPoint A c initial o = .ok store)
    {p : Point} (hp : p ∈ c.points) (hreach : c.Reaches o.direction start p) :
    store.visits p = .ok 1 := by
  obtain ⟨start', hstart', hsolution⟩ := fixedPoint_solution hc h
  cases hstart.symm.trans hstart'
  obtain ⟨-, -, -, -, n, -, -, -, -, hn, -⟩ := hsolution.reached p hp hreach
  obtain ⟨P, t, hpasses, -, rfl⟩ := fixedPoint_passes hc h
  obtain ⟨i, hi⟩ := List.mem_iff_getElem?.1 hp
  have hvisits := hpasses.visits_collect hc hi
  have hcount : visitsOf t i = n + 1 := Except.ok.inj (hvisits.symm.trans hn)
  have hle := hpasses.visitsOf_le_one hc hstart acyclic i
  rw [hvisits, show visitsOf t i = 1 by omega]

/-- Without the check and without a cancellation, only a transfer could fail. -/
theorem exists_fixedPoint (room : 1 ≤ o.budget) (unchecked : o.verify = false)
    (free : o.cancellation = none ∨ (o.isCancelled = false ∧ A.Quiet))
    (total : A.TotalOn fun _ => True) : ∃ store, fixedPoint A c initial o = .ok store := by
  cases hanswer : fixedPoint A c initial o with
  | ok store => exact ⟨store, rfl⟩
  | error why =>
    exfalso
    rcases fixedPoint_stopped hc hanswer with ⟨e, hnone, -⟩ | ⟨P, t, hpasses, hstops⟩
    · cases hnone.symm.trans hstart
    · have hvisits := hpasses.visitsOf_le_one hc hstart acyclic
      have hdown := hpasses.free hc free
      obtain ⟨-, -, rfl, rfl, -, -⟩ := hpasses.poses hc
      cases hstops with
      | cancelled raised => simp [hdown] at raised
      | @budget index count _ _ listed node visited spent =>
        have hcount : visitsOf t index = count := by simp [visitsOf, visited]
        have hnone := hvisits index
        rw [if_pos listed] at hnone
        omega
      | @transfer _ _ location fact _ _ _ fails =>
        obtain ⟨out, hout⟩ := total location fact trivial
        cases fails.symm.trans hout
      | rose _ _ _ _ verify _ => simp [unchecked] at verify

end Acyclic

/-- Where no way from the start turns back, no run visits a point twice, and what is listed has
not been visited. In an answer the points that the start reaches have one visit, the others
none. A run that no one cancels, without the check and with transfers that do not fail, has an
answer within every budget but the empty one. -/
theorem visited_once (built : c.Built) (hstart : startPoint c o.direction = .ok start)
    (acyclic : c.AcyclicFrom o.direction start) :
    (∀ P t, Passes A c initial o P t → ∀ i, visitsOf t i + (if i ∈ t.queue then 1 else 0) ≤ 1) ∧
    (∀ store, fixedPoint A c initial o = .ok store →
      (∀ p ∈ c.points, c.Reaches o.direction start p → store.visits p = .ok 1) ∧
      (∀ p ∈ c.points, ¬ c.Reaches o.direction start p → store.visits p = .ok 0) ∧
      store.totalVisits = {p | c.Reaches o.direction start p}.ncard) ∧
    (1 ≤ o.budget → o.verify = false →
      o.cancellation = none ∨ (o.isCancelled = false ∧ A.Quiet) → A.TotalOn (fun _ => True) →
        ∃ store, fixedPoint A c initial o = .ok store) := by
  have hc := built.wellFormed
  refine ⟨fun P t h => h.visitsOf_le_one hc hstart acyclic, fun store hstore => ?_,
    exists_fixedPoint hc hstart acyclic⟩
  obtain ⟨start', hstart', hsolution⟩ := fixedPoint_solution hc hstore
  cases hstart.symm.trans hstart'
  have hvisited (p : Point) (hp : p ∈ c.points) (hreach : c.Reaches o.direction start p) :
      store.visits p = .ok 1 := visits_of_reaches hc hstart acyclic hstore hp hreach
  exact ⟨hvisited, fun p hp hreach => (hsolution.unreached p hp hreach).2.2,
    hsolution.totalVisits hc (startPoint_mem hc hstart) hvisited⟩

end Runs

/-- Two branches that join, and a block beside them that turns back and leads into the join. -/
def joinChanges : List ControlFlowGraph.Change :=
  [.newBlock, .newBlock, .newBlock, .newBlock, .newBlock, .push 0 .nop, .push 3 .nop,
    .push 3 .nop, .addEdge 0 1, .addEdge 0 2, .addEdge 1 3, .addEdge 2 3, .addEdge 4 4,
    .addEdge 4 3, .setEntry 0]

theorem acyclicFrom_joinChanges :
    (ControlFlowGraph.build joinChanges).AcyclicFrom .forward (.instruction 0 0) := by
  have hgrows : ∀ a ∈ (ControlFlowGraph.build joinChanges).arcs, a.1.block ≠ 4 → a.2.block ≠ 4 ∧
      (ControlFlowGraph.build joinChanges).points.idxOf a.1 <
        (ControlFlowGraph.build joinChanges).points.idxOf a.2 := by decide +kernel
  refine ControlFlowGraph.acyclicFrom_of_rank (fun p => p.block ≠ 4)
    ((ControlFlowGraph.build joinChanges).points.idxOf ·) (by decide) fun p q hp flow => ?_
  rw [ControlFlowGraph.flows, decide_eq_true_iff] at flow
  exact hgrows (p, q) flow hp

/-- The transfers of the rebound are not monotone. -/
theorem visited_once_rebound :
    startPoint (.build joinChanges) .forward = .ok (.instruction 0 0) ∧
      (ControlFlowGraph.build joinChanges).AcyclicFrom .forward (.instruction 0 0) ∧
        ∃ store, fixedPoint rebound (.build joinChanges) 9 { budget := 1, verify := false } =
            .ok store ∧ store.totalVisits = 5 ∧
          {p | (ControlFlowGraph.build joinChanges).Reaches .forward (.instruction 0 0) p}.ncard =
            5 := by
  have hstart : startPoint (.build joinChanges) .forward = .ok (.instruction 0 0) := by
    decide +kernel
  obtain ⟨-, hvisits, hanswers⟩ := @visited_once _ _ rebound (.build joinChanges)
    (.instruction 0 0) 9 { budget := 1, verify := false } ⟨joinChanges, rfl⟩ hstart
    acyclicFrom_joinChanges
  obtain ⟨store, hstore⟩ := hanswers le_rfl rfl (.inl rfl) fun _ _ _ => ⟨_, rfl⟩
  have htotal : (fixedPoint rebound (.build joinChanges) 9 { budget := 1, verify := false }).map
      FactStore.totalVisits = .ok 5 := by decide +kernel
  rw [hstore] at htotal
  have hfive : store.totalVisits = 5 := Except.ok.inj htotal
  exact ⟨hstart, acyclicFrom_joinChanges, store, hstore, hfive,
    (hvisits store hstore).2.2.symm.trans hfive⟩

end Solver

end FlowFacts
