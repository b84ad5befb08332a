import FlowFacts.Proofs.Lattice.Rank
import FlowFacts.Proofs.Solver.Descent

/-! How often points are visited.

A point is listed at the start, and again only when what flows out of a source has changed.
With ranks that grow whenever facts fall, the sources of a point change no more often than
their ranks add up to (`Counted`), so a budget with room for the highest ranks is never
used up (`fixedPoint_within_budget`). In a lattice where every chain of falls is short the
visits are few, in every run and whatever it ends with (`visits_bounded`). -/
namespace FlowFacts.Solver
variable {α : Type} {rank : α → Nat}

/-- The rank of what flows out of a point. -/
def rankAt (rank : α → Nat) (s : State α) (i : Nat) : Nat := (s.outgoing[i]?.map rank).getD 0

/-- Beyond the first time, a point is visited or listed only as the ranks of its sources grow. -/
def Counted (P : Problem α) (rank : α → Nat) (s : State α) : Prop :=
  ∀ i sources, P.flow.predecessorIndices i = .ok sources →
    visitsOf s i + (if i ∈ s.queue then 1 else 0) ≤ 1 + (sources.map (rankAt rank s)).sum

theorem counted_initial (P : Problem α) (order : List Nat) :
    Counted P rank (initialState P order) := by
  intro i sources _
  rw [visitsOf_initial]
  split <;> omega

section Next
variable [DecidableEq α] {P : Problem α} {s : State α}

theorem rankAt_next_of_ne (v : Visit P s) {i : Nat} (h : i ≠ v.index) :
    rankAt rank v.next i = rankAt rank s i := by
  rw [rankAt, rankAt, v.outgoing_next, Array.getElem?_setIfInBounds_ne (Ne.symm h)]

theorem rankAt_next_self (v : Visit P s) : rankAt rank v.next v.index = rank v.out := by
  have hsize : v.index < s.outgoing.size := (Array.getElem?_eq_some_iff.1 v.flowed).1
  rw [rankAt, v.outgoing_next, Array.getElem?_setIfInBounds_self_of_lt hsize]
  rfl

theorem rankAt_self (v : Visit P s) : rankAt rank s v.index = rank v.old := by
  rw [rankAt, v.flowed]
  rfl

theorem Counted.next (hP : P.WellFormed) (hs : Invariant P s) (h : Counted P rank s)
    (v : Visit P s) (grows : v.out ≠ v.old → rank v.old < rank v.out) :
    Counted P rank v.next := by
  intro i sources hsources
  have hbefore := h i sources hsources
  have hle (j : Nat) : rankAt rank s j ≤ rankAt rank v.next j := by
    by_cases hj : j = v.index
    · rw [hj, rankAt_self, rankAt_next_self]
      by_cases hsame : v.out = v.old
      · rw [hsame]
      · exact (grows hsame).le
    · rw [rankAt_next_of_ne v hj]
  have hsum : (sources.map (rankAt rank s)).sum ≤ (sources.map (rankAt rank v.next)).sum :=
    List.sum_le_sum fun j _ => hle j
  have hnodup := hs.listed.nodup
  rw [v.head, List.nodup_cons] at hnodup
  have hqueue := (v.listed_next hs.listed).2 i
  rw [v.visitsOf_next]
  by_cases htarget : i ∈ v.targets
  · -- the visit changed a source of the point
    have hedge := v.edge_of_targets hP htarget
    have hi : i < P.nodes.size := (hP.vertices i).1 (hP.consistent.ends_are_vertices _ _ hedge).2
    obtain ⟨l, hl, -, hmem⟩ := hP.predecessors hi
    cases hsources.symm.trans hl
    have hgrows : rank v.old < rank v.out := by
      refine grows fun hsame => ?_
      rcases v.changed with ⟨-, hnone⟩ | ⟨hne, -⟩
      · simp [hnone] at htarget
      · exact hne hsame
    have hlt : (sources.map (rankAt rank s)).sum < (sources.map (rankAt rank v.next)).sum :=
      List.sum_lt_sum _ _ (fun j _ => hle j)
        ⟨v.index, (hmem v.index).2 hedge, by rwa [rankAt_self, rankAt_next_self]⟩
    rw [if_pos (hqueue.2 (.inr htarget))]
    by_cases hindex : i = v.index
    · rw [if_pos (by rw [hindex, v.head]; exact List.mem_cons_self)] at hbefore
      rw [if_pos hindex]
      omega
    · rw [if_neg hindex]
      omega
  · by_cases hindex : i = v.index
    · rw [if_pos (by rw [hindex, v.head]; exact List.mem_cons_self)] at hbefore
      have hgone : i ∉ v.next.queue := by
        rw [hqueue, not_or]
        exact ⟨hindex ▸ hnodup.1, htarget⟩
      rw [if_pos hindex, if_neg hgone]
      omega
    · have hsame : i ∈ v.next.queue ↔ i ∈ s.queue := by
        rw [v.mem_next_of_ne hs.listed hindex]
        exact or_iff_left htarget
      simp only [if_neg hindex, hsame]
      omega

end Next

section Passes
variable [DecidableEq α] {A : Analysis α} {K made : α → Prop} {c : ControlFlowGraph}
  {start : Point} {initial : α} {o : Options} {highest : Nat} {P : Problem α} {t : State α}

theorem Passes.counted (h : Passes A c initial o P t) (hc : c.WellFormed)
    (guarded : o.verify ∨ (A.MonotoneOn K ∧ K initial))
    (hstart : startPoint c o.direction = .ok start)
    (hk : Kept A c o.direction start initial (fun _ => made) (fun _ => made))
    (ranked : A.lattice.RankedOn made rank highest) : Counted P rank t := by
  obtain ⟨_, -, -, -, -, hposes⟩ := h.poses hc
  refine (h.keeps hc (fun order _ => counted_initial P order) fun s hs hinv hcounted v => ?_).2
  refine hcounted.next hposes.wellFormed hinv v fun hne => ?_
  obtain ⟨hpoint, -⟩ := hposes.node _ _ _ v.node
  have hsize : v.index < s.outgoing.size := (Array.getElem?_eq_some_iff.1 v.flowed).1
  have hout : v.next.outgoing[v.index]? = some v.out := by
    rw [v.outgoing_next, Array.getElem?_setIfInBounds_self_of_lt hsize]
  exact ranked.grows _ _ ((hs.holds hc hstart hk).outgoing _ _ _ hpoint v.flowed)
    (((hs.next v).holds hc hstart hk).outgoing _ _ _ hpoint hout)
    (hs.out_below hc guarded v hne) hne

/-- Each source of a point has it visited no more often than its rank can grow. -/
theorem Passes.visits_le (h : Passes A c initial o P t) (hc : c.WellFormed)
    (guarded : o.verify ∨ (A.MonotoneOn K ∧ K initial))
    (hstart : startPoint c o.direction = .ok start)
    (hk : Kept A c o.direction start initial (fun _ => made) (fun _ => made))
    (ranked : A.lattice.RankedOn made rank highest) {i : Nat} {p : Point}
    (hp : c.points[i]? = some p) : visitsOf t i + (if i ∈ t.queue then 1 else 0) ≤
      1 + (c.sources o.direction p).length * highest := by
  have hcounted := h.counted hc guarded hstart hk ranked
  have hholds := h.holds hc hstart hk
  obtain ⟨_, -, rfl, rfl, rfl, hposes⟩ := h.poses hc
  have hi : i < P.nodes.size := hposes.size ▸ (List.getElem?_eq_some_iff.1 hp).1
  obtain ⟨sources, hsources, -, -⟩ := hposes.wellFormed.predecessors hi
  have hbeside := hposes.sources_forall hp hsources
  have hranks : (sources.map (rankAt rank t)).sum ≤ sources.length * highest := by
    have := List.sum_le_card_nsmul (sources.map (rankAt rank t)) highest fun r hr => by
      obtain ⟨j, hj, rfl⟩ := List.mem_map.1 hr
      obtain ⟨q, -, hq⟩ := exists_right hbeside hj
      unfold rankAt
      cases hout : t.outgoing[j]? with
      | none => exact Nat.zero_le _
      | some a => exact ranked.limit a (hholds.outgoing j q a hq hout)
    simpa using this
  rw [← hbeside.length_eq]
  exact (hcounted i sources hsources).trans (Nat.add_le_add_left hranks 1)

/-- With room for the ranks of the sources of every point, no budget is used up. -/
theorem fixedPoint_within_budget (hc : c.WellFormed)
    (hstart : startPoint c o.direction = .ok start)
    (hA : A.MonotoneOn K) (total : A.TotalOn K) (quiet : A.Quiet) (hinitial : K initial)
    (free : o.isCancelled = false)
    (hk : Kept A c o.direction start initial (fun _ => made) (fun _ => made))
    (ranked : A.lattice.RankedOn made rank highest)
    (enough : ∀ p ∈ c.points, 1 + (c.sources o.direction p).length * highest ≤ o.budget) :
    ∃ store, fixedPoint A c initial o = .ok store := by
  obtain ⟨P, order, hprepare, rfl, rfl, rfl, hposes, hinv⟩ := prepare_ok hc A initial hstart
  have hends := fixedPoint_ok_or_over_budget hprepare hposes.wellFormed hA total quiet hinitial
    free hinv (Passes P.analysis c P.initial P.options P) ⟨_, hprepare, .refl⟩
    fun _ _ _ ht v => ht.next v
  refine hends.resolve_right fun hstopped => ?_
  obtain ⟨t, index, point, -, hpasses, hover⟩ := hstopped
  obtain ⟨location, hnode⟩ := hover.node
  obtain ⟨hpoint, -⟩ := hposes.node _ _ _ hnode
  have hvisits := hpasses.visits_le hc (.inr ⟨hA, hinitial⟩) hstart hk ranked hpoint
  rw [if_pos hover.listed] at hvisits
  have := enough point (List.mem_of_getElem? hpoint)
  have := hover.spent
  omega

/-- Where the budget is exceeded a listed point has no visits left, or a transfer failed so. -/
theorem fixedPoint_exceeded (hc : c.WellFormed) (hA : A.ClosedOn K) (hinitial : K initial)
    {p : Point} {n : Nat}
    (h : fixedPoint A c initial o = .error (.error (.budgetExceeded p n))) :
    (∃ P t i q, Passes A c initial o P t ∧ c.points[i]? = some q ∧ i ∈ t.queue ∧
      o.budget ≤ visitsOf t i) ∨
    ∃ q l fact, c.locate q = .ok l ∧ K fact ∧
      A.transfer.apply l fact = .error (.budgetExceeded p n) := by
  rcases fixedPoint_stopped hc h with ⟨e, hstart, hwhy⟩ | ⟨P, t, hpasses, hstops⟩
  · cases hwhy
    rcases startPoint_error hc hstart with h | h <;> cases h
  · obtain ⟨start, hstart, hposes⟩ := hpasses.poses hc
    have hholds := hpasses.holds hc hstart (kept_mem hA hinitial)
    obtain ⟨rfl, rfl, rfl, hposes⟩ := hposes
    cases hstops with
    | budget listed node visited spent =>
      refine .inl ⟨P, t, _, _, hpasses, (hposes.node _ _ _ node).1, listed, ?_⟩
      rwa [visitsOf, visited, Option.getD_some]
    | transfer node flows fails =>
      obtain ⟨hpoint, hlocate⟩ := hposes.node _ _ _ node
      exact .inr ⟨_, _, _, hlocate,
        hholds.flowIn hposes hc (kept_mem hA hinitial) hpoint flows, fails⟩

/-- However a run ends, it visits no point more often than once, and once more for every step
that the facts of each source can fall; a listed point has one visit to come, which may be the
one that ends the run. With a budget for that the run does not exceed it: an error of that kind
is then one that a transfer failed with. -/
theorem visits_bounded (built : c.Built) (hA : A.ClosedOn K) (hinitial : K initial) {height : Nat}
    (hheight : A.lattice.HeightOn K height) (guarded : o.verify ∨ A.MonotoneOn K) :
    (∀ P t, Passes A c initial o P t → ∀ i p, c.points[i]? = some p →
      visitsOf t i + (if i ∈ t.queue then 1 else 0) ≤
        1 + height * (c.sources o.direction p).length) ∧
    (∀ store, fixedPoint A c initial o = .ok store → ∀ p ∈ c.points, ∃ n,
      store.visits p = .ok n ∧ n ≤ 1 + height * (c.sources o.direction p).length) ∧
    ((∀ p ∈ c.points, 1 + height * (c.sources o.direction p).length ≤ o.budget) →
      ∀ p n, fixedPoint A c initial o = .error (.error (.budgetExceeded p n)) → ∃ q l fact,
        c.locate q = .ok l ∧ K fact ∧ A.transfer.apply l fact = .error (.budgetExceeded p n)) := by
  have hc := built.wellFormed
  obtain ⟨rank, hranked⟩ := hheight.ranked hA.lawful
  have hbound (P : Problem α) (t : State α) (h : Passes A c initial o P t) (i : Nat) (p : Point)
      (hp : c.points[i]? = some p) : visitsOf t i + (if i ∈ t.queue then 1 else 0) ≤
        1 + height * (c.sources o.direction p).length := by
    obtain ⟨start, hstart, -⟩ := h.poses hc
    rw [Nat.mul_comm]
    exact h.visits_le hc (guarded.imp_right fun hmono => ⟨hmono, hinitial⟩) hstart
      (kept_mem hA hinitial) hranked hp
  refine ⟨hbound, fun store hstore p hp => ?_, fun enough p n hexceeded => ?_⟩
  · obtain ⟨P, t, hpasses, -, rfl⟩ := fixedPoint_passes hc hstore
    obtain ⟨i, hi⟩ := List.mem_iff_getElem?.1 hp
    exact ⟨_, hpasses.visits_collect hc hi,
      (Nat.le_add_right _ _).trans (hbound P t hpasses i p hi)⟩
  · refine (fixedPoint_exceeded hc hA hinitial hexceeded).resolve_left fun hspent => ?_
    obtain ⟨P, t, i, q, hpasses, hq, listed, spent⟩ := hspent
    have hvisits := hbound P t hpasses i q hq
    rw [if_pos listed] at hvisits
    have := enough q (List.mem_of_getElem? hq)
    omega

end Passes

/-- Every fall of the countdown takes one away at least. -/
theorem countdown_height : countdown.lattice.HeightOn (· ≤ 9) 9 := by
  intro n a hdescends
  suffices n + a ≤ 9 by omega
  induction hdescends with
  | top => exact Nat.le_refl 9
  | @fall n a b _ _ hbelow hne ih =>
    have : min b a = b := hbelow
    omega

theorem visits_bounded_loop :
    (∀ p ∈ (ControlFlowGraph.build loopChanges).points,
      1 + 9 * ((ControlFlowGraph.build loopChanges).sources .forward p).length ≤ 19) ∧
    (∃ store, fixedPoint countdown (.build loopChanges) 4 { budget := 19 } = .ok store ∧
      ∀ p ∈ (ControlFlowGraph.build loopChanges).points, ∃ n, store.visits p = .ok n ∧
        n ≤ 1 + 9 * ((ControlFlowGraph.build loopChanges).sources .forward p).length) ∧
    ∀ p n, fixedPoint countdown (.build loopChanges) 4 { budget := 19 } ≠
      .error (.error (.budgetExceeded p n)) := by
  have henough : ∀ p ∈ (ControlFlowGraph.build loopChanges).points,
      1 + 9 * ((ControlFlowGraph.build loopChanges).sources .forward p).length ≤ 19 := by
    decide +kernel
  obtain ⟨store, h⟩ := exists_of_isOk
    (e := fixedPoint countdown (.build loopChanges) 4 { budget := 19 }) (by decide +kernel)
  obtain ⟨-, hstored, hbudget⟩ := visits_bounded (o := { budget := 19 }) ⟨loopChanges, rfl⟩
    countdown_monotone.closed (by decide : 4 ≤ 9) countdown_height (.inl rfl)
  refine ⟨henough, ⟨store, h, hstored store h⟩, fun p n hexceeded => ?_⟩
  obtain ⟨q, l, fact, -, -, hfails⟩ := hbudget henough p n hexceeded
  cases hfails

end FlowFacts.Solver
