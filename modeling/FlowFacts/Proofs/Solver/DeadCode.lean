import FlowFacts.Proofs.Program.DeadCode
import FlowFacts.Proofs.Solver.Lockstep

/-! Code that control does not come to does not change the facts of the rest.

Two programs with the same live code number their live points differently, and a live point
may have more sources in one than in the other; those are dead and still have the top
flowing out of them. Where the top leaves alone the facts that are met on the way to what
flows into a point (`Arises`), the same fact flows into twins, the numbers of one live point
(`flowIn_twin`). So the runs go in step, and they end with one error, or with stores that say
the same of every live point (`fixedPoint_sameLive`). -/
namespace FlowFacts.Solver
open ControlFlowGraph (SameLive)
variable {α : Type}

/-- Two numbers are those of one live point. -/
def Twin (c more : ControlFlowGraph) (i j : Nat) : Prop :=
  ∃ p : Point, c.Live p.block ∧ c.points[i]? = some p ∧ more.points[j]? = some p

/-! ### Meets with the top -/

/-- A fact that is met on the way to what flows into the next point of a state that the run
passes, when some of the sources of the point have been met. -/
def Arises [DecidableEq α] (A : Analysis α) (c : ControlFlowGraph) (initial : α) (o : Options)
    (a : α) : Prop :=
  ∃ P t i rest sources k, Passes A c initial o P t ∧ t.queue = i :: rest ∧
    P.flow.predecessorIndices i = .ok sources ∧
      meetAt A.lattice t.outgoing (base P i) (sources.take k) = .ok a

/-- The top leaves alone what is met on the way to the meet of all facts. -/
def Neutral (L : Lattice α) (a : α) (facts : List α) : Prop :=
  ∀ k, L.meet ((facts.take k).foldl L.meet a) L.top = (facts.take k).foldl L.meet a

section Neutral
variable {L : Lattice α} {a b : α} {facts : List α} {points : List Point} {out : Point → α}
  {live : Point → Bool}

theorem Neutral.self (h : Neutral L a facts) : L.meet a L.top = a := h 0

theorem neutral_cons : Neutral L a (b :: facts) ↔
    L.meet a L.top = a ∧ Neutral L (L.meet a b) facts := by
  constructor
  · exact fun h => ⟨h.self, fun k => h (k + 1)⟩
  · intro h k
    cases k with
    | zero => exact h.1
    | succ k => exact h.2 k

/-- Without the tops among the facts the same is met. -/
theorem Neutral.filter (dead : ∀ q ∈ points, live q = false → out q = L.top)
    (h : Neutral L a (points.map out)) : Neutral L a ((points.filter live).map out) := by
  induction points generalizing a with
  | nil => exact h
  | cons q points ih =>
    have hdead : ∀ r ∈ points, live r = false → out r = L.top :=
      fun r hr => dead r (List.mem_cons_of_mem q hr)
    obtain ⟨hself, hrest⟩ := neutral_cons.1 h
    cases hq : live q with
    | true =>
      rw [List.filter_cons_of_pos hq]
      exact neutral_cons.2 ⟨hself, ih hdead hrest⟩
    | false =>
      rw [List.filter_cons_of_neg (by simp [hq])]
      rw [dead q List.mem_cons_self hq, hself] at hrest
      exact ih hdead hrest

/-- Tops among the facts make no difference to what is met. -/
theorem Neutral.foldl_filter (dead : ∀ q ∈ points, live q = false → out q = L.top)
    (h : Neutral L a ((points.filter live).map out)) :
    (points.map out).foldl L.meet a = ((points.filter live).map out).foldl L.meet a := by
  induction points generalizing a with
  | nil => rfl
  | cons q points ih =>
    have hdead : ∀ r ∈ points, live r = false → out r = L.top :=
      fun r hr => dead r (List.mem_cons_of_mem q hr)
    cases hq : live q with
    | true =>
      rw [List.filter_cons_of_pos hq] at h ⊢
      exact ih hdead (neutral_cons.1 h).2
    | false =>
      rw [List.filter_cons_of_neg (by simp [hq])] at h ⊢
      rw [List.map_cons, List.foldl_cons, dead q List.mem_cons_self hq, h.self]
      exact ih hdead h

end Neutral

/-! ### What flows into a point, by its sources -/

/-- What flows out of a point. -/
def outOf (P : Problem α) (c : ControlFlowGraph) (s : State α) (q : Point) : α :=
  s.outgoing[c.points.idxOf q]?.getD P.analysis.lattice.top

section Sources
variable {P : Problem α} {c : ControlFlowGraph} {start p q : Point} {s : State α} {i : Nat}

theorem flowed_sources (h : P.Poses c start) (hc : c.WellFormed) (hs : Invariant P s)
    (hp : c.points[i]? = some p) : ∃ sources, P.flow.predecessorIndices i = .ok sources ∧
      List.Forall₂ (s.outgoing[·]? = some ·) sources
        ((c.sources P.options.direction p).map (outOf P c s)) := by
  have hi : i < P.nodes.size := h.size ▸ (List.getElem?_eq_some_iff.1 hp).1
  obtain ⟨sources, hsources, -⟩ := h.wellFormed.predecessors hi
  refine ⟨sources, hsources, List.forall₂_map_right_iff.2 ?_⟩
  refine (h.sources_forall hp hsources).imp fun j q hq => ?_
  obtain ⟨hj, rfl⟩ := List.getElem?_eq_some_iff.1 hq
  obtain ⟨-, out, -, -, hout, -⟩ := hs.entries (h.size.symm ▸ hj)
  rw [outOf, hc.points_nodup.idxOf_getElem, hout, Option.getD_some]

/-- A point that is not live has the top flowing out of it. -/
theorem outOf_dead (h : P.Poses c start) (hc : c.WellFormed)
    (forward : P.options.direction = .forward) (hs : Invariant P s) (hstart : c.Live start.block)
    (hq : q ∈ c.points) (dead : ¬ c.Live q.block) : outOf P c s q = P.analysis.lattice.top := by
  have hget := List.getElem?_idxOf hq
  have hlt : c.points.idxOf q < P.nodes.size := h.size.symm ▸ List.idxOf_lt_length_iff.2 hq
  obtain ⟨-, out, n, -, hout, hn⟩ := hs.entries hlt
  cases n with
  | zero => rw [outOf, (hs.unvisited _ hn).2.1, Option.getD_some]
  | succ n =>
    have hreach := (h.reaches_iff hc hget).1 (hs.visited _ n hn).1
    rw [forward] at hreach
    exact absurd ((SameLive.refl hc).live_of_reaches hstart hreach) dead

/-- Sources that are not live make no difference to what flows into a point. -/
theorem flowIn_live (h : P.Poses c start) (hc : c.WellFormed)
    (forward : P.options.direction = .forward) (hs : Invariant P s) (hstart : c.Live start.block)
    (hp : c.points[i]? = some p) {live : Point → Bool}
    (dead : ∀ q, live q = false → ¬ c.Live q.block)
    (neutral : Neutral P.analysis.lattice (base P i)
      (((c.sources .forward p).filter live).map (outOf P c s))) :
    flowIn P s i = .ok ((((c.sources .forward p).filter live).map (outOf P c s)).foldl
      P.analysis.lattice.meet (base P i)) := by
  obtain ⟨sources, hsources, hfacts⟩ := flowed_sources h hc hs hp
  rw [forward] at hfacts
  have htop : ∀ q ∈ c.sources .forward p, live q = false →
      outOf P c s q = P.analysis.lattice.top := fun q hq hdead =>
    outOf_dead h hc forward hs hstart (List.mem_filter.1 hq).1 (dead q hdead)
  rw [← neutral.foldl_filter htop]
  exact (h.wellFormed.flowIn_ok (h.size ▸ (List.getElem?_eq_some_iff.1 hp).1)).2
    ⟨sources, _, hsources, hfacts, rfl⟩

end Sources

/-! ### Twins -/

section Twins
variable {P P' : Problem α} {c more : ControlFlowGraph} {start : Point} {s t : State α} {i j : Nat}

theorem twin_unique (h : SameLive c more) {i j i' j' : Nat} (hi : Twin c more i i')
    (hj : Twin c more j j') : i = j ↔ i' = j' := by
  obtain ⟨p, -, hp, hp'⟩ := hi
  obtain ⟨q, -, hq, hq'⟩ := hj
  have hinj (c : ControlFlowGraph) (hc : c.WellFormed) {i j : Nat} (hp : c.points[i]? = some p)
      (hq : c.points[j]? = some q) : i = j ↔ p = q := by
    constructor
    · rintro rfl
      exact Option.some.inj (hp.symm.trans hq)
    · rintro rfl
      exact (List.getElem?_inj (List.getElem?_eq_some_iff.1 hp).1 hc.points_nodup).1
        (hp.trans hq.symm)
  rw [hinj c h.first hp hq, hinj more h.second hp' hq']

theorem twin_idxOf (h : SameLive c more) {q : Point} (live : c.Live q.block) (hq : q ∈ c.points) :
    Twin c more (c.points.idxOf q) (more.points.idxOf q) :=
  ⟨q, live, List.getElem?_idxOf hq, List.getElem?_idxOf (h.mem_points_of_live live hq)⟩

/-- Where a live point leads to are twins in both programs. -/
theorem paired_twin (h : SameLive c more) (hP : P.Poses c start) (hP' : P'.Poses more start)
    (analysis : P'.analysis = P.analysis) (options : P'.options = P.options)
    (forward : P.options.direction = .forward) : Paired P P' (Twin c more) where
  matching := by
    refine ⟨twin_unique h, fun {i j} hij => ?_⟩
    obtain ⟨p, live, hp, hp'⟩ := hij
    obtain ⟨next, hnext, -⟩ :=
      hP.wellFormed.successors (hP.size ▸ (List.getElem?_eq_some_iff.1 hp).1)
    obtain ⟨next', hnext', -⟩ :=
      hP'.wellFormed.successors (hP'.size ▸ (List.getElem?_eq_some_iff.1 hp').1)
    have htargets := hP.targets_forall hp hnext
    have htargets' := hP'.targets_forall hp' hnext'
    rw [options, forward, h.targets_eq live] at htargets'
    rw [forward] at htargets
    refine ⟨next, next', hnext, hnext', forall_join htargets htargets' fun k q l hq hk hl => ?_⟩
    have harc := of_decide_eq_true (List.mem_filter.1 hq).2
    exact ⟨q, (h.arcs_of_live live harc).2, hk, hl⟩
  analysis := analysis
  options := options
  nodes i j hij := by
    obtain ⟨p, live, hp, hp'⟩ := hij
    obtain ⟨l, hl, hlocate⟩ := hP.node_of_point hp
    obtain ⟨l', hl', hlocate'⟩ := hP'.node_of_point hp'
    rw [h.locate_eq live] at hlocate'
    cases hlocate.symm.trans hlocate'
    exact ⟨(p, l), hl, hl'⟩

theorem flowIn_twin (h : SameLive c more) (hP : P.Poses c start) (hP' : P'.Poses more start)
    (paired : Paired P P' (Twin c more)) (initial : P'.initial = P.initial)
    (forward : P.options.direction = .forward) (hstart : c.Live start.block)
    (hs : Invariant P s) (ht : Invariant P' t) (hst : InStep (Twin c more) s t)
    (hij : Twin c more i j)
    (neutral : ∀ sources k a, P.flow.predecessorIndices i = .ok sources →
      meetAt P.analysis.lattice s.outgoing (base P i) (sources.take k) = .ok a →
        P.analysis.lattice.meet a P.analysis.lattice.top = a) :
    flowIn P' t j = flowIn P s i := by
  classical
  obtain ⟨p, live, hp, hp'⟩ := hij
  have hdead (q : Point) (dead : decide (c.Live q.block) = false) : ¬ c.Live q.block :=
    of_decide_eq_false dead
  have hdead' (q : Point) (dead : decide (c.Live q.block) = false) : ¬ more.Live q.block :=
    mt (h.live_iff _).1 (hdead q dead)
  have hbase : base P' j = base P i := by
    simp only [base, hP.start_iff h.first hp, hP'.start_iff h.second hp', initial, paired.analysis]
  -- the live sources are the same, in the same order, and twins have the same flowing out
  have hsame : ((more.sources .forward p).filter fun q => c.Live q.block).map (outOf P' more t) =
      ((c.sources .forward p).filter fun q => c.Live q.block).map (outOf P c s) := by
    rw [h.sources_filter]
    refine List.map_congr_left fun q hq => ?_
    obtain ⟨hq, live⟩ := List.mem_filter.1 hq
    rw [outOf, outOf, paired.analysis,
      hst.outgoing.same (twin_idxOf h (of_decide_eq_true live) (List.mem_filter.1 hq).1)]
  have hneutral : Neutral P.analysis.lattice (base P i)
      (((c.sources .forward p).filter fun q => c.Live q.block).map (outOf P c s)) := by
    obtain ⟨sources, hsources, hfacts⟩ := flowed_sources hP h.first hs hp
    rw [forward] at hfacts
    refine Neutral.filter (fun q hq dead => ?_) fun k =>
      neutral sources k _ hsources (meetAt_ok.2 ⟨_, List.forall₂_take k hfacts, rfl⟩)
    exact outOf_dead hP h.first forward hs hstart (List.mem_filter.1 hq).1 (hdead q dead)
  rw [flowIn_live hP h.first forward hs hstart hp hdead hneutral]
  rw [← paired.analysis, ← hbase, ← hsame] at hneutral
  rw [flowIn_live hP' h.second (paired.options ▸ forward) ht ((h.live_iff _).2 hstart) hp' hdead'
    hneutral, hsame, hbase, paired.analysis]

end Twins

/-! ### The start -/

section Start
variable {c more : ControlFlowGraph} {start : Point}

theorem startPoint_sameLive (h : SameLive c more) :
    startPoint more .forward = startPoint c .forward := by
  rw [startPoint, startPoint, ControlFlowGraph.entryBlock, ControlFlowGraph.entryBlock, h.entry]
  cases hentry : c.entry with
  | none => rfl
  | some entry => simp only [h.block_eq ⟨entry, hentry, .refl⟩]

theorem live_startPoint (hc : c.WellFormed) (hstart : startPoint c .forward = .ok start) :
    c.Live start.block := by
  rcases hc.entryBlock_cases with ⟨-, hno⟩ | ⟨entry, b, hentry, hb, hok⟩
  · simp [startPoint, hno, Except.map] at hstart
  · simp only [startPoint, hok, Except.map, Except.ok.injEq] at hstart
    rw [← hstart, Block.block_of_mem_points b.firstPoint_mem, (hc.of_block hb).1]
    exact ⟨entry, hentry, .refl⟩

end Start

/-! ### The facts -/

/-- The runs of one analysis for two programs come to the states. -/
def BothPass [DecidableEq α] (c more : ControlFlowGraph) (P P' : Problem α) (s t : State α) :
    Prop :=
  Passes P.analysis c P.initial P.options P s ∧ Passes P.analysis more P.initial P.options P' t

/-- The runs take the same steps. -/
theorem runs_twin [DecidableEq α] {c more : ControlFlowGraph} (h : SameLive c more)
    {P P' : Problem α} {start : Point} (hP : P.Poses c start) (hP' : P'.Poses more start)
    (paired : Paired P P' (Twin c more)) (initial : P'.initial = P.initial)
    (forward : P.options.direction = .forward) (live : c.Live start.block) {order order' : List Nat}
    (hprepare : prepare P.analysis c P.initial P.options = .ok (P, initialState P order))
    (hprepare' : prepare P.analysis more P.initial P.options = .ok (P', initialState P' order'))
    (hinv : Invariant P (initialState P order)) (hinv' : Invariant P' (initialState P' order'))
    (neutral : ∀ a, Arises P.analysis c P.initial P.options a →
      P.analysis.lattice.meet a P.analysis.lattice.top = a) :
    SameEnd
      (fun final final' => InStep (Twin c more) final final' ∧ BothPass c more P P' final final')
      (loop P (stepLimit P) (initialState P order) []).2
      (loop P' (stepLimit P') (initialState P' order') []).2 := by
  have hfirst : Twin c more P.start P'.start := ⟨start, live, hP.start, hP'.start⟩
  obtain ⟨found, found', hfound, hfound', horders⟩ := paired.matching.reversePostOrder hfirst
    ((hP.wellFormed.vertices _).2 hP.wellFormed.start)
    ((hP'.wellFormed.vertices _).2 hP'.wellFormed.start)
  cases hfound.symm.trans (prepare_order hprepare)
  cases hfound'.symm.trans (prepare_order hprepare')
  have hflows (s t : State α) (hk : BothPass c more P P' s t) (hst : InStep (Twin c more) s t)
      (i : Nat) (rest : List Nat) (j : Nat) (hqueue : s.queue = i :: rest)
      (hij : Twin c more i j) : flowIn P' t j = flowIn P s i :=
    flowIn_twin h hP hP' paired initial forward live (hk.1.invariant h.first)
      (hk.2.invariant h.second) hst hij fun sources k a hsources ha =>
        neutral a ⟨P, s, i, rest, sources, k, hk.1, hqueue, hsources, ha⟩
  have hends := (InStep.initial paired horders).loop paired hflows
    (fun s t hk v w => ⟨hk.1.next v, hk.2.next w⟩) (max (stepLimit P) (stepLimit P'))
    ⟨⟨_, hprepare, .refl⟩, ⟨_, hprepare', .refl⟩⟩ [] []
  rwa [loop_enough hP.wellFormed hinv (Nat.le_max_left ..),
    loop_enough hP'.wellFormed hinv' (Nat.le_max_right ..)] at hends

/-- The stores have the points of their programs, and say the same of the live ones. -/
structure SameFacts (c more : ControlFlowGraph) (store store' : FactStore α) : Prop where
  points : store.points = c.points
  points' : store'.points = more.points
  live : ∀ p ∈ c.points, c.Live p.block →
    ∃ facts, store.lookup p = .ok facts ∧ store'.lookup p = .ok facts

theorem InStep.sameFacts {c more : ControlFlowGraph} (h : SameLive c more) {P P' : Problem α}
    {start : Point} {s t : State α} (hP : P.Poses c start) (hP' : P'.Poses more start)
    (paired : Paired P P' (Twin c more)) (hs : Invariant P s) (ht : Invariant P' t)
    (hst : InStep (Twin c more) s t) : SameFacts c more (collect P s) (collect P' t) where
  points := points_collect hP hs
  points' := points_collect hP' ht
  live p hp live := by
    have hij := twin_idxOf h live hp
    obtain ⟨fact, hin, hin'⟩ := hst.incoming _ _ hij
    obtain ⟨out, hout, hout'⟩ := hst.outgoing _ _ hij
    obtain ⟨visits, hvisits, hvisits'⟩ := hst.visits _ _ hij
    refine ⟨_, lookup_collect hP h.first hs (List.getElem?_idxOf hp) hin hout hvisits, ?_⟩
    rw [← paired.options]
    exact lookup_collect hP' h.second ht (List.getElem?_idxOf (h.mem_points_of_live live hp)) hin'
      hout' hvisits'

/-- Two programs with the same live code make the solver end with one error, or with stores
that say the same of the live points. -/
theorem fixedPoint_sameLive [DecidableEq α] {c more : ControlFlowGraph} (h : SameLive c more)
    {A : Analysis α} {initial : α} {o : Options} (forward : o.direction = .forward)
    (neutral : ∀ a, Arises A c initial o a → A.lattice.meet a A.lattice.top = a) :
    SameEnd (SameFacts c more) (fixedPoint A c initial o) (fixedPoint A more initial o) := by
  cases hstart : startPoint c .forward with
  | error e =>
    have hstart' := (startPoint_sameLive h).trans hstart
    rw [← forward] at hstart hstart'
    rw [fixedPoint_error hstart, fixedPoint_error hstart']
    exact .error _
  | ok start =>
    have live := live_startPoint h.first hstart
    have hstart' := (startPoint_sameLive h).trans hstart
    rw [← forward] at hstart hstart'
    obtain ⟨P, order, hprepare, rfl, rfl, rfl, hP, hinv⟩ := prepare_ok h.first A initial hstart
    obtain ⟨P', order', hprepare', hA, ho, hi, hP', hinv'⟩ :=
      prepare_ok h.second P.analysis P.initial hstart'
    have paired := paired_twin h hP hP' hA ho forward
    rw [fixedPoint_eq hprepare, fixedPoint_eq hprepare']
    refine (runs_twin h hP hP' paired hi forward live hprepare hprepare' hinv hinv' neutral).map
      fun final final' hfinal => ?_
    obtain ⟨hst, hpass, hpass'⟩ := hfinal
    exact hst.sameFacts h hP hP' paired (hpass.invariant h.first) (hpass'.invariant h.second)

/-- The facts that arise belong to a class that the analysis stays in. -/
theorem Arises.mem [DecidableEq α] {c : ControlFlowGraph} (hc : c.WellFormed) {A : Analysis α}
    {K : α → Prop} (hA : A.ClosedOn K) {initial : α} (hinitial : K initial) {o : Options} {a : α}
    (h : Arises A c initial o a) : K a := by
  obtain ⟨P, t, i, rest, sources, k, hpass, -, -, hmeet⟩ := h
  have hinv := hpass.invariant hc
  obtain ⟨start, hstart, rfl, rfl, rfl, hP⟩ := hpass.poses hc
  have hholds := hpass.holds hc hstart (kept_mem hA hinitial)
  obtain ⟨facts, hfacts, rfl⟩ := meetAt_ok.1 hmeet
  refine hA.lawful.foldl_mem (fun f hf => ?_) (base_mem hA.lawful hinitial i)
  obtain ⟨j, -, hj⟩ := exists_left hfacts hf
  obtain ⟨p, hp⟩ := hP.point_of_lt (hinv.outgoing_size ▸ (Array.getElem?_eq_some_iff.1 hj).1)
  exact hholds.outgoing j p f hp hj

end FlowFacts.Solver
