import FlowFacts.Proofs.Solver.Progress

/-! The states that a run passes.

A run begins with the state that its program is prepared with, and every step that goes on
leads to the next (`Passes`). What holds at first and is kept by every visit holds of all
the states that are passed (`Passes.keeps`), and a run that ends without an answer has no
place to start from or stops in one of them (`fixedPoint_stopped`). -/
namespace FlowFacts.Solver
variable {α : Type} [DecidableEq α]

/-- A step goes on from the first state to the second. -/
def Follows (P : Problem α) (s t : State α) : Prop := ∃ event, step P s = .went event t

/-- The run of the analysis, which works on the problem, comes to the state. -/
def Passes (A : Analysis α) (c : ControlFlowGraph) (initial : α) (o : Options) (P : Problem α)
    (t : State α) : Prop :=
  ∃ s, prepare A c initial o = .ok (P, s) ∧ Relation.ReflTransGen (Follows P) s t

/-- Where there is a visit, the step goes on. -/
theorem Visit.step_eq {P : Problem α} {s : State α} (v : Visit P s) :
    step P s = .went (.visited (v.count + 1) v.point v.fact v.out) v.next := by
  have hrunning : ¬ s.cancelled = true := by simp [v.running]
  have hbudget : ¬ P.options.budget < v.count + 1 := Nat.not_lt.2 v.budget
  rw [step, v.head]
  simp only [if_neg hrunning, visit, v.node, v.visited, v.flowed, if_neg hbudget, v.flows,
    v.transfers, update]
  rcases v.changed with ⟨hsame, hnone⟩ | ⟨hdiffers, htargets⟩
  · rw [if_pos hsame, Visit.next, hnone, spread_same]
    exact hsame ▸ v.flowed
  · have hfalls : ¬ (P.options.verify && !P.analysis.lattice.lessOrEqual v.out v.old) = true := by
      simpa using v.falls.resolve_left hdiffers
    rw [if_neg hdiffers, if_neg hfalls, htargets]
    rfl

section Passes
variable {A : Analysis α} {c : ControlFlowGraph} {initial : α} {o : Options} {P : Problem α}
  {s t : State α}

/-- The problem is that of the program, and the invariant holds throughout. -/
theorem Passes.poses (h : Passes A c initial o P t) (hc : c.WellFormed) : ∃ start,
    startPoint c o.direction = .ok start ∧ P.analysis = A ∧ P.options = o ∧
      P.initial = initial ∧ P.Poses c start := by
  obtain ⟨s, hprepare, -⟩ := h
  cases hstart : startPoint c o.direction with
  | error e => simp [prepare_error hstart] at hprepare
  | ok start =>
    obtain ⟨P', order, hprepare', hA, ho, hinitial, hposes, -⟩ := prepare_ok hc A initial hstart
    obtain ⟨rfl, -⟩ := Prod.mk.inj (Except.ok.inj (hprepare.symm.trans hprepare'))
    exact ⟨start, rfl, hA, ho, hinitial, hposes⟩

theorem Passes.next (h : Passes A c initial o P t) (v : Visit P t) :
    Passes A c initial o P v.next := by
  obtain ⟨s, hprepare, hpasses⟩ := h
  exact ⟨s, hprepare, hpasses.tail ⟨_, v.step_eq⟩⟩

/-- What holds at first, and is kept by every visit of a state that is passed. -/
theorem Passes.keeps (h : Passes A c initial o P t) (hc : c.WellFormed) {motive : State α → Prop}
    (first : ∀ order, P.flow.reversePostOrder P.start = .ok order → motive (initialState P order))
    (next : ∀ s, Passes A c initial o P s → Invariant P s → motive s → ∀ v : Visit P s,
      motive v.next) : Invariant P t ∧ motive t := by
  obtain ⟨start, hstart, -, -, -, hposes⟩ := h.poses hc
  obtain ⟨s, hprepare, hpasses⟩ := h
  obtain ⟨P', order, hprepare', -, -, -, -, hinv⟩ := prepare_ok hc A initial hstart
  obtain ⟨rfl, rfl⟩ := Prod.mk.inj (Except.ok.inj (hprepare.symm.trans hprepare'))
  induction hpasses with
  | refl => exact ⟨hinv, first order (prepare_order hprepare)⟩
  | tail hpasses hstep ih =>
    obtain ⟨event, hwent⟩ := hstep
    obtain ⟨v, rfl, -⟩ := step_went hwent
    exact ⟨ih.1.next hposes.wellFormed v, next _ ⟨_, hprepare, hpasses⟩ ih.1 ih.2 v⟩

theorem Passes.invariant (h : Passes A c initial o P t) (hc : c.WellFormed) : Invariant P t :=
  (h.keeps hc (motive := fun _ => True) (fun _ _ => trivial) fun _ _ _ _ _ => trivial).1

/-- A store has the visits of the state that it is collected from. -/
theorem Passes.visits_collect (h : Passes A c initial o P t) (hc : c.WellFormed) {i : Nat}
    {p : Point} (hp : c.points[i]? = some p) : (collect P t).visits p = .ok (visitsOf t i) := by
  have hinv := h.invariant hc
  obtain ⟨_, -, rfl, rfl, rfl, hposes⟩ := h.poses hc
  obtain ⟨fact, out, n, hin, hout, hn⟩ :=
    hinv.entries (hposes.size ▸ (List.getElem?_eq_some_iff.1 hp).1)
  simp only [(sides_collect hposes hc hinv hp hin hout hn).2.2, visitsOf, hn, Option.getD_some]

/-- The flag is down in every state, if no transfer raises it or there is none. -/
theorem Passes.free (h : Passes A c initial o P t) (hc : c.WellFormed)
    (free : o.cancellation = none ∨ (o.isCancelled = false ∧ A.Quiet)) : t.cancelled = false := by
  obtain ⟨-, -, rfl, rfl, -, -⟩ := h.poses hc
  refine (h.keeps hc (motive := fun s => s.cancelled = false) (fun order _ => ?_)
    fun s _ _ hs v => ?_).2
  · rcases free with hnone | ⟨hdown, -⟩
    · simp [initialState, Options.isCancelled, hnone]
    · exact hdown
  · rcases free with hnone | ⟨-, quiet⟩
    · simp [v.cancelled_next_eq, hs, hnone]
    · rw [v.cancelled_next quiet, hs]

/-- Relations that are kept as facts are made hold in every state. -/
theorem Passes.holds (h : Passes A c initial o P t) (hc : c.WellFormed) {start : Point}
    (hstart : startPoint c o.direction = .ok start) {into out : Point → α → Prop}
    (hk : Kept A c o.direction start initial into out) : Holds c into out t := by
  obtain ⟨start', hstart', rfl, rfl, rfl, hposes⟩ := h.poses hc
  cases hstart.symm.trans hstart'
  exact (h.keeps hc (fun order _ => .initial hk order) fun _ _ hinv hs v =>
    hs.next hposes hc hk hinv v).2

/-- A store is collected from the last state that its run passes. -/
theorem fixedPoint_passes (hc : c.WellFormed) {store : FactStore α}
    (h : fixedPoint A c initial o = .ok store) :
    ∃ P t, Passes A c initial o P t ∧ t.queue = [] ∧ store = collect P t := by
  obtain ⟨start, hstart, -⟩ := fixedPoint_solution hc h
  obtain ⟨P, order, hprepare, -, -, -, hposes, -⟩ := prepare_ok hc A initial hstart
  rw [fixedPoint_eq hprepare] at h
  obtain ⟨final, hfinal, hstore⟩ := map_eq_ok.1 h
  have hpassed := loop_keeps (fun t (ht : Passes A c initial o P t) v => ht.next v) _
    (Prod.ext rfl hfinal) ⟨_, hprepare, .refl⟩
  exact ⟨P, final, hpassed.1, hpassed.2, hstore⟩

/-- A run that gives no answer has no place to start from, or stops in a state it passes. -/
theorem fixedPoint_stopped (hc : c.WellFormed) {why : Stop}
    (h : fixedPoint A c initial o = .error why) :
    (∃ e, startPoint c o.direction = .error e ∧ why = .error e) ∨
      ∃ P t, Passes A c initial o P t ∧ StopsFor P t why := by
  cases hstart : startPoint c o.direction with
  | error e =>
    exact .inl ⟨e, rfl, Except.error.inj (h.symm.trans (fixedPoint_error hstart))⟩
  | ok start =>
    obtain ⟨P, order, hprepare, -, -, -, hposes, hinv⟩ := prepare_ok hc A initial hstart
    have hends := fixedPoint_ends hprepare hposes.wellFormed hinv
      (Relation.ReflTransGen (Follows P) (initialState P order)) .refl
      fun t _ hpassed v => hpassed.tail ⟨_, v.step_eq⟩
    rcases hends with ⟨store, hstore⟩ | ⟨t, why', hwhy, -, hpassed, hstops⟩
    · cases h.symm.trans hstore
    · cases h.symm.trans hwhy
      exact .inr ⟨P, t, ⟨_, hprepare, hpassed⟩, hstops⟩

/-- A run that is cancelled before it begins visits nothing. -/
theorem fixedPoint_cancelled (hc : c.WellFormed) {start : Point}
    (hstart : startPoint c o.direction = .ok start) (raised : o.isCancelled = true) :
    fixedPoint A c initial o = .error (.error .cancelled) := by
  obtain ⟨P, order, hprepare, -, rfl, -, hposes, -⟩ := prepare_ok hc A initial hstart
  obtain ⟨rest, rfl⟩ := prepare_head hposes.wellFormed hprepare
  have hstops : step P (initialState P (P.start :: rest)) =
      .stopped [.cancelled P.options.direction] (.error .cancelled) := if_pos raised
  have hsteps : 1 < stepLimit P := by
    unfold stepLimit
    omega
  rw [fixedPoint_eq hprepare, (Ends.stopped hstops).loop_eq hsteps]
  rfl

/-- A built program without a place to start from lacks the entry or the exit. -/
theorem startPoint_error (hc : c.WellFormed) {d : Direction} {e : Error}
    (h : startPoint c d = .error e) : e = .entryNotFound ∨ e = .exitNotFound := by
  unfold startPoint at h
  cases d with
  | forward =>
    rcases hc.entryBlock_cases with ⟨-, hno⟩ | ⟨i, b, -, -, hok⟩
    · rw [hno] at h
      cases h
      exact .inl rfl
    · simp [hok, Except.map] at h
  | backward =>
    rcases hc.exitBlock_cases with ⟨-, hno⟩ | ⟨i, b, -, -, hok⟩
    · rw [hno] at h
      cases h
      exact .inr rfl
    · simp [hok, Except.map] at h

end Passes

end FlowFacts.Solver
