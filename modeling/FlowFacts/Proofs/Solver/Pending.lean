import FlowFacts.Proofs.Solver.Course

/-! What a run has left to do.

In every state that a run passes, the queue says what is left. It has points that the start
reaches, each once, and the set beside it has the same points. The points that the start reaches
and no visit has come to are all there. A point that was visited has the facts of its last visit:
what flows out is the transfer of what flowed in, and unless the point is queued again, what flowed
in is what its sources have flowing out now (`Pending`). A run that has a place to start from ends
in such a state too: with nothing queued it answers with the facts of the state, and otherwise with
what stopped it there (`passes_pending`). -/
namespace FlowFacts.Solver
variable {α : Type}

/-- The queue accounts for every point whose facts may be out of date. -/
structure Pending (A : Analysis α) (c : ControlFlowGraph) (d : Direction) (start : Point)
    (initial : α) (s : State α) : Prop where
  nodup : s.queue.Nodup
  queued : ∀ i, i ∈ s.queued ↔ i ∈ s.queue
  reached : ∀ i ∈ s.queue, ∃ p, c.points[i]? = some p ∧ c.Reaches d start p
  unvisited : ∀ i p, c.points[i]? = some p → c.Reaches d start p → visitsOf s i = 0 → i ∈ s.queue
  visited : ∀ i p, c.points[i]? = some p → 0 < visitsOf s i → ∃ location fact out,
    c.locate p = .ok location ∧ s.incoming[i]? = some fact ∧ s.outgoing[i]? = some out ∧
      A.transfer.apply location fact = .ok out ∧
        (i ∉ s.queue → ∃ facts, List.Forall₂ (Stored c s.outgoing) (c.sources d p) facts ∧
          fact = facts.foldl A.lattice.meet (if p = start then initial else A.lattice.top))

/-- What holds of the numbers holds of the points that they number. -/
theorem Invariant.pending {P : Problem α} {c : ControlFlowGraph} {start : Point} {s : State α}
    (h : P.Poses c start) (hc : c.WellFormed) (hs : Invariant P s) :
    Pending P.analysis c P.options.direction start P.initial s := by
  have hvisits (i : Nat) (p : Point) (hp : c.points[i]? = some p) :
      s.visits[i]? = some (visitsOf s i) := by
    obtain ⟨-, -, n, -, -, hn⟩ :=
      hs.entries (h.size ▸ (List.getElem?_eq_some_iff.1 hp).1)
    rw [visitsOf, hn, Option.getD_some]
  constructor
  case nodup => exact hs.listed.nodup
  case queued => exact hs.listed.queued
  case reached =>
    intro i hi
    have hreach := hs.reached i hi
    obtain ⟨p, hp⟩ := h.point_of_lt (h.wellFormed.lt_of_reaches hreach)
    exact ⟨p, hp, (h.reaches_iff hc hp).1 hreach⟩
  case unvisited =>
    intro i p hp hreach hnone
    have hzero := hvisits i p hp
    rw [hnone] at hzero
    exact (hs.unvisited i hzero).2.2 ((h.reaches_iff hc hp).2 hreach)
  case visited =>
    intro i p hp hsome
    obtain ⟨n, hn⟩ := Nat.exists_eq_succ_of_ne_zero (Nat.pos_iff_ne_zero.1 hsome)
    exact hs.facts_of_visited h hc hp (hn ▸ hvisits i p hp)

variable [DecidableEq α]

/-- **The queue accounts for what is left**, in every state that a run of a built program passes,
whatever the lattice, the transfers and the options. A run with a place to start from ends in one
of these states, with its facts when nothing is queued, and otherwise with what stops it there. -/
theorem passes_pending {A : Analysis α} {c : ControlFlowGraph} {initial : α} {o : Options}
    (built : c.Built) :
    (∀ P s, Passes A c initial o P s → ∃ start, startPoint c o.direction = .ok start ∧
      Pending A c o.direction start initial s) ∧
    ∀ start, startPoint c o.direction = .ok start → ∃ P s, Passes A c initial o P s ∧
      ((s.queue = [] ∧ fixedPoint A c initial o = .ok (collect P s)) ∨
        ∃ why, StopsFor P s why ∧ fixedPoint A c initial o = .error why) := by
  have hc := built.wellFormed
  refine ⟨fun P s h => ?passed, fun start hstart => ?ends⟩
  case passed =>
    have hinv := h.invariant hc
    obtain ⟨start, hstart, rfl, rfl, rfl, hposes⟩ := h.poses hc
    exact ⟨start, hstart, hinv.pending hposes hc⟩
  case ends =>
    cases hanswer : fixedPoint A c initial o with
    | ok store =>
      obtain ⟨P, s, hpasses, hqueue, rfl⟩ := fixedPoint_passes hc hanswer
      exact ⟨P, s, hpasses, .inl ⟨hqueue, rfl⟩⟩
    | error why =>
      rcases fixedPoint_stopped hc hanswer with ⟨e, hnone, -⟩ | ⟨P, s, hpasses, hstops⟩
      · cases hnone.symm.trans hstart
      · exact ⟨P, s, hpasses, .inr ⟨why, hstops, rfl⟩⟩

/-- With one visit for each point, the run stops at the head of the loop, which the last visit has
queued again. -/
theorem passes_pending_loop : ∃ P s why,
    Passes countdown (.build loopChanges) 4 { budget := 1 } P s ∧ StopsFor P s why ∧
      why = .error (.budgetExceeded (.instruction 1 0) 1) ∧
        Pending countdown (.build loopChanges) .forward (.instruction 0 0) 4 s := by
  have hstart : startPoint (.build loopChanges) .forward = .ok (.instruction 0 0) := by
    decide +kernel
  have hexceeded : fixedPoint countdown (.build loopChanges) 4 { budget := 1 } =
      .error (.error (.budgetExceeded (.instruction 1 0) 1)) := by decide +kernel
  obtain ⟨hpending, hends⟩ :=
    @passes_pending Nat _ countdown (.build loopChanges) 4 { budget := 1 } ⟨loopChanges, rfl⟩
  obtain ⟨P, s, hpasses, ⟨-, hanswer⟩ | ⟨why, hstops, hanswer⟩⟩ := hends _ hstart
  · cases hexceeded.symm.trans hanswer
  · cases hexceeded.symm.trans hanswer
    obtain ⟨start, hstart', hqueue⟩ := hpending P s hpasses
    cases hstart.symm.trans hstart'
    exact ⟨P, s, _, hpasses, hstops, rfl, hqueue⟩

end FlowFacts.Solver
