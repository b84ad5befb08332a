import FlowFacts.Proofs.Solver.Course

/-! Facts fall from visit to visit.

Of a monotone analysis, the fact that flows into a visited point lies below the one stored
there before, and so does the fact that flows out, in every state that a run passes. The
check that no fact rises therefore never stops it (`fixedPoint_descends`). With the check on,
facts that flow out fall whatever the transfers are (`Passes.out_below`). -/
namespace FlowFacts.Solver
variable {α : Type} [DecidableEq α] {A : Analysis α} {K : α → Prop} {c : ControlFlowGraph}
  {initial : α} {o : Options} {P : Problem α} {t : State α}

theorem Passes.falling (h : Passes A c initial o P t) (hc : c.WellFormed) (hA : A.MonotoneOn K)
    (hinitial : K initial) : Falling P K t := by
  obtain ⟨_, -, rfl, rfl, rfl, hposes⟩ := h.poses hc
  exact (h.keeps hc (fun order _ => .initial hA order) fun _ _ hinv hs v =>
    hs.next hposes.wellFormed hA hinitial hinv v).2

/-- With the check on, or a monotone analysis, what flows out of a point never rises. -/
theorem Passes.out_below (h : Passes A c initial o P t) (hc : c.WellFormed)
    (guarded : o.verify ∨ (A.MonotoneOn K ∧ K initial)) (v : Visit P t) (hne : v.out ≠ v.old) :
    A.lattice.Below v.out v.old := by
  rcases guarded with hverify | ⟨hA, hinitial⟩
  · obtain ⟨_, -, rfl, rfl, rfl, -⟩ := h.poses hc
    exact (P.analysis.lattice.lessOrEqual_iff ..).1 (v.falls.resolve_left hne hverify)
  · have hfalling := h.falling hc hA hinitial
    have hinv := h.invariant hc
    obtain ⟨_, -, rfl, rfl, rfl, hposes⟩ := h.poses hc
    exact hfalling.outgoing_below hposes.wellFormed hA hinitial hinv v.node v.flowed v.flows
      v.transfers

/-- The check never stops a monotone analysis: a run ends with an error of that kind only if a
transfer fails with it. Whatever point is visited next, what flows in and what flows out lie
below what is stored. -/
theorem fixedPoint_descends (built : c.Built) (hA : A.MonotoneOn K) (hinitial : K initial) :
    (∀ p, fixedPoint A c initial o = .error (.error (.nonMonotone p)) → ∃ q l fact,
      c.locate q = .ok l ∧ K fact ∧ A.transfer.apply l fact = .error (.nonMonotone p)) ∧
    ∀ P t, Passes A c initial o P t → ∀ i rest p l fact, t.queue = i :: rest →
      P.nodes[i]? = some (p, l) → flowIn P t i = .ok fact →
        (∃ before, t.incoming[i]? = some before ∧ A.lattice.lessOrEqual fact before) ∧
          ∀ out, A.transfer.apply l fact = .ok out →
            ∃ old, t.outgoing[i]? = some old ∧ A.lattice.lessOrEqual out old := by
  have hc := built.wellFormed
  constructor
  · intro p hrose
    rcases fixedPoint_stopped hc hrose with ⟨e, hstart, hwhy⟩ | ⟨P, t, hpasses, hstops⟩
    · cases hwhy
      rcases startPoint_error hc hstart with h | h <;> cases h
    · have hfalling := hpasses.falling hc hA hinitial
      have hinv := hpasses.invariant hc
      obtain ⟨_, -, rfl, rfl, rfl, hposes⟩ := hpasses.poses hc
      cases hstops with
      | transfer node flows fails =>
        have hi := (Array.getElem?_eq_some_iff.1 node).1
        exact ⟨_, _, _, (hposes.node _ _ _ node).2, flowIn_mem hposes.wellFormed hA.lawful hinitial
          hfalling.outgoing_mem hi flows, fails⟩
      | rose node flows transfers flowed verify rises =>
        have hbelow := hfalling.outgoing_below hposes.wellFormed hA hinitial hinv node flowed flows
          transfers
        exact absurd ((P.analysis.lattice.lessOrEqual_iff ..).2 hbelow) rises
  · intro P t hpasses i rest p l fact _ hnode hflows
    have hfalling := hpasses.falling hc hA hinitial
    have hinv := hpasses.invariant hc
    obtain ⟨_, -, rfl, rfl, rfl, hposes⟩ := hpasses.poses hc
    have hi := (Array.getElem?_eq_some_iff.1 hnode).1
    simp only [Lattice.lessOrEqual_iff]
    refine ⟨hfalling.incoming_below hposes.wellFormed hA hinitial hinv hi hflows,
      fun out hout => ?_⟩
    obtain ⟨-, old, -, -, hold, -⟩ := hinv.entries hi
    exact ⟨old, hold, hfalling.outgoing_below hposes.wellFormed hA hinitial hinv hnode hold hflows
      hout⟩

theorem fixedPoint_descends_loop :
    (∀ p, fixedPoint countdown (.build loopChanges) 4 {} ≠ .error (.error (.nonMonotone p))) ∧
    ∀ P t, Passes countdown (.build loopChanges) 4 {} P t → ∀ i rest p l fact,
      t.queue = i :: rest → P.nodes[i]? = some (p, l) → flowIn P t i = .ok fact →
        (∃ before, t.incoming[i]? = some before ∧ countdown.lattice.lessOrEqual fact before) ∧
          ∀ out, countdown.transfer.apply l fact = .ok out →
            ∃ old, t.outgoing[i]? = some old ∧ countdown.lattice.lessOrEqual out old := by
  obtain ⟨hcheck, hvisits⟩ := fixedPoint_descends (o := {}) ⟨loopChanges, rfl⟩ countdown_monotone
    (by decide : 4 ≤ 9)
  refine ⟨fun p hrose => ?_, hvisits⟩
  obtain ⟨q, l, fact, -, -, hfails⟩ := hcheck p hrose
  cases hfails

end FlowFacts.Solver
