import FlowFacts.Proofs.Program.Renumbering
import FlowFacts.Proofs.Solver.SubSolution

/-! The solver finds the greatest facts.

Of a monotone analysis, no facts that lie below what makes them rise above those that
the solver stores (`Greatest`): whatever it makes of facts above a sub-solution lies above
it again, so this holds after every visit and in whatever order the points are visited
(`RunsAnyhow.greatest`). There is one greatest solution at most, so the facts depend
neither on that order nor on the numbers of the blocks (`Greatest.agree`). -/
namespace FlowFacts

/-- The other analysis does to locations with other numbers what the first does to them. -/
structure Analysis.Renumbers {α : Type} (π : Equiv.Perm Nat) (A A' : Analysis α) : Prop where
  lattice : A'.lattice = A.lattice
  transfer : ∀ l, A'.transfer.apply (l.renumber π) = A.transfer.apply l

namespace Analysis.Renumbers
variable {α : Type} {π : Equiv.Perm Nat} {A A' : Analysis α} {K : α → Prop}

theorem refl (A : Analysis α) : A.Renumbers (Equiv.refl Nat) A := ⟨rfl, fun _ => rfl⟩

theorem symm (h : A.Renumbers π A') : A'.Renumbers π.symm A where
  lattice := h.lattice.symm
  transfer l := by
    rw [← h.transfer, l.renumber_symm]

theorem monotoneOn (h : A.Renumbers π A') (hA : A.MonotoneOn K) : A'.MonotoneOn K := by
  constructor
  case lawful => exact h.lattice ▸ hA.lawful
  all_goals simp only [← h.symm.transfer, h.lattice]
  case transfer_mem => exact fun l => hA.transfer_mem (l.renumber π.symm)
  case transfer_mono => exact fun l => hA.transfer_mono (l.renumber π.symm)

end Analysis.Renumbers

namespace Solver
variable {α : Type} {A A' : Analysis α} {K : α → Prop} {c c' : ControlFlowGraph}
  {d : Direction} {start : Point} {initial : α} {store : FactStore α} {into out : Point → α}

/-! ### The greatest solution -/

/-- Facts of a class that solve the equations, with every sub-solution below them. -/
structure Greatest (A : Analysis α) (K : α → Prop) (c : ControlFlowGraph) (d : Direction)
    (start : Point) (initial : α) (store : FactStore α) : Prop where
  within : Within store d c K
  solution : Solution A c d start initial store
  above : ∀ into out, SubSolution A K c d start initial into out →
    ∀ p ∈ c.points, c.Reaches d start p →
      A.lattice.Below (into p) (store.into d A.lattice.top p) ∧
        A.lattice.Below (out p) (store.out d A.lattice.top p)

/-- What the solver makes of facts above a sub-solution lies above it again. What flows out
of a point that it never visits is the top, where the sub-solution says nothing. -/
theorem SubSolution.kept (h : SubSolution A K c d start initial into out)
    (hA : A.MonotoneOn K) (hinitial : K initial) : Kept A c d start initial
      (fun p a => K a ∧ (c.Reaches d start p → A.lattice.Below (into p) a))
      (fun p b => K b ∧ ((c.Reaches d start p ∧ A.lattice.Below (out p) b) ∨
        b = A.lattice.top)) := by
  constructor
  case top_into =>
    exact fun p => ⟨hA.lawful.top_mem, fun hp => hA.lawful.below_top (h.into_mem p hp)⟩
  case top_out => exact fun p => ⟨hA.lawful.top_mem, .inr rfl⟩
  case initial => exact ⟨hinitial, fun _ => h.starts⟩
  case meet =>
    intro p q a b ha hb hflow
    refine ⟨hA.lawful.meet_mem a b ha.1 hb.1, fun hp => ?_⟩
    rcases hb.2 with ⟨hq, hbelow⟩ | rfl
    · refine hA.lawful.below_meet (h.into_mem p hp) ha.1 hb.1 (ha.2 hp) ?_
      exact hA.lawful.trans (h.into_mem p hp) (h.out_mem q hq) hb.1 (h.flow q p hq hflow) hbelow
    · rw [hA.lawful.meet_top a ha.1]
      exact ha.2 hp
  case transfer =>
    intro p l a b hp hl ha htransfer
    have hK := hA.transfer_mem l a b ha.1 htransfer
    obtain ⟨b', hb', hbelow⟩ := h.transfer p l hp hl
    have hinto := h.into_mem p hp
    exact ⟨hK, .inl ⟨hp, hA.lawful.trans (h.out_mem p hp) (hA.transfer_mem l _ b' hinto hb') hK
      hbelow (hA.transfer_mono l _ a b' b hinto ha.1 (ha.2 hp) hb' htransfer)⟩⟩

/-! ### Visits in any order -/

/-- Steps until nothing is left to visit; the queue may be reordered before each. -/
inductive RunsAnyhow [DecidableEq α] (P : Problem α) : State α → State α → Prop
  | finished {s : State α} (done : s.queue = []) : RunsAnyhow P s s
  | step {s next final : State α} {queue : List Nat} {event : Event α}
      (order : s.queue.Perm queue) (went : step P { s with queue } = .went event next)
      (rest : RunsAnyhow P next final) : RunsAnyhow P s final

/-- The order of the queue does not count for the invariant. -/
theorem Invariant.reorder {P : Problem α} {s : State α} (h : Invariant P s) {queue : List Nat}
    (order : s.queue.Perm queue) : Invariant P { s with queue } where
  listed := ⟨order.nodup_iff.1 h.listed.nodup, fun i => (h.listed.queued i).trans order.mem_iff⟩
  incoming_size := h.incoming_size
  outgoing_size := h.outgoing_size
  visits_size := h.visits_size
  reached i hi := h.reached i (order.mem_iff.2 hi)
  unvisited i hi := by
    obtain ⟨hin, hout, hqueued⟩ := h.unvisited i hi
    exact ⟨hin, hout, fun hreach => order.mem_iff.1 (hqueued hreach)⟩
  visited i n hi := by
    obtain ⟨hreach, point, location, fact, out, hnode, hin, hout, htransfer, hflow⟩ :=
      h.visited i n hi
    exact ⟨hreach, point, location, fact, out, hnode, hin, hout, htransfer,
      fun hqueue => hflow fun hmem => hqueue (order.mem_iff.1 hmem)⟩

section Runs
variable [DecidableEq α] {P : Problem α} {s final : State α}

/-- The solver's own order is one of them. -/
theorem Runs.anyhow (h : Runs P s final) : RunsAnyhow P s final := by
  obtain ⟨steps, before, after, hloop⟩ := h
  induction steps generalizing s before with
  | zero => cases hloop
  | succ steps ih =>
    unfold loop at hloop
    cases hstep : step P s with
    | finished =>
      simp only [hstep, Prod.mk.injEq, Except.ok.injEq] at hloop
      obtain ⟨-, rfl⟩ := hloop
      exact .finished (step_finished hstep)
    | stopped events why => simp [hstep] at hloop
    | went event next =>
      exact .step (.refl _) hstep (ih _ (by simpa only [hstep] using hloop))

/-- At the end of a run the invariant and all that the steps keep hold of the state. -/
theorem RunsAnyhow.keeps (hP : P.WellFormed) (run : RunsAnyhow P s final) (hinv : Invariant P s)
    {holds : State α → Prop}
    (reorder : ∀ t queue, holds t → holds { t with queue })
    (next : ∀ t, Invariant P t → holds t → ∀ v : Visit P t, holds v.next) (hs : holds s) :
    Invariant P final ∧ holds final ∧ final.queue = [] := by
  induction run with
  | finished done => exact ⟨hinv, hs, done⟩
  | step order went _ ih =>
    obtain ⟨v, rfl, -⟩ := step_went went
    have hordered := hinv.reorder order
    exact ih (hordered.next hP v) (next _ hordered (reorder _ _ hs) v)

theorem RunsAnyhow.greatest (h : P.Poses c start) (hc : c.WellFormed)
    (hA : P.analysis.MonotoneOn K) (hinitial : K P.initial) {order : List Nat}
    (hinv : Invariant P (initialState P order)) (run : RunsAnyhow P (initialState P order) final) :
    Greatest P.analysis K c P.options.direction start P.initial (collect P final) := by
  have hkeeps {into out : Point → α → Prop}
      (hk : Kept P.analysis c P.options.direction start P.initial into out) :
      Invariant P final ∧ Holds c into out final ∧ final.queue = [] :=
    run.keeps h.wellFormed hinv (fun t queue ht => ⟨ht.incoming, ht.outgoing⟩)
      (fun t hinv ht v => ht.next h hc hk hinv v) (.initial hk order)
  constructor
  case within =>
    intro p hp
    obtain ⟨hfinal, hholds, -⟩ := hkeeps (kept_mem hA.closed hinitial)
    exact hholds.collect h hc hfinal hp
  case solution =>
    obtain ⟨hfinal, -, hqueue⟩ := hkeeps (kept_mem hA.closed hinitial)
    exact hfinal.solution h hc hqueue
  case above =>
    intro into out hsub p hp hreach
    obtain ⟨hfinal, hholds, -⟩ := hkeeps (hsub.kept hA hinitial)
    obtain ⟨fact, result, hin, hinto, hout, hresult⟩ := hholds.collect h hc hfinal hp
    rw [FactStore.into_of_incoming hin, FactStore.out_of_outgoing hout]
    refine ⟨hinto.2 hreach, ?_⟩
    rcases hresult.2 with ⟨-, hbelow⟩ | rfl
    · exact hbelow
    · exact hA.lawful.below_top (hsub.out_mem p hreach)

end Runs

/-! ### Other numbers for the blocks -/

section Renumbering
variable {π : Equiv.Perm Nat} {store' : FactStore α}

/-- A sub-solution of the renumbered program is one of the program itself. -/
theorem SubSolution.renumber
    (h : SubSolution A' K c' d (start.renumber π) initial into out) (hA : A.Renumbers π A')
    (hnum : c.Renumbers π c') (hc : c.WellFormed) (hc' : c'.WellFormed) :
    SubSolution A K c d start initial (fun p => into (p.renumber π))
      (fun p => out (p.renumber π)) := by
  have hreaches {p : Point} (hp : c.Reaches d start p) := hnum.reaches hc hc' hp
  constructor
  case into_mem => exact fun p hp => h.into_mem _ (hreaches hp)
  case out_mem => exact fun p hp => h.out_mem _ (hreaches hp)
  case starts => exact hA.lattice ▸ h.starts
  case flow =>
    exact fun p q hp hflow => hA.lattice ▸ h.flow _ _ (hreaches hp) (hnum.flows hc hc' hflow)
  case transfer =>
    intro p l hp hl
    obtain ⟨b, hb, hbelow⟩ := h.transfer _ _ (hreaches hp) (hnum.locate hl)
    rw [hA.transfer] at hb
    exact ⟨b, hb, hA.lattice ▸ hbelow⟩

/-- Two greatest solutions are the same, also where blocks have other numbers. -/
theorem Greatest.agree (h : Greatest A K c d start initial store)
    (h' : Greatest A' K c' d (start.renumber π) initial store') (hmono : A.MonotoneOn K)
    (hinitial : K initial) (hA : A.Renumbers π A') (hnum : c.Renumbers π c') (hc : c.WellFormed)
    (hc' : c'.WellFormed) (hstart : start ∈ c.points) {p : Point} (hp : p ∈ c.points) :
    store'.incoming d (p.renumber π) = store.incoming d p ∧
      store'.outgoing d (p.renumber π) = store.outgoing d p := by
  have hp' := hnum.mem_points hc hc' hp
  by_cases hreach : c.Reaches d start p
  · obtain ⟨fact, result, hin, hfact, hout, hresult⟩ := h.within p hp
    obtain ⟨fact', result', hin', hfact', hout', hresult'⟩ := h'.within _ hp'
    have hsub := h.solution.subSolution hc hstart hmono hinitial h.within
    have hsub' := h'.solution.subSolution hc' (hnum.mem_points hc hc' hstart)
      (hA.monotoneOn hmono) hinitial h'.within
    have hbelow := h.above _ _ (hsub'.renumber hA hnum hc hc') p hp hreach
    have hback : SubSolution A K c d ((start.renumber π).renumber π.symm) initial
        (store.into d A.lattice.top) (store.out d A.lattice.top) := by simpa using hsub
    have hbelow' := h'.above _ _ (hback.renumber hA.symm hnum.symm hc' hc) _ hp'
      (hnum.reaches hc hc' hreach)
    simp only [hA.lattice, Point.renumber_renumber, FactStore.into_of_incoming hin,
      FactStore.into_of_incoming hin', FactStore.out_of_outgoing hout,
      FactStore.out_of_outgoing hout'] at hbelow hbelow'
    rw [hin, hin', hout, hout', hmono.lawful.antisymm hfact hfact' hbelow'.1 hbelow.1,
      hmono.lawful.antisymm hresult hresult' hbelow'.2 hbelow.2]
    exact ⟨rfl, rfl⟩
  · obtain ⟨hin, hout, -⟩ := h.solution.unreached p hp hreach
    obtain ⟨hin', hout', -⟩ := h'.solution.unreached _ hp'
      fun hreach' => hreach ((hnum.reaches_iff hc hc').1 hreach')
    rw [hin, hin', hout, hout', hA.lattice]
    exact ⟨rfl, rfl⟩

/-- The start is the same place under its other number. -/
theorem startPoint_renumber (hnum : c.Renumbers π c') (h : startPoint c d = .ok start) :
    startPoint c' d = .ok (start.renumber π) := by
  cases d with
  | forward =>
    obtain ⟨b, hb, rfl⟩ := map_eq_ok.1 h
    unfold ControlFlowGraph.entryBlock at hb
    cases hentry : c.entry with
    | none => simp [hentry] at hb
    | some i =>
      simp only [hentry] at hb
      simp only [startPoint, ControlFlowGraph.entryBlock, hnum.entry, hentry, Option.map_some,
        hnum.block hb, Except.map, b.firstPoint_renumber]
  | backward =>
    obtain ⟨b, hb, rfl⟩ := map_eq_ok.1 h
    unfold ControlFlowGraph.exitBlock at hb
    cases hexit : c.exit with
    | none => simp [hexit] at hb
    | some i =>
      simp only [hexit] at hb
      simp only [startPoint, ControlFlowGraph.exitBlock, hnum.exit, hexit, Option.map_some,
        hnum.block hb, Except.map, b.lastPoint_renumber]

end Renumbering

/-! ### Stores -/

variable [DecidableEq α] {o : Options}

theorem fixedPoint_isGreatest (hc : c.WellFormed) (hA : A.MonotoneOn K) (hinitial : K initial)
    (h : fixedPoint A c initial o = .ok store) (hstart : startPoint c o.direction = .ok start) :
    Greatest A K c o.direction start initial store := by
  obtain ⟨start', P, order, final, hstart', rfl, rfl, rfl, hposes, hinv, run, rfl⟩ :=
    fixedPoint_ok hc h
  cases hstart.symm.trans hstart'
  exact run.anyhow.greatest hposes hc hA hinitial hinv

theorem prepare_greatest (hc : c.WellFormed) (hA : A.MonotoneOn K) (hinitial : K initial)
    (hstart : startPoint c o.direction = .ok start) {P : Problem α} {s final : State α}
    (h : prepare A c initial o = .ok (P, s)) (run : RunsAnyhow P s final) :
    Greatest A K c o.direction start initial (collect P final) := by
  obtain ⟨P', order, hprepare, rfl, rfl, rfl, hposes, hinv⟩ := prepare_ok hc A initial hstart
  obtain ⟨rfl, rfl⟩ := Prod.mk.inj (Except.ok.inj (h.symm.trans hprepare))
  exact run.greatest hposes hc hA hinitial hinv

/-- The stored facts solve the equations, and no facts that lie below what makes them rise above
the stored ones. These depend neither on the order of the visits nor on the numbers of the
blocks. -/
theorem fixedPoint_greatest (built : c.Built) (hA : A.MonotoneOn K) (hinitial : K initial)
    (h : fixedPoint A c initial o = .ok store) : ∃ start,
      startPoint c o.direction = .ok start ∧
        Solution A c o.direction start initial store ∧ Within store o.direction c K ∧
        (∀ into out, SubSolution A K c o.direction start initial into out →
          ∀ p, c.Reaches o.direction start p → ∃ fact result,
            store.incoming o.direction p = .ok fact ∧ A.lattice.lessOrEqual (into p) fact ∧
              store.outgoing o.direction p = .ok result ∧
                A.lattice.lessOrEqual (out p) result) ∧
        (∀ P s final, prepare A c initial o = .ok (P, s) → RunsAnyhow P s final →
          ∀ p ∈ c.points,
            (collect P final).incoming o.direction p = store.incoming o.direction p ∧
              (collect P final).outgoing o.direction p = store.outgoing o.direction p) ∧
        ∀ π c' A' o' store', c.Renumbers π c' → c'.Built → A.Renumbers π A' →
          o'.direction = o.direction → fixedPoint A' c' initial o' = .ok store' →
            ∀ p ∈ c.points,
              store'.incoming o.direction (p.renumber π) = store.incoming o.direction p ∧
                store'.outgoing o.direction (p.renumber π) = store.outgoing o.direction p := by
  have hc := built.wellFormed
  obtain ⟨start, hstart, -⟩ := fixedPoint_solution hc h
  have hpoint := startPoint_mem hc hstart
  have hgreatest := fixedPoint_isGreatest hc hA hinitial h hstart
  refine ⟨start, hstart, hgreatest.solution, hgreatest.within, ?above, ?order, ?numbers⟩
  case above =>
    intro into out hsub p hreach
    obtain ⟨passed, way⟩ := id hreach
    have hp := way.mem_points hc hpoint
    obtain ⟨fact, result, hin, -, hout, -⟩ := hgreatest.within p hp
    have hbelow := hgreatest.above into out hsub p hp hreach
    rw [FactStore.into_of_incoming hin, FactStore.out_of_outgoing hout] at hbelow
    exact ⟨fact, result, hin, (A.lattice.lessOrEqual_iff ..).2 hbelow.1, hout,
      (A.lattice.lessOrEqual_iff ..).2 hbelow.2⟩
  case order =>
    intro P s final hprepare run p hp
    have hother := prepare_greatest hc hA hinitial hstart hprepare run
    have hagree := hgreatest.agree (start.renumber_refl ▸ hother) hA hinitial (.refl A) (.refl c) hc
      hc hpoint hp
    rwa [p.renumber_refl] at hagree
  case numbers =>
    intro π c' A' o' store' hnum built' hrenumbers hdirection h' p hp
    have hstart' := startPoint_renumber hnum hstart
    rw [← hdirection] at hstart'
    have hother := fixedPoint_isGreatest built'.wellFormed (hrenumbers.monotoneOn hA) hinitial h'
      hstart'
    rw [hdirection] at hother
    exact hgreatest.agree hother hA hinitial hrenumbers hnum hc built'.wellFormed hpoint hp

/-- The loop, with the numbers of its blocks changed for each other. -/
def swappedChanges : List ControlFlowGraph.Change :=
  [.newBlock, .newBlock, .push 1 .nop, .push 0 .nop, .push 0 .nop, .addEdge 1 0, .addEdge 0 0,
    .setEntry 1, .setExit 0]

theorem swapped_renumbers :
    (ControlFlowGraph.build loopChanges).Renumbers (.swap 0 1) (.build swappedChanges) := by
  refine .of_lt (ControlFlowGraph.Built.wellFormed ⟨loopChanges, rfl⟩)
    (ControlFlowGraph.Built.wellFormed ⟨swappedChanges, rfl⟩) (fun i hi => ?_) (by decide +kernel)
    (by decide +kernel) (by decide +kernel) (by decide +kernel)
  have htwo : (ControlFlowGraph.build loopChanges).nextIndex = 2 := by decide +kernel
  have htwo' : (ControlFlowGraph.build swappedChanges).nextIndex = 2 := by decide +kernel
  rw [Equiv.swap_apply_of_ne_of_ne] <;> omega

theorem fixedPoint_greatest_swapped : ∃ store store' start,
    fixedPoint countdown (.build loopChanges) 4 {} = .ok store ∧
      fixedPoint countdown (.build swappedChanges) 4 {} = .ok store' ∧
        startPoint (.build loopChanges) .forward = .ok start ∧
          Solution countdown (.build loopChanges) .forward start 4 store ∧
          (∀ into out, SubSolution countdown (· ≤ 9) (.build loopChanges) .forward start 4 into out →
            ∀ p, (ControlFlowGraph.build loopChanges).Reaches .forward start p → ∃ fact result,
              store.incoming .forward p = .ok fact ∧
                countdown.lattice.lessOrEqual (into p) fact ∧
                  store.outgoing .forward p = .ok result ∧
                    countdown.lattice.lessOrEqual (out p) result) ∧
            ∀ p ∈ (ControlFlowGraph.build loopChanges).points,
              store'.incoming .forward (p.renumber (.swap 0 1)) = store.incoming .forward p ∧
                store'.outgoing .forward (p.renumber (.swap 0 1)) =
                  store.outgoing .forward p := by
  obtain ⟨store, h⟩ := exists_of_isOk (e := fixedPoint countdown (.build loopChanges) 4 {})
    (by decide +kernel)
  obtain ⟨store', h'⟩ := exists_of_isOk (e := fixedPoint countdown (.build swappedChanges) 4 {})
    (by decide +kernel)
  obtain ⟨start, hstart, hsolution, -, habove, -, hnumbers⟩ :=
    fixedPoint_greatest ⟨loopChanges, rfl⟩ countdown_monotone (by decide) h
  exact ⟨store, store', start, h, h', hstart, hsolution, habove,
    hnumbers _ _ countdown {} store' swapped_renumbers ⟨swappedChanges, rfl⟩ ⟨rfl, fun _ => rfl⟩
      rfl h'⟩

end Solver

end FlowFacts
