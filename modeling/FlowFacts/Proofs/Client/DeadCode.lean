import FlowFacts.Proofs.Client.Capability
import FlowFacts.Proofs.Client.ReflectionBudget
import FlowFacts.Proofs.Solver.DeadCode

/-! Code that control does not come to does not change what is reported of the rest.

The clients go through the points of a store and report what they find at each, so what they
report of the live points is what they report when they go through these alone
(`exists_mapM_filter`). Two programs with the same live code have the same live points, with
the same facts and the same operations there (`uses_sameLive`, `sites_sameLive`). Changes that
are dead leave the live code as it is (`deadCode_unseen`). -/
namespace FlowFacts
open ControlFlowGraph (SameLive)
open Solver (SameFacts)

/-! ### Reports by points -/

section Reports
variable {β γ : Type} {f f' : Point → Except Error β} {points points' : List Point}
  {answers answers' : List β} (entries : β → List γ) (place : γ → Point) (keep : Point → Bool)

/-- The entries of some of the points are those found when going through these alone. -/
theorem exists_mapM_filter (h : points.mapM f = .ok answers)
    (hplace : ∀ p b, f p = .ok b → ∀ e ∈ entries b, place e = p) :
    ∃ kept, List.Forall₂ (f · = .ok ·) (points.filter keep) kept ∧
      (answers.flatMap entries).filter (fun e => keep (place e)) = kept.flatMap entries := by
  rw [mapM_eq_ok] at h
  induction h with
  | nil => exact ⟨[], .nil, rfl⟩
  | @cons p b points answers hb _ ih =>
    obtain ⟨kept, hkept, heq⟩ := ih
    cases hp : keep p with
    | true =>
      refine ⟨b :: kept, ?_, ?_⟩
      · rw [List.filter_cons_of_pos hp]
        exact .cons hb hkept
      · rw [List.flatMap_cons, List.flatMap_cons, List.filter_append, heq, List.filter_eq_self.2]
        exact fun e he => by rw [hplace p b hb e he, hp]
    | false =>
      refine ⟨kept, ?_, ?_⟩
      · rw [List.filter_cons_of_neg (by simp [hp])]
        exact hkept
      · rw [List.flatMap_cons, List.filter_append, heq, List.filter_eq_nil_iff.2, List.nil_append]
        exact fun e he => by simp [hplace p b hb e he, hp]

/-- Two reports agree on points that both go through with the same answers. -/
theorem filter_entries_eq (h : points.mapM f = .ok answers)
    (h' : points'.mapM f' = .ok answers')
    (hplace : ∀ p b, f p = .ok b → ∀ e ∈ entries b, place e = p)
    (hplace' : ∀ p b, f' p = .ok b → ∀ e ∈ entries b, place e = p)
    (same : points'.filter keep = points.filter keep)
    (agree : ∀ p ∈ points.filter keep, f' p = f p) :
    (answers'.flatMap entries).filter (fun e => keep (place e)) =
      (answers.flatMap entries).filter fun e => keep (place e) := by
  obtain ⟨kept, hkept, heq⟩ := exists_mapM_filter entries place keep h hplace
  obtain ⟨kept', hkept', heq'⟩ := exists_mapM_filter entries place keep h' hplace'
  rw [same] at hkept'
  have hsame : List.Forall₂ Eq kept' kept :=
    forall_join hkept'.flip hkept.flip fun b p b' hp hb hb' =>
      Except.ok.inj (hb.symm.trans ((agree p hp).trans hb'))
  rw [List.forall₂_eq_eq_eq] at hsame
  rw [heq, heq', hsame]

end Reports

/-! ### Capability uses -/

namespace Capability

theorem exists_usesOf {m : Method} {store : FactStore (DefiniteSet String)}
    (hc : m.body.WellFormed) (hpoints : store.points = m.body.points) :
    ∃ lists, store.points.mapM (usesAt m store) = .ok lists := by
  refine exists_mapM fun p hp => ?_
  obtain ⟨facts, hfacts⟩ := FactStore.exists_lookup hp
  obtain ⟨l, hl, -⟩ := hc.locate_point (hpoints ▸ hp)
  unfold usesAt
  simp only [hl, bind, Except.bind, hfacts]
  split <;> exact ⟨_, rfl⟩

/-- The uses at a live point. -/
theorem usesAt_sameLive {m : Method} {more : ControlFlowGraph} (h : SameLive m.body more)
    {store store' : FactStore (DefiniteSet String)} (facts : SameFacts m.body more store store')
    {p : Point} (hp : p ∈ m.body.points) (live : m.body.Live p.block) :
    usesAt { m with body := more } store' p = usesAt m store p := by
  obtain ⟨known, hlookup, hlookup'⟩ := facts.live p hp live
  unfold usesAt
  simp only [h.locate_eq live, hlookup, hlookup']
  rfl

open scoped Classical in
/-- Methods with the same live code have the same uses in it. -/
theorem uses_sameLive {m : Method} {more : ControlFlowGraph} (h : SameLive m.body more)
    (o : Options) : SameEnd
      (fun found found' => found'.filter (fun u => m.body.Live u.point.block) =
        found.filter fun u => m.body.Live u.point.block)
      (uses m o) (uses { m with body := more } o) := by
  have hneutral (a : DefiniteSet String) (_ : Solver.Arises assumed m.body .empty
      { o with direction := .forward } a) : assumed.lattice.meet a assumed.lattice.top = a :=
    assumed_monotone.lawful.meet_top a trivial
  refine (Solver.fixedPoint_sameLive h rfl hneutral).bind fun store store' facts => ?_
  obtain ⟨lists, hlists⟩ := exists_usesOf h.first facts.points
  obtain ⟨lists', hlists'⟩ := exists_usesOf (m := { m with body := more }) h.second facts.points'
  simp only [usesOf, hlists, hlists', Except.map, Stop.ofError]
  rw [facts.points] at hlists
  rw [facts.points'] at hlists'
  have hplace (m : Method) (store : FactStore (DefiniteSet String)) (p : Point)
      (us : List CapabilityUse) (h : usesAt m store p = .ok us) (u : CapabilityUse) (hu : u ∈ us) :
      u.point = p := ((usesAt_ok h).2 u hu).1
  have hfilter := filter_entries_eq id CapabilityUse.point (fun p => m.body.Live p.block) hlists
    hlists' (hplace _ _) (hplace _ _) h.points_filter fun p hp => by
      obtain ⟨hp, live⟩ := List.mem_filter.1 hp
      exact usesAt_sameLive h facts hp (of_decide_eq_true live)
  rw [List.flatMap_id, List.flatMap_id] at hfilter
  exact .ok hfilter

end Capability

/-! ### Reflection sites -/

namespace Reflection

/-- The site at a live point. -/
theorem siteAt_sameLive {m : Method} {more : ControlFlowGraph} (h : SameLive m.body more)
    {bound : Nat} {store store' : FactStore LocalValues}
    (facts : SameFacts m.body more store store') {p : Point} (hp : p ∈ m.body.points)
    (live : m.body.Live p.block) :
    siteAt { m with body := more } bound store' p = siteAt m bound store p := by
  obtain ⟨known, hlookup, hlookup'⟩ := facts.live p hp live
  unfold siteAt
  simp only [h.locate_eq live, hlookup, hlookup']

open scoped Classical in
/-- Methods with the same live code have the same sites in it. -/
theorem sites_sameLive {m : Method} {more : ControlFlowGraph} (h : SameLive m.body more)
    (o : Options) : SameEnd
      (fun found found' => found'.filter (fun s => m.body.Live s.point.block) =
        found.filter fun s => m.body.Live s.point.block)
      (sites m o) (sites { m with body := more } o) := by
  have hclosed := (localValues_monotone o.bound).closed
  have hneutral (a : LocalValues) (ha : Solver.Arises (localValues o.bound) m.body .empty
      { o with direction := .forward } a) :
      (localValues o.bound).lattice.meet a (localValues o.bound).lattice.top = a :=
    hclosed.lawful.meet_top a (ha.mem h.first hclosed MapFact.wellFormed_empty)
  refine (Solver.fixedPoint_sameLive h rfl hneutral).bind fun store store' facts => ?_
  obtain ⟨found, hfound⟩ : ∃ found, sitesOf m o.bound store = .ok found :=
    exists_sitesOf h.first facts.points
  obtain ⟨found', hfound'⟩ : ∃ found, sitesOf { m with body := more } o.bound store' = .ok found :=
    exists_sitesOf h.second facts.points'
  simp only [hfound, hfound', Stop.ofError]
  obtain ⟨answers, hanswers, rfl⟩ := map_eq_ok.1 hfound
  obtain ⟨answers', hanswers', rfl⟩ := map_eq_ok.1 hfound'
  rw [facts.points] at hanswers
  rw [facts.points'] at hanswers'
  have hplace (m : Method) (store : FactStore LocalValues) (p : Point)
      (answer : Option ReflectionSite) (h : siteAt m o.bound store p = .ok answer)
      (s : ReflectionSite) (hs : s ∈ answer.toList) : s.point = p := by
    cases Option.mem_toList.1 hs
    exact (siteAt_ok h).1
  have hfilter := filter_entries_eq Option.toList ReflectionSite.point
    (fun p => m.body.Live p.block) hanswers hanswers' (hplace _ _) (hplace _ _) h.points_filter
    fun p hp => by
      obtain ⟨hp, live⟩ := List.mem_filter.1 hp
      exact siteAt_sameLive h facts hp (of_decide_eq_true live)
  rw [← List.filterMap_eq_flatMap_toList, ← List.filterMap_eq_flatMap_toList] at hfilter
  exact .ok hfilter

end Reflection

/-! ### Dead changes -/

open scoped Classical in
/-- Changes that add dead code keep the live blocks. Any analysis for which the top leaves
alone the facts that arise ends with the same error, or with the same facts and visits at
every live point; and of the live calls the clients report the same. -/
theorem deadCode_unseen {c : ControlFlowGraph} {changes : List ControlFlowGraph.Change}
    (built : c.Built) (dead : ∀ change ∈ changes, change.Dead c) :
    let more := changes.foldl ControlFlowGraph.Change.apply c
    (∀ i, more.Live i ↔ c.Live i) ∧
    (∀ {α : Type} [DecidableEq α] (A : Analysis α) (initial : α) (o : Options),
      (∀ a, Solver.Arises A c initial { o with direction := .forward } a →
        A.lattice.meet a A.lattice.top = a) →
      SameEnd (SameFacts c more) (Solver.runForward A c initial o).outcome
        (Solver.runForward A more initial o).outcome) ∧
    ∀ (m : Method) (o : Options), m.body = c →
      SameEnd (fun found found' => found'.filter (fun u => c.Live u.point.block) =
          found.filter fun u => c.Live u.point.block)
        (Capability.uses m o) (Capability.uses { m with body := more } o) ∧
      SameEnd (fun found found' => found'.filter (fun s => c.Live s.point.block) =
          found.filter fun s => c.Live s.point.block)
        (Reflection.sites m o) (Reflection.sites { m with body := more } o) := by
  intro more
  have h : SameLive c more := ControlFlowGraph.sameLive_of_dead built.wellFormed dead
  refine ⟨h.live_iff, fun A initial o neutral => ?_, fun m o hm => ?_⟩
  · exact Solver.fixedPoint_sameLive h rfl neutral
  · subst hm
    exact ⟨Capability.uses_sameLive h o, Reflection.sites_sameLive h o⟩

/-- A loop that calls a method under the capability it requires, and a block that leads there
but that nothing leads to. -/
def deadEntrance : ControlFlowGraph := .build [.newBlock, .newBlock, .newBlock, .push 0 .nop,
  .push 1 (.assume "Code"), .push 1 (.call ⟨"Callee", [.requires "Code" "unsafe"]⟩ [] none),
  .addEdge 0 1, .addEdge 1 1, .addEdge 2 1, .setEntry 0]

/-- More operations in the third block, a fourth, and edges from both into the loop. -/
def deadChanges : List ControlFlowGraph.Change := [.push 2 .nop,
  .push 2 (.call ⟨"Callee", [.requires "Code" "unsafe"]⟩ [] none), .newBlock, .addEdge 3 1,
  .addEdge 2 0]

theorem live_deadEntrance {i : Nat} (live : deadEntrance.Live i) : i < 2 := by
  have hc : deadEntrance.WellFormed := ControlFlowGraph.Built.wellFormed ⟨_, rfl⟩
  have hentry : deadEntrance.entry = some 0 := by decide +kernel
  have hedges : ∀ i < 2, ∀ j < 3, deadEntrance.graph.hasEdge i j → j < 2 := by decide +kernel
  have hnext : deadEntrance.nextIndex = 3 := by decide +kernel
  refine hc.live_induction (motive := (· < 2)) (fun i hi => ?_) (fun i j _ hi edge => ?_) live
  · cases hentry.symm.trans hi
    decide
  · have hj := (hc.numbers j).1 (hc.consistent.ends_are_vertices i j edge).2
    exact hedges i hi j (hnext ▸ hj) edge

theorem dead_deadChanges : ∀ change ∈ deadChanges, change.Dead deadEntrance := by
  have dead (i : Nat) (hi : 2 ≤ i) : ¬ deadEntrance.Live i := fun live =>
    Nat.not_lt.2 hi (live_deadEntrance live)
  simp only [deadChanges, List.forall_mem_cons]
  exact ⟨dead 2 (by decide), dead 2 (by decide), trivial, dead 3 (by decide), dead 2 (by decide),
    by simp⟩

open scoped Classical in
theorem deadCode_unseen_deadEntrance :
    let more := deadChanges.foldl ControlFlowGraph.Change.apply deadEntrance
    deadEntrance.Built ∧ (∀ change ∈ deadChanges, change.Dead deadEntrance) ∧
      (∃ store store', (Solver.runForward Solver.countdown deadEntrance 4 {}).outcome = .ok store ∧
        (Solver.runForward Solver.countdown more 4 {}).outcome = .ok store' ∧
          SameFacts deadEntrance more store store') ∧
      ∃ found found', Capability.uses ⟨"Caller", [], deadEntrance⟩ {} = .ok found ∧
        Capability.uses ⟨"Caller", [], more⟩ {} = .ok found' ∧
          found'.filter (fun u => deadEntrance.Live u.point.block) =
            found.filter fun u => deadEntrance.Live u.point.block := by
  have built : deadEntrance.Built := ⟨_, rfl⟩
  obtain ⟨-, hfacts, hreports⟩ := deadCode_unseen built dead_deadChanges
  have hneutral (a : Nat) (ha : Solver.Arises Solver.countdown deadEntrance 4 {} a) :
      Solver.countdown.lattice.meet a Solver.countdown.lattice.top = a :=
    Solver.countdown_monotone.lawful.meet_top a
      (ha.mem built.wellFormed Solver.countdown_monotone.closed (by decide))
  exact ⟨built, dead_deadChanges,
    (hfacts Solver.countdown 4 {} hneutral).exists_of_isOk (by decide +kernel),
    (hreports ⟨"Caller", [], deadEntrance⟩ {} rfl).1.exists_of_isOk (by decide +kernel)⟩

end FlowFacts
