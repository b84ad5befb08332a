import FlowFacts.Proofs.Client.Reflection
import FlowFacts.Proofs.Solver.VisitBound

/-! When the budget is enough for the reflective calls of a method.

The analysis of locals is monotone and never fails, so nothing but the budget stops it
short. The sets of the locals that the method writes can each grow beyond the bound at
every source of a point, and with a budget for all of that the sites are found
(`sites_within_budget`). -/
namespace FlowFacts

/-- The locals that the method writes. -/
def Method.writtenLocals (m : Method) : List Local :=
  (m.body.points.filterMap fun p => (m.body.operationAt? p).bind Operation.written?).dedup

namespace Reflection
open Solver

variable {bound : Nat}

/-! ### The analysis of locals is monotone -/

/-- Sets are within the bound, and no local is listed without a value. -/
abbrev Proper (bound : Nat) (fact : LocalValues) : Prop :=
  fact.WellFormed (values bound) (ValueSet.WithinBound bound)

theorem Proper.eval {fact : LocalValues} (h : Proper bound fact) (operand : Operand) :
    (eval bound fact operand).WithinBound bound := by
  cases operand with
  | slot l => exact h.getOrTop_mem (ValueSet.lawful bound).top_mem l
  | text value => exact ValueSet.withinBound_bounded bound _
  | type name => exact ValueSet.withinBound_bounded bound _
  | null => exact ValueSet.withinBound_bounded bound _

theorem eval_below {low high : LocalValues} (hlow : Proper bound low) (hhigh : Proper bound high)
    (hbelow : (localValues bound).lattice.Below low high) (operand : Operand) :
    (values bound).Below (eval bound low operand) (eval bound high operand) := by
  have hpoint := (MapFact.below_iff (values_tells bound) (ValueSet.lawful bound) hlow hhigh).1 hbelow
  cases operand with
  | slot l => exact hpoint l
  | text value => exact (ValueSet.lawful bound).refl (ValueSet.withinBound_bounded bound _)
  | type name => exact (ValueSet.lawful bound).refl (ValueSet.withinBound_bounded bound _)
  | null => exact (ValueSet.lawful bound).refl (ValueSet.withinBound_bounded bound _)

/-- The operation writes one local, with lower values for lower facts. -/
structure Writes (bound : Nat) (operation : Operation) (dst : Local)
    (value : LocalValues → ValueSet SymbolicValue) : Prop where
  written : operation.written? = some dst
  execute : ∀ fact, Reflection.execute bound fact operation =
    fact.insert (values bound) dst (value fact)
  within : ∀ fact, Proper bound fact → (value fact).WithinBound bound
  below : ∀ low high, Proper bound low → Proper bound high →
    (localValues bound).lattice.Below low high → (values bound).Below (value low) (value high)

theorem writes_opaque {operation : Operation} {dst : Local}
    (written : operation.written? = some dst) (execute : ∀ fact, execute bound fact operation =
      fact.insert (values bound) dst (.singleton bound .opaqueValue)) :
    Writes bound operation dst fun _ => .singleton bound .opaqueValue where
  written := written
  execute := execute
  within _ _ := ValueSet.withinBound_bounded bound _
  below _ _ _ _ _ := (ValueSet.lawful bound).refl (ValueSet.withinBound_bounded bound _)

/-- An operation writes one local, or leaves every fact as it is. -/
theorem writes_or_keeps (bound : Nat) (operation : Operation) :
    (∃ dst value, Writes bound operation dst value) ∨
      ∀ fact, execute bound fact operation = fact := by
  cases operation with
  | assign dst src =>
    exact .inl ⟨dst, fun fact => eval bound fact src, rfl, fun _ => rfl,
      fun _ hfact => hfact.eval src, fun _ _ hlow hhigh hbelow => eval_below hlow hhigh hbelow src⟩
  | load dst => exact .inl ⟨dst, _, writes_opaque rfl fun _ => rfl⟩
  | call callee args dst =>
    cases dst with
    | some dst => exact .inl ⟨dst, _, writes_opaque rfl fun _ => rfl⟩
    | none => exact .inr fun _ => rfl
  | assume capability => exact .inr fun _ => rfl
  | ret value => exact .inr fun _ => rfl
  | nop => exact .inr fun _ => rfl

theorem Proper.execute {fact : LocalValues} (h : Proper bound fact) (operation : Operation) :
    Proper bound (execute bound fact operation) := by
  rcases writes_or_keeps bound operation with ⟨dst, value, hwrites⟩ | hkeeps
  · rw [hwrites.execute]
    exact h.insert (values_tells bound) dst (hwrites.within fact h)
  · rwa [hkeeps]

theorem execute_below {low high : LocalValues} (hlow : Proper bound low)
    (hhigh : Proper bound high) (hbelow : (localValues bound).lattice.Below low high)
    (operation : Operation) : (localValues bound).lattice.Below (execute bound low operation)
      (execute bound high operation) := by
  rcases writes_or_keeps bound operation with ⟨dst, value, hwrites⟩ | hkeeps
  · rw [hwrites.execute, hwrites.execute]
    exact MapFact.insert_below (values_tells bound) (ValueSet.lawful bound) hlow hhigh hbelow
      (hwrites.within low hlow) (hwrites.within high hhigh)
      (hwrites.below low high hlow hhigh hbelow) dst
  · rwa [hkeeps, hkeeps]

theorem localValues_monotone (bound : Nat) : (localValues bound).MonotoneOn (Proper bound) := by
  constructor
  case lawful => exact MapFact.lawful (values_tells bound) (ValueSet.lawful bound)
  case transfer_mem =>
    intro l a b ha hb
    rw [localValues_apply, Except.ok.injEq] at hb
    subst hb
    cases l.operation? with
    | some operation => exact ha.execute operation
    | none => exact ha
  case transfer_mono =>
    intro l a b a' b' ha hb hbelow ha' hb'
    rw [localValues_apply, Except.ok.injEq] at ha' hb'
    subst ha' hb'
    cases l.operation? with
    | some operation => exact execute_below ha hb hbelow operation
    | none => exact hbelow

theorem localValues_total (bound : Nat) : (localValues bound).TotalOn (Proper bound) :=
  fun l a _ => ⟨_, localValues_apply bound l a⟩

theorem localValues_quiet (bound : Nat) : (localValues bound).Quiet := fun _ _ => rfl

/-! ### Facts speak of locals that are written -/

/-- Proper facts that have values for written locals only. -/
def Written (bound : Nat) (m : Method) (fact : LocalValues) : Prop :=
  Proper bound fact ∧ fact.Over (values bound) m.writtenLocals

theorem mem_writtenLocals {m : Method} {p : Point} {operation : Operation} {dst : Local}
    (hp : p ∈ m.body.points) (hat : m.body.operationAt? p = some operation)
    (hdst : operation.written? = some dst) : dst ∈ m.writtenLocals :=
  List.mem_dedup.2 (List.mem_filterMap.2 ⟨p, hp, by simp [hat, hdst]⟩)

theorem kept_written {m : Method} {first : Point} (hc : m.body.WellFormed)
    (hfirst : first ∈ m.body.points) : Kept (localValues bound) m.body .forward first .empty
      (fun _ => Written bound m) (fun _ => Written bound m) := by
  have hempty : Written bound m .empty := ⟨MapFact.wellFormed_empty, MapFact.over_empty _⟩
  constructor
  case top_into => exact fun _ => hempty
  case top_out => exact fun _ => hempty
  case initial => exact hempty
  case meet =>
    intro p q a b ha hb _
    exact ⟨ha.1.meet (values_tells bound) (ValueSet.lawful bound) hb.1,
      ha.2.meet (values_tells bound) (ValueSet.lawful bound) ha.1 hb.1 hb.2⟩
  case transfer =>
    intro p l a b hreach hl ha hb
    obtain ⟨passed, way⟩ := hreach
    have hp := way.mem_points hc hfirst
    have hat := ControlFlowGraph.operationAt?_of_locate hl
    rw [localValues_apply, Except.ok.injEq] at hb
    subst hb
    cases hoperation : l.operation? with
    | none => exact ha
    | some operation =>
      rw [hoperation] at hat
      refine ⟨ha.1.execute operation, ?_⟩
      rcases writes_or_keeps bound operation with ⟨dst, value, hwrites⟩ | hkeeps
      · simp only [hwrites.execute]
        exact ha.2.insert (values_only_top bound) (mem_writtenLocals hp hat hwrites.written) _
      · simpa only [hkeeps] using ha.2

/-! ### The sites -/

/-- There is a site or none at every point of the store. -/
theorem exists_sitesOf {m : Method} {store : FactStore LocalValues} (hc : m.body.WellFormed)
    (hpoints : store.points = m.body.points) :
    ∃ found, sitesOf m bound store = .ok found := by
  obtain ⟨answers, hanswers⟩ := exists_mapM (f := siteAt m bound store) (l := store.points)
    fun p hp => by
      obtain ⟨facts, hfacts⟩ := FactStore.exists_lookup hp
      obtain ⟨l, hl, -⟩ := hc.locate_point (hpoints ▸ hp)
      unfold siteAt
      simp only [hl, bind, Except.bind, hfacts]
      split
      · split <;> exact ⟨_, rfl⟩
      · exact ⟨_, rfl⟩
  exact ⟨answers.filterMap id, by simp only [sitesOf, hanswers, Except.map]⟩

theorem sites_of_fixedPoint {m : Method} {o : Options} {store : FactStore LocalValues}
    (hc : m.body.WellFormed) (h : fixedPoint (localValues o.bound) m.body .empty
      { o with direction := .forward } = .ok store) : ∃ found, sites m o = .ok found := by
  obtain ⟨first, -, hs⟩ := fixedPoint_solution hc h
  obtain ⟨found, hfound⟩ : ∃ found, sitesOf m o.bound store = .ok found :=
    exists_sitesOf hc hs.points
  exact ⟨found, ofError_eq_ok.2 ⟨store, h, hfound⟩⟩

theorem sites_of_stop {m : Method} {o : Options} {why : Stop}
    (h : fixedPoint (localValues o.bound) m.body .empty { o with direction := .forward } =
      .error why) : sites m o = .error why := by
  have hsolve : (solve m o).outcome = .error why := h
  simp only [sites, sitesAfter, hsolve, bind, Except.bind]

/-- Nothing but the budget keeps the sites from being found. -/
theorem sites_ok_or_exceeded {m : Method} {o : Options} {first : Point} (hc : m.body.WellFormed)
    (hfirst : startPoint m.body .forward = .ok first) (free : o.isCancelled = false) :
    (∃ found, sites m o = .ok found) ∨
      ∃ p, sites m o = .error (.error (.budgetExceeded p o.budget)) := by
  have hends := fixedPoint_ok_or_exceeded (o := { o with direction := .forward }) hc hfirst
    (localValues_monotone o.bound) (localValues_total o.bound) (localValues_quiet o.bound)
    MapFact.wellFormed_empty free
  rcases hends with ⟨store, hstore⟩ | ⟨point, -, hexceeded⟩
  · exact .inl (sites_of_fixedPoint hc hstore)
  · exact .inr ⟨point, sites_of_stop hexceeded⟩

/-- A method with an entry, which no one cancels, has its sites found or exceeds the budget,
and does not when the budget leaves room at every point for each source to widen the set of
each written local, member by member up to the unknown. -/
theorem sites_within_budget {m : Method} {o : Options} {entry : Nat} (built : m.body.Built)
    (hentry : m.body.entry = some entry) (free : o.isCancelled = false) :
    ((∃ found, sites m o = .ok found) ∨
        ∃ p, sites m o = .error (.error (.budgetExceeded p o.budget))) ∧
      ((∀ p ∈ m.body.points, 1 + (m.body.sources .forward p).length *
          (m.writtenLocals.length * (o.bound + 1)) ≤ o.budget) →
        ∃ found, sites m o = .ok found) := by
  have hc := built.wellFormed
  obtain ⟨first, hfirst⟩ := exists_startPoint hc hentry
  refine ⟨sites_ok_or_exceeded hc hfirst free, fun enough => ?_⟩
  obtain ⟨store, hstore⟩ := fixedPoint_within_budget (o := { o with direction := .forward }) hc
    hfirst (localValues_monotone o.bound) (localValues_total o.bound) (localValues_quiet o.bound)
    MapFact.wellFormed_empty free (kept_written hc (startPoint_mem hc hfirst))
    (MapFact.ranked (values_tells o.bound) (ValueSet.lawful o.bound) (ValueSet.ranked o.bound)
      m.writtenLocals) enough
  exact sites_of_fixedPoint hc hstore

theorem sites_within_budget_branch : branch.body.Built ∧ branch.body.entry = some 0 ∧
    ({} : Options).isCancelled = false ∧ ∃ found, sites branch {} = .ok found := by
  have hentry : branch.body.entry = some 0 := by decide +kernel
  exact ⟨⟨_, rfl⟩, hentry, rfl,
    (sites_within_budget (o := {}) ⟨_, rfl⟩ hentry rfl).2 (by decide +kernel)⟩

end Reflection

end FlowFacts
