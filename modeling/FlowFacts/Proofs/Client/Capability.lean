import FlowFacts.Client.Capability
import FlowFacts.Proofs.Lattice.DefiniteSet
import FlowFacts.Proofs.Solver.Induction
import FlowFacts.Proofs.Solver.Monotone

/-! Capability uses are judged by all ways to their calls.

The solver meets facts at joins, and a way is one run through them. A capability is in
the fact before a point exactly when every way to the point assumes it
(`lookup_solve`): what the equations keep along an arc, every way keeps, and a
capability that is missing from a fact is missing on some way. -/
namespace FlowFacts

/-- The method carries a requirement of the capability. -/
def Method.Requires (m : Method) (capability : String) : Prop :=
  ∃ message, Annotation.requires capability message ∈ m.annotations

/-- Every way passes a point that assumes the capability. -/
def ControlFlowGraph.Guards (c : ControlFlowGraph) (first p : Point) (capability : String) : Prop :=
  ∀ passed, c.Way .forward first passed p →
    ∃ q ∈ passed, c.operationAt? q = some (.assume capability)

namespace CapabilityUse

/-- What a status says of a use, by the ways from `first` to its call. -/
def Means (u : CapabilityUse) (m : Method) (first : Point) : UseStatus → Prop
  | .unreachable => ¬ m.body.Reaches .forward first u.point
  | .suppressedByCaller => m.body.Reaches .forward first u.point ∧ m.Requires u.capability
  | .guarded => m.body.Reaches .forward first u.point ∧ ¬ m.Requires u.capability ∧
      m.body.Guards first u.point u.capability
  | .unguarded => m.body.Reaches .forward first u.point ∧ ¬ m.Requires u.capability ∧
      ¬ m.body.Guards first u.point u.capability

/-- What is used, apart from how safe that is. -/
def subject (u : CapabilityUse) : Point × String × String × String :=
  (u.point, u.callee, u.capability, u.message)

end CapabilityUse

/-- The subjects of the uses at a point, one for each requirement of a callee there. -/
def ControlFlowGraph.requiredAt (c : ControlFlowGraph) (p : Point) :
    List (Point × String × String × String) :=
  match c.operationAt? p with
  | some (.call callee _ _) => callee.annotations.filterMap fun
    | .requires capability message => some (p, callee.name, capability, message)
    | .reflectionAccess _ => none
  | _ => []

namespace Capability
open Solver

/-! ### The analysis -/

theorem assumed_apply (l : Location) (fact : DefiniteSet String) :
    assumed.transfer.apply l fact = .ok (match l.operation? with
      | some (.assume capability) => fact.insert capability
      | _ => fact) := by
  obtain ⟨block, instruction⟩ := l
  cases instruction with
  | none => rfl
  | some i =>
    obtain ⟨operation, index⟩ := i
    cases operation <;> rfl

theorem contains_apply {l : Location} {fact out : DefiniteSet String}
    (h : assumed.transfer.apply l fact = .ok out) (capability : String) :
    out.contains capability ↔
      l.operation? = some (.assume capability) ∨ fact.contains capability := by
  rw [assumed_apply, Except.ok.injEq] at h
  subst h
  split <;> simp_all

theorem everything_apply {l : Location} {fact out : DefiniteSet String}
    (h : assumed.transfer.apply l fact = .ok out) : out = .everything ↔ fact = .everything := by
  rw [assumed_apply, Except.ok.injEq] at h
  subst h
  split
  · cases fact <;> simp [DefiniteSet.insert]
  · rfl

theorem assumed_monotone : assumed.MonotoneOn fun _ => True where
  lawful := DefiniteSet.lawful
  transfer_mem := fun _ _ _ _ _ => trivial
  transfer_mono := by
    intro l a b a' b' _ _ hab ha hb
    refine (DefiniteSet.below_iff a' b').2 ?_
    rw [ne_eq, everything_apply ha, everything_apply hb]
    rcases (DefiniteSet.below_iff a b).1 hab with hb' | ⟨hne, hsub⟩
    · exact .inl hb'
    · refine .inr ⟨hne, fun capability => ?_⟩
      rw [contains_apply ha, contains_apply hb]
      exact Or.imp_right (hsub capability)

/-! ### Facts and ways -/

theorem contains_foldl (facts : List (DefiniteSet String)) (base : DefiniteSet String)
    (capability : String) : (facts.foldl assumed.lattice.meet base).contains capability ↔
      base.contains capability ∧ ∀ f ∈ facts, f.contains capability := by
  induction facts generalizing base with
  | nil => simp
  | cons f facts ih =>
    rw [List.foldl_cons, ih]
    simp [assumed, DefiniteSet.lattice, Lattice.ofMeet, and_assoc]

section Ways
variable {c : ControlFlowGraph} {first : Point} {store : FactStore (DefiniteSet String)}

/-- What is in the fact before a point, every way to it assumes. -/
theorem guarded_of_contains (hs : Solution assumed c .forward first .empty store)
    (hc : c.WellFormed) (hfirst : first ∈ c.points) {passed : List Point} {p : Point}
    (way : c.Way .forward first passed p) {fact : DefiniteSet String}
    (hfact : store.incoming .forward p = .ok fact) {capability : String}
    (hcontains : fact.contains capability) :
    ∃ q ∈ passed, c.operationAt? q = some (.assume capability) := by
  have := hs.along hc hfirst (motive := fun passed _ fact => fact.contains capability →
    ∃ q ∈ passed, c.operationAt? q = some (.assume capability)) ?_ ?_ way hfact
  · exact this hcontains
  · intro facts h
    rw [contains_foldl] at h
    simp at h
  · intro passed p q l before out base facts ih hlocate htransfer hmem h
    rw [contains_foldl] at h
    rcases (contains_apply htransfer capability).1 (h.2 out hmem) with hassume | hbefore
    · exact ⟨p, by simp, by simpa [ControlFlowGraph.operationAt?_of_locate hlocate] using hassume⟩
    · obtain ⟨r, hr, hassume⟩ := ih hbefore
      exact ⟨r, List.mem_append_left _ hr, hassume⟩

/-- A fact that lacks a capability lacks it on some way. -/
theorem kept_unguarded : Kept assumed c .forward first .empty
    (fun p fact => ∀ capability, fact.contains capability = false → ∃ passed,
      c.Way .forward first passed p ∧
        ∀ q ∈ passed, c.operationAt? q ≠ some (.assume capability))
    (fun p out => ∀ capability, out.contains capability = false → ∃ passed,
      c.Way .forward first passed p ∧
        ∀ q ∈ passed ++ [p], c.operationAt? q ≠ some (.assume capability)) where
  top_into p capability h := by cases h
  top_out p capability h := by cases h
  initial capability _ := ⟨[], .start, by simp⟩
  meet p q a b ha hb flow capability h := by
    have : (a.contains capability && b.contains capability) = false := by
      rw [← DefiniteSet.contains_meet]
      exact h
    rcases Bool.and_eq_false_iff.1 this with h | h
    · exact ha capability h
    · obtain ⟨passed, way, hall⟩ := hb capability h
      exact ⟨passed ++ [q], way.step flow, hall⟩
  transfer p l a b _ hlocate ha hb capability h := by
    have hb := contains_apply hb capability
    rw [h] at hb
    simp only [Bool.false_eq_true, false_iff, not_or, Bool.not_eq_true] at hb
    obtain ⟨passed, way, hall⟩ := ha capability hb.2
    refine ⟨passed, way, fun q hq => ?_⟩
    rcases List.mem_append.1 hq with hq | hq
    · exact hall q hq
    · rw [List.mem_singleton.1 hq]
      simpa [ControlFlowGraph.operationAt?_of_locate hlocate] using hb.1

end Ways

/-! ### Uses -/

theorem requires_iff (m : Method) (capability : String) :
    (m.requires? capability).isSome ↔ m.Requires capability := by
  simp only [Method.requires?, requirements, Option.isSome_map, List.find?_isSome,
    List.mem_filterMap, beq_iff_eq, Method.Requires]
  constructor
  · intro hentry
    obtain ⟨⟨_, message⟩, ⟨mark, hmem, hreq⟩, heq⟩ := hentry
    subst heq
    cases mark <;> simp only [ Annotation.requirement?, Option.some.injEq, Prod.mk.injEq,
      reduceCtorEq] at hreq
    obtain ⟨rfl, rfl⟩ := hreq
    exact ⟨_, hmem⟩
  · intro hlisted
    obtain ⟨message, hmem⟩ := hlisted
    exact ⟨(capability, message), ⟨_, hmem, rfl⟩, rfl⟩

/-- What the solver finds of a point, by the ways to it. -/
theorem lookup_solve {m : Method} {o : Options} {store : FactStore (DefiniteSet String)}
    (hc : m.body.WellFormed) (h : (solve m o).outcome = .ok store) :
    store.points = m.body.points ∧ ∃ first, startPoint m.body .forward = .ok first ∧
      ∀ p ∈ m.body.points, ∀ facts, store.lookup p = .ok facts →
        (facts.visits = 0 ↔ ¬ m.body.Reaches .forward first p) ∧
          ∀ capability,
            facts.before.contains capability ↔ m.body.Guards first p capability := by
  have hfixed : fixedPoint assumed m.body .empty { o with direction := .forward } = .ok store := h
  obtain ⟨first, hfirst, hs⟩ := fixedPoint_solution hc hfixed
  refine ⟨hs.points, first, hfirst, fun p hp facts hlookup =>
    ⟨hs.visits_eq_zero hp hlookup, fun capability => ?_⟩⟩
  have hbefore := FactStore.incoming_forward hlookup
  constructor
  · intro hcontains passed way
    exact guarded_of_contains hs hc (startPoint_mem hc hfirst) way hbefore hcontains
  · intro hguards
    by_contra hlacks
    obtain ⟨fact, -, hfact, hkept, -⟩ := fixedPoint_keeps hc hfixed hfirst kept_unguarded hp
    cases hbefore.symm.trans hfact
    obtain ⟨passed, way, hall⟩ := hkept capability (by simpa using hlacks)
    obtain ⟨q, hq, hassume⟩ := hguards passed way
    exact hall q hq hassume

theorem status_iff {m : Method} {facts : PointFacts (DefiniteSet String)} {first : Point}
    {u : CapabilityUse}
    (hvisits : facts.visits = 0 ↔ ¬ m.body.Reaches .forward first u.point)
    (hcontains : facts.before.contains u.capability ↔ m.body.Guards first u.point u.capability)
    (s : UseStatus) : status m facts u.capability = s ↔ u.Means m first s := by
  by_cases hreach : m.body.Reaches .forward first u.point
  · rw [status, if_neg fun h => hvisits.1 h hreach]
    by_cases hrequires : m.Requires u.capability
    · rw [if_pos ((requires_iff m u.capability).2 hrequires)]
      cases s <;> simp [CapabilityUse.Means, hreach, hrequires]
    · rw [if_neg fun h => hrequires ((requires_iff m u.capability).1 h)]
      by_cases hguards : m.body.Guards first u.point u.capability
      · rw [if_pos (hcontains.2 hguards)]
        cases s <;> simp [CapabilityUse.Means, hreach, hrequires, hguards]
      · rw [if_neg fun h => hguards (hcontains.1 h)]
        cases s <;> simp [CapabilityUse.Means, hreach, hrequires, hguards]
  · rw [status, if_pos (hvisits.2 hreach)]
    cases s <;> simp [CapabilityUse.Means, hreach]

/-- The uses at a point are those of its callee, each with the status its facts give. -/
theorem usesAt_ok {m : Method} {store : FactStore (DefiniteSet String)} {p : Point}
    {found : List CapabilityUse} (h : usesAt m store p = .ok found) :
    found.map CapabilityUse.subject = m.body.requiredAt p ∧ ∀ u ∈ found, u.point = p ∧
      ∃ facts, store.lookup p = .ok facts ∧ u.status = status m facts u.capability := by
  unfold usesAt at h
  unfold ControlFlowGraph.requiredAt
  cases hlocate : m.body.locate p with
  | error e => simp [hlocate, bind, Except.bind] at h
  | ok l =>
    rw [ControlFlowGraph.operationAt?_of_locate hlocate]
    cases hop : l.operation? with
    | none =>
      simp only [hlocate, hop, bind, Except.bind, pure, Except.pure, Except.ok.injEq] at h
      simp [← h]
    | some operation =>
      cases operation with
      | call callee args dst =>
        cases hlookup : store.lookup p with
        | error e => simp [hlocate, hop, hlookup, bind, Except.bind] at h
        | ok facts =>
          simp only [hlocate, hop, hlookup, bind, Except.bind, pure, Except.pure,
            Except.ok.injEq] at h
          subst h
          constructor
          · simp only [MethodRef.requirements, requirements, List.map_filterMap]
            refine List.filterMap_congr fun mark _ => ?_
            cases mark <;> rfl
          · intro u hu
            obtain ⟨⟨capability, message⟩, -, rfl⟩ := List.mem_map.1 hu
            exact ⟨rfl, facts, rfl, rfl⟩
      | assign _ _ | load _ | assume _ | ret _ | nop =>
        simp only [hlocate, hop, bind, Except.bind, pure, Except.pure, Except.ok.injEq] at h
        simp [← h]

/-- Lists found one for each point make up what the points ask for. -/
theorem flatten_subjects {c : ControlFlowGraph} {points : List Point}
    {lists : List (List CapabilityUse)} (h : List.Forall₂
      (fun p us => us.map CapabilityUse.subject = c.requiredAt p) points lists) :
    lists.flatten.map CapabilityUse.subject = points.flatMap c.requiredAt := by
  induction h with
  | nil => rfl
  | cons hp _ ih => rw [List.flatten_cons, List.map_append, List.flatMap_cons, hp, ih]

/-- The uses do not depend on the settings that the solver has no need of. -/
theorem solve_settings {m : Method} (hc : m.body.WellFormed) {o o' : Options}
    (budget : o'.budget = o.budget) (cancellation : o'.cancellation = o.cancellation) :
    solve m o' = solve m o := by
  have heq : { o' with direction := .forward } =
      { ({ o with direction := .forward } : Options) with
        verify := o'.verify, bound := o'.bound } := by
    rw [← budget, ← cancellation]
  unfold solve runForward
  rw [heq]
  exact run_withSettings hc assumed_monotone trivial _ _ _

theorem uses_ok {m : Method} {o : Options} {found : List CapabilityUse} (h : uses m o = .ok found) :
    ∃ store lists, (solve m o).outcome = .ok store ∧
      store.points.mapM (usesAt m store) = .ok lists ∧ found = lists.flatten := by
  obtain ⟨store, hstore, hfound⟩ := ofError_eq_ok.1 h
  obtain ⟨lists, hlists, heq⟩ := map_eq_ok.1 hfound
  exact ⟨store, lists, hstore, hlists, heq⟩

/-- The uses of a method are what its calls require, each judged by all ways to its call,
whatever the direction, the bound and the check in the options. -/
theorem uses_exact {m : Method} {o : Options} {found : List CapabilityUse}
    (built : m.body.Built) (h : uses m o = .ok found) :
    found.map CapabilityUse.subject = m.body.points.flatMap m.body.requiredAt ∧
      (∃ first, startPoint m.body .forward = .ok first ∧
        ∀ u ∈ found, ∀ s, u.status = s ↔ u.Means m first s) ∧
          ∀ o' : Options, o'.budget = o.budget → o'.cancellation = o.cancellation →
            uses m o' = .ok found := by
  have hc := built.wellFormed
  obtain ⟨store, lists, hstore, hlists, rfl⟩ := uses_ok h
  obtain ⟨hpoints, first, hfirst, hlookup⟩ := lookup_solve hc hstore
  refine ⟨?_, ⟨first, hfirst, fun u hu s => ?_⟩, fun o' budget cancellation => ?_⟩
  · rw [flatten_subjects ((mapM_eq_ok.1 hlists).imp fun p us hus => (usesAt_ok hus).1), hpoints]
  · obtain ⟨us, hus, hu⟩ := List.mem_flatten.1 hu
    obtain ⟨p, hp, hat⟩ := exists_left (mapM_eq_ok.1 hlists) hus
    obtain ⟨rfl, facts, hfacts, hstatus⟩ := (usesAt_ok hat).2 u hu
    obtain ⟨hvisits, hcontains⟩ := hlookup u.point (hpoints ▸ hp) facts hfacts
    rw [hstatus]
    exact status_iff hvisits (hcontains u.capability) s
  · rw [uses, solve_settings hc budget cancellation]
    exact h

/-- A loop that calls a method under the capability it requires, and a call after it. -/
def guardedLoop : Method where
  name := "Caller"
  annotations := []
  body := .build [.newBlock, .newBlock, .newBlock, .push 0 .nop, .push 1 (.assume "Code"),
    .push 1 (.call ⟨"Callee", [.requires "Code" "unsafe"]⟩ [] none),
    .push 2 (.call ⟨"Callee", [.requires "Code" "unsafe"]⟩ [] none),
    .addEdge 0 1, .addEdge 1 0, .addEdge 0 2, .setEntry 0]

theorem uses_exact_guardedLoop : guardedLoop.body.Built ∧ ∃ found first,
    uses guardedLoop {} = .ok found ∧
      found.map CapabilityUse.subject =
        guardedLoop.body.points.flatMap guardedLoop.body.requiredAt ∧
          startPoint guardedLoop.body .forward = .ok first ∧
            ∀ u ∈ found, ∀ s, u.status = s ↔ u.Means guardedLoop first s := by
  have built : guardedLoop.body.Built := ⟨_, rfl⟩
  obtain ⟨found, h⟩ := exists_of_isOk (e := uses guardedLoop {}) (by decide +kernel)
  obtain ⟨hsubjects, ⟨first, hfirst, hall⟩, -⟩ := uses_exact built h
  exact ⟨built, found, first, h, hsubjects, hfirst, hall⟩

end Capability

end FlowFacts
