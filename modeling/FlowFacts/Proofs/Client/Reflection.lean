import FlowFacts.Client.Reflection
import FlowFacts.Proofs.Lattice.MapFact
import FlowFacts.Proofs.Lattice.ValueSet
import FlowFacts.Proofs.Program.Execution
import FlowFacts.Proofs.Solver.Induction

/-! Reflective calls are resolved to the values of all ways to them.

The analysis follows sets of values where a way follows one value for each local. Before
a point the set of a local covers every value that some way gives it there, and is exact
for them: it lists no other, and where it is unknown there are more than the bound
(`covers_incoming`, `kept_exact`). A resolution therefore says precisely what the
values of all ways say, and every call that looks a member up has its site
(`sites_subjects`). -/
namespace FlowFacts

/-- The values are names, and few enough to list. -/
structure Nameable (bound : Nat) (arise : Set SymbolicValue) : Prop where
  some_value : 1 ≤ arise.encard
  within_bound : arise.encard ≤ bound
  all_names : ∀ v ∈ arise, v.name?.isSome

/-- What a resolution says of a call, by the values that its argument takes over all ways. -/
def ReflectionSite.Means (site : ReflectionSite) (bound : Nat) (c : ControlFlowGraph)
    (first : Point) (args : List Operand) : Resolution → Prop
  | .unreachable => ¬ c.Reaches .forward first site.point
  | .resolved names => c.Reaches .forward first site.point ∧
      ∃ operand, args[site.argument]? = some operand ∧
        Nameable bound (c.arising first site.point operand) ∧
          ∀ name, name ∈ names ↔ ∃ v ∈ c.arising first site.point operand, v.name? = some name
  | .unresolvable => c.Reaches .forward first site.point ∧
      ¬ ∃ operand, args[site.argument]? = some operand ∧
        Nameable bound (c.arising first site.point operand)

/-- What a site is of, apart from the names. -/
def ReflectionSite.subject (site : ReflectionSite) : Point × String × Nat :=
  (site.point, site.callee, site.argument)

/-- The subjects of the sites at a point, one for each annotation of a callee there. -/
def ControlFlowGraph.accessesAt (c : ControlFlowGraph) (p : Point) : List (Point × String × Nat) :=
  match c.operationAt? p with
  | some (.call callee _ _) =>
    (callee.annotations.filterMap Annotation.reflectionArgument?).map fun argument =>
      (p, callee.name, argument)
  | _ => []

theorem MethodRef.head?_filterMap (m : MethodRef) :
    (m.annotations.filterMap Annotation.reflectionArgument?).head? = m.reflectionArgument? :=
  List.head?_filterMap

namespace Reflection
open Solver

variable {bound : Nat}

theorem values_tells (bound : Nat) (s : ValueSet SymbolicValue) :
    (values bound).isTop s ↔ s = (values bound).top := decide_eq_true_iff

theorem values_only_top (bound : Nat) (s : ValueSet SymbolicValue) (h : (values bound).isTop s) :
    s = (values bound).top := (values_tells bound s).1 h

@[simp]
theorem mayContain_top (bound : Nat) (v : SymbolicValue) :
    (values bound).top.mayContain v = false := Std.ExtTreeSet.contains_empty

/-! ### Meets -/

theorem mayContain_meet {a b : LocalValues} {l : Local} {v : SymbolicValue}
    (h : (a.getOrTop (values bound) l).mayContain v ∨ (b.getOrTop (values bound) l).mayContain v) :
    ((a.meet (values bound) b).getOrTop (values bound) l).mayContain v := by
  rcases MapFact.getOrTop_meet_cases (values_only_top bound) a b l with
    ⟨htop, heq⟩ | ⟨htop, heq⟩ | heq
  · simpa [heq, htop] using h
  · simpa [heq, htop] using h
  · rw [heq]
    exact ValueSet.mayContain_meet h

theorem mayContain_foldl {facts : List LocalValues} {base fact : LocalValues} {l : Local}
    {v : SymbolicValue} (hmem : fact ∈ facts)
    (h : (fact.getOrTop (values bound) l).mayContain v) :
    ((facts.foldl (MapFact.meet (values bound)) base).getOrTop (values bound) l).mayContain v :=
  foldl_of_mem (motive := fun fact : LocalValues => (fact.getOrTop (values bound) l).mayContain v)
    (fun _ _ => mayContain_meet) hmem h base

theorem exact_meet {a b : LocalValues} {l : Local} {arise : Set SymbolicValue}
    (ha : (a.getOrTop (values bound) l).Exact bound arise)
    (hb : (b.getOrTop (values bound) l).Exact bound arise) :
    ((a.meet (values bound) b).getOrTop (values bound) l).Exact bound arise := by
  rcases MapFact.getOrTop_meet_cases (values_only_top bound) a b l with
    ⟨-, heq⟩ | ⟨-, heq⟩ | heq <;> rw [heq]
  · exact ha
  · exact hb
  · exact ValueSet.exact_meet ha hb

/-! ### Operations -/

theorem localValues_apply (bound : Nat) (l : Location) (fact : LocalValues) :
    (localValues bound).transfer.apply l fact = .ok (match l.operation? with
      | some operation => execute bound fact operation
      | none => fact) := rfl

/-- The fact may contain what the locals hold. -/
def Covers (bound : Nat) (fact : LocalValues) (locals : Locals) : Prop :=
  ∀ l v, locals l = some v → (fact.getOrTop (values bound) l).mayContain v

/-- The fact is exact for what the locals hold in some states. -/
def Exact (bound : Nat) (fact : LocalValues) (states : Set Locals) : Prop :=
  ∀ l, (fact.getOrTop (values bound) l).Exact bound ((Operand.slot l).valuesIn states)

theorem exact_empty {states : Set Locals} : Exact bound .empty states := fun l => by
  rw [MapFact.getOrTop_empty]
  exact ValueSet.exact_top

theorem Covers.eval {fact : LocalValues} {locals : Locals} (h : Covers bound fact locals)
    {operand : Operand} {v : SymbolicValue} (hv : operand.value? locals = some v) :
    (eval bound fact operand).mayContain v := by
  cases operand with
  | slot l => exact h l v hv
  | text value => exact Option.some.inj hv ▸ ValueSet.mayContain_singleton ..
  | type name => exact Option.some.inj hv ▸ ValueSet.mayContain_singleton ..
  | null => exact Option.some.inj hv ▸ ValueSet.mayContain_singleton ..

theorem Exact.eval {fact : LocalValues} {states : Set Locals} (h : Exact bound fact states)
    (nonempty : states.Nonempty) (operand : Operand) :
    (eval bound fact operand).Exact bound (operand.valuesIn states) := by
  obtain ⟨locals, hmem⟩ := nonempty
  cases operand with
  | slot l => exact h l
  | text value => exact ValueSet.exact_singleton ⟨locals, hmem, rfl⟩
  | type name => exact ValueSet.exact_singleton ⟨locals, hmem, rfl⟩
  | null => exact ValueSet.exact_singleton ⟨locals, hmem, rfl⟩

theorem Covers.insert {fact : LocalValues} {locals : Locals} (h : Covers bound fact locals)
    {dst : Local} {value : ValueSet SymbolicValue} {written : Option SymbolicValue}
    (hvalue : ∀ v, written = some v → value.mayContain v) :
    Covers bound (fact.insert (values bound) dst value)
      fun l => if dst = l then written else locals l := by
  intro l v hv
  rw [MapFact.getOrTop_insert (values_only_top bound)]
  by_cases heq : dst = l
  · rw [if_pos heq]
    exact hvalue v (by simpa [heq] using hv)
  · rw [if_neg heq]
    exact h l v (by simpa [heq] using hv)

theorem Covers.execute {fact : LocalValues} {locals : Locals} (h : Covers bound fact locals)
    (operation : Operation) : Covers bound (execute bound fact operation)
      (operation.execute locals) := by
  cases operation with
  | assign dst src => exact h.insert fun v hv => h.eval hv
  | load dst => exact h.insert fun v hv => Option.some.inj hv ▸ ValueSet.mayContain_singleton ..
  | call callee args dst =>
    cases dst with
    | none => exact h
    | some dst =>
      exact h.insert fun v hv => Option.some.inj hv ▸ ValueSet.mayContain_singleton ..
  | assume capability => exact h
  | ret value => exact h
  | nop => exact h

theorem Exact.insert {fact : LocalValues} {states : Set Locals} (h : Exact bound fact states)
    {dst : Local} {value : ValueSet SymbolicValue} {written : Locals → Option SymbolicValue}
    (hvalue : value.Exact bound {v | ∃ locals ∈ states, written locals = some v}) :
    Exact bound (fact.insert (values bound) dst value)
      ((fun locals l => if dst = l then written locals else locals l) '' states) := by
  intro l
  rw [MapFact.getOrTop_insert (values_only_top bound)]
  split
  · rename_i heq
    refine hvalue.mono ?_
    intro v hwritten
    obtain ⟨locals, hmem, hv⟩ := hwritten
    exact ⟨_, ⟨locals, hmem, rfl⟩, by simpa [Operand.value?, heq] using hv⟩
  · rename_i hne
    refine (h l).mono ?_
    intro v hkept
    obtain ⟨locals, hmem, hv⟩ := hkept
    exact ⟨_, ⟨locals, hmem, rfl⟩, by simpa [Operand.value?, hne] using hv⟩

theorem Exact.execute {fact : LocalValues} {states : Set Locals} (h : Exact bound fact states)
    (nonempty : states.Nonempty) (operation : Operation) :
    Exact bound (execute bound fact operation) (operation.execute '' states) := by
  obtain ⟨locals, hmem⟩ := nonempty
  cases operation with
  | assign dst src => exact h.insert (h.eval ⟨locals, hmem⟩ src)
  | load dst => exact h.insert (ValueSet.exact_singleton ⟨locals, hmem, rfl⟩)
  | call callee args dst =>
    cases dst with
    | none => simpa [Operation.execute, Reflection.execute] using h
    | some dst => exact h.insert (ValueSet.exact_singleton ⟨locals, hmem, rfl⟩)
  | assume capability => simpa [Operation.execute, Reflection.execute] using h
  | ret value => simpa [Operation.execute, Reflection.execute] using h
  | nop => simpa [Operation.execute, Reflection.execute] using h

/-! ### Facts and ways -/

section Ways
variable {c : ControlFlowGraph} {first : Point} {store : FactStore LocalValues}

/-- The fact before a point covers what any way leaves in the locals. -/
theorem covers_incoming (hs : Solution (localValues bound) c .forward first .empty store)
    (hc : c.WellFormed) (hfirst : first ∈ c.points) {passed : List Point} {p : Point}
    (way : c.Way .forward first passed p) {fact : LocalValues}
    (hfact : store.incoming .forward p = .ok fact) : Covers bound fact (c.executed passed) := by
  refine hs.along hc hfirst (motive := fun passed _ fact => Covers bound fact (c.executed passed))
    ?_ ?_ way hfact
  · intro facts l v hv
    simp [ControlFlowGraph.executed] at hv
  · intro passed p q l before out base facts ih hlocate htransfer hmem
    rw [localValues_apply, Except.ok.injEq] at htransfer
    have hout : Covers bound out (c.executed (passed ++ [p])) := by
      rw [ControlFlowGraph.executed_append, ControlFlowGraph.pass_of_locate hlocate, ← htransfer]
      cases l.operation? with
      | some operation => exact ih.execute operation
      | none => exact ih
    exact fun local' v hv => mayContain_foldl hmem (hout local' v hv)

/-- The facts around a point are exact for what all ways leave in the locals there. -/
theorem kept_exact : Kept (localValues bound) c .forward first .empty
    (fun p fact => Exact bound fact (c.localsAt first p))
    (fun p out => Exact bound out ((c.pass · p) '' c.localsAt first p)) where
  top_into _ := exact_empty
  top_out _ := exact_empty
  initial := exact_empty
  meet p q a b ha hb flow l := by
    refine exact_meet (ha l) ((hb l).mono ?_)
    intro v hvalue
    obtain ⟨_, himage, hv⟩ := hvalue
    obtain ⟨locals, hmem, rfl⟩ := himage
    exact ⟨_, ControlFlowGraph.pass_mem_localsAt flow hmem, hv⟩
  transfer p l a b hreach hlocate ha htransfer := by
    rw [localValues_apply, Except.ok.injEq] at htransfer
    simp only [ControlFlowGraph.pass_of_locate hlocate, ← htransfer]
    cases l.operation? with
    | some operation => exact ha.execute (ControlFlowGraph.localsAt_nonempty hreach) operation
    | none => simpa using ha

end Ways

/-! ### Resolutions -/

theorem mapM_names {members : List SymbolicValue} (h : ∀ v ∈ members, v.name?.isSome) :
    ∃ names, members.mapM SymbolicValue.name? = some names ∧
      ∀ name, name ∈ names ↔ ∃ v ∈ members, v.name? = some name := by
  induction members with
  | nil => exact ⟨[], rfl, by simp⟩
  | cons v members ih =>
    obtain ⟨name, hname⟩ := Option.isSome_iff_exists.1 (h v List.mem_cons_self)
    obtain ⟨names, hnames, hall⟩ := ih fun w hw => h w (List.mem_cons_of_mem v hw)
    refine ⟨name :: names, by simp [List.mapM_cons, hname, hnames], fun other => ?_⟩
    simp [List.mem_cons, hall, hname, eq_comm (a := other)]

theorem mapM_no_names {members : List SymbolicValue} (h : ¬ ∀ v ∈ members, v.name?.isSome) :
    members.mapM SymbolicValue.name? = none := by
  induction members with
  | nil => simp at h
  | cons v members ih =>
    rw [List.mapM_cons]
    cases hv : v.name? with
    | none => rfl
    | some name =>
      have : ¬ ∀ w ∈ members, w.name?.isSome := fun hall => h fun w hw => by
        rcases List.mem_cons.1 hw with rfl | hw
        · simp [hv]
        · exact hall w hw
      simp [ih this]

/-- A set that is exact and covers is resolved as the values that arise say. -/
theorem resolve_eq {s : ValueSet SymbolicValue} {arise : Set SymbolicValue}
    (exact : s.Exact bound arise) (covers : s.Covers arise) :
    (Nameable bound arise ∧ ∃ names, resolve s = .resolved names ∧
        ∀ name, name ∈ names ↔ ∃ v ∈ arise, v.name? = some name) ∨
      (¬ Nameable bound arise ∧ resolve s = .unresolvable) := by
  cases s with
  | unknown => exact .inr ⟨fun h => absurd h.within_bound (not_le.2 exact.lt_encard), rfl⟩
  | values members =>
    have hmem (v : SymbolicValue) : v ∈ members.toList ↔ v ∈ arise :=
      Std.ExtTreeSet.mem_toList.trans (exact.mem_iff covers)
    by_cases hempty : members.isEmpty
    · refine .inr ⟨fun h => ?_, by simp [resolve, hempty]⟩
      obtain ⟨v, hv⟩ := Set.one_le_encard_iff_nonempty.1 h.some_value
      rw [← Std.ExtTreeSet.isEmpty_toList, List.isEmpty_iff] at hempty
      simpa [hempty] using (hmem v).2 hv
    · by_cases hnames : ∀ v ∈ members.toList, v.name?.isSome
      · obtain ⟨names, hmap, hall⟩ := mapM_names hnames
        refine .inl ⟨⟨?_, exact.encard_le covers, fun v hv => hnames v ((hmem v).2 hv)⟩,
          .ofList names, by simp [resolve, hempty, hmap], fun name => ?_⟩
        · rw [← Std.ExtTreeSet.isEmpty_toList, List.isEmpty_iff] at hempty
          obtain ⟨v, hv⟩ := List.exists_mem_of_ne_nil _ hempty
          exact Set.one_le_encard_iff_nonempty.2 ⟨v, (hmem v).1 hv⟩
        · simp [hall, ← hmem]
      · refine .inr ⟨fun h => hnames fun v hv => h.all_names v ((hmem v).1 hv), ?_⟩
        simp [resolve, hempty, mapM_no_names hnames]

/-! ### Sites -/

/-- What the solver finds of a point, by the ways to it. -/
theorem lookup_solve {m : Method} {o : Options} {store : FactStore LocalValues}
    (hc : m.body.WellFormed) (h : (solve m o).outcome = .ok store) :
    store.points = m.body.points ∧ ∃ first, startPoint m.body .forward = .ok first ∧
      ∀ p ∈ m.body.points, ∀ facts, store.lookup p = .ok facts →
        (facts.visits = 0 ↔ ¬ m.body.Reaches .forward first p) ∧
          (∀ passed, m.body.Way .forward first passed p →
            Covers o.bound facts.before (m.body.executed passed)) ∧
              Exact o.bound facts.before (m.body.localsAt first p) := by
  have hfixed : fixedPoint (localValues o.bound) m.body .empty { o with direction := .forward } =
    .ok store := h
  obtain ⟨first, hfirst, hs⟩ := fixedPoint_solution hc hfixed
  refine ⟨hs.points, first, hfirst, fun p hp facts hlookup =>
    ⟨hs.visits_eq_zero hp hlookup, fun passed way => ?_, ?_⟩⟩
  · exact covers_incoming hs hc (startPoint_mem hc hfirst) way (FactStore.incoming_forward hlookup)
  · obtain ⟨fact, -, hfact, hexact, -⟩ := fixedPoint_keeps hc hfixed hfirst kept_exact hp
    cases (FactStore.incoming_forward hlookup).symm.trans hfact
    exact hexact

/-- The resolution of a call says what the values of its argument say. -/
theorem resolution_iff {m : Method} {facts : PointFacts LocalValues} {first : Point}
    {site : ReflectionSite} {args : List Operand}
    (hvisits : facts.visits = 0 ↔ ¬ m.body.Reaches .forward first site.point)
    (hcovers : ∀ passed, m.body.Way .forward first passed site.point →
      Covers bound facts.before (m.body.executed passed))
    (hexact : Exact bound facts.before (m.body.localsAt first site.point)) (r : Resolution) :
    resolution bound facts args site.argument = r ↔ site.Means bound m.body first args r := by
  by_cases hreach : m.body.Reaches .forward first site.point
  · rw [resolution, if_neg fun h => hvisits.1 h hreach]
    cases hoperand : args[site.argument]? with
    | none => cases r <;> simp [ReflectionSite.Means, hreach, hoperand]
    | some operand =>
      have hcovers : (eval bound facts.before operand).Covers
          (m.body.arising first site.point operand) := by
        intro v hv
        obtain ⟨passed, way, hv⟩ := ControlFlowGraph.mem_arising.1 hv
        exact (hcovers passed way).eval hv
      have hexact : (eval bound facts.before operand).Exact bound
          (m.body.arising first site.point operand) :=
        hexact.eval (ControlFlowGraph.localsAt_nonempty hreach) operand
      rcases resolve_eq hexact hcovers with ⟨hnames, names, hresolve, hall⟩ | ⟨hnames, hresolve⟩
      · have hsame (other : Std.ExtTreeSet String) : names = other ↔ ∀ name, name ∈ other ↔
            ∃ v ∈ m.body.arising first site.point operand, v.name? = some name := by
          refine ⟨fun heq => heq ▸ hall, fun h => Std.ExtTreeSet.ext_mem fun name => ?_⟩
          rw [hall, h]
        change resolve _ = r ↔ _
        rw [hresolve]
        cases r <;> simp [ReflectionSite.Means, hreach, hoperand, hnames, hsame]
      · change resolve _ = r ↔ _
        rw [hresolve]
        cases r <;> simp [ReflectionSite.Means, hreach, hoperand, hnames]
  · rw [resolution, if_pos (hvisits.2 hreach)]
    cases r <;> simp [ReflectionSite.Means, hreach]

/-- At a point there is the site of a call that names a member, or there is no such call. -/
theorem siteAt_cases {m : Method} {store : FactStore LocalValues} {p : Point}
    {answer : Option ReflectionSite} (h : siteAt m bound store p = .ok answer) :
    (∃ callee args dst argument facts,
      m.body.operationAt? p = some (.call callee args dst) ∧
        callee.reflectionArgument? = some argument ∧ store.lookup p = .ok facts ∧
          answer = some ⟨p, callee.name, argument, resolution bound facts args argument⟩) ∨
    (answer = none ∧ ∀ callee args dst, m.body.operationAt? p = some (.call callee args dst) →
      callee.reflectionArgument? = none) := by
  unfold siteAt at h
  cases hlocate : m.body.locate p with
  | error e => simp [hlocate, bind, Except.bind] at h
  | ok l =>
    rw [ControlFlowGraph.operationAt?_of_locate hlocate]
    simp only [hlocate, bind, Except.bind] at h
    split at h
    · rename_i callee args dst hcall
      split at h
      · rename_i argument hargument
        cases hlookup : store.lookup p with
        | error e => simp [hlookup] at h
        | ok facts =>
          simp only [hlookup, pure, Except.pure, Except.ok.injEq] at h
          exact .inl ⟨callee, args, dst, argument, facts, hcall, hargument, rfl, h.symm⟩
      · rename_i hargument
        refine .inr ⟨(Except.ok.inj h).symm, fun callee' args' dst' hcall' => ?_⟩
        cases hcall.symm.trans hcall'
        exact hargument
    · rename_i hother
      exact .inr ⟨(Except.ok.inj h).symm, fun callee args dst hcall =>
        absurd hcall (hother callee args dst)⟩

/-- A site is that of the call at its point. -/
theorem siteAt_ok {m : Method} {store : FactStore LocalValues} {p : Point} {site : ReflectionSite}
    (h : siteAt m bound store p = .ok (some site)) : site.point = p ∧ ∃ callee args dst facts,
      m.body.operationAt? p = some (.call callee args dst) ∧ site.callee = callee.name ∧
        callee.reflectionArgument? = some site.argument ∧ store.lookup p = .ok facts ∧
          site.resolution = resolution bound facts args site.argument := by
  rcases siteAt_cases h with ⟨callee, args, dst, argument, facts, hcall, hargument, hfacts, hsite⟩ |
    ⟨hnone, -⟩
  · cases hsite
    exact ⟨rfl, callee, args, dst, facts, hcall, rfl, hargument, hfacts, rfl⟩
  · cases hnone

theorem sites_ok {m : Method} {o : Options} {found : List ReflectionSite}
    (h : sites m o = .ok found) : ∃ store answers, (solve m o).outcome = .ok store ∧
      store.points.mapM (siteAt m o.bound store) = .ok answers ∧ found = answers.filterMap id := by
  obtain ⟨store, hstore, hfound⟩ := ofError_eq_ok.1 h
  obtain ⟨answers, hanswers, heq⟩ := map_eq_ok.1 hfound
  exact ⟨store, answers, hstore, hanswers, heq⟩

/-- At a point there is the site of the first access, or none. -/
theorem siteAt_subject {m : Method} {store : FactStore LocalValues} {p : Point}
    {answer : Option ReflectionSite} (h : siteAt m bound store p = .ok answer) :
    answer.map ReflectionSite.subject = (m.body.accessesAt p).head? := by
  rcases siteAt_cases h with ⟨callee, args, dst, argument, facts, hcall, hargument, -, rfl⟩ |
    ⟨rfl, hnone⟩
  · simp only [ControlFlowGraph.accessesAt, hcall, List.head?_map, callee.head?_filterMap,
      hargument, Option.map_some, ReflectionSite.subject]
  · unfold ControlFlowGraph.accessesAt
    split
    · rename_i callee args dst hcall
      simp only [List.head?_map, callee.head?_filterMap, hnone callee args dst hcall,
        Option.map_none]
    · rfl

/-- Answers found one for each point make up the first accesses. -/
theorem filterMap_subjects {m : Method} {points : List Point}
    {answers : List (Option ReflectionSite)}
    (h : List.Forall₂ (fun p answer => answer.map ReflectionSite.subject =
      (m.body.accessesAt p).head?) points answers) :
    (answers.filterMap id).map ReflectionSite.subject =
      points.filterMap fun p => (m.body.accessesAt p).head? := by
  have hmap : answers.map (Option.map ReflectionSite.subject) =
      points.map fun p => (m.body.accessesAt p).head? := by
    rw [← List.forall₂_eq_eq_eq, List.forall₂_map_left_iff, List.forall₂_map_right_iff]
    exact h.flip
  calc (answers.filterMap id).map ReflectionSite.subject
    _ = (answers.map (Option.map ReflectionSite.subject)).filterMap id := by
      rw [List.map_filterMap, List.filterMap_map]
      rfl
    _ = points.filterMap fun p => (m.body.accessesAt p).head? := by
      rw [hmap, List.filterMap_map]
      rfl

/-- The sites are those of the first access of every call, in the order of points. -/
theorem sites_subjects {m : Method} {o : Options} {found : List ReflectionSite}
    (hc : m.body.WellFormed) (h : sites m o = .ok found) : found.map ReflectionSite.subject =
      m.body.points.filterMap fun p => (m.body.accessesAt p).head? := by
  obtain ⟨store, answers, hstore, hanswers, rfl⟩ := sites_ok h
  obtain ⟨hpoints, -⟩ := lookup_solve hc hstore
  rw [← hpoints]
  exact filterMap_subjects ((mapM_eq_ok.1 hanswers).imp fun p answer hat => siteAt_subject hat)

/-- Every site is that of a call, and its resolution says what all ways to the call say. -/
theorem site_means {m : Method} {o : Options} {found : List ReflectionSite}
    (hc : m.body.WellFormed) (h : sites m o = .ok found) :
    ∃ first, startPoint m.body .forward = .ok first ∧ ∀ site ∈ found, ∃ callee args dst,
      m.body.operationAt? site.point = some (.call callee args dst) ∧ site.callee = callee.name ∧
        callee.reflectionArgument? = some site.argument ∧
          ∀ r, site.resolution = r ↔ site.Means o.bound m.body first args r := by
  obtain ⟨store, answers, hstore, hanswers, rfl⟩ := sites_ok h
  obtain ⟨hpoints, first, hfirst, hlookup⟩ := lookup_solve hc hstore
  refine ⟨first, hfirst, fun site hsite => ?_⟩
  obtain ⟨_, hmem, rfl⟩ := List.mem_filterMap.1 hsite
  obtain ⟨p, hp, hat⟩ := exists_left (mapM_eq_ok.1 hanswers) hmem
  obtain ⟨rfl, callee, args, dst, facts, hcall, hname, hargument, hfacts, hresolution⟩ :=
    siteAt_ok hat
  obtain ⟨hvisits, hcovers, hexact⟩ := hlookup site.point (hpoints ▸ hp) facts hfacts
  refine ⟨callee, args, dst, hcall, hname, hargument, fun r => ?_⟩
  rw [hresolution]
  exact resolution_iff hvisits hcovers hexact r

/-- Every call that looks a member up has its site, for the first argument that its callee names,
and there are no other sites. The resolution of a site says precisely what the values of its
argument over all ways to the call say. -/
theorem sites_exact {m : Method} {o : Options} {found : List ReflectionSite}
    (built : m.body.Built) (h : sites m o = .ok found) :
    ∃ first, startPoint m.body .forward = .ok first ∧
      found.map ReflectionSite.subject =
        m.body.points.filterMap (fun p => (m.body.accessesAt p).head?) ∧
      ∀ site ∈ found, ∃ callee args dst,
        m.body.operationAt? site.point = some (.call callee args dst) ∧ site.callee = callee.name ∧
          callee.reflectionArgument? = some site.argument ∧
            ∀ r, site.resolution = r ↔ site.Means o.bound m.body first args r := by
  obtain ⟨first, hfirst, hmeans⟩ := site_means built.wellFormed h
  exact ⟨first, hfirst, sites_subjects built.wellFormed h, hmeans⟩

/-- A call after a branch of which one arm alone writes the local it reads. -/
def branch : Method where
  name := "Dispatch"
  annotations := []
  body := .build [.newBlock, .newBlock, .newBlock, .push 0 .nop,
    .push 1 (.assign ⟨1⟩ (.text "Run")),
    .push 2 (.call ⟨"Type.GetMethod", [.reflectionAccess 1]⟩ [.type "Program", .slot ⟨1⟩] none),
    .addEdge 0 1, .addEdge 0 2, .addEdge 1 2, .setEntry 0]

/-- The site of that call. -/
def branchSite : ReflectionSite :=
  ⟨.instruction 2 0, "Type.GetMethod", 1, .resolved (.ofList ["Run"])⟩

theorem sites_branch : sites branch {} = .ok [branchSite] := by decide +kernel

theorem sites_exact_branch : branch.body.Built ∧ sites branch {} = .ok [branchSite] ∧
    ∃ first callee args dst, startPoint branch.body .forward = .ok first ∧
      branch.body.points.filterMap (fun p => (branch.body.accessesAt p).head?) =
        [(.instruction 2 0, "Type.GetMethod", 1)] ∧
      branch.body.operationAt? (.instruction 2 0) = some (.call callee args dst) ∧
        callee.name = "Type.GetMethod" ∧ callee.reflectionArgument? = some 1 ∧
          ∀ r, .resolved (.ofList ["Run"]) = r ↔ branchSite.Means 16 branch.body first args r := by
  have built : branch.body.Built := ⟨_, rfl⟩
  obtain ⟨first, hfirst, hsubjects, hall⟩ := sites_exact built sites_branch
  obtain ⟨callee, args, dst, hcall, hname, hargument, hmeans⟩ := hall branchSite List.mem_cons_self
  exact ⟨built, sites_branch, first, callee, args, dst, hfirst, hsubjects.symm, hcall, hname.symm,
    hargument, hmeans⟩

/-- On every way to a resolved call its argument is a local that the way leaves unwritten,
or a literal whose name is listed. -/
theorem resolved_covers {m : Method} {o : Options} {found : List ReflectionSite}
    (built : m.body.Built) (h : sites m o = .ok found) {site : ReflectionSite}
    (hsite : site ∈ found) {names : Std.ExtTreeSet String}
    (resolved : site.resolution = .resolved names) : ∃ first callee args dst operand,
      startPoint m.body .forward = .ok first ∧
        m.body.operationAt? site.point = some (.call callee args dst) ∧
          args[site.argument]? = some operand ∧
            ∀ passed, m.body.Way .forward first passed site.point →
              (∃ l, operand = .slot l ∧ m.body.executed passed l = none) ∨
                ∃ name ∈ names, operand.value? (m.body.executed passed) = some (.text name) ∨
                  operand.value? (m.body.executed passed) = some (.type name) := by
  obtain ⟨first, hfirst, hall⟩ := site_means built.wellFormed h
  obtain ⟨callee, args, dst, hcall, -, -, hmeans⟩ := hall site hsite
  obtain ⟨-, operand, hoperand, hnameable, hnames⟩ := (hmeans _).1 resolved
  refine ⟨first, callee, args, dst, operand, hfirst, hcall, hoperand, fun passed way => ?_⟩
  cases hvalue : operand.value? (m.body.executed passed) with
  | none =>
    cases operand with
    | slot l => exact .inl ⟨l, rfl, hvalue⟩
    | text value => cases hvalue
    | type name => cases hvalue
    | null => cases hvalue
  | some v =>
    have hv : v ∈ m.body.arising first site.point operand :=
      ControlFlowGraph.mem_arising.2 ⟨passed, way, hvalue⟩
    obtain ⟨name, hname⟩ := Option.isSome_iff_exists.1 (hnameable.all_names v hv)
    refine .inr ⟨name, (hnames name).2 ⟨v, hv, hname⟩, ?_⟩
    cases v <;> simp_all [SymbolicValue.name?]

theorem resolved_covers_branch : ∃ first callee args dst operand,
    startPoint branch.body .forward = .ok first ∧
      branch.body.operationAt? (.instruction 2 0) = some (.call callee args dst) ∧
        args[1]? = some operand ∧
          ∀ passed, branch.body.Way .forward first passed (.instruction 2 0) →
            (∃ l, operand = .slot l ∧ branch.body.executed passed l = none) ∨
              ∃ name ∈ Std.ExtTreeSet.ofList ["Run"],
                operand.value? (branch.body.executed passed) = some (.text name) ∨
                  operand.value? (branch.body.executed passed) = some (.type name) :=
  resolved_covers ⟨_, rfl⟩ sites_branch List.mem_cons_self rfl

/-- A call is resolved although a way to it leaves its argument unwritten. -/
theorem resolved_unwritten : ∃ found site names first passed callee args dst,
    branch.body.Built ∧ sites branch {} = .ok found ∧ site ∈ found ∧
      site.resolution = .resolved names ∧ startPoint branch.body .forward = .ok first ∧
        branch.body.Way .forward first passed site.point ∧
          branch.body.operationAt? site.point = some (.call callee args dst) ∧
            ∀ operand, args[site.argument]? = some operand →
              operand.value? (branch.body.executed passed) = none := by
  refine ⟨_, ⟨.instruction 2 0, "Type.GetMethod", 1, .resolved (.ofList ["Run"])⟩, _,
    .instruction 0 0, [.instruction 0 0], ⟨"Type.GetMethod", [.reflectionAccess 1]⟩,
    [.type "Program", .slot ⟨1⟩], none, ⟨_, rfl⟩, sites_branch, List.mem_cons_self, rfl,
    by decide +kernel, ?_, by decide +kernel, ?_⟩
  · exact .step .start (by decide +kernel)
  · intro operand h
    cases h
    decide +kernel

end Reflection

end FlowFacts
