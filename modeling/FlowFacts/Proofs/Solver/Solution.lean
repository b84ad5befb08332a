import FlowFacts.Proofs.Solver.Prepared

/-! What a store that the solver returns says of its program.

The store has every point once, in their order. A point that the start reaches was
visited, and its facts solve the equations: what flows in is what flows out of its
sources, met in the order of points, and what flows out is the transfer of that. A
point that the start does not reach has the top on both sides (`Solution`). -/
namespace FlowFacts

namespace FactStore
variable {α : Type}

/-- The fact that flows into a point. -/
def incoming (s : FactStore α) : Direction → Point → Except Error α
  | .forward => s.before
  | .backward => s.after

/-- The fact that flows out of a point. -/
def outgoing (s : FactStore α) : Direction → Point → Except Error α
  | .forward => s.after
  | .backward => s.before

/-- The entry in the last place of a point is the one that is found. -/
theorem lookup_of_last {s : FactStore α} {i : Nat} {f : PointFacts α} (hf : s.facts[i]? = some f)
    (last : LastAt s.points i f.point) : s.lookup f.point = .ok f := by
  obtain ⟨hlt, hget⟩ := List.getElem?_eq_some_iff.1 hf
  have hsplit : s.facts = s.facts.take i ++ f :: s.facts.drop (i + 1) := by
    rw [← hget, List.getElem_cons_drop, List.take_append_drop]
  have hlater (g : PointFacts α) (hg : g ∈ s.facts.drop (i + 1)) : g.point ≠ f.point := by
    intro heq
    obtain ⟨k, hk⟩ := List.mem_iff_getElem?.1 hg
    rw [List.getElem?_drop] at hk
    have := last.2 (i + 1 + k) (by rw [points, List.getElem?_map, hk, Option.map_some, heq])
    omega
  have hfound : s.facts.reverse.find? (fun g => g.point = f.point) = some f := by
    rw [List.find?_eq_some_iff_append]
    refine ⟨by simp, (s.facts.drop (i + 1)).reverse, (s.facts.take i).reverse, ?_, fun g hg => ?_⟩
    · conv_lhs => rw [hsplit]
      simp
    · simpa using hlater g (List.mem_reverse.1 hg)
  simp [lookup, hfound]

/-- Where no point occurs twice, every entry is the one that is found of its point. -/
theorem lookup_of_mem {s : FactStore α} (nodup : s.points.Nodup) {f : PointFacts α}
    (hf : f ∈ s.facts) : s.lookup f.point = .ok f := by
  obtain ⟨i, hi⟩ := List.mem_iff_getElem?.1 hf
  refine lookup_of_last hi (lastAt_of_nodup nodup ?_)
  rw [points, List.getElem?_map, hi, Option.map_some]

/-- The points of a store can be looked up. -/
theorem exists_lookup {s : FactStore α} {p : Point} (hp : p ∈ s.points) :
    ∃ f, s.lookup p = .ok f := by
  obtain ⟨f, hf, rfl⟩ := List.mem_map.1 hp
  have hfound : (s.facts.reverse.find? fun g => g.point = f.point).isSome :=
    List.find?_isSome.2 ⟨f, List.mem_reverse.2 hf, by simp⟩
  obtain ⟨g, hg⟩ := Option.isSome_iff_exists.1 hfound
  exact ⟨g, by simp [lookup, hg]⟩

/-- Forward, facts flow into a point before it. -/
theorem incoming_forward {s : FactStore α} {p : Point} {facts : PointFacts α}
    (h : s.lookup p = .ok facts) : s.incoming .forward p = .ok facts.before := by
  simp [incoming, before, h, Except.map]

end FactStore

namespace Solver
variable {α : Type}

/-! ### Collecting the facts -/

/-- What is known of a point, from the two sides of its flow. -/
def factsAt : Direction → Point → α → α → Nat → PointFacts α
  | .forward, p, fact, out, visits => ⟨p, fact, out, visits⟩
  | .backward, p, fact, out, visits => ⟨p, out, fact, visits⟩

@[simp]
theorem point_factsAt (d : Direction) (p : Point) (fact out : α) (visits : Nat) :
    (factsAt d p fact out visits).point = p := by
  cases d <;> rfl

@[simp]
theorem visits_factsAt (d : Direction) (p : Point) (fact out : α) (visits : Nat) :
    (factsAt d p fact out visits).visits = visits := by
  cases d <;> rfl

theorem facts_collect (P : Problem α) (s : State α) : (collect P s).facts =
    (P.nodes.toList.zip (s.incoming.toList.zip (s.outgoing.toList.zip s.visits.toList))).map
      fun e => factsAt P.options.direction e.1.1 e.2.1 e.2.2.1 e.2.2.2 := by
  unfold collect
  cases P.options.direction <;> rfl

variable {P : Problem α} {c : ControlFlowGraph} {start : Point} {s : State α}

theorem points_collect_nodes (hs : Invariant P s) :
    (collect P s).points = P.nodes.toList.map Prod.fst := by
  have hfst : P.nodes.toList.length ≤
      (s.incoming.toList.zip (s.outgoing.toList.zip s.visits.toList)).length := by
    simp [hs.incoming_size, hs.outgoing_size, hs.visits_size]
  have hmap := congrArg (List.map Prod.fst) (List.map_fst_zip hfst)
  rw [List.map_map] at hmap
  rw [FactStore.points, facts_collect, List.map_map, ← hmap]
  exact List.map_congr_left fun e _ => point_factsAt ..

theorem points_collect (h : P.Poses c start) (hs : Invariant P s) :
    (collect P s).points = c.points := by
  rw [points_collect_nodes hs]
  refine List.ext_getElem? fun i => ?_
  rw [List.getElem?_map, Array.getElem?_toList]
  cases hp : c.points[i]? with
  | none =>
    have : P.nodes.size ≤ i := h.size ▸ List.getElem?_eq_none_iff.1 hp
    simp [Array.getElem?_eq_none this]
  | some p =>
    obtain ⟨l, hl, _⟩ := h.node_of_point hp
    simp [hl]

/-- The entries of a store stand in the order of the nodes. -/
theorem entry_collect {i : Nat} {p : Point} {l : Location} {fact out : α} {visits : Nat}
    (hnode : P.nodes[i]? = some (p, l)) (hin : s.incoming[i]? = some fact)
    (hout : s.outgoing[i]? = some out) (hvisits : s.visits[i]? = some visits) :
    (collect P s).facts[i]? = some (factsAt P.options.direction p fact out visits) := by
  simp [facts_collect, List.getElem?_zip_eq_some, hnode, hin, hout, hvisits]

theorem lookup_collect (h : P.Poses c start) (hc : c.WellFormed) (hs : Invariant P s) {i : Nat}
    {p : Point} {fact out : α} {visits : Nat} (hp : c.points[i]? = some p)
    (hin : s.incoming[i]? = some fact) (hout : s.outgoing[i]? = some out)
    (hvisits : s.visits[i]? = some visits) :
    (collect P s).lookup p = .ok (factsAt P.options.direction p fact out visits) := by
  obtain ⟨l, hl, _⟩ := h.node_of_point hp
  have hlast : LastAt (collect P s).points i p := by
    rw [points_collect h hs]
    exact lastAt_of_nodup hc.points_nodup hp
  have hlookup := FactStore.lookup_of_last (entry_collect hl hin hout hvisits)
    (by rwa [point_factsAt])
  rwa [point_factsAt] at hlookup

/-- The store has what the state has under the number of a point. -/
theorem sides_collect (h : P.Poses c start) (hc : c.WellFormed) (hs : Invariant P s) {i : Nat}
    {p : Point} {fact out : α} {visits : Nat} (hp : c.points[i]? = some p)
    (hin : s.incoming[i]? = some fact) (hout : s.outgoing[i]? = some out)
    (hvisits : s.visits[i]? = some visits) :
    (collect P s).incoming P.options.direction p = .ok fact ∧
      (collect P s).outgoing P.options.direction p = .ok out ∧
        (collect P s).visits p = .ok visits := by
  have hlookup := lookup_collect h hc hs hp hin hout hvisits
  cases hd : P.options.direction <;>
    simp [FactStore.incoming, FactStore.outgoing, FactStore.before, FactStore.after,
      FactStore.visits, hlookup, hd, factsAt, Except.map]

/-! ### Runs that end -/

/-- Steps lead from one state to another with nothing left to visit. -/
def Runs [DecidableEq α] (P : Problem α) (s final : State α) : Prop :=
  ∃ steps before after, loop P steps s before = (after, .ok final)

/-- What the solver answers is collected from the end of the run. -/
theorem fixedPoint_eq [DecidableEq α] {A : Analysis α} {c : ControlFlowGraph} {initial : α}
    {o : Options} {P : Problem α} {s : State α} (hprepare : prepare A c initial o = .ok (P, s)) :
    fixedPoint A c initial o = (loop P (stepLimit P) s []).2.map (collect P) := by
  simp only [fixedPoint, run, hprepare]
  rcases loop P (stepLimit P) s [] with ⟨events, why | final⟩ <;> rfl

/-- Without a place to start from there is no run. -/
theorem fixedPoint_error [DecidableEq α] {A : Analysis α} {c : ControlFlowGraph} {initial : α}
    {o : Options} {e : Error} (hstart : startPoint c o.direction = .error e) :
    fixedPoint A c initial o = .error (.error e) := by
  simp only [fixedPoint, run, prepare_error hstart]

/-- A store is what a run collects that starts with the program's problem. -/
theorem fixedPoint_ok [DecidableEq α] {A : Analysis α} {initial : α} {o : Options}
    {store : FactStore α} (hc : c.WellFormed) (h : fixedPoint A c initial o = .ok store) :
    ∃ start P order final, startPoint c o.direction = .ok start ∧ P.analysis = A ∧ P.options = o ∧
      P.initial = initial ∧ P.Poses c start ∧ Invariant P (initialState P order) ∧
        Runs P (initialState P order) final ∧ store = collect P final := by
  cases hstart : startPoint c o.direction with
  | error e => cases (fixedPoint_error hstart).symm.trans h
  | ok start =>
    obtain ⟨P, order, hprepare, hA, ho, hinitial, hposes, hinv⟩ := prepare_ok hc A initial hstart
    rw [fixedPoint_eq hprepare] at h
    obtain ⟨final, hfinal, hstore⟩ := map_eq_ok.1 h
    exact ⟨start, P, order, final, rfl, hA, ho, hinitial, hposes, hinv,
      ⟨_, _, _, Prod.ext rfl hfinal⟩, hstore⟩

/-! ### The equations -/

structure Solution (A : Analysis α) (c : ControlFlowGraph) (d : Direction) (start : Point)
    (initial : α) (store : FactStore α) : Prop where
  points : store.points = c.points
  reached : ∀ p ∈ c.points, c.Reaches d start p → ∃ location facts fact out visits,
    c.locate p = .ok location ∧ (c.sources d p).mapM (store.outgoing d) = .ok facts ∧
      store.incoming d p = .ok fact ∧ store.outgoing d p = .ok out ∧
        store.visits p = .ok (visits + 1) ∧
          fact = facts.foldl A.lattice.meet (if p = start then initial else A.lattice.top) ∧
            A.transfer.apply location fact = .ok out
  unreached : ∀ p ∈ c.points, ¬ c.Reaches d start p → store.incoming d p = .ok A.lattice.top ∧
    store.outgoing d p = .ok A.lattice.top ∧ store.visits p = .ok 0

/-- The points that were visited are those that the start reaches. -/
theorem Solution.visits_eq_zero {A : Analysis α} {d : Direction} {initial : α}
    {store : FactStore α} (h : Solution A c d start initial store) {p : Point} (hp : p ∈ c.points)
    {facts : PointFacts α} (hlookup : store.lookup p = .ok facts) :
    facts.visits = 0 ↔ ¬ c.Reaches d start p := by
  have hvisits : store.visits p = .ok facts.visits := by
    simp [FactStore.visits, hlookup, Except.map]
  by_cases hreach : c.Reaches d start p
  · obtain ⟨-, -, -, -, n, -, -, -, -, hn, -⟩ := h.reached p hp hreach
    simp [Except.ok.inj (hvisits.symm.trans hn), hreach]
  · obtain ⟨-, -, hn⟩ := h.unreached p hp hreach
    simp [Except.ok.inj (hvisits.symm.trans hn), hreach]

/-- The column has the fact for the point, under the number of the point. -/
def Stored (c : ControlFlowGraph) (column : Array α) (p : Point) (a : α) : Prop :=
  ∃ i : Nat, c.points[i]? = some p ∧ column[i]? = some a

/-- What flows out of a visited point is the transfer of what flowed in. While the point is not
queued, that is what flows out of its sources, met in the order of points. -/
theorem Invariant.facts_of_visited (h : P.Poses c start) (hc : c.WellFormed) (hs : Invariant P s)
    {i n : Nat} {p : Point} (hp : c.points[i]? = some p) (hn : s.visits[i]? = some (n + 1)) :
    ∃ location fact out, c.locate p = .ok location ∧ s.incoming[i]? = some fact ∧
      s.outgoing[i]? = some out ∧ P.analysis.transfer.apply location fact = .ok out ∧
        (i ∉ s.queue → ∃ facts,
          List.Forall₂ (Stored c s.outgoing) (c.sources P.options.direction p) facts ∧
            fact = facts.foldl P.analysis.lattice.meet
              (if p = start then P.initial else P.analysis.lattice.top)) := by
  obtain ⟨-, q, l, fact, out, hnode, hin, hout, htransfer, hflow⟩ := hs.visited i n hn
  obtain ⟨hq, hl⟩ := h.node i q l hnode
  cases hp.symm.trans hq
  refine ⟨l, fact, out, hl, hin, hout, htransfer, fun hout => ?_⟩
  obtain ⟨sources, facts, hsources, hfacts, hmeet⟩ :=
    (h.wellFormed.flowIn_ok (Array.getElem?_eq_some_iff.1 hnode).1).1 (hflow hout)
  refine ⟨facts, ?_, by simp only [hmeet, base, h.start_iff hc hp]⟩
  -- points and facts both stand beside the numbers of the sources
  exact forall_join (h.sources_forall hp hsources).flip hfacts.flip
    fun q j a _ hq ha => ⟨j, hq, ha⟩

/-- A state with nothing to visit solves the equations. -/
theorem Invariant.solution [DecidableEq α] (h : P.Poses c start) (hc : c.WellFormed)
    (hs : Invariant P s) (finished : s.queue = []) :
    Solution P.analysis c P.options.direction start P.initial (collect P s) := by
  have hsides (i : Nat) (p : Point) (hp : c.points[i]? = some p) :
      ∃ fact out n, s.incoming[i]? = some fact ∧ s.outgoing[i]? = some out ∧
        s.visits[i]? = some n :=
    hs.entries (h.size ▸ (List.getElem?_eq_some_iff.1 hp).1)
  constructor
  case points => exact points_collect h hs
  case reached =>
    intro p hp hreach
    obtain ⟨i, hi⟩ := List.mem_iff_getElem?.1 hp
    obtain ⟨fact, out, n, hin, hout, hn⟩ := hsides i p hi
    cases n with
    | zero =>
      have := (hs.unvisited i hn).2.2 ((h.reaches_iff hc hi).2 hreach)
      simp [finished] at this
    | succ n =>
      obtain ⟨l, fact', out', hl, hin', hout', htransfer, hflow⟩ := hs.facts_of_visited h hc hi hn
      cases hin.symm.trans hin'
      cases hout.symm.trans hout'
      obtain ⟨facts, hfacts, hmeet⟩ := hflow (by simp [finished])
      obtain ⟨hstore, hstore', hvisits⟩ := sides_collect h hc hs hi hin hout hn
      refine ⟨l, facts, fact, out, n, hl, mapM_eq_ok.2 (hfacts.imp fun q a hq => ?_), hstore,
        hstore', hvisits, hmeet, htransfer⟩
      obtain ⟨j, hj, ha⟩ := hq
      obtain ⟨fact', out', n', hin', hout', hn'⟩ := hsides j q hj
      cases ha.symm.trans hout'
      exact (sides_collect h hc hs hj hin' hout' hn').2.1
  case unreached =>
    intro p hp hreach
    obtain ⟨i, hi⟩ := List.mem_iff_getElem?.1 hp
    obtain ⟨fact, out, n, hin, hout, hn⟩ := hsides i p hi
    cases n with
    | zero =>
      obtain ⟨hin, hout, -⟩ := hs.unvisited i hn
      exact sides_collect h hc hs hi hin hout hn
    | succ n => exact absurd ((h.reaches_iff hc hi).1 (hs.visited i n hn).1) hreach

theorem fixedPoint_solution [DecidableEq α] {A : Analysis α} {initial : α} {o : Options}
    {store : FactStore α} (hc : c.WellFormed) (h : fixedPoint A c initial o = .ok store) :
    ∃ start, startPoint c o.direction = .ok start ∧
      Solution A c o.direction start initial store := by
  obtain ⟨start, P, order, final, hstart, rfl, rfl, rfl, hposes, hinv,
    ⟨steps, before, after, hloop⟩, rfl⟩ := fixedPoint_ok hc h
  obtain ⟨hfinal, hqueue⟩ := hinv.loop hposes.wellFormed hloop
  exact ⟨start, hstart, hfinal.solution hposes hc hqueue⟩

/-- What the solver returns for a built program solves its equations, whatever the lattice. -/
theorem fixedPoint_solves [DecidableEq α] {A : Analysis α} {initial : α} {o : Options}
    {store : FactStore α} (built : c.Built) (h : fixedPoint A c initial o = .ok store) :
    ∃ start, startPoint c o.direction = .ok start ∧
      Solution A c o.direction start initial store :=
  fixedPoint_solution built.wellFormed h

/-- The second block leads back to itself. -/
def loopChanges : List ControlFlowGraph.Change :=
  [.newBlock, .newBlock, .push 0 .nop, .push 1 .nop, .push 1 .nop, .addEdge 0 1, .addEdge 1 1,
    .setEntry 0, .setExit 1]

/-- Every point takes one away. -/
def countdown : Analysis Nat := ⟨.ofMeet min 9, .total fun _ n => n - 1⟩

theorem fixedPoint_solves_loop : ∃ store start,
    fixedPoint countdown (.build loopChanges) 4 {} = .ok store ∧
      startPoint (.build loopChanges) .forward = .ok start ∧
        Solution countdown (.build loopChanges) .forward start 4 store := by
  obtain ⟨store, h⟩ := exists_of_isOk (e := fixedPoint countdown (.build loopChanges) 4 {})
    (by decide +kernel)
  obtain ⟨start, hstart, hsolution⟩ := fixedPoint_solves ⟨loopChanges, rfl⟩ h
  exact ⟨store, start, h, hstart, hsolution⟩

end Solver

end FlowFacts
