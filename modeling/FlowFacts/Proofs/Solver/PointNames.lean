import FlowFacts.Proofs.Solver.Reachability

/-! What points name, in a program and in a store of facts.

A point names a block by its number, and an instruction by its position there or, where there is
none, the block as empty. These are the numbers that the block and the instruction carry, so a
place has one name and a name one place. The points of a program are all its places, each once,
and block by block from where the block begins to where it ends. Facts are kept by these names, so
a store that the solver returns answers for the points of the program and for no others
(`points_name_places`). -/
namespace FlowFacts

namespace FactStore
variable {α : Type} {s : FactStore α} {p : Point}

theorem exists_lookup_iff : (∃ f, s.lookup p = .ok f) ↔ p ∈ s.points := by
  refine ⟨fun h => ?_, exists_lookup⟩
  obtain ⟨f, hf⟩ := h
  by_contra hp
  cases hf.symm.trans (lookup_error hp)

/-- A store has its points on both sides, and counts their visits. -/
theorem answers_iff : ((∃ a, s.before p = .ok a) ↔ p ∈ s.points) ∧
    ((∃ a, s.after p = .ok a) ↔ p ∈ s.points) ∧ ((∃ n, s.visits p = .ok n) ↔ p ∈ s.points) := by
  rw [before, after, visits, exists_map, exists_map, exists_map, exists_lookup_iff]
  exact ⟨.rfl, .rfl, .rfl⟩

end FactStore

/-- **Points name places one to one.** In a built program no point occurs twice. A point can be
looked up when it is one of the program, and is found as what it names: the instruction in its
position, or the empty block, with the point on it. Every block has its stretch of the points, from
its first point to its last. A store that the solver returns for the program has the same points,
and facts and visits for them alone. -/
theorem points_name_places {c : ControlFlowGraph} (built : c.Built) :
    c.points.Nodup ∧
    (∀ p, (∃ l, c.locate p = .ok l) ↔ p ∈ c.points) ∧
    (∀ p l, c.locate p = .ok l → c.Names p l ∧ l.point = p) ∧
    (∀ p l, c.Names p l → c.locate p = .ok l) ∧
    (∀ b ∈ c.blocks, b.points.head? = some b.firstPoint ∧ b.points.getLast? = some b.lastPoint ∧
      ∃ before after, c.points = before ++ b.points ++ after) ∧
    (∀ {α : Type} [DecidableEq α] (A : Analysis α) (initial : α) (o : Options)
      (store : FactStore α), Solver.fixedPoint A c initial o = .ok store →
        store.points = c.points ∧ ∀ p, ((∃ a, store.before p = .ok a) ↔ p ∈ c.points) ∧
          ((∃ a, store.after p = .ok a) ↔ p ∈ c.points) ∧
          ((∃ n, store.visits p = .ok n) ↔ p ∈ c.points)) := by
  have hc := built.wellFormed
  refine ⟨hc.points_nodup, fun p => ⟨fun h => ?found, fun hp => ?listed⟩, fun p l hl => ?names,
    fun p l => hc.locate_of_names, fun b hb => ?block, fun A initial o store h => ?store⟩
  case found =>
    obtain ⟨l, hl⟩ := h
    exact (hc.point_of_names (hc.names_of_locate hl)).1
  case listed =>
    obtain ⟨l, hl, -⟩ := hc.locate_point hp
    exact ⟨l, hl⟩
  case names =>
    have hnames := hc.names_of_locate hl
    exact ⟨hnames, (hc.point_of_names hnames).2⟩
  case block => exact ⟨b.head_points, b.getLast_points, ControlFlowGraph.points_split hb⟩
  case store =>
    obtain ⟨start, -, hsolution⟩ := Solver.fixedPoint_solution hc h
    refine ⟨hsolution.points, fun p => ?_⟩
    rw [← hsolution.points]
    exact FactStore.answers_iff

/-- The third block of `sidings` has two instructions, and the fourth none. -/
theorem points_name_places_sidings : Solver.sidings.Built ∧ Solver.sidings.points.Nodup ∧
    (∃ b i, Solver.sidings.locate (.instruction 2 1) = .ok ⟨b, some i⟩ ∧
      Solver.sidings.Names (.instruction 2 1) ⟨b, some i⟩) ∧
    (¬ ∃ l, Solver.sidings.locate (.emptyBlock 2) = .ok l) ∧
    ∃ store, Solver.fixedPoint Solver.countdown Solver.sidings 4 {} = .ok store ∧
      store.points = Solver.sidings.points ∧ (∃ n, store.visits (.emptyBlock 3) = .ok n) ∧
        ¬ ∃ a, store.before (.instruction 3 0) = .ok a := by
  have built : Solver.sidings.Built := ⟨_, rfl⟩
  obtain ⟨store, hstore⟩ := exists_of_isOk
    (e := Solver.fixedPoint Solver.countdown Solver.sidings 4 {}) (by decide +kernel)
  obtain ⟨hnodup, hlocate, hnames, -, -, hfacts⟩ := points_name_places built
  obtain ⟨hpoints, hanswers⟩ := hfacts Solver.countdown 4 {} store hstore
  refine ⟨built, hnodup, ?_, ?_, store, hstore, hpoints, ?_, ?_⟩
  · obtain ⟨l, hl⟩ := (hlocate (.instruction 2 1)).2 (by decide +kernel)
    have hplace := (hnames _ l hl).1
    cases hplace with
    | instruction hblock hposition => exact ⟨_, _, hl, .instruction hblock hposition⟩
  · rw [hlocate]
    decide +kernel
  · rw [(hanswers _).2.2]
    decide +kernel
  · rw [(hanswers _).1]
    decide +kernel

end FlowFacts
