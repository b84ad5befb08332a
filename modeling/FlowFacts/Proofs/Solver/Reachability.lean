import FlowFacts.Proofs.Graph.Reachable
import FlowFacts.Proofs.Program.BlockFlow
import FlowFacts.Proofs.Program.Changes
import FlowFacts.Proofs.Solver.Solution

/-! Which points an analysis comes to.

A point counts as reachable when the solver has visited it, and the points that it visits are
those that facts come to from the start. Points share this with the others of their block, so
it is decided among blocks: forward a point is reachable when edges lead to its block from the
entry, backward when they lead from its block to the exit. These are the blocks that the search
finds from the entry, and from the exit in the graph turned round (`isReachable_block`). -/
namespace FlowFacts

/-- What is not in a store cannot be looked up. -/
theorem FactStore.lookup_error {α : Type} {s : FactStore α} {p : Point} (h : p ∉ s.points) :
    s.lookup p = .error (.pointNotFound p) := by
  have hnone : s.facts.reverse.find? (fun f => f.point = p) = none := by
    rw [List.find?_eq_none]
    intro f hf heq
    exact h (List.mem_map.2 ⟨f, List.mem_reverse.1 hf, of_decide_eq_true heq⟩)
  simp [lookup, hnone]

namespace Solver
variable {α : Type} {A : Analysis α} {c : ControlFlowGraph} {d : Direction} {start p : Point}
  {initial : α} {store : FactStore α}

/-- A point of the program is reachable when the start reaches it. -/
theorem Solution.exists_isReachable (h : Solution A c d start initial store) (hp : p ∈ c.points) :
    ∃ r, store.isReachable p = .ok r ∧ (r ↔ c.Reaches d start p) := by
  by_cases hreach : c.Reaches d start p
  · obtain ⟨-, -, -, -, n, -, -, -, -, hvisits, -⟩ := h.reached p hp hreach
    exact ⟨true, by simp [FactStore.isReachable, hvisits, Except.map], by simp [hreach]⟩
  · obtain ⟨-, -, hvisits⟩ := h.unreached p hp hreach
    exact ⟨false, by simp [FactStore.isReachable, hvisits, Except.map], by simp [hreach]⟩

/-- A store says of the points of the program, and of no others, whether they are reachable.
Forward they are when edges lead to their block from the entry, which is when the search from
the entry finds it; backward when edges lead from their block to the exit, which is when the
search from the exit finds it in the graph turned round. -/
theorem isReachable_block [DecidableEq α] {o : Options} (built : c.Built)
    (h : fixedPoint A c initial o = .ok store) :
    (∀ p, p ∉ c.points → store.isReachable p = .error (.pointNotFound p)) ∧
    (o.direction = .forward → ∃ entry blocks, c.entry = some entry ∧
      c.graph.reachable entry = .ok blocks ∧ ∀ p ∈ c.points, ∃ r, store.isReachable p = .ok r ∧
        (r ↔ c.EdgesLead entry p.block) ∧ (r ↔ p.block ∈ blocks)) ∧
    (o.direction = .backward → ∃ exit turned blocks, c.exit = some exit ∧
      c.graph.reversed = .ok turned ∧ turned.reachable exit = .ok blocks ∧
        ∀ p ∈ c.points, ∃ r, store.isReachable p = .ok r ∧
          (r ↔ c.EdgesLead p.block exit) ∧ (r ↔ p.block ∈ blocks)) := by
  have hc := built.wellFormed
  obtain ⟨start, hstart, hsolution⟩ := fixedPoint_solution hc h
  refine ⟨fun p hp => ?other, fun hforward => ?forward, fun hbackward => ?backward⟩
  case other =>
    rw [← hsolution.points] at hp
    simp [FactStore.isReachable, FactStore.visits, FactStore.lookup_error hp, Except.map]
  case forward =>
    rw [hforward] at hstart hsolution
    rcases hc.entryBlock_cases with ⟨-, hnone⟩ | ⟨entry, b, hentry, hb, hblock⟩
    · simp [startPoint, hnone, Except.map] at hstart
    · obtain rfl : b.firstPoint = start := by simpa [startPoint, hblock, Except.map] using hstart
      obtain ⟨blocks, hblocks, hfound⟩ := hc.consistent.reachable (hc.entry entry hentry)
      refine ⟨entry, blocks, hentry, hblocks, fun p hp => ?_⟩
      obtain ⟨r, hr, hreach⟩ := hsolution.exists_isReachable hp
      rw [(hc.reaches_iff_edgesLead hb hp).1] at hreach
      exact ⟨r, hr, hreach, by rw [hreach, hfound, hc.edgesLead_iff]⟩
  case backward =>
    rw [hbackward] at hstart hsolution
    rcases hc.exitBlock_cases with ⟨-, hnone⟩ | ⟨exit, b, hexit, hb, hblock⟩
    · simp [startPoint, hnone, Except.map] at hstart
    · obtain rfl : b.lastPoint = start := by simpa [startPoint, hblock, Except.map] using hstart
      obtain ⟨turned, blocks, hturned, hblocks, hfound⟩ :=
        hc.consistent.reachable_reversed (hc.exit exit hexit)
      refine ⟨exit, turned, blocks, hexit, hturned, hblocks, fun p hp => ?_⟩
      obtain ⟨r, hr, hreach⟩ := hsolution.exists_isReachable hp
      rw [(hc.reaches_iff_edgesLead hb hp).2] at hreach
      exact ⟨r, hr, hreach, by rw [hreach, hfound, hc.edgesLead_iff]⟩

/-- From the entry to an empty block that is the exit and has an edge to itself and one to a dead
end, and a block of two instructions that leads to the exit but not from the entry. -/
def sidings : ControlFlowGraph :=
  .build [.newBlock, .newBlock, .newBlock, .newBlock, .push 0 .nop, .push 2 .nop, .push 2 .nop,
    .addEdge 0 1, .addEdge 1 1, .addEdge 1 3, .addEdge 2 1, .setEntry 0, .setExit 1]

theorem isReachable_block_sidings : sidings.Built ∧ ∃ store store',
    fixedPoint countdown sidings 4 {} = .ok store ∧
      fixedPoint countdown sidings 4 { direction := .backward } = .ok store' ∧
      (∀ p ∈ sidings.points, store.isReachable p = .ok (decide (p.block ∈ [0, 1, 3]))) ∧
      (∀ p ∈ sidings.points, store'.isReachable p = .ok (decide (p.block ∈ [0, 1, 2]))) ∧
      store.isReachable (.instruction 3 0) = .error (.pointNotFound (.instruction 3 0)) := by
  have hbuilt : sidings.Built := ⟨_, rfl⟩
  obtain ⟨store, h⟩ := exists_of_isOk (e := fixedPoint countdown sidings 4 {}) (by decide +kernel)
  obtain ⟨store', h'⟩ := exists_of_isOk
    (e := fixedPoint countdown sidings 4 { direction := .backward }) (by decide +kernel)
  obtain ⟨hother, hforward, -⟩ := isReachable_block hbuilt h
  obtain ⟨-, -, hbackward⟩ := isReachable_block hbuilt h'
  obtain ⟨entry, blocks, hentry, hblocks, hpoints⟩ := hforward rfl
  obtain ⟨exit, turned, blocks', hexit, hturned, hblocks', hpoints'⟩ := hbackward rfl
  obtain rfl : entry = 0 := Option.some.inj (hentry.symm.trans (by decide +kernel))
  obtain rfl : exit = 1 := Option.some.inj (hexit.symm.trans (by decide +kernel))
  have hfound : blocks.toList = [0, 1, 3] := by
    have hlist : (sidings.graph.reachable 0).map (·.toList) = .ok [0, 1, 3] := by decide +kernel
    rw [hblocks] at hlist
    exact Except.ok.inj hlist
  have hfound' : blocks'.toList = [0, 1, 2] := by
    have hlist : (sidings.graph.reversed.bind fun g => (g.reachable 1).map (·.toList)) =
        .ok [0, 1, 2] := by decide +kernel
    rw [hturned, Except.bind, hblocks'] at hlist
    exact Except.ok.inj hlist
  have hanswer {r : Bool} {found : Indices} {v : Nat} (hmem : r ↔ v ∈ found) :
      r = decide (v ∈ found.toList) := by
    rw [Bool.eq_iff_iff, hmem, decide_eq_true_iff, Std.ExtTreeSet.mem_toList]
  refine ⟨hbuilt, store, store', h, h', fun p hp => ?_, fun p hp => ?_, hother _ (by decide +kernel)⟩
  · obtain ⟨r, hr, -, hmem⟩ := hpoints p hp
    rw [hr, hanswer hmem, hfound]
  · obtain ⟨r, hr, -, hmem⟩ := hpoints' p hp
    rw [hr, hanswer hmem, hfound']

end Solver

end FlowFacts
