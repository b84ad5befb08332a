import FlowFacts.Client.BlockTrace
import FlowFacts.Proofs.Lattice.ValueSet
import FlowFacts.Proofs.Solver.Induction

/-! What a block trace lists.

The trace before a point covers every block that has an operation on some way to the point
(`covers_incoming`), and it is exact for them (`kept_exact`). So it lists precisely these
blocks, or there are more of them than the bound and it is unknown (`trace_exact`), forward
from the entry as well as backward from the exit. -/
namespace FlowFacts

namespace ControlFlowGraph
variable {c : ControlFlowGraph} {d : Direction} {start p q : Point} {block index : Nat}

/-- The blocks with an operation that some way to the point has passed. -/
def tracedTo (c : ControlFlowGraph) (d : Direction) (start p : Point) : Set Nat :=
  {block | ∃ passed index, c.Way d start passed p ∧ .instruction block index ∈ passed}

theorem tracedTo_subset (flow : c.flows d p q) : c.tracedTo d start p ⊆ c.tracedTo d start q := by
  rintro block ⟨passed, index, way, hmem⟩
  exact ⟨passed ++ [p], index, way.step flow, List.mem_append_left _ hmem⟩

theorem mem_tracedTo (reach : c.Reaches d start (.instruction block index))
    (flow : c.flows d (.instruction block index) q) : block ∈ c.tracedTo d start q := by
  obtain ⟨passed, way⟩ := reach
  exact ⟨_, index, way.step flow, List.mem_append_right _ List.mem_cons_self⟩

end ControlFlowGraph

namespace BlockTrace
open Solver
variable {bound : Nat} {c : ControlFlowGraph} {d : Direction} {start p : Point}

/-- An instruction adds the number of its block, and an empty block nothing. -/
theorem transfer_cases (hc : c.WellFormed) {l : Location} (hl : c.locate p = .ok l)
    {fact out : ValueSet Nat} (h : (analysis bound).transfer.apply l fact = .ok out) :
    (∃ block index, p = .instruction block index ∧ out = fact.insert bound block) ∨
      (∃ block, p = .emptyBlock block) ∧ out = fact := by
  cases hc.names_of_locate hl with
  | @instruction n k b i hb hk =>
    obtain ⟨rfl, -, -⟩ := hc.of_block hb
    exact .inl ⟨b.index, k, rfl, (Except.ok.inj h).symm⟩
  | @emptyBlock n b hb hnone => exact .inr ⟨⟨n, rfl⟩, (Except.ok.inj h).symm⟩

/-- The trace before a point covers every way to it. -/
theorem covers_incoming {store : FactStore (ValueSet Nat)}
    (hs : Solution (analysis bound) c d start (.values ∅) store) (hc : c.WellFormed)
    (hstart : start ∈ c.points) {passed : List Point} (way : c.Way d start passed p)
    {fact : ValueSet Nat} (hfact : store.incoming d p = .ok fact) {block index : Nat}
    (hmem : .instruction block index ∈ passed) : fact.mayContain block := by
  refine hs.along hc hstart (motive := fun passed _ fact => ∀ block index,
    .instruction block index ∈ passed → fact.mayContain block) ?_ ?_ way hfact block index hmem
  · intro facts block index hmem
    cases hmem
  · intro passed p q l before out base facts ih hl htransfer hout block index hmem
    refine foldl_of_mem (motive := (ValueSet.mayContain block ·)) (fun _ _ =>
      ValueSet.mayContain_meet) hout ?_ base
    rcases transfer_cases hc hl htransfer with ⟨n, k, rfl, rfl⟩ | ⟨⟨n, rfl⟩, rfl⟩
    · rcases List.mem_append.1 hmem with hmem | hmem
      · exact ValueSet.mayContain_insert (.inr (ih block index hmem))
      · cases List.mem_singleton.1 hmem
        exact ValueSet.mayContain_insert (.inl Std.ReflOrd.compare_self)
    · rcases List.mem_append.1 hmem with hmem | hmem
      · exact ih block index hmem
      · cases List.mem_singleton.1 hmem

/-- The trace before a point lists what some way to it has passed, and the trace after it what
some way through it to the next has. -/
theorem kept_exact (hc : c.WellFormed) : Kept (analysis bound) c d start (.values ∅)
    (fun p fact => fact.Exact bound (c.tracedTo d start p))
    (fun p out => ∀ q, c.flows d p q → out.Exact bound (c.tracedTo d start q)) where
  top_into _ := ValueSet.exact_top
  top_out _ _ _ := ValueSet.exact_top
  initial := ValueSet.exact_top
  meet p _ _ _ ha hb flow := ValueSet.exact_meet ha (hb p flow)
  transfer p l a b hreach hl ha htransfer q flow := by
    have hbefore := ha.mono (ControlFlowGraph.tracedTo_subset flow)
    rcases transfer_cases hc hl htransfer with ⟨n, k, rfl, rfl⟩ | ⟨-, rfl⟩
    · exact hbefore.insert (ControlFlowGraph.mem_tracedTo hreach flow)
    · exact hbefore

/-- The trace before a point lists precisely the blocks that have an operation on some way to the
point, unless these are more than the bound; then nothing is known of them. -/
theorem trace_exact {m : Method} {o : Options} {store : FactStore (ValueSet Nat)}
    (built : m.body.Built) (h : (solve m o).outcome = .ok store) :
    ∃ start, startPoint m.body o.direction = .ok start ∧ ∀ p ∈ m.body.points, ∃ trace,
      store.incoming o.direction p = .ok trace ∧
        (trace = .unknown ↔ o.bound < (m.body.tracedTo o.direction start p).encard) ∧
          ∀ members, trace = .values members →
            ∀ block, block ∈ members ↔ block ∈ m.body.tracedTo o.direction start p := by
  have hc := built.wellFormed
  have hfixed : fixedPoint (analysis o.bound) m.body (.values ∅) o = .ok store := h
  obtain ⟨start, hstart, hs⟩ := fixedPoint_solution hc hfixed
  refine ⟨start, hstart, fun p hp => ?_⟩
  obtain ⟨trace, -, htrace, hexact, -⟩ := fixedPoint_keeps hc hfixed hstart (kept_exact hc) hp
  have hcovers : trace.Covers (m.body.tracedTo o.direction start p) := by
    rintro block ⟨passed, index, way, hmem⟩
    exact covers_incoming hs hc (startPoint_mem hc hstart) way htrace hmem
  refine ⟨trace, htrace, hexact.unknown_iff hcovers, ?_⟩
  rintro members rfl block
  exact hexact.mem_iff hcovers

end BlockTrace

end FlowFacts
