import FlowFacts.Proofs.Graph.PostOrder
import FlowFacts.Proofs.Solver.Visit

/-! What holds at every step of the solver.

The queue holds points that the start reaches, each once. A point that was never
visited has the top on both sides, and is queued if the start reaches it. A point
that was visited has the facts of its last visit: what flows out is the transfer of
what flowed in, and while the point is not queued that is still what flows in
(`Invariant`). Every run starts so, every visit keeps it so, and at the end, with
nothing queued, the facts solve the equations (`Invariant.loop`). -/
namespace FlowFacts.Solver
variable {α : Type}

structure Invariant (P : Problem α) (s : State α) : Prop where
  listed : Listed s
  incoming_size : s.incoming.size = P.nodes.size
  outgoing_size : s.outgoing.size = P.nodes.size
  visits_size : s.visits.size = P.nodes.size
  reached : ∀ i ∈ s.queue, P.flow.Reaches P.start i
  unvisited : ∀ i, s.visits[i]? = some 0 → s.incoming[i]? = some P.analysis.lattice.top ∧
    s.outgoing[i]? = some P.analysis.lattice.top ∧ (P.flow.Reaches P.start i → i ∈ s.queue)
  visited : ∀ i n, s.visits[i]? = some (n + 1) → P.flow.Reaches P.start i ∧
    ∃ point location fact out, P.nodes[i]? = some (point, location) ∧
      s.incoming[i]? = some fact ∧ s.outgoing[i]? = some out ∧
        P.analysis.transfer.apply location fact = .ok out ∧
          (i ∉ s.queue → flowIn P s i = .ok fact)

theorem Problem.WellFormed.reaches_step {P : Problem α} (h : P.WellFormed) {i j : Nat}
    (hi : P.flow.Reaches P.start i) (edge : P.flow.hasEdge i j) : P.flow.Reaches P.start j :=
  hi.tail ((h.consistent.successors i j).2 edge)

namespace Invariant
variable {P : Problem α} {s : State α}

/-- Every point has its facts and its visits. -/
theorem entries (h : Invariant P s) {i : Nat} (hi : i < P.nodes.size) : ∃ fact out visits,
    s.incoming[i]? = some fact ∧ s.outgoing[i]? = some out ∧ s.visits[i]? = some visits :=
  ⟨_, _, _, Array.getElem?_eq_getElem (h.incoming_size ▸ hi),
    Array.getElem?_eq_getElem (h.outgoing_size ▸ hi),
    Array.getElem?_eq_getElem (h.visits_size ▸ hi)⟩

/-- Every run starts so. -/
theorem initial {order : List Nat} (nodup : order.Nodup)
    (reaches : ∀ i, i ∈ order ↔ P.flow.Reaches P.start i) : Invariant P (initialState P order) where
  listed := ⟨nodup, by simp [initialState]⟩
  incoming_size := by simp [initialState]
  outgoing_size := by simp [initialState]
  visits_size := by simp [initialState]
  reached i hi := (reaches i).1 hi
  unvisited i hi := by
    simp only [initialState, Array.getElem?_replicate] at hi ⊢
    split at hi
    · rename_i hlt
      exact ⟨if_pos hlt, if_pos hlt, (reaches i).2⟩
    · cases hi
  visited i n hi := absurd (initialState_visits hi) (Nat.succ_ne_zero n)

variable [DecidableEq α]

/-- Every visit keeps it so. -/
theorem next (hP : P.WellFormed) (h : Invariant P s) (v : Visit P s) : Invariant P v.next := by
  have hindex : v.index < P.nodes.size := v.index_lt
  have hreached : P.flow.Reaches P.start v.index := h.reached _ (v.head ▸ List.mem_cons_self)
  obtain ⟨hlisted, hqueue⟩ := v.listed_next h.listed
  constructor
  case listed => exact hlisted
  case incoming_size => simpa using h.incoming_size
  case outgoing_size => simpa using h.outgoing_size
  case visits_size => simpa using h.visits_size
  case reached =>
    intro i hi
    rcases (hqueue i).1 hi with hi | hi
    · exact h.reached i (v.head ▸ List.mem_cons_of_mem _ hi)
    · exact hP.reaches_step hreached (v.edge_of_targets hP hi)
  case unvisited =>
    intro i hi
    rcases v.visits_cases hi with ⟨-, hzero⟩ | ⟨hne, hi⟩
    · exact absurd hzero.symm (Nat.succ_ne_zero v.count)
    · obtain ⟨hin, hout, hqueued⟩ := h.unvisited i hi
      rw [v.incoming_next, v.outgoing_next, Array.getElem?_setIfInBounds_ne (Ne.symm hne),
        Array.getElem?_setIfInBounds_ne (Ne.symm hne), v.mem_next_of_ne h.listed hne]
      exact ⟨hin, hout, fun hr => .inl (hqueued hr)⟩
  case visited =>
    intro i n hi
    rcases v.visits_cases hi with ⟨rfl, -⟩ | ⟨hne, hi⟩
    · refine ⟨hreached, v.point, v.location, v.fact, v.out, v.node, ?_, ?_, v.transfers,
        fun hout => ?_⟩
      · rw [v.incoming_next, Array.getElem?_setIfInBounds_self_of_lt (h.incoming_size ▸ hindex)]
      · rw [v.outgoing_next, Array.getElem?_setIfInBounds_self_of_lt (h.outgoing_size ▸ hindex)]
      · rw [v.flowIn_next hP hindex fun hmem => hout ((hqueue _).2 (.inr hmem))]
        exact v.flows
    · obtain ⟨hr, point, location, fact, out, hnode, hin, hout, htransfer, hflow⟩ :=
        h.visited i n hi
      refine ⟨hr, point, location, fact, out, hnode, ?_, ?_, htransfer, fun hq => ?_⟩
      · rw [v.incoming_next, Array.getElem?_setIfInBounds_ne (Ne.symm hne), hin]
      · rw [v.outgoing_next, Array.getElem?_setIfInBounds_ne (Ne.symm hne), hout]
      · rw [v.mem_next_of_ne h.listed hne, not_or] at hq
        rw [v.flowIn_next hP (Array.getElem?_eq_some_iff.1 hnode).1 hq.2]
        exact hflow hq.1

/-- It holds at the end of a run, and nothing is queued there. -/
theorem loop (hP : P.WellFormed) (h : Invariant P s) {steps : Nat} {final : State α}
    {before after : List (Event α)} (hloop : loop P steps s before = (after, .ok final)) :
    Invariant P final ∧ final.queue = [] :=
  loop_keeps (fun _ hs v => hs.next hP v) steps hloop h

end Invariant

end FlowFacts.Solver
