import FlowFacts.Proofs.Graph.Insertion
import FlowFacts.Proofs.Graph.PostOrder

/-! What the search from a vertex finds.

The search keeps a stack of vertices that it has marked and not yet opened. Marked are the opened
vertices and those on the stack, every mark has a way from the root, and the successors of an
opened vertex are marked (`Search`). Opening a vertex takes its arcs off the work that is left and
puts no more on the stack than these arcs lead to, so the search ends (`reachable_ends`). When the
stack is empty the marked vertices are closed under arcs: they are those that the root reaches
(`reachable_reaches`). The search fails only where a vertex has no successor set
(`Search.answered`), so never in a consistent graph (`Consistent.reachable`); turned round, such a
graph is searched against its edges (`Consistent.reachable_reversed`). -/
namespace FlowFacts.Graph
variable {ν ε : Type}

/-! ### Marking the successors of a vertex -/

/-- The new ones among some vertices come on the stack, and all of them are marked. -/
theorem foldl_mark (next stack : List Nat) (marked : Indices) : ∃ pushed : List Nat,
    (next.foldl mark (stack, marked)).1 = pushed ++ stack ∧ pushed.Nodup ∧
      pushed.length ≤ next.length ∧ (∀ v, v ∈ pushed ↔ v ∈ next ∧ v ∉ marked) ∧
        ∀ v, v ∈ (next.foldl mark (stack, marked)).2 ↔ v ∈ marked ∨ v ∈ next := by
  induction next generalizing stack marked with
  | nil => exact ⟨[], by simp⟩
  | cons w next ih =>
    by_cases seen : w ∈ marked
    · have hmark : mark (stack, marked) w = (stack, marked) :=
        if_pos (Std.ExtTreeSet.contains_iff_mem.2 seen)
      obtain ⟨pushed, hstack, hnodup, hlength, hpushed, hmarked⟩ := ih stack marked
      rw [List.foldl_cons, hmark]
      refine ⟨pushed, hstack, hnodup, Nat.le_succ_of_le hlength, fun v => ?_, fun v => ?_⟩
      · rw [hpushed, List.mem_cons]
        grind
      · rw [hmarked, List.mem_cons]
        grind
    · have hmark : mark (stack, marked) w = (w :: stack, marked.insert w) :=
        if_neg fun h => seen (Std.ExtTreeSet.contains_iff_mem.1 h)
      obtain ⟨pushed, hstack, hnodup, hlength, hpushed, hmarked⟩ :=
        ih (w :: stack) (marked.insert w)
      rw [List.foldl_cons, hmark]
      refine ⟨pushed ++ [w], ?_, ?_, ?_, fun v => ?_, fun v => ?_⟩
      · rw [hstack, List.append_assoc, List.singleton_append]
      · refine List.nodup_append.2 ⟨hnodup, List.nodup_singleton w, fun a ha b hb heq => ?_⟩
        exact ((hpushed a).1 ha).2 (by simp [heq, List.mem_singleton.1 hb])
      · simpa using hlength
      · simp only [List.mem_append, hpushed, List.mem_cons,
          Std.ExtTreeSet.mem_insert, Nat.compare_eq_eq]
        grind
      · simp only [hmarked, List.mem_cons, Std.ExtTreeSet.mem_insert, Nat.compare_eq_eq]
        grind

/-! ### The search -/

/-- Where the search from `root` stands, with the vertices that it has opened. -/
structure Search (g : Graph ν ε) (root : Nat) (stack : List Nat) (marked opened : Indices) :
    Prop where
  marked_iff : ∀ v, v ∈ marked ↔ v ∈ opened ∨ v ∈ stack
  closed : ∀ v ∈ stack, v ∉ opened
  nodup : stack.Nodup
  reached : ∀ v ∈ marked, g.Reaches root v
  root_marked : root ∈ marked
  looked_at : ∀ u ∈ opened, ∀ w, Neighbour g.successorMap u w → w ∈ marked

namespace Search
variable {g : Graph ν ε} {root u : Nat} {stack : List Nat} {marked opened s : Indices}

theorem start (g : Graph ν ε) (root : Nat) : g.Search root [root] (.ofList [root]) ∅ where
  marked_iff v := by simpa using eq_comm
  closed _ _ := Std.ExtTreeSet.not_mem_empty
  nodup := List.nodup_singleton root
  reached v hv := by
    simp at hv
    exact hv ▸ .refl
  root_marked := by simp
  looked_at u hu := absurd hu Std.ExtTreeSet.not_mem_empty

/-- The vertex on top is opened, and its successors are marked. -/
theorem next (h : g.Search root (u :: stack) marked opened) (hs : g.successorMap[u]? = some s) :
    g.Search root (s.toList.foldl mark (stack, marked)).1
      (s.toList.foldl mark (stack, marked)).2 (opened.insert u) := by
  obtain ⟨hu, hstack⟩ := List.nodup_cons.1 h.nodup
  obtain ⟨pushed, heq, hnodup, -, hpushed, hmarked⟩ := foldl_mark s.toList stack marked
  have hold (v : Nat) (hv : v ∈ stack) : v ∈ marked :=
    (h.marked_iff v).2 (.inr (List.mem_cons_of_mem u hv))
  have hopened (v : Nat) : v ∈ opened.insert u ↔ u = v ∨ v ∈ opened := by
    rw [Std.ExtTreeSet.mem_insert, Nat.compare_eq_eq]
  have hnew (v : Nat) (hv : v ∈ pushed) : v ∉ marked := ((hpushed v).1 hv).2
  rw [heq]
  constructor
  case marked_iff =>
    intro v
    rw [hmarked, h.marked_iff, hopened, List.mem_append, hpushed, h.marked_iff, List.mem_cons]
    grind
  case closed =>
    intro v hv hmem
    rcases (hopened v).1 hmem with rfl | hmem
    · rcases List.mem_append.1 hv with hv | hv
      · exact hnew _ hv ((h.marked_iff _).2 (.inr List.mem_cons_self))
      · exact hu hv
    · rcases List.mem_append.1 hv with hv | hv
      · exact hnew v hv ((h.marked_iff v).2 (.inl hmem))
      · exact h.closed v (List.mem_cons_of_mem u hv) hmem
  case nodup =>
    exact List.nodup_append.2 ⟨hnodup, hstack, fun a ha b hb heq => hnew a ha (heq ▸ hold b hb)⟩
  case reached =>
    intro v hv
    rcases (hmarked v).1 hv with hv | hv
    · exact h.reached v hv
    · have hu := h.reached u ((h.marked_iff u).2 (.inr List.mem_cons_self))
      exact hu.tail ⟨s, hs, Std.ExtTreeSet.mem_toList.1 hv⟩
  case root_marked => exact (hmarked root).2 (.inl h.root_marked)
  case looked_at =>
    intro v hv w hw
    rcases (hopened v).1 hv with rfl | hv
    · obtain ⟨t, ht, hmem⟩ := hw
      cases hs.symm.trans ht
      exact (hmarked w).2 (.inr (Std.ExtTreeSet.mem_toList.2 hmem))
    · exact (hmarked w).2 (.inl (h.looked_at v hv w hw))

/-- With an empty stack, the marked vertices are those that the root reaches. -/
theorem ended (h : g.Search root [] marked opened) (v : Nat) : v ∈ marked ↔ g.Reaches root v := by
  refine ⟨h.reached v, fun hv => ?_⟩
  induction hv with
  | refl => exact h.root_marked
  | tail _ harc ih =>
    have hopened := ((h.marked_iff _).1 ih).resolve_right List.not_mem_nil
    exact h.looked_at _ hopened _ harc

end Search

/-! ### The end of the search -/

/-- From this stack the search comes to this end, and no steps are counted. -/
inductive ReachEnds (g : Graph ν ε) : List Nat → Indices → Except Error Indices → Prop
  | done {marked : Indices} : ReachEnds g [] marked (.ok marked)
  | fail {u : Nat} {stack : List Nat} {marked : Indices} {e : Error}
      (fails : g.successorIndices u = .error e) : ReachEnds g (u :: stack) marked (.error e)
  | next {u : Nat} {stack next : List Nat} {marked : Indices} {answer : Except Error Indices}
      (opens : g.successorIndices u = .ok next)
      (rest : ReachEnds g (next.foldl mark (stack, marked)).1 (next.foldl mark (stack, marked)).2
        answer) :
      ReachEnds g (u :: stack) marked answer

namespace Search
variable {g : Graph ν ε} {root : Nat} {stack : List Nat} {marked opened : Indices}

/-- With steps enough for its work, the search comes to its end. -/
theorem reachLoop_ends (steps : Nat) (h : g.Search root stack marked opened)
    (enough : stack.length + g.openArcs opened ≤ steps) :
    g.ReachEnds stack marked (reachLoop g steps stack marked) := by
  induction steps generalizing stack marked opened with
  | zero =>
    cases stack with
    | nil => exact .done
    | cons u stack => simp at enough
  | succ steps ih =>
    cases stack with
    | nil => exact .done
    | cons u stack =>
      rw [reachLoop]
      cases hnext : g.successorIndices u with
      | error e => exact .fail hnext
      | ok next =>
        obtain ⟨s, hs, rfl⟩ := successorIndices_eq_ok.1 hnext
        obtain ⟨pushed, hstack, -, hlength, -⟩ := foldl_mark s.toList stack marked
        have hwork := openArcs_insert hs (h.closed u List.mem_cons_self)
        refine .next hnext (ih (h.next hs) ?_)
        rw [Std.ExtTreeSet.length_toList] at hlength
        rw [hstack, List.length_append]
        rw [List.length_cons] at enough
        omega

/-- Whatever end the search comes to, it has marked all that the root reaches, or it has met a
vertex without a successor set. -/
theorem answered {answer : Except Error Indices} (h : g.Search root stack marked opened)
    (entries : ∀ v ∈ opened, v ∈ g.successorMap) (ends : g.ReachEnds stack marked answer) :
    g.Answered root (fun found => ∀ v, v ∈ found ↔ g.Reaches root v) answer := by
  induction ends generalizing opened with
  | done =>
    refine .found (fun v hv => entries v ?_) h.ended
    exact ((h.marked_iff v).1 ((h.ended v).2 hv)).resolve_right List.not_mem_nil
  | fail fails =>
    obtain ⟨absent, rfl⟩ := successorIndices_eq_error.1 fails
    exact .missing (h.reached _ ((h.marked_iff _).2 (.inr List.mem_cons_self))) absent
  | next opens _ ih =>
    have hentry := mem_of_successorIndices opens
    obtain ⟨s, hs, rfl⟩ := successorIndices_eq_ok.1 opens
    refine ih (h.next hs) fun v hv => ?_
    rcases Std.ExtTreeSet.mem_insert.1 hv with heq | hv
    · exact Nat.compare_eq_eq.1 heq ▸ hentry
    · exact entries v hv

end Search

section
variable {g : Graph ν ε} {root : Nat} (hroot : g.hasVertex root)
include hroot

/-- The search from a vertex comes to an end, and that is its answer. -/
theorem reachable_ends : g.ReachEnds [root] (.ofList [root]) (g.reachable root) := by
  simp only [Graph.reachable, requireVertex, hroot, if_true]
  refine (Search.start g root).reachLoop_ends (g.arcCount + 2) ?_
  rw [openArcs_empty, List.length_singleton]
  omega

theorem reachable_answered : g.Answered root (fun found => ∀ v, v ∈ found ↔ g.Reaches root v)
    (g.reachable root) :=
  (Search.start g root).answered (fun _ hv => absurd hv Std.ExtTreeSet.not_mem_empty)
    (reachable_ends hroot)

/-- The search finds the vertices that the root reaches, if all of them have successor sets. -/
theorem reachable_reaches (entries : ∀ v, g.Reaches root v → v ∈ g.successorMap) :
    ∃ found, g.reachable root = .ok found ∧ ∀ v, v ∈ found ↔ g.Reaches root v :=
  (reachable_answered hroot).exists_ok entries

end

/-- In the graph turned round ways lead back. -/
theorem Turned.reaches {g : Graph ν ε} {r : PlainGraph} (h : g.Turned r) (hg : g.Linked)
    (u v : Nat) : r.Reaches u v ↔ g.Reaches v u := by
  have harc : Neighbour r.successorMap = Function.swap (Neighbour g.successorMap) := by
    funext i j
    rw [eq_iff_iff, h.consistent.successors, h.edges, ← hg.successors]
  rw [Reaches, harc, Relation.reflTransGen_swap, Reaches]

namespace Consistent
variable [IsVertex ν] [IsEdge ε] {g : Graph ν ε} {root : Nat}

/-- In a consistent graph the search from a vertex ends. -/
theorem reachable (h : g.Consistent) (hroot : g.hasVertex root) :
    ∃ found, g.reachable root = .ok found ∧ ∀ v, v ∈ found ↔ g.Reaches root v :=
  reachable_reaches hroot (h.linked.entries hroot)

/-- In the graph turned round the search finds the vertices that reach the root. -/
theorem reachable_reversed (h : g.Consistent) (hroot : g.hasVertex root) :
    ∃ turned found, g.reversed = .ok turned ∧ turned.reachable root = .ok found ∧
      ∀ v, v ∈ found ↔ g.Reaches v root := by
  obtain ⟨turned, hturned, ht⟩ := h.reversed
  obtain ⟨found, hfound, hmem⟩ := ht.consistent.reachable ((ht.vertices root).2 hroot)
  refine ⟨turned, found, hturned, hfound, fun v => ?_⟩
  rw [hmem, ht.reaches h.linked]

end Consistent

end FlowFacts.Graph
