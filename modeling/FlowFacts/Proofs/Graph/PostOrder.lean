import FlowFacts.Proofs.Graph.Arcs
import Mathlib.Data.List.Nodup

/-! What the walk in post-order visits.

The walk keeps a stack of vertices under way, each with the successors it has still
to look at. A successor that it has looked at is marked, and so is all of its way
from the root (`Walk`); every step takes an arc or a vertex off the work that is
left (`work`), so with steps enough for it the walk comes to its one end
(`postOrderLoop_ends`, `PostOrderEnds.unique`). When the stack is empty the finished
vertices are closed under arcs: they are the vertices that can be reached, each once
(`reversePostOrder_reaches`). The walk fails only where a vertex has no successor set
(`Walk.answered`), so never in a consistent graph (`Consistent.reversePostOrder`).

The vertices under way form a chain of arcs, so a vertex that is finished has successors
that were finished before it, or that lead back to it. Read from the last one finished,
the walk therefore puts a vertex before every successor that does not lead back
(`reversePostOrder_sorted`), and the root before all (`reversePostOrder_head`). -/
namespace FlowFacts.Graph
variable {ν ε : Type}

/-! ### The work that is left -/

/-- Each step of the walk lowers it. -/
def work (g : Graph ν ε) (frames : List (Nat × List Nat)) (visited : Indices) : Nat :=
  (frames.map fun f => 2 * f.2.length + 1).sum + 2 * g.openArcs visited

/-- The walk from a root has steps enough. -/
theorem work_start {g : Graph ν ε} {root : Nat} {found : List Nat}
    (hfound : g.successorIndices root = .ok found) :
    g.work [(root, found)] (.ofList [root]) ≤ 2 * g.arcCount + 3 := by
  obtain ⟨s, hs, rfl⟩ := successorIndices_eq_ok.1 hfound
  have hopen : g.openArcs (.ofList [root]) + s.size = g.arcCount := by
    rw [← openArcs_empty, ← openArcs_insert hs Std.ExtTreeSet.not_mem_empty]
    rfl
  simp only [work, List.map_cons, List.map_nil, List.sum_cons, List.sum_nil,
    Std.ExtTreeSet.length_toList]
  omega

/-! ### The walk -/

structure Walk (g : Graph ν ε) (root : Nat) (frames : List (Nat × List Nat)) (visited : Indices)
    (order : List Nat) : Prop where
  marked : ∀ v, v ∈ visited ↔ v ∈ order ∨ v ∈ frames.map Prod.fst
  nodup : (frames.map Prod.fst ++ order).Nodup
  reached : ∀ v ∈ visited, g.Reaches root v
  root_marked : root ∈ visited
  pending : ∀ f ∈ frames, ∃ s : Indices, g.successorMap[f.1]? = some s ∧
    (∀ w ∈ f.2, w ∈ s) ∧ ∀ w ∈ s, w ∈ visited ∨ w ∈ f.2
  finished : ∀ u ∈ order, ∀ w, Neighbour g.successorMap u w → w ∈ visited
  /-- The vertices under way lead up to the one on top. -/
  chain : (frames.map Prod.fst).Pairwise fun top below => g.Reaches below top
  sorted : ∀ u ∈ order, ∀ w, Neighbour g.successorMap u w → [u, w].Sublist order ∨ g.Reaches w u
  /-- The root is at the bottom of the stack, and when the stack is empty it was finished last. -/
  bottom : (frames.map Prod.fst).getLast?.or order.head? = some root

namespace Walk
variable {g : Graph ν ε} {root : Nat} {frames : List (Nat × List Nat)} {visited : Indices}
  {order : List Nat} {u w : Nat} {pending : List Nat}

/-- A vertex that has no successor left has looked at all of them. -/
theorem looked_at (h : g.Walk root ((u, []) :: frames) visited order)
    (hw : Neighbour g.successorMap u w) : w ∈ visited := by
  obtain ⟨s, hs, _, hall⟩ := h.pending (u, []) List.mem_cons_self
  obtain ⟨t, ht, hmem⟩ := hw
  cases hs.symm.trans ht
  simpa using hall w hmem

/-- The vertex on top has no successor left. -/
theorem finish (h : g.Walk root ((u, []) :: frames) visited order) :
    g.Walk root frames visited (u :: order) where
  marked v := by
    rw [h.marked]
    simp only [List.map_cons, List.mem_cons]
    tauto
  nodup := List.nodup_middle.2 h.nodup
  reached := h.reached
  root_marked := h.root_marked
  pending f hf := h.pending f (List.mem_cons_of_mem _ hf)
  finished v hv x hx := by
    rcases List.mem_cons.1 hv with rfl | hv
    · exact h.looked_at hx
    · exact h.finished v hv x hx
  chain := (List.pairwise_cons.1 h.chain).2
  sorted v hv x hx := by
    rcases List.mem_cons.1 hv with rfl | hv
    · -- a successor is finished, or it is under way and leads up to the top
      rcases (h.marked x).1 (h.looked_at hx) with hfinished | hunderway
      · exact .inl ((List.singleton_sublist.2 hfinished).cons_cons v)
      · rcases List.mem_cons.1 hunderway with rfl | hbelow
        · exact .inr .refl
        · exact .inr ((List.pairwise_cons.1 h.chain).1 x hbelow)
    · exact (h.sorted v hv x hx).imp_left fun hbefore => hbefore.cons u
  bottom := by
    have hbottom := h.bottom
    cases frames with
    | nil => exact hbottom
    | cons f frames =>
      simp only [List.map_cons, List.getLast?_cons_cons] at hbottom ⊢
      simpa [List.getLast?_cons] using hbottom

/-- The next successor has been seen before. -/
theorem skip (h : g.Walk root ((u, w :: pending) :: frames) visited order) (seen : w ∈ visited) :
    g.Walk root ((u, pending) :: frames) visited order where
  marked := h.marked
  nodup := h.nodup
  reached := h.reached
  root_marked := h.root_marked
  pending f hf := by
    rcases List.mem_cons.1 hf with rfl | hf
    · obtain ⟨s, hs, hsub, hall⟩ := h.pending (u, w :: pending) List.mem_cons_self
      refine ⟨s, hs, fun x hx => hsub x (List.mem_cons_of_mem w hx), fun x hx => ?_⟩
      rcases hall x hx with hx | hx
      · exact .inl hx
      · rcases List.mem_cons.1 hx with rfl | hx
        · exact .inl seen
        · exact .inr hx
    · exact h.pending f (List.mem_cons_of_mem _ hf)
  finished := h.finished
  chain := h.chain
  sorted := h.sorted
  bottom := h.bottom

/-- An arc leads from the vertex on top to the successor to look at next. -/
theorem next_arc (h : g.Walk root ((u, w :: pending) :: frames) visited order) :
    Neighbour g.successorMap u w := by
  obtain ⟨s, hs, hsub, _⟩ := h.pending (u, w :: pending) List.mem_cons_self
  exact ⟨s, hs, hsub w List.mem_cons_self⟩

theorem next_reached (h : g.Walk root ((u, w :: pending) :: frames) visited order) :
    g.Reaches root w := by
  have hu : u ∈ visited := (h.marked u).2 (.inr (by simp))
  exact (h.reached u hu).tail h.next_arc

/-- The next successor is new: it comes on top with all of its own. -/
theorem discover (h : g.Walk root ((u, w :: pending) :: frames) visited order)
    (new : w ∉ visited) {s : Indices} (hs : g.successorMap[w]? = some s) :
    g.Walk root ((w, s.toList) :: (u, pending) :: frames) (visited.insert w) order := by
  obtain ⟨t, ht, hsub, hall⟩ := h.pending (u, w :: pending) List.mem_cons_self
  constructor
  case marked =>
    intro v
    rw [Std.ExtTreeSet.mem_insert, h.marked]
    simp only [List.map_cons, List.mem_cons, Nat.compare_eq_eq]
    tauto
  case nodup =>
    refine List.nodup_cons.2 ⟨fun hmem => new ?_, h.nodup⟩
    rw [h.marked]
    simpa [or_comm, or_left_comm, or_assoc] using hmem
  case reached =>
    intro v hv
    rcases Std.ExtTreeSet.mem_insert.1 hv with heq | hv
    · rw [← Nat.compare_eq_eq.1 heq]
      exact h.next_reached
    · exact h.reached v hv
  case root_marked => exact Std.ExtTreeSet.mem_insert.2 (.inr h.root_marked)
  case pending =>
    intro f hf
    rcases List.mem_cons.1 hf with rfl | hf
    · exact ⟨s, hs, fun x hx => Std.ExtTreeSet.mem_toList.1 hx,
        fun x hx => .inr (Std.ExtTreeSet.mem_toList.2 hx)⟩
    · rcases List.mem_cons.1 hf with rfl | hf
      · refine ⟨t, ht, fun x hx => hsub x (List.mem_cons_of_mem w hx), fun x hx => ?_⟩
        simp only [Std.ExtTreeSet.mem_insert, Nat.compare_eq_eq]
        have := hall x hx
        simp only [List.mem_cons] at this
        tauto
      · obtain ⟨r, hr, hsub', hall'⟩ := h.pending f (List.mem_cons_of_mem _ hf)
        exact ⟨r, hr, hsub', fun x hx =>
          (hall' x hx).imp_left fun hx => Std.ExtTreeSet.mem_insert.2 (.inr hx)⟩
  case finished =>
    intro v hv x hx
    exact Std.ExtTreeSet.mem_insert.2 (.inr (h.finished v hv x hx))
  case chain =>
    have harc : g.Reaches u w := .single h.next_arc
    refine List.pairwise_cons.2 ⟨fun v hv => ?_, h.chain⟩
    rcases List.mem_cons.1 hv with rfl | hbelow
    · exact harc
    · exact ((List.pairwise_cons.1 h.chain).1 v hbelow).trans harc
  case sorted => exact h.sorted
  case bottom => exact h.bottom

/-- With no vertex under way, the finished ones are those that the root reaches. -/
theorem ended (h : g.Walk root [] visited order) :
    order.Nodup ∧ ∀ v, v ∈ order ↔ g.Reaches root v := by
  have hmem (v : Nat) : v ∈ order ↔ v ∈ visited := by simp [h.marked]
  refine ⟨by simpa using h.nodup, fun v => ⟨fun hv => h.reached v ((hmem v).1 hv), fun hv => ?_⟩⟩
  induction hv with
  | refl => exact (hmem root).2 h.root_marked
  | tail _ harc ih => exact (hmem _).2 (h.finished _ ih _ harc)

end Walk

/-! ### The end of the walk -/

/-- With these vertices under way the walk comes to this end, and no steps are counted. -/
inductive PostOrderEnds (g : Graph ν ε) :
    List (Nat × List Nat) → Indices → List Nat → Except Error (List Nat) → Prop
  | done {visited : Indices} {order : List Nat} : PostOrderEnds g [] visited order (.ok order)
  | finish {u : Nat} {frames : List (Nat × List Nat)} {visited : Indices} {order : List Nat}
      {answer : Except Error (List Nat)}
      (rest : PostOrderEnds g frames visited (u :: order) answer) :
      PostOrderEnds g ((u, []) :: frames) visited order answer
  | skip {u w : Nat} {pending : List Nat} {frames : List (Nat × List Nat)} {visited : Indices}
      {order : List Nat} {answer : Except Error (List Nat)} (seen : w ∈ visited)
      (rest : PostOrderEnds g ((u, pending) :: frames) visited order answer) :
      PostOrderEnds g ((u, w :: pending) :: frames) visited order answer
  | fail {u w : Nat} {pending : List Nat} {frames : List (Nat × List Nat)} {visited : Indices}
      {order : List Nat} {e : Error} (new : w ∉ visited) (fails : g.successorIndices w = .error e) :
      PostOrderEnds g ((u, w :: pending) :: frames) visited order (.error e)
  | discover {u w : Nat} {pending found : List Nat} {frames : List (Nat × List Nat)}
      {visited : Indices} {order : List Nat} {answer : Except Error (List Nat)} (new : w ∉ visited)
      (opens : g.successorIndices w = .ok found)
      (rest : PostOrderEnds g ((w, found) :: (u, pending) :: frames) (visited.insert w) order
        answer) :
      PostOrderEnds g ((u, w :: pending) :: frames) visited order answer

/-- With steps enough for its work, the walk comes to its end. -/
theorem postOrderLoop_ends (g : Graph ν ε) (steps : Nat) {frames : List (Nat × List Nat)}
    {visited : Indices} {order : List Nat} (enough : g.work frames visited ≤ steps) :
    g.PostOrderEnds frames visited order (g.postOrderLoop steps frames visited order) := by
  induction steps generalizing frames visited order with
  | zero =>
    cases frames with
    | nil => exact .done
    | cons f frames =>
      simp only [work, List.map_cons, List.sum_cons] at enough
      omega
  | succ steps ih =>
    match frames with
    | [] => exact .done
    | (u, []) :: frames =>
      refine .finish (ih ?_)
      simp only [work, List.map_cons, List.sum_cons] at enough ⊢
      omega
    | (u, w :: pending) :: frames =>
      simp only [work, List.map_cons, List.sum_cons, List.length_cons] at enough
      by_cases seen : w ∈ visited
      · rw [postOrderLoop, if_pos (Std.ExtTreeSet.contains_iff_mem.2 seen)]
        refine .skip seen (ih ?_)
        simp only [work, List.map_cons, List.sum_cons]
        omega
      · rw [postOrderLoop, if_neg fun hc => seen (Std.ExtTreeSet.contains_iff_mem.1 hc)]
        cases hnext : g.successorIndices w with
        | error e => exact .fail seen hnext
        | ok found =>
          refine .discover seen hnext (ih ?_)
          obtain ⟨s, hs, rfl⟩ := successorIndices_eq_ok.1 hnext
          have := openArcs_insert hs seen
          simp only [work, List.map_cons, List.sum_cons, Std.ExtTreeSet.length_toList]
          omega

/-- There is one end. -/
theorem PostOrderEnds.unique {g : Graph ν ε} {frames : List (Nat × List Nat)} {visited : Indices}
    {order : List Nat} {answer answer' : Except Error (List Nat)}
    (h : g.PostOrderEnds frames visited order answer)
    (h' : g.PostOrderEnds frames visited order answer') : answer = answer' := by
  induction h with
  | done =>
    cases h'
    rfl
  | finish _ ih =>
    cases h' with
    | finish rest => exact ih rest
  | skip seen _ ih =>
    cases h' with
    | skip _ rest => exact ih rest
    | fail new => exact absurd seen new
    | discover new => exact absurd seen new
  | fail new fails =>
    cases h' with
    | skip seen => exact absurd seen new
    | fail _ fails' =>
      cases fails.symm.trans fails'
      rfl
    | discover _ opens => cases fails.symm.trans opens
  | discover new opens _ ih =>
    cases h' with
    | skip seen => exact absurd seen new
    | fail _ fails => cases opens.symm.trans fails
    | discover _ opens' rest =>
      cases opens.symm.trans opens'
      exact ih rest

/-- Whatever end the walk comes to, it has looked at all that the root reaches, or it has met a
vertex without a successor set. -/
theorem Walk.answered {g : Graph ν ε} {root : Nat} {frames : List (Nat × List Nat)}
    {visited : Indices} {order : List Nat} {answer : Except Error (List Nat)}
    (h : g.Walk root frames visited order) (entries : ∀ v ∈ order, v ∈ g.successorMap)
    (ends : g.PostOrderEnds frames visited order answer) :
    g.Answered root (fun order => ∃ visited, g.Walk root [] visited order) answer := by
  induction ends with
  | done => exact .found (fun v hv => entries v ((h.ended.2 v).2 hv)) ⟨_, h⟩
  | finish _ ih =>
    obtain ⟨s, hs, -⟩ := h.pending _ List.mem_cons_self
    exact ih h.finish (List.forall_mem_cons.2
      ⟨Std.ExtTreeMap.mem_iff_isSome_getElem?.2 (Option.isSome_of_eq_some hs), entries⟩)
  | skip seen _ ih => exact ih (h.skip seen) entries
  | fail new fails =>
    obtain ⟨absent, rfl⟩ := successorIndices_eq_error.1 fails
    exact .missing h.next_reached absent
  | discover new opens _ ih =>
    obtain ⟨s, hs, rfl⟩ := successorIndices_eq_ok.1 opens
    exact ih (h.discover new hs) entries

theorem Walk.start {g : Graph ν ε} {root : Nat} {s : Indices}
    (hs : g.successorMap[root]? = some s) : g.Walk root [(root, s.toList)] (.ofList [root]) [] := by
  constructor
  case marked => simpa using fun v => eq_comm
  case nodup => simp
  case reached =>
    intro v hv
    simp at hv
    exact hv ▸ .refl
  case root_marked => simp
  case pending =>
    intro f hf
    rw [List.mem_singleton.1 hf]
    exact ⟨s, hs, fun w hw => Std.ExtTreeSet.mem_toList.1 hw,
      fun w hw => .inr (Std.ExtTreeSet.mem_toList.2 hw)⟩
  case finished => simp
  case chain => exact List.pairwise_singleton ..
  case sorted => simp
  case bottom => rfl

section
variable {g : Graph ν ε} {root : Nat} (hroot : g.hasVertex root)
include hroot

/-- The walk from a vertex that has a successor set comes to an end, and that is its answer. -/
theorem reversePostOrder_ends {found : List Nat} (hfound : g.successorIndices root = .ok found) :
    g.PostOrderEnds [(root, found)] (.ofList [root]) [] (g.reversePostOrder root) := by
  simp only [Graph.reversePostOrder, requireVertex, hroot, if_true, hfound]
  exact postOrderLoop_ends g _ (work_start hfound)

theorem reversePostOrder_answered : g.Answered root
    (fun order => ∃ visited, g.Walk root [] visited order) (g.reversePostOrder root) := by
  cases hfound : g.successorIndices root with
  | error e =>
    obtain ⟨absent, rfl⟩ := successorIndices_eq_error.1 hfound
    simp only [Graph.reversePostOrder, requireVertex, hroot, if_true, hfound]
    exact .missing .refl absent
  | ok found =>
    have hends := reversePostOrder_ends hroot hfound
    obtain ⟨s, hs, rfl⟩ := successorIndices_eq_ok.1 hfound
    exact (Walk.start hs).answered (fun v hv => absurd hv List.not_mem_nil) hends

end

section ReversePostOrder
variable {g : Graph ν ε} {root : Nat} (hroot : g.hasVertex root)
  (entries : ∀ v, g.Reaches root v → v ∈ g.successorMap)
include hroot entries

theorem exists_walk : ∃ order visited, g.reversePostOrder root = .ok order ∧
    g.Walk root [] visited order := by
  obtain ⟨order, horder, visited, hwalk⟩ := (reversePostOrder_answered hroot).exists_ok entries
  exact ⟨order, visited, horder, hwalk⟩

theorem reversePostOrder_reaches : ∃ order, g.reversePostOrder root = .ok order ∧ order.Nodup ∧
    ∀ v, v ∈ order ↔ g.Reaches root v := by
  obtain ⟨order, _, horder, hwalk⟩ := exists_walk hroot entries
  exact ⟨order, horder, hwalk.ended⟩

/-- A vertex comes before its successors, except for those that lead back to it. -/
theorem reversePostOrder_sorted {order : List Nat} (h : g.reversePostOrder root = .ok order)
    {u w : Nat} (hu : g.Reaches root u) (arc : Neighbour g.successorMap u w)
    (noReturn : ¬ g.Reaches w u) : [u, w].Sublist order := by
  obtain ⟨order', _, horder, hwalk⟩ := exists_walk hroot entries
  cases h.symm.trans horder
  exact (hwalk.sorted u ((hwalk.ended.2 u).2 hu) w arc).resolve_right noReturn

/-- The root comes first. -/
theorem reversePostOrder_head {order : List Nat} (h : g.reversePostOrder root = .ok order) :
    order.head? = some root := by
  obtain ⟨order', _, horder, hwalk⟩ := exists_walk hroot entries
  cases h.symm.trans horder
  simpa using hwalk.bottom

end ReversePostOrder

namespace Linked
variable {g : Graph ν ε} {root : Nat}

theorem hasVertex_of_reaches (h : g.Linked) (hroot : g.hasVertex root) {v : Nat}
    (hv : g.Reaches root v) : g.hasVertex v := by
  rcases Relation.ReflTransGen.cases_tail hv with rfl | ⟨u, -, huv⟩
  · exact hroot
  · exact (h.ends_are_vertices u v ((h.successors u v).1 huv)).2

/-- What a vertex reaches has a successor set. -/
theorem entries (h : g.Linked) (hroot : g.hasVertex root) (v : Nat) (hv : g.Reaches root v) :
    v ∈ g.successorMap :=
  (h.successor_keys v).2 (h.hasVertex_of_reaches hroot hv)

end Linked

namespace Consistent
variable [IsVertex ν] [IsEdge ε] {g : Graph ν ε} {root : Nat}

/-- In a consistent graph the walk from a vertex ends. -/
theorem reversePostOrder (h : g.Consistent) (hroot : g.hasVertex root) :
    ∃ order, g.reversePostOrder root = .ok order ∧ order.Nodup ∧
      ∀ v, v ∈ order ↔ g.Reaches root v :=
  reversePostOrder_reaches hroot (h.linked.entries hroot)

/-- In a consistent graph an edge leads forward in the walk, unless there is a way back. -/
theorem reversePostOrder_sorted (h : g.Consistent) (hroot : g.hasVertex root) {order : List Nat}
    (horder : g.reversePostOrder root = .ok order) {u w : Nat} (hu : g.Reaches root u)
    (edge : g.hasEdge u w) (noReturn : ¬ g.Reaches w u) : [u, w].Sublist order :=
  Graph.reversePostOrder_sorted hroot (h.linked.entries hroot) horder hu ((h.successors u w).2 edge)
    noReturn

/-- In a consistent graph the walk comes to its root first. -/
theorem reversePostOrder_head (h : g.Consistent) (hroot : g.hasVertex root) {order : List Nat}
    (horder : g.reversePostOrder root = .ok order) : order.head? = some root :=
  Graph.reversePostOrder_head hroot (h.linked.entries hroot) horder

end Consistent

end FlowFacts.Graph
