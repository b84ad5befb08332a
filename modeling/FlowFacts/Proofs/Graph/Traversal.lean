import FlowFacts.Graph.Plain
import FlowFacts.Proofs.Graph.PreOrder
import FlowFacts.Proofs.Graph.Reachable

/-! Five walks, one set of vertices.

The search, the walk in pre-order and the walk in post-order mark vertices at different moments,
when they come on the stack, when they leave it and when they are discovered, and come to them in
different orders. In any graph, also one whose maps disagree, each of them ends, and they succeed
and fail together: they fail where the root is no vertex or reaches a vertex without a successor
set, and otherwise they find what the root reaches, no more and no less (`traversals_agree`). The
five may name different vertices when they fail, but each names one that is missing (`Missing`). -/
namespace FlowFacts.Graph
variable {ν ε : Type}

/-- The root is a vertex, and all that it reaches has a successor set. -/
def Followable (g : Graph ν ε) (root : Nat) : Prop :=
  g.hasVertex root ∧ ∀ v, g.Reaches root v → v ∈ g.successorMap

/-- The root itself, where it is no vertex, or a vertex without a successor set that it reaches. -/
def Missing (g : Graph ν ε) (root v : Nat) : Prop :=
  g.hasVertex root = false ∧ v = root ∨ g.Reaches root v ∧ v ∉ g.successorMap

/-- The answer is that a vertex is missing. -/
def Fails (g : Graph ν ε) (root : Nat) {ρ : Type} (answer : Except Error ρ) : Prop :=
  ∃ v, answer = .error (.vertexNotFound v) ∧ g.Missing root v

section
variable {g : Graph ν ε} {root : Nat} {ρ σ : Type} {answer : Except Error ρ}

theorem Fails.map (h : g.Fails root answer) (f : ρ → σ) : g.Fails root (answer.map f) := by
  obtain ⟨v, rfl, hv⟩ := h
  exact ⟨v, rfl, hv⟩

/-- A walk that asks for the root first succeeds where everything can be followed, and fails
elsewhere. -/
theorem answer_cases {right : ρ → Prop}
    (answered : g.hasVertex root → g.Answered root right answer)
    (refused : g.hasVertex root = false → answer = .error (.vertexNotFound root)) :
    (g.Followable root → ∃ result, answer = .ok result ∧ right result) ∧
      (¬ g.Followable root → g.Fails root answer) := by
  refine ⟨fun h => (answered h.1).exists_ok h.2, fun h => ?_⟩
  cases hroot : g.hasVertex root with
  | false => exact ⟨root, refused hroot, .inl ⟨hroot, rfl⟩⟩
  | true =>
    have noEntries : ¬ ∀ v, g.Reaches root v → v ∈ g.successorMap := fun all => h ⟨hroot, all⟩
    obtain ⟨v, hanswer, hv⟩ := (answered hroot).exists_error noEntries
    exact ⟨v, hanswer, .inr hv⟩

theorem reachable_cases :
    (g.Followable root →
      ∃ found, g.reachable root = .ok found ∧ ∀ v, v ∈ found ↔ g.Reaches root v) ∧
    (¬ g.Followable root → g.Fails root (g.reachable root)) :=
  answer_cases reachable_answered fun hroot => requireVertex_error hroot _

theorem preOrder_cases :
    (g.Followable root → ∃ order, g.preOrder root = .ok order ∧ order.Nodup ∧
      (∀ v, v ∈ order ↔ g.Reaches root v) ∧ order.head? = some root) ∧
    (¬ g.Followable root → g.Fails root (g.preOrder root)) :=
  answer_cases preOrder_answered fun hroot => requireVertex_error hroot _

theorem reversePostOrder_cases :
    (g.Followable root → ∃ order, g.reversePostOrder root = .ok order ∧
      ∃ visited, g.Walk root [] visited order) ∧
    (¬ g.Followable root → g.Fails root (g.reversePostOrder root)) :=
  answer_cases reversePostOrder_answered fun hroot => requireVertex_error hroot _

end

/-- The vertices that the search has not found. -/
def unfound (g : Graph ν ε) (found : Indices) : Indices :=
  .ofList (g.vertexMap.keys.filter fun i => !found.contains i)

theorem unreachable_eq (g : Graph ν ε) (root : Nat) :
    g.unreachable root = (g.reachable root).map g.unfound := by
  unfold unreachable
  cases g.reachable root <;> rfl

theorem mem_unfound (g : Graph ν ε) (found : Indices) (v : Nat) :
    v ∈ g.unfound found ↔ g.hasVertex v ∧ v ∉ found := by
  rw [unfound, Std.ExtTreeSet.mem_ofList, List.contains_iff_mem, List.mem_filter, g.mem_keys,
    Bool.not_eq_true', ← Bool.not_eq_true, Std.ExtTreeSet.contains_iff_mem]

/-- In any graph the walks from a vertex come to their ends, with steps enough. Where the root is a
vertex and all that it reaches has a successor set, they succeed: the search finds what the root
reaches, and leaves the other vertices; pre-order and post-order list it, each vertex once, with
the root first and last. Elsewhere all of them fail, each with the number of a missing vertex. -/
theorem traversals_agree (g : Graph ν ε) (root : Nat) :
    (g.hasVertex root →
      g.ReachEnds [root] (.ofList [root]) (g.reachable root) ∧
      g.PreOrderEnds [root] ∅ [] (g.preOrder root) ∧
      ∀ found, g.successorIndices root = .ok found →
        g.PostOrderEnds [(root, found)] (.ofList [root]) [] (g.reversePostOrder root)) ∧
    (g.Followable root → ∃ found others pre post,
      g.reachable root = .ok found ∧ g.unreachable root = .ok others ∧
      g.preOrder root = .ok pre ∧ g.postOrder root = .ok post ∧
      g.reversePostOrder root = .ok post.reverse ∧
      (∀ v, v ∈ found ↔ g.Reaches root v) ∧
      (∀ v, v ∈ others ↔ g.hasVertex v ∧ ¬ g.Reaches root v) ∧
      pre.Nodup ∧ (∀ v, v ∈ pre ↔ g.Reaches root v) ∧ pre.head? = some root ∧
      post.Nodup ∧ (∀ v, v ∈ post ↔ g.Reaches root v) ∧ post.getLast? = some root) ∧
    (¬ g.Followable root →
      g.Fails root (g.reachable root) ∧ g.Fails root (g.unreachable root) ∧
      g.Fails root (g.preOrder root) ∧ g.Fails root (g.postOrder root) ∧
      g.Fails root (g.reversePostOrder root)) := by
  refine ⟨fun hroot => ?ends, fun h => ?succeed, fun h => ?fail⟩
  case ends =>
    exact ⟨reachable_ends hroot, preOrder_ends hroot, fun found => reversePostOrder_ends hroot⟩
  case succeed =>
    obtain ⟨found, hfound, hmem⟩ := reachable_cases.1 h
    obtain ⟨pre, hpre, hpreNodup, hpreMem, hhead⟩ := preOrder_cases.1 h
    obtain ⟨order, horder, visited, hwalk⟩ := reversePostOrder_cases.1 h
    obtain ⟨hnodup, horderMem⟩ := hwalk.ended
    refine ⟨found, g.unfound found, pre, order.reverse, hfound, ?_, hpre, ?_, ?_, hmem, fun v => ?_,
      hpreNodup, hpreMem, hhead, List.nodup_reverse.2 hnodup, fun v => ?_, ?_⟩
    · rw [unreachable_eq, hfound]
      rfl
    · rw [postOrder, horder]
      rfl
    · rw [List.reverse_reverse, horder]
    · rw [mem_unfound, hmem]
    · rw [List.mem_reverse, horderMem]
    · rw [List.getLast?_reverse]
      exact hwalk.bottom
  case fail =>
    have hreachable := reachable_cases.2 h
    have horder := reversePostOrder_cases.2 h
    exact ⟨hreachable, unreachable_eq g root ▸ hreachable.map _, preOrder_cases.2 h, horder.map _,
      horder⟩

/-- A graph whose successor sets were patched by hand: 7 is no vertex, but has a successor set, and
2 is a vertex without one. -/
def patched : PlainGraph where
  vertexMap := .ofList ([0, 1, 2, 5].map fun i => (i, PlainVertex.mk i))
  edgeMap := ∅
  successorMap := .ofList
    ([(0, [1, 7]), (1, [0]), (5, [2]), (7, [])].map fun e => (e.1, Std.ExtTreeSet.ofList e.2))
  predecessorMap := ∅

theorem traversals_agree_patched :
    (∀ v, v ∈ [7, 1, 0] ↔ patched.Reaches 0 v) ∧ patched.preOrder 0 = .ok [0, 7, 1] ∧
      patched.postOrder 0 = .ok [1, 7, 0] ∧ patched.unreachable 0 = .ok (.ofList [2, 5]) ∧
      patched.hasVertex 5 ∧ patched.Fails 5 (patched.reachable 5) ∧
        patched.Fails 5 (patched.preOrder 5) ∧ patched.Fails 5 (patched.postOrder 5) := by
  have hpre : patched.preOrder 0 = .ok [0, 7, 1] := by decide +kernel
  have hpost : patched.postOrder 0 = .ok [1, 7, 0] := by decide +kernel
  have hothers : patched.unreachable 0 = .ok (.ofList [2, 5]) := by decide +kernel
  have follows : patched.Followable 0 := by
    by_contra h
    obtain ⟨-, -, ⟨v, hv, -⟩, -⟩ := (traversals_agree patched 0).2.2 h
    cases hpre.symm.trans hv
  obtain ⟨_, _, pre, post, -, -, hpre', -, -, -, -, -, hmem, -⟩ :=
    (traversals_agree patched 0).2.1 follows
  cases hpre.symm.trans hpre'
  have gap : ¬ patched.Followable 5 := fun h =>
    absurd (h.2 2 (.single ⟨.ofList [2], by decide +kernel⟩)) (by decide +kernel)
  obtain ⟨hreachable, -, hpreOrder, hpostOrder, -⟩ := (traversals_agree patched 5).2.2 gap
  refine ⟨fun v => ?_, hpre, hpost, hothers, by decide +kernel, hreachable, hpreOrder, hpostOrder⟩
  rw [← hmem]
  simp only [List.mem_cons, List.not_mem_nil, or_false]
  tauto

end FlowFacts.Graph
