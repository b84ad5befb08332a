import FlowFacts.Graph.Walk
import FlowFacts.Proofs.Graph.Consistent
import Mathlib.Algebra.GroupWithZero.Nat
import Mathlib.Logic.Relation

/-! What a walk over a graph goes through, and what it can answer.

A walk follows the arcs of the successor sets, in whatever graph, whether or not its vertices and
edges agree with them. It opens a vertex when it looks up the successors; the arcs of the vertices
that it has not opened yet are the work that is left (`openArcs`), and opening a vertex takes its
arcs off (`openArcs_insert`). A walk that looks at all the root reaches has one of two answers: a
result, when everything that the root reaches has a successor set, or the number of a vertex that
the root reaches and that has none (`Answered`). -/
namespace FlowFacts.Graph
variable {ν ε : Type}

/-- Arcs of the successor sets lead from the first vertex to the second. -/
def Reaches (g : Graph ν ε) : Nat → Nat → Prop :=
  Relation.ReflTransGen (Neighbour g.successorMap)

/-! ### Successors -/

theorem successorIndices_eq_ok {g : Graph ν ε} {i : Nat} {found : List Nat} :
    g.successorIndices i = .ok found ↔ ∃ s, g.successorMap[i]? = some s ∧ found = s.toList := by
  unfold successorIndices
  cases g.successorMap[i]? <;> simp [eq_comm]

theorem mem_of_successorIndices {g : Graph ν ε} {i : Nat} {found : List Nat}
    (h : g.successorIndices i = .ok found) : i ∈ g.successorMap := by
  obtain ⟨s, hs, -⟩ := successorIndices_eq_ok.1 h
  exact Std.ExtTreeMap.mem_iff_isSome_getElem?.2 (Option.isSome_of_eq_some hs)

theorem neighbour_iff_of_successorIndices {g : Graph ν ε} {i j : Nat} {found : List Nat}
    (h : g.successorIndices i = .ok found) : Neighbour g.successorMap i j ↔ j ∈ found := by
  obtain ⟨s, hs, rfl⟩ := successorIndices_eq_ok.1 h
  rw [Std.ExtTreeSet.mem_toList, Neighbour]
  simp [hs]

theorem successorIndices_eq_error {g : Graph ν ε} {i : Nat} {e : Error} :
    g.successorIndices i = .error e ↔ i ∉ g.successorMap ∧ e = .vertexNotFound i := by
  unfold successorIndices
  rw [Std.ExtTreeMap.mem_iff_isSome_getElem?]
  cases g.successorMap[i]? <;> simp [eq_comm]

/-! ### The work that is left -/

theorem sum_filter_ne {l : List (Nat × Indices)} (nodup : (l.map Prod.fst).Nodup)
    {entry : Nat × Indices} (mem : entry ∈ l) (p : Nat → Bool) (hp : p entry.1 = true)
    (f : Nat × Indices → Nat) :
    ((l.filter fun e => p e.1 && e.1 != entry.1).map f).sum + f entry =
      ((l.filter fun e => p e.1).map f).sum := by
  induction l with
  | nil => cases mem
  | cons e l ih =>
    obtain ⟨hfst, hl⟩ := List.nodup_cons.1 nodup
    rcases List.mem_cons.1 mem with rfl | mem
    · have hrest : (l.filter fun e => p e.1 && e.1 != entry.1) = l.filter fun e => p e.1 := by
        refine List.filter_congr fun e he => ?_
        have : e.1 ≠ entry.1 := fun heq => hfst (heq ▸ List.mem_map_of_mem he)
        simp [this]
      simp [hp, hrest, Nat.add_comm]
    · have hne : e.1 ≠ entry.1 := fun heq => hfst (heq ▸ List.mem_map_of_mem mem)
      have := ih hl mem
      cases hpe : p e.1 <;> simp [hpe, hne] <;> omega

/-- The sizes of the successor sets of the vertices without a mark. -/
def openArcs (g : Graph ν ε) (marked : Indices) : Nat :=
  ((g.successorMap.toList.filter fun e => !marked.contains e.1).map fun e => e.2.size).sum

theorem openArcs_empty (g : Graph ν ε) : g.openArcs ∅ = g.arcCount := by
  simp only [openArcs, Std.ExtTreeSet.contains_empty, Bool.not_false, List.filter_true]
  rw [arcCount, values_eq_map_toList, List.map_map]
  rfl

theorem openArcs_insert {g : Graph ν ε} {marked : Indices} {i : Nat} {s : Indices}
    (hs : g.successorMap[i]? = some s) (hi : i ∉ marked) :
    g.openArcs (marked.insert i) + s.size = g.openArcs marked := by
  have nodup : (g.successorMap.toList.map Prod.fst).Nodup := by
    rw [Std.ExtTreeMap.map_fst_toList_eq_keys]
    exact g.successorMap.nodup_keys
  have hopen : (!marked.contains i) = true := by
    rw [Bool.not_eq_true', ← Bool.not_eq_true, Std.ExtTreeSet.contains_iff_mem]
    exact hi
  rw [openArcs, openArcs, ← sum_filter_ne nodup
    (Std.ExtTreeMap.mem_toList_iff_getElem?_eq_some.2 hs) (fun j => !marked.contains j) hopen]
  congr 3
  refine List.filter_congr fun e _ => ?_
  rw [Std.ExtTreeSet.contains_insert, Bool.not_or, Bool.and_comm]
  congr 1
  rw [Bool.eq_iff_iff]
  simpa using not_congr eq_comm

/-! ### What a walk answers -/

/-- No walk starts where there is no vertex. -/
theorem requireVertex_error {g : Graph ν ε} {root : Nat} {ρ : Type}
    (hroot : g.hasVertex root = false) (next : Except Error ρ) :
    (do g.requireVertex root; next) = .error (.vertexNotFound root) := by
  simp only [requireVertex, hroot, Bool.false_eq_true, if_false]
  rfl

/-- The root reaches no vertex without a successor set, and what was found is right; or it reaches
one, and that is the answer. -/
inductive Answered (g : Graph ν ε) (root : Nat) {ρ : Type} (right : ρ → Prop) :
    Except Error ρ → Prop
  | found {result : ρ} (entries : ∀ v, g.Reaches root v → v ∈ g.successorMap)
      (holds : right result) : Answered g root right (.ok result)
  | missing {v : Nat} (reached : g.Reaches root v) (absent : v ∉ g.successorMap) :
      Answered g root right (.error (.vertexNotFound v))

namespace Answered
variable {g : Graph ν ε} {root : Nat} {ρ : Type} {right : ρ → Prop} {answer : Except Error ρ}

theorem exists_ok (h : g.Answered root right answer)
    (entries : ∀ v, g.Reaches root v → v ∈ g.successorMap) :
    ∃ result, answer = .ok result ∧ right result := by
  cases h with
  | found _ holds => exact ⟨_, rfl, holds⟩
  | missing reached absent => exact absurd (entries _ reached) absent

theorem exists_error (h : g.Answered root right answer)
    (noEntries : ¬ ∀ v, g.Reaches root v → v ∈ g.successorMap) :
    ∃ v, answer = .error (.vertexNotFound v) ∧ g.Reaches root v ∧ v ∉ g.successorMap := by
  cases h with
  | found entries => exact absurd entries noEntries
  | missing reached absent => exact ⟨_, rfl, reached, absent⟩

end Answered

end FlowFacts.Graph
