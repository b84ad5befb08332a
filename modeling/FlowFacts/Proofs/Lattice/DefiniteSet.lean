import FlowFacts.Lattice.DefiniteSet
import FlowFacts.Proofs.Lattice.Laws

/-! Must-sets, by what they contain.

A meet contains what both sets contain, and an insertion what the set contains and the
new value. The lattice has its laws on all must-sets. -/
namespace FlowFacts.DefiniteSet
variable {α : Type} [Ord α] [Std.TransOrd α]

@[simp]
theorem contains_empty (a : α) : (empty : DefiniteSet α).contains a = false :=
  Std.ExtTreeSet.contains_empty

@[simp]
theorem contains_meet (s t : DefiniteSet α) (a : α) :
    (s.meet t).contains a = (s.contains a && t.contains a) := by
  cases s <;> cases t <;> simp [meet, contains, Std.ExtTreeSet.contains_inter]

variable [Std.LawfulEqOrd α]

@[simp]
theorem contains_insert (s : DefiniteSet α) (a b : α) :
    (s.insert a).contains b ↔ a = b ∨ s.contains b := by
  cases s <;> simp [insert, contains]

theorem lawful : (lattice : Lattice (DefiniteSet α)).LawfulOn fun _ => True := by
  have hinter (s t : Std.ExtTreeSet α) : s ∩ t = t ∩ s :=
    Std.ExtTreeSet.ext_mem fun a => by simp [and_comm]
  constructor
  case top_mem => trivial
  case meet_mem => exact fun _ _ _ _ => trivial
  case meet_self =>
    intro s _
    cases s with
    | everything => rfl
    | values s => exact congrArg values (Std.ExtTreeSet.ext_mem fun a => by simp)
  case meet_comm =>
    intro s t _ _
    cases s <;> cases t <;> first | rfl | exact congrArg values (hinter _ _)
  case meet_assoc =>
    intro s t u _ _ _
    cases s <;> cases t <;> cases u <;>
      first | rfl | exact congrArg values (Std.ExtTreeSet.ext_mem fun a => by simp [and_assoc])
  case meet_top =>
    intro s _
    cases s <;> rfl

/-- A set lies below another when it contains no more. -/
theorem below_iff (s t : DefiniteSet α) : lattice.Below s t ↔
    t = everything ∨ s ≠ everything ∧ ∀ a, s.contains a → t.contains a := by
  cases s with
  | everything => cases t <;> simp [Lattice.Below, lattice, Lattice.ofMeet, meet]
  | values s =>
    cases t with
    | everything => simp [Lattice.Below, lattice, Lattice.ofMeet, meet]
    | values t =>
      simp only [Lattice.Below, lattice, Lattice.ofMeet, meet, values.injEq, contains,
        Std.ExtTreeSet.contains_iff_mem, reduceCtorEq, false_or, ne_eq, not_false_eq_true, true_and]
      constructor
      · intro h a ha
        rw [← h] at ha
        exact (Std.ExtTreeSet.mem_inter_iff.1 ha).2
      · exact fun h => Std.ExtTreeSet.ext_mem fun a => by simpa using h a

end FlowFacts.DefiniteSet
