import Std.Data.ExtTreeSet

/-! Orders by a key, and lists in order without repeats.

`lawfulEq_compareOn`: comparing by an injective key tells any two values apart, so
such an order can be used for sets and maps.

`sortedDistinct_eq`: putting values into a list one after another, each in its place
and none twice, makes the list of the set that has them. -/
namespace FlowFacts

theorem lawfulEq_compareOn {α β : Type} [Ord β] [Std.LawfulEqOrd β] {key : α → β}
    (injective : ∀ a b, key a = key b → a = b) : Std.LawfulEqCmp (compareOn key) where
  compare_self := Std.ReflOrd.compare_self
  eq_of_compare h := injective _ _ (Std.LawfulEqOrd.eq_of_compare h)

/-! ### Lists in order -/

/-- Put `a` into a list in order, unless it is there. -/
def insertInOrder {α : Type} [Ord α] (a : α) : List α → List α
  | [] => [a]
  | b :: rest =>
    match compare a b with
    | .lt => a :: b :: rest
    | .eq => b :: rest
    | .gt => b :: insertInOrder a rest

/-- The values in ascending order, each once. -/
def sortedDistinct {α : Type} [Ord α] (values : List α) : List α :=
  values.foldl (fun sorted a => insertInOrder a sorted) []

variable {α : Type} [Ord α]

/-- Each value is less than all that follow it. -/
def Ascending (values : List α) : Prop := values.Pairwise fun a b => compare a b = .lt

variable [Std.LawfulEqOrd α] {a b : α} {values : List α}

theorem mem_insertInOrder : b ∈ insertInOrder a values ↔ b = a ∨ b ∈ values := by
  induction values with
  | nil => simp [insertInOrder]
  | cons c rest ih =>
    unfold insertInOrder
    cases h : compare a c with
    | lt => simp
    | eq =>
      have hsame : a = c := Std.LawfulEqOrd.eq_of_compare h
      simp [hsame]
    | gt => simp [ih, or_left_comm]

theorem mem_sortedDistinct : b ∈ sortedDistinct values ↔ b ∈ values := by
  suffices ∀ sorted : List α, b ∈ values.foldl (fun sorted a => insertInOrder a sorted) sorted ↔
      b ∈ values ∨ b ∈ sorted from (this []).trans (by simp)
  induction values with
  | nil => simp
  | cons a rest ih => simp [ih, mem_insertInOrder, or_assoc, or_left_comm]

variable [Std.TransOrd α]

theorem ascending_insertInOrder (h : Ascending values) : Ascending (insertInOrder a values) := by
  induction values with
  | nil => exact List.pairwise_singleton _ a
  | cons c rest ih =>
    obtain ⟨hfirst, hrest⟩ := List.pairwise_cons.1 h
    unfold insertInOrder
    cases hcompare : compare a c with
    | lt =>
      refine List.pairwise_cons.2 ⟨fun b hb => ?_, h⟩
      rcases List.mem_cons.1 hb with rfl | hb
      · exact hcompare
      · exact Std.TransCmp.lt_trans hcompare (hfirst b hb)
    | eq => exact h
    | gt =>
      refine List.pairwise_cons.2 ⟨fun b hb => ?_, ih hrest⟩
      rcases mem_insertInOrder.1 hb with rfl | hb
      · exact Std.OrientedCmp.lt_of_gt hcompare
      · exact hfirst b hb

theorem ascending_sortedDistinct (values : List α) : Ascending (sortedDistinct values) := by
  suffices ∀ sorted : List α, Ascending sorted →
      Ascending (values.foldl (fun sorted a => insertInOrder a sorted) sorted) from
    this [] .nil
  induction values with
  | nil => exact fun sorted h => h
  | cons a rest ih => exact fun sorted h => ih _ (ascending_insertInOrder h)

omit [Std.LawfulEqOrd α] in
theorem Ascending.nodup (h : Ascending values) : values.Nodup :=
  h.imp fun hlt heq => by simp [heq, Std.ReflCmp.compare_self] at hlt

/-- Neither the order of the values nor their repeats leave a trace. -/
theorem sortedDistinct_eq [DecidableEq α] (values : List α) :
    sortedDistinct values = (Std.ExtTreeSet.ofList values).toList := by
  have hsorted := ascending_sortedDistinct values
  have hlisted : Ascending (Std.ExtTreeSet.ofList values).toList := Std.ExtTreeSet.ordered_toList
  have hperm : (sortedDistinct values).Perm (Std.ExtTreeSet.ofList values).toList :=
    (List.perm_ext_iff_of_nodup hsorted.nodup hlisted.nodup).2 fun b => by
      rw [mem_sortedDistinct, Std.ExtTreeSet.mem_toList, Std.ExtTreeSet.mem_ofList,
        List.contains_iff_mem]
  refine List.Perm.eq_of_pairwise (fun a b _ _ hab hba => ?_) hsorted hlisted hperm
  exact absurd hba (Std.OrientedCmp.not_lt_of_lt hab)

end FlowFacts
