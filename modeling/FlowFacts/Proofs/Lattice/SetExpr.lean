import FlowFacts.Proofs.Lattice.ValueSet
import Mathlib.Logic.Relation

/-! May-sets, however they are put together.

The operations of the may-set lattice put a set together step by step, from values and from sets of
which nothing is known (`SetExpr`). Each operation lets a set above the bound collapse by itself.
The set is in the end what listing all of the values at once makes, with a collapse at the end
only, unless a part was unknown to begin with (`eval_eq`): a set that is too large at one step is
still too large with more values, and what is listed twice counts once. -/
namespace FlowFacts

namespace ValueSet
variable {α : Type} [Ord α] [Std.TransOrd α] [Std.LawfulEqOrd α] [DecidableEq α] {bound : Nat}
  {lost lost' : Bool} {items items' : List α} {a : α}

theorem mem_members_ofList : a ∈ Std.ExtTreeSet.ofList items ↔ a ∈ items := by
  rw [Std.ExtTreeSet.mem_ofList, List.contains_iff_mem]

theorem size_members_ofList (items : List α) :
    (Std.ExtTreeSet.ofList items).size = items.toFinset.card := by
  rw [← card_toList]
  refine congrArg Finset.card (Finset.ext fun a => ?_)
  rw [List.mem_toFinset, List.mem_toFinset, Std.ExtTreeSet.mem_toList, mem_members_ofList]

theorem insert_ofList : (ofList bound items).insert bound a = ofList bound (a :: items) := by
  rw [ofList, insert_bounded]
  refine congrArg (bounded bound) (Std.ExtTreeSet.ext_mem fun b => ?_)
  simp only [Std.ExtTreeSet.mem_insert, mem_members_ofList, List.mem_cons,
    Std.LawfulEqOrd.compare_eq_iff_eq, eq_comm (a := a)]

theorem meet_ofList :
    (ofList bound items).meet bound (ofList bound items') = ofList bound (items ++ items') := by
  rw [ofList, ofList, bounded_meet_bounded]
  refine congrArg (bounded bound) (Std.ExtTreeSet.ext_mem fun b => ?_)
  simp only [Std.ExtTreeSet.mem_union_iff, mem_members_ofList, List.mem_append]

/-- The values listed at once; nothing is known of them when something is lost. -/
def listed (bound : Nat) (lost : Bool) (items : List α) : ValueSet α :=
  if lost then .unknown else .ofList bound items

theorem listed_eq_unknown_iff :
    listed bound lost items = unknown ↔ lost ∨ bound < items.toFinset.card := by
  unfold listed ofList bounded
  rw [size_members_ofList]
  split <;> simp_all

theorem mem_of_listed {members : Std.ExtTreeSet α} (h : listed bound lost items = values members) :
    a ∈ members ↔ a ∈ items := by
  unfold listed ofList bounded at h
  split at h
  · cases h
  · split at h <;> cases h
    exact mem_members_ofList

theorem mayContain_listed (h : a ∈ items) : (listed bound lost items).mayContain a := by
  cases lost with
  | true => rfl
  | false => exact mayContain_bounded (mem_members_ofList.2 h)

/-- The same values make the same set. -/
theorem listed_congr (same : ∀ a, a ∈ items' ↔ a ∈ items) :
    listed bound lost items' = listed bound lost items := by
  have hmembers : Std.ExtTreeSet.ofList items' = .ofList items :=
    Std.ExtTreeSet.ext_mem fun a => by rw [mem_members_ofList, mem_members_ofList, same]
  unfold listed ofList
  rw [hmembers]

section More
variable (lost_more : lost → lost') (more : items ⊆ items')
include lost_more more

/-- With more values nothing is known of the set that was unknown. -/
theorem listed_eq_unknown (h : listed bound lost items = unknown) :
    listed bound lost' items' = unknown := by
  rw [listed_eq_unknown_iff] at h ⊢
  refine h.imp lost_more fun hlarge => hlarge.trans_le (Finset.card_le_card fun a ha => ?_)
  exact List.mem_toFinset.2 (more (List.mem_toFinset.1 ha))

theorem isSuperset_listed : (listed bound lost' items').isSuperset (listed bound lost items) := by
  cases hmore : listed bound lost' items' with
  | unknown => rfl
  | values members' =>
    cases hitems : listed bound lost items with
    | unknown => cases hmore.symm.trans (listed_eq_unknown lost_more more hitems)
    | values members =>
      refine List.all_eq_true.2 fun a ha => Std.ExtTreeSet.contains_iff_mem.2 ?_
      rw [Std.ExtTreeSet.mem_toList, mem_of_listed hitems] at ha
      exact (mem_of_listed hmore).2 (more ha)

end More

theorem insert_listed :
    (listed bound lost items).insert bound a = listed bound lost (a :: items) := by
  cases lost with
  | true => rfl
  | false => exact insert_ofList

theorem meet_listed : (listed bound lost items).meet bound (listed bound lost' items') =
    listed bound (lost || lost') (items ++ items') := by
  cases lost with
  | true => rfl
  | false =>
    cases lost' with
    | true => exact meet_comm bound _ _
    | false => exact meet_ofList

end ValueSet

/-- How a may-set is put together. -/
inductive SetExpr (α : Type) where
  | top
  | unknown
  | singleton (a : α)
  | ofList (items : List α)
  | insert (a : α) (set : SetExpr α)
  | meet (left right : SetExpr α)
  | meetAll (parts : List (SetExpr α))

namespace SetExpr
variable {α : Type}

/-- By induction, over each of the parts that are met together. -/
@[induction_eliminator]
theorem induction {motive : SetExpr α → Prop} (top : motive .top) (unknown : motive .unknown)
    (singleton : ∀ a, motive (.singleton a)) (ofList : ∀ items, motive (.ofList items))
    (insert : ∀ a e, motive e → motive (.insert a e))
    (meet : ∀ e e', motive e → motive e' → motive (.meet e e'))
    (meetAll : ∀ parts, (∀ e ∈ parts, motive e) → motive (.meetAll parts)) (e : SetExpr α) :
    motive e := by
  refine @SetExpr.rec α motive (fun parts => ∀ e ∈ parts, motive e) top unknown singleton ofList
    insert meet meetAll nofun (fun e parts he hparts => ?_) e
  exact List.forall_mem_cons.2 ⟨he, hparts⟩

mutual
/-- The values at the leaves, as often as they stand there. -/
def leaves : SetExpr α → List α
  | .top => []
  | .unknown => []
  | .singleton a => [a]
  | .ofList items => items
  | .insert a e => a :: e.leaves
  | .meet e e' => e.leaves ++ e'.leaves
  | .meetAll parts => leavesAll parts
def leavesAll : List (SetExpr α) → List α
  | [] => []
  | e :: parts => e.leaves ++ leavesAll parts
end

mutual
/-- A leaf is unknown. -/
def hasUnknown : SetExpr α → Bool
  | .top => false
  | .unknown => true
  | .singleton _ => false
  | .ofList _ => false
  | .insert _ e => e.hasUnknown
  | .meet e e' => e.hasUnknown || e'.hasUnknown
  | .meetAll parts => anyUnknown parts
def anyUnknown : List (SetExpr α) → Bool
  | [] => false
  | e :: parts => e.hasUnknown || anyUnknown parts
end

section
variable [Ord α] [Std.TransOrd α] [Std.LawfulEqOrd α]

mutual
/-- The set that the operations make. -/
def eval (bound : Nat) : SetExpr α → ValueSet α
  | .top => (ValueSet.lattice bound).top
  | .unknown => .unknown
  | .singleton a => .singleton bound a
  | .ofList items => .ofList bound items
  | .insert a e => (e.eval bound).insert bound a
  | .meet e e' => (ValueSet.lattice bound).meet (e.eval bound) (e'.eval bound)
  | .meetAll parts => (ValueSet.lattice bound).meetAll (evalAll bound parts)
def evalAll (bound : Nat) : List (SetExpr α) → List (ValueSet α)
  | [] => []
  | e :: parts => e.eval bound :: evalAll bound parts
end

/-! ### The set that is made -/

section
variable [DecidableEq α] {bound : Nat}

theorem foldl_listed {parts : List (SetExpr α)}
    (each : ∀ e ∈ parts, e.eval bound = .listed bound e.hasUnknown e.leaves) (lost : Bool)
    (items : List α) :
    (evalAll bound parts).foldl (ValueSet.meet bound) (.listed bound lost items) =
      .listed bound (lost || anyUnknown parts) (items ++ leavesAll parts) := by
  induction parts generalizing lost items with
  | nil => simp [evalAll, anyUnknown, leavesAll]
  | cons e parts ih =>
    obtain ⟨he, hparts⟩ := List.forall_mem_cons.1 each
    rw [evalAll, List.foldl_cons, he, ValueSet.meet_listed, ih hparts, anyUnknown, leavesAll,
      Bool.or_assoc, List.append_assoc]

/-- The steps make what listing all values at once makes, unless a leaf is unknown. -/
theorem eval_eq (bound : Nat) (e : SetExpr α) :
    e.eval bound = .listed bound e.hasUnknown e.leaves := by
  have htop : (ValueSet.lattice bound).top = (.listed bound false [] : ValueSet α) :=
    (ValueSet.bounded_of_le (Nat.zero_le bound)).symm
  induction e with
  | top => exact htop
  | unknown => rfl
  | singleton a => rfl
  | ofList items => rfl
  | insert a e ih => rw [eval, ih, ValueSet.insert_listed, hasUnknown, leaves]
  | meet e e' ih ih' =>
    rw [eval, ih, ih', hasUnknown, leaves]
    exact ValueSet.meet_listed
  | meetAll parts ih =>
    rw [eval, Lattice.meetAll, htop]
    exact foldl_listed ih false []

end

end

/-! ### Parts -/

/-- A set that goes into the last step. -/
inductive Operand : SetExpr α → SetExpr α → Prop
  | insert (a : α) (e : SetExpr α) : Operand e (.insert a e)
  | left (e e' : SetExpr α) : Operand e (.meet e e')
  | right (e e' : SetExpr α) : Operand e' (.meet e e')
  | item {e : SetExpr α} {parts : List (SetExpr α)} (mem : e ∈ parts) : Operand e (.meetAll parts)

/-- A set that goes into some step. -/
def PartOf : SetExpr α → SetExpr α → Prop := Relation.ReflTransGen Operand

theorem mem_leavesAll {parts : List (SetExpr α)} {a : α} :
    a ∈ leavesAll parts ↔ ∃ e ∈ parts, a ∈ e.leaves := by
  induction parts with
  | nil => simp [leavesAll]
  | cons e parts ih => simp [leavesAll, ih]

theorem anyUnknown_iff {parts : List (SetExpr α)} :
    anyUnknown parts ↔ ∃ e ∈ parts, e.hasUnknown := by
  induction parts with
  | nil => simp [anyUnknown]
  | cons e parts ih => simp [anyUnknown, ih]

/-- A step has the leaves of its operands. -/
theorem Operand.kept {part e : SetExpr α} (h : Operand part e) :
    (part.hasUnknown → e.hasUnknown) ∧ part.leaves ⊆ e.leaves := by
  cases h with
  | insert a => exact ⟨id, List.subset_cons_self a _⟩
  | left _ e' => exact ⟨fun h => by simp [hasUnknown, h], List.subset_append_left _ _⟩
  | right e => exact ⟨fun h => by simp [hasUnknown, h], List.subset_append_right _ _⟩
  | item mem =>
    exact ⟨fun h => anyUnknown_iff.2 ⟨_, mem, h⟩, fun a ha => mem_leavesAll.2 ⟨_, mem, ha⟩⟩

theorem PartOf.kept {part e : SetExpr α} (h : part.PartOf e) :
    (part.hasUnknown → e.hasUnknown) ∧ part.leaves ⊆ e.leaves := by
  induction h with
  | refl => exact ⟨id, List.Subset.refl _⟩
  | tail _ operand ih =>
    obtain ⟨hunknown, hleaves⟩ := operand.kept
    exact ⟨hunknown ∘ ih.1, List.Subset.trans ih.2 hleaves⟩

/-- A may-set depends only on the leaves it is put together from. It is unknown exactly when one of
them is, or when they have more values than the bound, and otherwise its members are their values;
so it may contain each of them. It is a superset of each of its parts, and unknown when a part
is. -/
theorem eval_by_leaves [Ord α] [Std.TransOrd α] [Std.LawfulEqOrd α] [DecidableEq α] (bound : Nat)
    (e : SetExpr α) :
    (e.eval bound = .unknown ↔ e.hasUnknown ∨ bound < e.leaves.toFinset.card) ∧
    (∀ members, e.eval bound = .values members → ∀ a, a ∈ members ↔ a ∈ e.leaves) ∧
    (∀ a ∈ e.leaves, (e.eval bound).mayContain a) ∧
    (∀ part : SetExpr α, part.PartOf e → (e.eval bound).isSuperset (part.eval bound) ∧
      (part.eval bound = .unknown → e.eval bound = .unknown)) ∧
    ∀ e' : SetExpr α, e'.hasUnknown = e.hasUnknown → (∀ a, a ∈ e'.leaves ↔ a ∈ e.leaves) →
      e'.eval bound = e.eval bound := by
  simp only [eval_eq]
  refine ⟨ValueSet.listed_eq_unknown_iff, fun members h a => ValueSet.mem_of_listed h,
    fun a ha => ValueSet.mayContain_listed ha, fun part hpart => ?_, fun e' lost same => ?_⟩
  · obtain ⟨hunknown, hleaves⟩ := hpart.kept
    exact ⟨ValueSet.isSuperset_listed hunknown hleaves,
      ValueSet.listed_eq_unknown hunknown hleaves⟩
  · rw [lost]
    exact ValueSet.listed_congr same

/-- Two numbers, of which one comes three times. -/
def repeated : SetExpr Nat :=
  .meetAll [.insert 1 (.singleton 2), .meet (.ofList [2, 1, 2]) .top]

theorem eval_by_leaves_repeated :
    (SetExpr.singleton 2).PartOf repeated ∧
    repeated.eval 2 ≠ .unknown ∧ (∀ members, repeated.eval 2 = .values members → 1 ∈ members) ∧
    (repeated.eval 2).mayContain 2 ∧ repeated.eval 2 = (SetExpr.ofList [1, 2]).eval 2 ∧
    repeated.eval 1 = .unknown ∧ (SetExpr.singleton 2).eval 1 ≠ .unknown ∧
    (SetExpr.singleton 2).eval 0 = .unknown ∧ repeated.eval 0 = .unknown := by
  have hpart : (SetExpr.singleton 2).PartOf repeated :=
    .tail (.single (.insert 1 _)) (.item List.mem_cons_self)
  obtain ⟨hunknown, hmembers, hmay, -, hsame⟩ := eval_by_leaves 2 repeated
  obtain ⟨hunknown', -⟩ := eval_by_leaves 1 repeated
  obtain ⟨hsingle, -⟩ := eval_by_leaves 1 (SetExpr.singleton 2)
  obtain ⟨hnone, -⟩ := eval_by_leaves 0 (SetExpr.singleton 2)
  obtain ⟨-, -, -, hparts, -⟩ := eval_by_leaves 0 repeated
  have hlost : (SetExpr.singleton 2).eval 0 = .unknown := hnone.2 (.inr (by decide))
  have hleaves (a : Nat) : a ∈ (SetExpr.ofList [1, 2]).leaves ↔ a ∈ repeated.leaves := by
    grind [repeated, leaves, leavesAll]
  exact ⟨hpart, hunknown.not.2 (by decide), fun members h => (hmembers members h 1).2 (by decide),
    hmay 2 (by decide), (hsame (.ofList [1, 2]) rfl hleaves).symm, hunknown'.2 (.inr (by decide)),
    hsingle.not.2 (by decide), hlost, (hparts _ hpart).2 hlost⟩

end SetExpr

end FlowFacts
