import FlowFacts.Lattice.ValueSet
import FlowFacts.Proofs.Lattice.Laws
import Mathlib.Data.Set.Card

/-! May-sets, by the values they stand for.

A may-set covers the values that can arise when it may contain each of them
(`Covers`), and it is exact for them when it lists no other, and is unknown only where
there are more than its bound (`Exact`). The operations keep both, so an exact set that
covers lists precisely the values that can arise (`Exact.mem_iff`), or there are too many
of them (`Exact.lt_encard`).

A meet may be taken in any order. A set is its own meet with itself, and with the top, when it is
within the bound (`meet_self_iff`, `meet_top_iff`), so the lattice has its laws on these sets, which
are all that the operations make. -/
namespace FlowFacts.ValueSet
variable {α : Type} [Ord α] {bound : Nat}

/-! ### Sets within the bound -/

/-- A listed set has no more members than the bound. -/
def WithinBound (bound : Nat) : ValueSet α → Prop
  | .values members => members.size ≤ bound
  | .unknown => True

theorem withinBound_bounded (bound : Nat) (members : Std.ExtTreeSet α) :
    (bounded bound members).WithinBound bound := by
  unfold bounded
  split
  · trivial
  · rename_i hsmall
    exact Nat.le_of_not_lt hsmall

theorem bounded_of_le {members : Std.ExtTreeSet α} (h : members.size ≤ bound) :
    bounded bound members = values members := if_neg (Nat.not_lt.2 h)

theorem bounded_eq_values_iff {members : Std.ExtTreeSet α} :
    bounded bound members = values members ↔ (values members).WithinBound bound := by
  refine ⟨fun h => ?_, bounded_of_le⟩
  have hwithin := withinBound_bounded bound members
  rwa [h] at hwithin

variable [Std.TransOrd α] {s t : ValueSet α} {arise : Set α} {a : α}

theorem withinBound_insert (a : α) (s : ValueSet α) : (s.insert bound a).WithinBound bound := by
  cases s with
  | values members => exact withinBound_bounded bound _
  | unknown => trivial

theorem withinBound_meet (s t : ValueSet α) : (s.meet bound t).WithinBound bound := by
  cases s with
  | unknown => trivial
  | values s =>
    cases t with
    | unknown => trivial
    | values t => exact withinBound_bounded bound _

/-- The set may contain every value that can arise. -/
def Covers (s : ValueSet α) (arise : Set α) : Prop := ∀ a ∈ arise, s.mayContain a

/-- Only values that can arise are listed, and what is unknown has too many of them. -/
def Exact (bound : Nat) (s : ValueSet α) (arise : Set α) : Prop :=
  match s with
  | .values members => members.size ≤ bound ∧ ∀ a ∈ members, a ∈ arise
  | .unknown => ∃ items : List α, items.Nodup ∧ bound < items.length ∧ ∀ a ∈ items, a ∈ arise

/-! ### What the operations may contain -/

theorem mayContain_bounded {members : Std.ExtTreeSet α} (h : a ∈ members) :
    (bounded bound members).mayContain a := by
  unfold bounded
  split
  · rfl
  · exact Std.ExtTreeSet.contains_iff_mem.2 h

theorem mayContain_singleton (bound : Nat) (a : α) : (singleton bound a).mayContain a :=
  mayContain_bounded (by simp)

theorem mayContain_insert {b : α} (h : compare b a = .eq ∨ s.mayContain a) :
    (s.insert bound b).mayContain a := by
  cases s with
  | unknown => rfl
  | values s =>
    refine mayContain_bounded (Std.ExtTreeSet.mem_insert.2 ?_)
    simpa only [mayContain, Std.ExtTreeSet.contains_iff_mem] using h

theorem mayContain_meet (h : s.mayContain a ∨ t.mayContain a) : (s.meet bound t).mayContain a := by
  cases s with
  | unknown => rfl
  | values s =>
    cases t with
    | unknown => rfl
    | values t =>
      refine mayContain_bounded (Std.ExtTreeSet.mem_union_iff.2 ?_)
      simpa only [mayContain, Std.ExtTreeSet.contains_iff_mem] using h

/-! ### Exactness -/

theorem Exact.mono {more : Set α} (h : s.Exact bound arise) (sub : arise ⊆ more) :
    s.Exact bound more := by
  cases s with
  | values members => exact ⟨h.1, fun a ha => sub (h.2 a ha)⟩
  | unknown =>
    obtain ⟨items, hnodup, hlength, hall⟩ := h
    exact ⟨items, hnodup, hlength, fun a ha => sub (hall a ha)⟩

theorem nodup_toList [Std.LawfulEqOrd α] (members : Std.ExtTreeSet α) :
    members.toList.Nodup := by
  refine members.distinct_toList.imp fun hne heq => hne ?_
  exact heq ▸ Std.ReflOrd.compare_self

theorem card_toList [Std.LawfulEqOrd α] [DecidableEq α] (members : Std.ExtTreeSet α) :
    members.toList.toFinset.card = members.size := by
  rw [List.toFinset_card_of_nodup (nodup_toList members), Std.ExtTreeSet.length_toList]

theorem exact_bounded [Std.LawfulEqOrd α] {members : Std.ExtTreeSet α}
    (h : ∀ a ∈ members, a ∈ arise) : (bounded bound members).Exact bound arise := by
  unfold bounded
  split
  · rename_i hlarge
    exact ⟨members.toList, nodup_toList members, by rwa [Std.ExtTreeSet.length_toList],
      fun a ha => h a (Std.ExtTreeSet.mem_toList.1 ha)⟩
  · rename_i hsmall
    exact ⟨Nat.le_of_not_lt hsmall, h⟩

theorem exact_top : (values ∅ : ValueSet α).Exact bound arise :=
  ⟨by simp, fun a ha => absurd ha Std.ExtTreeSet.not_mem_empty⟩

theorem exact_singleton [Std.LawfulEqOrd α] (h : a ∈ arise) :
    (singleton bound a).Exact bound arise :=
  exact_bounded fun b hb => by
    have : a = b := by simpa using hb
    exact this ▸ h

theorem Exact.insert [Std.LawfulEqOrd α] (hs : s.Exact bound arise) (h : a ∈ arise) :
    (s.insert bound a).Exact bound arise := by
  cases s with
  | unknown => exact hs
  | values s =>
    refine exact_bounded fun b hb => ?_
    rcases Std.ExtTreeSet.mem_insert.1 hb with hb | hb
    · exact Std.LawfulEqOrd.eq_of_compare hb ▸ h
    · exact hs.2 b hb

theorem exact_meet [Std.LawfulEqOrd α] (hs : s.Exact bound arise) (ht : t.Exact bound arise) :
    (s.meet bound t).Exact bound arise := by
  cases s with
  | unknown => exact hs
  | values s =>
    cases t with
    | unknown => exact ht
    | values t =>
      refine exact_bounded fun a ha => ?_
      rcases Std.ExtTreeSet.mem_union_iff.1 ha with ha | ha
      · exact hs.2 a ha
      · exact ht.2 a ha

/-! ### Exact sets that cover -/

theorem Exact.mem_iff {members : Std.ExtTreeSet α} (h : (values members).Exact bound arise)
    (covers : (values members).Covers arise) : a ∈ members ↔ a ∈ arise :=
  ⟨h.2 a, fun ha => Std.ExtTreeSet.contains_iff_mem.1 (covers a ha)⟩

theorem Exact.encard_le [Std.LawfulEqOrd α] {members : Std.ExtTreeSet α}
    (h : (values members).Exact bound arise) (covers : (values members).Covers arise) :
    arise.encard ≤ bound := by
  classical
  have heq : arise = (members.toList.toFinset : Set α) :=
    Set.ext fun a => by simp [← h.mem_iff covers]
  rw [heq, Set.encard_coe_eq_coe_finsetCard, Nat.cast_le]
  calc members.toList.toFinset.card ≤ members.toList.length := List.toFinset_card_le _
    _ = members.size := Std.ExtTreeSet.length_toList
    _ ≤ bound := h.1

theorem Exact.lt_encard (h : (unknown : ValueSet α).Exact bound arise) :
    (bound : ℕ∞) < arise.encard := by
  classical
  obtain ⟨items, hnodup, hlength, hall⟩ := h
  have hsub : (items.toFinset : Set α) ⊆ arise := fun a ha => hall a (by simpa using ha)
  refine lt_of_lt_of_le ?_ (Set.encard_le_encard hsub)
  rw [Set.encard_coe_eq_coe_finsetCard, List.toFinset_card_of_nodup hnodup]
  exact_mod_cast hlength

theorem Exact.unknown_iff [Std.LawfulEqOrd α] (h : s.Exact bound arise) (covers : s.Covers arise) :
    s = unknown ↔ (bound : ℕ∞) < arise.encard := by
  cases s with
  | unknown => exact iff_of_true rfl h.lt_encard
  | values members =>
    refine iff_of_false (fun heq => ?_) (not_lt.2 (h.encard_le covers))
    cases heq

/-! ### The laws -/

/-- What was too large before more is added is too large afterwards. -/
theorem meet_bounded (bound : Nat) (members more : Std.ExtTreeSet α) :
    (values members).meet bound (bounded bound more) = bounded bound (members ∪ more) := by
  unfold bounded
  split
  · rename_i hlarge
    have : more.size ≤ (members ∪ more).size := Std.ExtTreeSet.size_right_le_size_union
    rw [if_pos (by omega)]
    rfl
  · rfl

/-- What was too large before one more value is too large with it. -/
theorem insert_bounded (bound : Nat) (a : α) (members : Std.ExtTreeSet α) :
    (bounded bound members).insert bound a = bounded bound (members.insert a) := by
  unfold bounded
  split
  · rename_i hlarge
    have : members.size ≤ (members.insert a).size := Std.ExtTreeSet.size_le_size_insert
    rw [if_pos (by omega)]
    rfl
  · rfl

theorem bounded_union_of_lt {members : Std.ExtTreeSet α} (h : bound < members.size)
    (more : Std.ExtTreeSet α) : bounded bound (members ∪ more) = unknown := by
  have : members.size ≤ (members ∪ more).size := Std.ExtTreeSet.size_left_le_size_union
  exact if_pos (by omega)

/-- It makes no difference to a meet whether the sets have collapsed before. -/
theorem bounded_meet_bounded (bound : Nat) (members more : Std.ExtTreeSet α) :
    (bounded bound members).meet bound (bounded bound more) = bounded bound (members ∪ more) := by
  by_cases hsmall : members.size ≤ bound
  · rw [bounded_of_le hsmall, meet_bounded]
  · have hlarge : bound < members.size := Nat.lt_of_not_le hsmall
    rw [bounded_union_of_lt hlarge, bounded, if_pos hlarge]
    rfl

/-- Nothing is known of what a set above the bound makes with another. -/
theorem meet_of_not_withinBound (h : ¬ s.WithinBound bound) (t : ValueSet α) :
    s.meet bound t = unknown := by
  cases s with
  | unknown => rfl
  | values members =>
    cases t with
    | unknown => rfl
    | values more => exact bounded_union_of_lt (Nat.lt_of_not_le h) more

variable [Std.LawfulEqOrd α]

theorem meet_comm (bound : Nat) (s t : ValueSet α) : s.meet bound t = t.meet bound s := by
  cases s <;> cases t <;> try rfl
  exact congrArg (bounded bound) (Std.ExtTreeSet.ext_mem fun a => by simp [or_comm])

theorem meet_assoc (bound : Nat) (s t u : ValueSet α) :
    (s.meet bound t).meet bound u = s.meet bound (t.meet bound u) := by
  cases s <;> cases t <;> cases u <;> try rfl
  case values.values.values s t u =>
    change (bounded bound (s ∪ t)).meet bound (values u) =
      (values s).meet bound (bounded bound (t ∪ u))
    rw [meet_comm, meet_bounded, meet_bounded]
    refine congrArg (bounded bound) (Std.ExtTreeSet.ext_mem fun a => ?_)
    simp only [Std.ExtTreeSet.mem_union_iff]
    tauto
  case values.values.unknown s t =>
    exact meet_comm bound _ _

theorem meet_self_iff : s.meet bound s = s ↔ s.WithinBound bound := by
  cases s with
  | unknown => simp [meet, WithinBound]
  | values members =>
    have hsame : members ∪ members = members := Std.ExtTreeSet.ext_mem fun a => by simp
    rw [← bounded_eq_values_iff, meet, hsame]

theorem meet_top_iff : s.meet bound (values ∅) = s ↔ s.WithinBound bound := by
  cases s with
  | unknown => simp [meet, WithinBound]
  | values members =>
    have hsame : members ∪ ∅ = members := Std.ExtTreeSet.ext_mem fun a => by simp
    rw [← bounded_eq_values_iff, meet, hsame]

theorem lawful (bound : Nat) :
    (lattice bound : Lattice (ValueSet α)).LawfulOn (WithinBound bound) where
  top_mem := by simp [lattice, Lattice.ofMeet, WithinBound]
  meet_mem s t _ _ := withinBound_meet s t
  meet_self _ hs := meet_self_iff.2 hs
  meet_comm s t _ _ := meet_comm bound s t
  meet_assoc s t u _ _ _ := meet_assoc bound s t u
  meet_top _ hs := meet_top_iff.2 hs

end FlowFacts.ValueSet
