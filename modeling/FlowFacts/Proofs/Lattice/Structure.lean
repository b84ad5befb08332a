import FlowFacts.Proofs.Lattice.Composed

/-! The order that the structure of a fact spells out.

One fact lies below another when their meet is the first. What that comes to is said for each
construction by its own structure: a may-set lies below those that it includes, a must-set below
those that include it, an absent fact above all, pairs lie below part by part and maps key by key.
A construction asks this of the facts that it is made of, and they of theirs; carried through all
levels it makes an order that mentions no meet (`Spelled`), and comparing facts that are well
formed decides that order (`lessOrEqual_by_structure`). -/
namespace FlowFacts

/-! ### One construction -/

namespace ValueSet
variable {α : Type} [Ord α] [Std.TransOrd α] [Std.LawfulEqOrd α] {bound : Nat} {s t : ValueSet α}

/-- A set lies below those that it includes. -/
theorem below_iff (hs : s.WithinBound bound) :
    (lattice bound).Below s t ↔ s.isSuperset t := by
  cases s with
  | unknown => exact iff_of_true rfl rfl
  | values members =>
    cases t with
    | unknown => exact iff_of_false (fun h => by cases h) Bool.false_ne_true
    | values others =>
      show bounded bound (members ∪ others) = values members ↔
        others.toList.all (fun a => members.contains a)
      simp only [List.all_eq_true, Std.ExtTreeSet.mem_toList, Std.ExtTreeSet.contains_iff_mem]
      constructor
      · intro h a ha
        have hunion : members ∪ others = members := by
          unfold bounded at h
          split at h
          · cases h
          · exact values.inj h
        exact hunion ▸ Std.ExtTreeSet.mem_union_iff.2 (.inr ha)
      · intro h
        have hunion : members ∪ others = members :=
          Std.ExtTreeSet.ext_mem fun a => by simpa using h a
        rw [hunion, bounded_of_le hs]

end ValueSet

/-- The second set is that of all values, or both are listed and the first is part of it. -/
def DefiniteSet.PartOf {α : Type} [Ord α] [Std.TransOrd α] (s t : DefiniteSet α) : Prop :=
  t = everything ∨ ∃ members others, s = values members ∧ t = values others ∧
    ∀ a ∈ members, a ∈ others

theorem DefiniteSet.below_iff_partOf {α : Type} [Ord α] [Std.TransOrd α] [Std.LawfulEqOrd α]
    {s t : DefiniteSet α} : lattice.Below s t ↔ s.PartOf t := by
  rw [below_iff]
  unfold PartOf
  cases s <;> cases t <;> simp [contains]

/-- The second fact is absent, or both are present and the first says at least as much. -/
def Optional.Refines {α : Type} (R : α → α → Prop) (a b : Option α) : Prop :=
  b = none ∨ ∃ x y, a = some x ∧ b = some y ∧ R x y

theorem Optional.below_iff {α : Type} [DecidableEq α] {L : SemiLattice α} {a b : Option α} :
    (lattice L).Below a b ↔ Refines (fun x y => L.meet x y = x) a b := by
  unfold Refines
  cases a <;> cases b <;> simp [Lattice.Below, lattice, Lattice.ofMeet, meet]

theorem SemiLattice.below_product_iff {α β : Type} {L : SemiLattice α} {M : SemiLattice β}
    {p q : α × β} : (L.product M).meet p q = p ↔ L.meet p.1 q.1 = p.1 ∧ M.meet p.2 q.2 = p.2 :=
  Prod.ext_iff

theorem Constant.below_iff {α : Type} [DecidableEq α] {a b : Constant α} :
    lattice.meet a b = a ↔ a = unknown ∨ a = b := by
  cases a <;> cases b <;> simp [lattice, meet]

/-! ### Any nesting -/

/-- Put together from the constructions, beside the facts that are well formed in it and the order
that their structure spells out, down to the constants and the members of sets. -/
inductive Spelled : (hasTop : Bool) → {α : Type} → Shape.Ops hasTop α → (α → Prop) →
    (α → α → Prop) → Prop
  | constant {α : Type} [DecidableEq α] :
    Spelled false (Constant.lattice : SemiLattice (Constant α)) (fun _ => True)
      fun a b => a = .unknown ∨ a = b
  | withoutTop {α : Type} {L : Lattice α} {K : α → Prop} {R : α → α → Prop}
    (h : Spelled true L K R) : Spelled false L.toSemiLattice K R
  | maybe {hasTop : Bool} {α : Type} [DecidableEq α] {L : Shape.Ops hasTop α} {K : α → Prop}
    {R : α → α → Prop} (h : Spelled hasTop L K R) :
    Spelled true (Optional.lattice L.semi) (fun o => ∀ a ∈ o, K a) (Optional.Refines R)
  | union {α : Type} [Ord α] [Std.TransOrd α] [Std.LawfulEqOrd α] (bound : Nat) :
    Spelled true (ValueSet.lattice bound : Lattice (ValueSet α)) (ValueSet.WithinBound bound)
      fun s t => s.isSuperset t
  | inter {α : Type} [Ord α] [Std.TransOrd α] [Std.LawfulEqOrd α] :
    Spelled true (DefiniteSet.lattice : Lattice (DefiniteSet α)) (fun _ => True) DefiniteSet.PartOf
  | product {hasTop : Bool} {α β : Type} [DecidableEq α] [DecidableEq β] {L : Shape.Ops hasTop α}
    {M : Shape.Ops hasTop β} {K : α → Prop} {K' : β → Prop} {R : α → α → Prop} {R' : β → β → Prop}
    (hL : Spelled hasTop L K R) (hM : Spelled hasTop M K' R') :
    Spelled hasTop (L.product M) (BothParts K K') fun p q => R p.1 q.1 ∧ R' p.2 q.2
  | map {κ ν : Type} [Ord κ] [DecidableEq κ] [Std.TransOrd κ] [Std.LawfulEqOrd κ] {L : Lattice ν}
    {K : ν → Prop} {R : ν → ν → Prop} (h : Spelled true L K R) :
    Spelled true (MapFact.lattice L : Lattice (MapFact κ ν)) (MapFact.WellFormed L K)
      fun a b => ∀ key, R (a.getOrTop L key) (b.getOrTop L key)

theorem Composed.exists_spelled {hasTop : Bool} {α : Type} {L : Shape.Ops hasTop α}
    {K : α → Prop} (h : Composed hasTop L K) : ∃ R, Spelled hasTop L K R := by
  induction h with
  | constant => exact ⟨_, .constant⟩
  | withoutTop _ ih =>
    obtain ⟨_, h⟩ := ih
    exact ⟨_, .withoutTop h⟩
  | maybe _ ih =>
    obtain ⟨_, h⟩ := ih
    exact ⟨_, .maybe h⟩
  | union bound => exact ⟨_, .union bound⟩
  | inter => exact ⟨_, .inter⟩
  | product _ _ ihL ihM =>
    obtain ⟨_, hL⟩ := ihL
    obtain ⟨_, hM⟩ := ihM
    exact ⟨_, .product hL hM⟩
  | map _ ih =>
    obtain ⟨_, h⟩ := ih
    exact ⟨_, .map h⟩

namespace Spelled
variable {hasTop : Bool} {α : Type} {L : Shape.Ops hasTop α} {K : α → Prop} {R : α → α → Prop}

theorem composed (h : Spelled hasTop L K R) : Composed hasTop L K := by
  induction h with
  | constant => exact .constant
  | withoutTop _ ih => exact .withoutTop ih
  | maybe _ ih => exact .maybe ih
  | union bound => exact .union bound
  | inter => exact .inter
  | product _ _ ihL ihM => exact .product ihL ihM
  | map _ ih => exact .map ih

/-- Well-formed facts meet to the first exactly where the structure says that it lies below. -/
theorem meet_eq_left_iff (h : Spelled hasTop L K R) {a b : α} (ha : K a) (hb : K b) :
    L.semi.meet a b = a ↔ R a b := by
  induction h with
  | constant => exact Constant.below_iff
  | withoutTop _ ih => exact ih ha hb
  | maybe _ ih =>
    refine Optional.below_iff.trans (or_congr_right ?_)
    refine exists₂_congr fun x y => ?_
    refine and_congr_right fun hx => and_congr_right fun hy => ?_
    exact ih (ha x hx) (hb y hy)
  | union bound => exact ValueSet.below_iff ha
  | inter => exact DefiniteSet.below_iff_partOf
  | @product hasTop _ _ _ _ _ _ _ _ _ _ _ _ ihL ihM =>
    cases hasTop <;>
      exact SemiLattice.below_product_iff.trans (and_congr (ihL ha.1 hb.1) (ihM ha.2 hb.2))
  | map h ih =>
    obtain ⟨hL, tells⟩ := h.composed.lawful
    refine (MapFact.below_iff tells hL ha hb).trans (forall_congr' fun key => ?_)
    exact ih (ha.getOrTop_mem hL.top_mem key) (hb.getOrTop_mem hL.top_mem key)

end Spelled

/-- Comparing well-formed facts decides what their structure spells out: in one construction, by
the meets or the comparisons of what it is made of, and in any nesting, through all levels. -/
theorem lessOrEqual_by_structure :
    (∀ {α : Type} [Ord α] [Std.TransOrd α] [Std.LawfulEqOrd α] (bound : Nat) (s t : ValueSet α),
      s.WithinBound bound → t.WithinBound bound →
        ((ValueSet.lattice bound).lessOrEqual s t ↔ s.isSuperset t)) ∧
    (∀ {α : Type} [Ord α] [Std.TransOrd α] [Std.LawfulEqOrd α] (s t : DefiniteSet α),
      DefiniteSet.lattice.lessOrEqual s t ↔ s.PartOf t) ∧
    (∀ {α : Type} [DecidableEq α] (L : SemiLattice α) (a b : Option α),
      (Optional.lattice L).lessOrEqual a b ↔ Optional.Refines (fun x y => L.meet x y = x) a b) ∧
    (∀ {α β : Type} [DecidableEq α] [DecidableEq β] (L : Lattice α) (M : Lattice β) (p q : α × β),
      (L.product M).lessOrEqual p q ↔ L.lessOrEqual p.1 q.1 ∧ M.lessOrEqual p.2 q.2) ∧
    (∀ {κ ν : Type} [Ord κ] [DecidableEq κ] [Std.TransOrd κ] [Std.LawfulEqOrd κ] [DecidableEq ν]
      {L : Lattice ν} {K : ν → Prop}, Composed true L K → ∀ a b : MapFact κ ν,
        a.WellFormed L K → b.WellFormed L K → ((MapFact.lattice L).lessOrEqual a b ↔
          ∀ key, L.lessOrEqual (a.getOrTop L key) (b.getOrTop L key))) ∧
    ∀ {α : Type} [DecidableEq α] {L : Lattice α} {K : α → Prop}, Composed true L K →
      (∃ R, Spelled true L K R) ∧
        ∀ R, Spelled true L K R → ∀ a b, K a → K b → (L.lessOrEqual a b ↔ R a b) := by
  simp only [Lattice.lessOrEqual_iff]
  refine ⟨?union, ?inter, ?maybe, ?product, ?map, ?nesting⟩
  case union => exact fun bound s t hs _ => ValueSet.below_iff hs
  case inter => exact fun s t => DefiniteSet.below_iff_partOf
  case maybe => exact fun L a b => Optional.below_iff
  case product => exact fun L M p q => SemiLattice.below_product_iff
  case map =>
    intro κ ν _ _ _ _ _ L K h a b ha hb
    exact MapFact.below_iff h.lawful.2 h.lawful.1 ha hb
  case nesting =>
    intro α _ L K h
    exact ⟨h.exists_spelled, fun R hR a b ha hb => hR.meet_eq_left_iff ha hb⟩

/-- A map with a lower fact under one key and an entry more, below another, key by key. -/
theorem lessOrEqual_by_structure_pairs :
    let K : Option (Constant Nat) × ValueSet Nat → Prop :=
      BothParts (fun o => ∀ a ∈ o, True) (·.WithinBound 2)
    let low := MapFact.ofList pairs [(0, some (.value 7), .ofList 2 [1, 3]), (1, none, .unknown)]
    let high := MapFact.ofList pairs [(0, some (.value 7), .ofList 2 [1])]
    Composed true pairs K ∧ low.WellFormed pairs K ∧ high.WellFormed pairs K ∧
      (∀ key, pairs.lessOrEqual (low.getOrTop pairs key) (high.getOrTop pairs key)) ∧
        ∃ R, Spelled true (MapFact.lattice pairs) (MapFact.WellFormed pairs K) R ∧
          R low high ∧ ¬ R high low := by
  intro K low high
  obtain ⟨-, -, -, -, hmaps, hnesting⟩ := lessOrEqual_by_structure
  have hpairs : Composed true pairs K := .product (.maybe .constant) (.union 2)
  have hset (items : List Nat) : (ValueSet.ofList 2 items).WithinBound 2 :=
    ValueSet.withinBound_bounded 2 _
  have hlow : low.WellFormed pairs K :=
    MapFact.wellFormed_ofList hpairs.lawful.2 (List.forall_mem_cons.2
      ⟨⟨fun _ _ => trivial, hset [1, 3]⟩,
        List.forall_mem_singleton.2 ⟨fun _ _ => trivial, trivial⟩⟩)
  have hhigh : high.WellFormed pairs K :=
    MapFact.wellFormed_ofList hpairs.lawful.2
      (List.forall_mem_singleton.2 ⟨fun _ _ => trivial, hset [1]⟩)
  have hbelow : (MapFact.lattice pairs).lessOrEqual low high := by decide +kernel
  have hnot : ¬ (MapFact.lattice pairs).lessOrEqual high low := by decide +kernel
  have hmap : Composed true (MapFact.lattice pairs : Lattice (MapFact Nat _)) _ := .map hpairs
  obtain ⟨⟨R, hR⟩, hspelled⟩ := hnesting hmap
  exact ⟨hpairs, hlow, hhigh, (hmaps hpairs low high hlow hhigh).1 hbelow, R, hR,
    (hspelled R hR low high hlow hhigh).1 hbelow,
    fun h => hnot ((hspelled R hR high low hhigh hlow).2 h)⟩

end FlowFacts
