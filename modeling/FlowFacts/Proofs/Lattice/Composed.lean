import FlowFacts.Lattice.Shape
import FlowFacts.Proofs.Lattice.DefiniteSet
import FlowFacts.Proofs.Lattice.MapFact
import FlowFacts.Proofs.Lattice.ValueSet

/-! Every lattice that the constructions put together has the laws.

A lattice is composed when constants, may-sets and must-sets have been put together by
optional facts, pairs and maps, in any nesting and over any types (`Composed`). Beside it
stand the facts that are well formed in it: sets are unknown or within their bound, and maps
store no top, at every level. Each construction keeps the laws of the lattices it is made
of, on the well-formed facts (`Composed.lawful`); so all of them have their order, and the
operations stay among the well-formed facts (`composed_laws`). -/
namespace FlowFacts

/-! ### One construction -/

theorem Constant.lawful {α : Type} [DecidableEq α] :
    (lattice : SemiLattice (Constant α)).LawfulOn fun _ => True := by
  constructor
  case meet_mem => exact fun _ _ _ _ => trivial
  case meet_self =>
    intro a _
    cases a <;> simp [lattice, meet]
  case meet_comm =>
    intro a b _ _
    cases a <;> cases b <;> simp only [lattice, meet]
    grind
  case meet_assoc =>
    intro a b c _ _ _
    cases a <;> cases b <;> cases c <;> simp only [lattice, meet] <;> grind [meet]

theorem Optional.lawful {α : Type} [DecidableEq α] {L : SemiLattice α} {K : α → Prop}
    (h : L.LawfulOn K) : (lattice L).LawfulOn fun o => ∀ a ∈ o, K a := by
  refine .ofSemi ⟨?meet_mem, ?meet_self, ?meet_comm, ?meet_assoc⟩ ?top_mem ?meet_top
  case top_mem => exact fun a ha => absurd ha (Option.not_mem_none a)
  case meet_mem =>
    intro a b ha hb
    cases a <;> cases b <;> simp_all [lattice, Lattice.ofMeet, meet, h.meet_mem]
  case meet_self =>
    intro a ha
    cases a <;> simp_all [lattice, Lattice.ofMeet, meet, h.meet_self]
  case meet_comm =>
    intro a b ha hb
    cases a <;> cases b <;> simp_all [lattice, Lattice.ofMeet, meet, h.meet_comm]
  case meet_assoc =>
    intro a b c ha hb hc
    cases a <;> cases b <;> cases c <;> simp_all [lattice, Lattice.ofMeet, meet, h.meet_assoc]
  case meet_top =>
    intro a _
    cases a <;> rfl

section Product
variable {α β : Type} {K : α → Prop} {K' : β → Prop}

/-- Both parts of a pair are well formed. -/
def BothParts (K : α → Prop) (K' : β → Prop) (p : α × β) : Prop := K p.1 ∧ K' p.2

theorem SemiLattice.LawfulOn.product {L : SemiLattice α} {M : SemiLattice β} (hL : L.LawfulOn K)
    (hM : M.LawfulOn K') : (L.product M).LawfulOn (BothParts K K') where
  meet_mem _ _ ha hb := ⟨hL.meet_mem _ _ ha.1 hb.1, hM.meet_mem _ _ ha.2 hb.2⟩
  meet_self _ ha := Prod.ext (hL.meet_self _ ha.1) (hM.meet_self _ ha.2)
  meet_comm _ _ ha hb := Prod.ext (hL.meet_comm _ _ ha.1 hb.1) (hM.meet_comm _ _ ha.2 hb.2)
  meet_assoc _ _ _ ha hb hc :=
    Prod.ext (hL.meet_assoc _ _ _ ha.1 hb.1 hc.1) (hM.meet_assoc _ _ _ ha.2 hb.2 hc.2)

theorem Lattice.LawfulOn.product [DecidableEq α] [DecidableEq β] {L : Lattice α} {M : Lattice β}
    (hL : L.LawfulOn K) (hM : M.LawfulOn K') : (L.product M).LawfulOn (BothParts K K') :=
  .ofSemi (hL.semi.product hM.semi) ⟨hL.top_mem, hM.top_mem⟩ fun _ ha =>
    Prod.ext (hL.meet_top _ ha.1) (hM.meet_top _ ha.2)

end Product

/-! ### Any nesting -/

/-- Put together from the constructions, beside the facts that are well formed in it. -/
inductive Composed : (hasTop : Bool) → {α : Type} → Shape.Ops hasTop α → (α → Prop) → Prop
  | constant {α : Type} [DecidableEq α] :
    Composed false (Constant.lattice : SemiLattice (Constant α)) fun _ => True
  /-- A lattice whose top is not asked for. -/
  | withoutTop {α : Type} {L : Lattice α} {K : α → Prop} (h : Composed true L K) :
    Composed false L.toSemiLattice K
  | maybe {hasTop : Bool} {α : Type} [DecidableEq α] {L : Shape.Ops hasTop α} {K : α → Prop}
    (h : Composed hasTop L K) : Composed true (Optional.lattice L.semi) fun o => ∀ a ∈ o, K a
  | union {α : Type} [Ord α] [Std.TransOrd α] [Std.LawfulEqOrd α] (bound : Nat) :
    Composed true (ValueSet.lattice bound : Lattice (ValueSet α)) (ValueSet.WithinBound bound)
  | inter {α : Type} [Ord α] [Std.TransOrd α] [Std.LawfulEqOrd α] :
    Composed true (DefiniteSet.lattice : Lattice (DefiniteSet α)) fun _ => True
  | product {hasTop : Bool} {α β : Type} [DecidableEq α] [DecidableEq β] {L : Shape.Ops hasTop α}
    {M : Shape.Ops hasTop β} {K : α → Prop} {K' : β → Prop} (hL : Composed hasTop L K)
    (hM : Composed hasTop M K') : Composed hasTop (L.product M) (BothParts K K')
  | map {κ ν : Type} [Ord κ] [DecidableEq κ] [Std.TransOrd κ] [Std.LawfulEqOrd κ] {L : Lattice ν}
    {K : ν → Prop} (h : Composed true L K) :
    Composed true (MapFact.lattice L : Lattice (MapFact κ ν)) (MapFact.WellFormed L K)

/-- The laws of a lattice, which knows its top, or of a meet alone. -/
def Shape.Ops.LawfulOn : {hasTop : Bool} → {α : Type} → Shape.Ops hasTop α → (α → Prop) → Prop
  | true, _, L, K => Lattice.LawfulOn L K ∧ ∀ a, Lattice.isTop L a ↔ a = Lattice.top L
  | false, _, L, K => SemiLattice.LawfulOn L K

theorem Shape.Ops.LawfulOn.semi {hasTop : Bool} {α : Type} {L : Shape.Ops hasTop α} {K : α → Prop}
    (h : L.LawfulOn K) : L.semi.LawfulOn K := by
  cases hasTop with
  | true => exact h.1.semi
  | false => exact h

theorem Lattice.isTop_ofMeet {α : Type} [DecidableEq α] (meet : α → α → α) (top a : α) :
    (Lattice.ofMeet meet top).isTop a ↔ a = (Lattice.ofMeet meet top).top := decide_eq_true_iff

namespace Composed

theorem lawful {hasTop : Bool} {α : Type} {L : Shape.Ops hasTop α} {K : α → Prop}
    (h : Composed hasTop L K) : L.LawfulOn K := by
  induction h with
  | constant => exact Constant.lawful
  | withoutTop _ ih => exact ih.1.semi
  | maybe _ ih => exact ⟨Optional.lawful ih.semi, Lattice.isTop_ofMeet _ _⟩
  | union bound => exact ⟨ValueSet.lawful bound, Lattice.isTop_ofMeet _ _⟩
  | inter => exact ⟨DefiniteSet.lawful, Lattice.isTop_ofMeet _ _⟩
  | @product hasTop _ _ _ _ _ _ _ _ _ _ ihL ihM =>
    cases hasTop with
    | true => exact ⟨ihL.1.product ihM.1, Lattice.isTop_ofMeet _ _⟩
    | false => exact SemiLattice.LawfulOn.product ihL ihM
  | map _ ih => exact ⟨MapFact.lawful ih.2 ih.1, MapFact.isTop_lattice⟩

end Composed

/-- Every shape is the composition that it describes. -/
theorem Shape.composed {κ : Type} [Ord κ] [DecidableEq κ] [Std.TransOrd κ] [Std.LawfulEqOrd κ] :
    {hasTop : Bool} → (s : Shape hasTop) →
      ∃ K, Composed hasTop (s.ops : Shape.Ops hasTop (s.Fact κ)) K
  | _, .constant => ⟨_, .constant⟩
  | _, .withoutTop s =>
    have ⟨_, h⟩ := Shape.composed s
    ⟨_, .withoutTop h⟩
  | _, .maybe s =>
    have ⟨_, h⟩ := Shape.composed s
    ⟨_, .maybe h⟩
  | _, .union bound => ⟨_, .union bound⟩
  | _, .inter => ⟨_, .inter⟩
  | _, .product s t =>
    have ⟨_, hs⟩ := Shape.composed s
    have ⟨_, ht⟩ := Shape.composed t
    ⟨_, .product hs ht⟩
  | _, .map s =>
    have ⟨_, h⟩ := Shape.composed s
    ⟨_, .map h⟩

/-- Every composed lattice has its laws and its order on the well-formed facts, and sets and
maps are made well formed from what is well formed. Every must-set is. -/
theorem composed_laws :
    (∀ {α : Type} {L : SemiLattice α} {K : α → Prop}, Composed false L K → L.LawfulOn K) ∧
    (∀ {α : Type} [DecidableEq α] {L : Lattice α} {K : α → Prop}, Composed true L K →
      L.LawfulOn K ∧ L.OrderedOn K) ∧
    (∀ {α : Type} [Ord α] [Std.TransOrd α] (bound : Nat),
      (∀ a : α, (ValueSet.singleton bound a).WithinBound bound) ∧
      (∀ items : List α, (ValueSet.ofList bound items).WithinBound bound) ∧
      ∀ (s : ValueSet α) (a : α), s.WithinBound bound → (s.insert bound a).WithinBound bound) ∧
    ∀ {κ ν : Type} [Ord κ] [DecidableEq κ] [Std.TransOrd κ] [Std.LawfulEqOrd κ] {L : Lattice ν}
      {K : ν → Prop}, Composed true L K →
      (∀ (m : MapFact κ ν) (key : κ) (value : ν), m.WellFormed L K → K value →
        (m.insert L key value).WellFormed L K) ∧
      ∀ entries : List (κ × ν), (∀ entry ∈ entries, K entry.2) →
        (MapFact.ofList L entries).WellFormed L K := by
  refine ⟨?semi, ?withTop, ?sets, ?maps⟩
  case semi =>
    intro α L K h
    exact h.lawful
  case withTop =>
    intro α _ L K h
    obtain ⟨hL, tells⟩ := h.lawful
    exact ⟨hL, hL.ordered tells⟩
  case sets =>
    intro α _ _ bound
    exact ⟨fun a => ValueSet.withinBound_bounded bound _,
      fun items => ValueSet.withinBound_bounded bound _,
      fun s a _ => ValueSet.withinBound_insert a s⟩
  case maps =>
    intro κ ν _ _ _ _ L K h
    obtain ⟨-, tells⟩ := h.lawful
    exact ⟨fun m key value hm hvalue => hm.insert tells key hvalue,
      fun entries hentries => MapFact.wellFormed_ofList tells hentries⟩

/-- Pairs of an optional constant and a set of two values at most. -/
def pairs : Lattice (Option (Constant Nat) × ValueSet Nat) :=
  (Optional.lattice Constant.lattice).product (ValueSet.lattice 2)

theorem composed_laws_pairs : ∃ K : MapFact Nat (Option (Constant Nat) × ValueSet Nat) → Prop,
    let a := MapFact.ofList pairs [(0, some (.value 7), .ofList 2 [1]), (1, none, .unknown)]
    let b := MapFact.ofList pairs [(0, some (.value 8), .ofList 2 [2, 3])]
    Composed true (MapFact.lattice pairs) K ∧ K a ∧ K b ∧
      (MapFact.lattice pairs).lessOrEqual ((MapFact.lattice pairs).meetAll [a, b, a]) b ∧
        (MapFact.lattice pairs).meetAll [a, b, a] = (MapFact.lattice pairs).meetAll [b, a] := by
  obtain ⟨-, laws, sets, maps⟩ := composed_laws
  have hpairs : Composed true pairs _ := .product (.maybe .constant) (.union 2)
  have hset (items : List Nat) : (ValueSet.ofList 2 items).WithinBound 2 := (sets 2).2.1 items
  have hmap : Composed true (MapFact.lattice pairs : Lattice (MapFact Nat _)) _ := .map hpairs
  obtain ⟨-, order⟩ := laws hmap
  have ha := (maps hpairs).2 [(0, some (.value 7), .ofList 2 [1]), (1, none, .unknown)]
    (List.forall_mem_cons.2 ⟨⟨fun _ _ => trivial, hset [1]⟩,
      List.forall_mem_singleton.2 ⟨fun _ _ => trivial, trivial⟩⟩)
  have hb := (maps hpairs).2 [(0, some (.value 8), .ofList 2 [2, 3])]
    (List.forall_mem_singleton.2 ⟨fun _ _ => trivial, hset [2, 3]⟩)
  have hall := List.forall_mem_cons.2 ⟨ha, List.forall_mem_cons.2 ⟨hb,
    List.forall_mem_singleton.2 ha⟩⟩
  exact ⟨_, hmap, ha, hb, (order.meetAll _ hall).below _ (by simp),
    order.meetAll_eq _ _ hall (by simp [or_comm])⟩

end FlowFacts
