import FlowFacts.Proofs.Lattice.Composed
import FlowFacts.Proofs.Lattice.Rank
import Mathlib.Data.ENat.Basic

/-! Facts do not fall forever.

A fact falls to another of its class that lies below it and is not the same (`Falls`). May-sets
have ranks up to their bound, so they can only fall so often. The must-set of all values can
fall to a set of any size, which can only lose members after that; and a map can fall under one
key after another, so it needs its keys to come from a finite list. With that, falling comes to
an end in every lattice that the constructions put together (`Confined.wellFounded`), although
there need be no number that bounds the falls. -/
namespace FlowFacts

/-- The second fact falls to the first. -/
def SemiLattice.Falls {α : Type} (L : SemiLattice α) (K : α → Prop) (b a : α) : Prop :=
  K b ∧ K a ∧ L.meet b a = b ∧ b ≠ a

/-! ### One construction -/

theorem Lattice.RankedOn.wellFounded {α : Type} {L : Lattice α} {K : α → Prop} {rank : α → Nat}
    {highest : Nat} (h : L.RankedOn K rank highest) :
    WellFounded (L.toSemiLattice.Falls K) := by
  refine Subrelation.wf (fun {b a} hfalls => ?_) (measure fun a => highest - rank a).wf
  obtain ⟨hb, ha, hbelow, hne⟩ := hfalls
  have hgrows := h.grows a b ha hb hbelow hne
  have hlimit := h.limit b hb
  exact Nat.sub_lt_sub_left (hgrows.trans_le hlimit) hgrows

/-- Only the unknown constant lies below another. -/
theorem Constant.wellFounded {α : Type} [DecidableEq α] :
    WellFounded ((lattice : SemiLattice (Constant α)).Falls fun _ => True) := by
  refine Subrelation.wf (fun {b a} hfalls => ?_) (measure fun a => if a.isUnknown then 0 else 1).wf
  obtain ⟨-, -, hbelow, hne⟩ := hfalls
  cases b with
  | value b => cases a <;> simp_all [lattice, meet]
  | unknown =>
    cases a with
    | value a => exact Nat.zero_lt_one
    | unknown => exact absurd rfl hne

namespace DefiniteSet
variable {α : Type} [Ord α] [Std.TransOrd α] [Std.LawfulEqOrd α]

omit [Std.TransOrd α] [Std.LawfulEqOrd α] in
/-- The number of values that hold. -/
def count : DefiniteSet α → ℕ∞
  | .everything => ⊤
  | .values members => members.size

/-- All values can become any number of them, and then fewer. -/
theorem wellFounded :
    WellFounded ((lattice : Lattice (DefiniteSet α)).toSemiLattice.Falls fun _ => True) := by
  refine Subrelation.wf (fun {b a} hfalls => ?_) (InvImage.wf count wellFounded_lt)
  obtain ⟨-, -, hbelow, hne⟩ := hfalls
  change count b < count a
  rcases (below_iff b a).1 hbelow with rfl | ⟨hb, hsub⟩
  · cases b with
    | everything => exact absurd rfl hne
    | values members => exact ENat.natCast_lt_top _
  · cases b with
    | everything => exact absurd rfl hb
    | values fewer =>
      cases a with
      | everything => exact ENat.natCast_lt_top _
      | values members =>
        refine Nat.cast_lt.2 (ValueSet.size_lt_of_subset (fun x hx => ?_) fun heq => hne ?_)
        · exact Std.ExtTreeSet.contains_iff_mem.1 (hsub x (Std.ExtTreeSet.contains_iff_mem.2 hx))
        · rw [heq]

end DefiniteSet

/-- An absent fact falls to any, and a present one as it would alone. -/
theorem Optional.wellFounded {α : Type} [DecidableEq α] {L : SemiLattice α} {K : α → Prop}
    (h : WellFounded (L.Falls K)) :
    WellFounded ((lattice L).toSemiLattice.Falls fun o => ∀ a ∈ o, K a) := by
  have hsome (a : α) : Acc ((lattice L).toSemiLattice.Falls fun o => ∀ a ∈ o, K a) (some a) := by
    induction a using h.induction with
    | h a ih =>
      refine ⟨_, fun o hfalls => ?_⟩
      obtain ⟨hb, ha, hbelow, hne⟩ := hfalls
      cases o with
      | none => cases hbelow
      | some b =>
        exact ih b ⟨hb b rfl, ha a rfl, Option.some.inj hbelow, fun heq => hne (congrArg some heq)⟩
  refine ⟨fun o => ?_⟩
  cases o with
  | some a => exact hsome a
  | none =>
    refine ⟨_, fun o hfalls => ?_⟩
    cases o with
    | none => exact absurd rfl hfalls.2.2.2
    | some b => exact hsome b

/-- A pair falls when its first part does, or its second while the first stays. -/
theorem SemiLattice.wellFounded_product {α β : Type} {L : SemiLattice α} {M : SemiLattice β}
    {K : α → Prop} {K' : β → Prop} (hL : WellFounded (L.Falls K)) (hM : WellFounded (M.Falls K')) :
    WellFounded ((L.product M).Falls (BothParts K K')) := by
  refine Subrelation.wf (fun {b a} hfalls => ?_) (hL.prod_lex hM)
  obtain ⟨hb, ha, hbelow, hne⟩ := hfalls
  obtain ⟨hfirst, hsecond⟩ := Prod.mk.inj hbelow
  rw [Prod.lex_def]
  by_cases hsame : b.1 = a.1
  · exact .inr ⟨hsame, hb.2, ha.2, hsecond, fun heq => hne (Prod.ext hsame heq)⟩
  · exact .inl ⟨hb.1, ha.1, hfirst, hsame⟩

namespace MapFact
variable {κ ν : Type}

/-- What falls under some of finitely many keys, and rises under none, comes to an end. -/
theorem wellFounded_keys {falls : ν → ν → Prop} (h : WellFounded falls) (keys : List κ) :
    WellFounded fun f g : κ → ν =>
      (∀ key ∈ keys, f key = g key ∨ falls (f key) (g key)) ∧ ∃ key ∈ keys, f key ≠ g key := by
  induction keys with
  | nil => exact ⟨fun g => ⟨g, fun f hf => by simp at hf⟩⟩
  | cons key keys ih =>
    refine Subrelation.wf (fun {f g} hfalls => ?_)
      (InvImage.wf (fun f => (f key, f)) (h.prod_lex ih))
    obtain ⟨hall, other, hother, hne⟩ := hfalls
    obtain ⟨hkey, hkeys⟩ := List.forall_mem_cons.1 hall
    rw [InvImage, Prod.lex_def]
    rcases hkey with hsame | hfalls
    · have hlater : other ∈ keys :=
        (List.mem_cons.1 hother).resolve_left fun heq => hne (heq ▸ hsame)
      exact .inr ⟨hsame, hkeys, other, hlater, hne⟩
    · exact .inl hfalls

variable [Ord κ] [Std.TransOrd κ] [Std.LawfulEqOrd κ] [DecidableEq κ] {L : Lattice ν}
  {K : ν → Prop}

/-- A map that stores no top has no other keys when it gives every other key the top. -/
theorem WellFormed.over_iff {m : MapFact κ ν} (h : m.WellFormed L K) (keys : List κ) :
    m.Over L keys ↔ m.keys ⊆ keys := by
  constructor
  · intro hover key hkey
    by_contra hother
    obtain ⟨value, hvalue⟩ := Option.isSome_iff_exists.1
      (Std.ExtTreeMap.mem_iff_isSome_getElem?.1 (Std.ExtTreeMap.mem_keys.1 hkey))
    have htop := hover key hother
    rw [getOrTop, get?, hvalue, Option.getD_some] at htop
    exact (h key value hvalue).2 htop
  · intro hsub key hother
    have hnone : m.entries[key]? = none :=
      Std.ExtTreeMap.getElem?_eq_none fun hkey => hother (hsub (Std.ExtTreeMap.mem_keys.2 hkey))
    rw [getOrTop, get?, hnone, Option.getD_none]

theorem lawful_over (tells : ∀ v, L.isTop v ↔ v = L.top) (hL : L.LawfulOn K) (keys : List κ) :
    (lattice L : Lattice (MapFact κ ν)).LawfulOn fun m => m.WellFormed L K ∧ m.keys ⊆ keys := by
  refine (lawful tells hL).restrict (fun _ => And.left) ?top_mem fun a b ha hb => ?meet_mem
  case top_mem =>
    have hempty : (empty : MapFact κ ν).WellFormed L K := wellFormed_empty
    exact ⟨hempty, (hempty.over_iff keys).1 (over_empty keys)⟩
  case meet_mem =>
    have hmeet := ha.1.meet tells hL hb.1
    have hover := Over.meet tells hL ha.1 hb.1 ((ha.1.over_iff keys).2 ha.2)
      ((hb.1.over_iff keys).2 hb.2)
    exact ⟨hmeet, (hmeet.over_iff keys).1 hover⟩

/-- A map falls under some key. -/
theorem wellFounded (tells : ∀ v, L.isTop v ↔ v = L.top) (hL : L.LawfulOn K)
    (h : WellFounded (L.toSemiLattice.Falls K)) (keys : List κ) :
    WellFounded ((lattice L : Lattice (MapFact κ ν)).toSemiLattice.Falls
      fun m => m.WellFormed L K ∧ m.keys ⊆ keys) := by
  refine Subrelation.wf (fun {b a} hfalls => ?_)
    (InvImage.wf (getOrTop L) (wellFounded_keys h keys))
  obtain ⟨⟨hb, hbkeys⟩, ⟨ha, hakeys⟩, hbelow, hne⟩ := hfalls
  have hkey := (below_iff tells hL hb ha).1 hbelow
  refine ⟨fun key _ => ?_, ?_⟩
  · by_cases hsame : b.getOrTop L key = a.getOrTop L key
    · exact .inl hsame
    · exact .inr ⟨hb.getOrTop_mem hL.top_mem key, ha.getOrTop_mem hL.top_mem key, hkey key, hsame⟩
  · by_contra hall
    refine hne (hb.ext ha fun key => ?_)
    by_cases hin : key ∈ keys
    · exact by_contra fun hdiffers => hall ⟨key, hin, hdiffers⟩
    · rw [(hb.over_iff keys).2 hbkeys key hin, (ha.over_iff keys).2 hakeys key hin]

end MapFact

/-! ### Any nesting -/

/-- Put together from the constructions, beside the facts that are well formed in it and whose
maps, at every level, have keys of a finite list only. -/
inductive Confined : (hasTop : Bool) → {α : Type} → Shape.Ops hasTop α → (α → Prop) → Prop
  | constant {α : Type} [DecidableEq α] :
    Confined false (Constant.lattice : SemiLattice (Constant α)) fun _ => True
  | withoutTop {α : Type} {L : Lattice α} {K : α → Prop} (h : Confined true L K) :
    Confined false L.toSemiLattice K
  | maybe {hasTop : Bool} {α : Type} [DecidableEq α] {L : Shape.Ops hasTop α} {K : α → Prop}
    (h : Confined hasTop L K) : Confined true (Optional.lattice L.semi) fun o => ∀ a ∈ o, K a
  | union {α : Type} [Ord α] [Std.TransOrd α] [Std.LawfulEqOrd α] (bound : Nat) :
    Confined true (ValueSet.lattice bound : Lattice (ValueSet α)) (ValueSet.WithinBound bound)
  | inter {α : Type} [Ord α] [Std.TransOrd α] [Std.LawfulEqOrd α] :
    Confined true (DefiniteSet.lattice : Lattice (DefiniteSet α)) fun _ => True
  | product {hasTop : Bool} {α β : Type} [DecidableEq α] [DecidableEq β] {L : Shape.Ops hasTop α}
    {M : Shape.Ops hasTop β} {K : α → Prop} {K' : β → Prop} (hL : Confined hasTop L K)
    (hM : Confined hasTop M K') : Confined hasTop (L.product M) (BothParts K K')
  | map {κ ν : Type} [Ord κ] [DecidableEq κ] [Std.TransOrd κ] [Std.LawfulEqOrd κ] {L : Lattice ν}
    {K : ν → Prop} (keys : List κ) (h : Confined true L K) :
    Confined true (MapFact.lattice L : Lattice (MapFact κ ν)) fun m =>
      m.WellFormed L K ∧ m.keys ⊆ keys

namespace Confined
variable {hasTop : Bool} {α : Type} {L : Shape.Ops hasTop α} {K : α → Prop}

theorem lawful (h : Confined hasTop L K) : L.LawfulOn K := by
  induction h with
  | constant => exact Constant.lawful
  | withoutTop _ ih => exact ih.1.semi
  | maybe _ ih => exact ⟨Optional.lawful ih.semi, Lattice.isTop_ofMeet _ _⟩
  | union bound => exact ⟨ValueSet.lawful bound, Lattice.isTop_ofMeet _ _⟩
  | inter => exact ⟨DefiniteSet.lawful, Lattice.isTop_ofMeet _ _⟩
  | @product hasTop _ _ _ _ _ _ _ _ _ _ ihL ihM =>
    cases hasTop with
    | true => exact ⟨ihL.1.product ihM.1, Lattice.isTop_ofMeet _ _⟩
    | false => exact SemiLattice.LawfulOn.product ihL ihM
  | map keys _ ih => exact ⟨MapFact.lawful_over ih.2 ih.1 keys, MapFact.isTop_lattice⟩

theorem wellFounded (h : Confined hasTop L K) : WellFounded (L.semi.Falls K) := by
  induction h with
  | constant => exact Constant.wellFounded
  | withoutTop _ ih => exact ih
  | maybe _ ih => exact Optional.wellFounded ih
  | union bound => exact (ValueSet.ranked bound).wellFounded
  | inter => exact DefiniteSet.wellFounded
  | @product hasTop _ _ _ _ _ _ _ _ _ _ ihL ihM =>
    cases hasTop <;> exact SemiLattice.wellFounded_product ihL ihM
  | map keys h ih => exact MapFact.wellFounded h.lawful.2 h.lawful.1 ih keys

end Confined

/-- In a lattice of any nesting, no sequence of well-formed facts with keys of finite lists has
each strictly below the one before. -/
theorem no_endless_fall {α : Type} [DecidableEq α] {L : Lattice α} {K : α → Prop}
    (h : Confined true L K) : ¬ ∃ facts : Nat → α, ∀ n, K (facts n) ∧
      L.lessOrEqual (facts (n + 1)) (facts n) ∧ facts (n + 1) ≠ facts n := by
  intro hendless
  obtain ⟨facts, hfacts⟩ := hendless
  refine (wellFounded_iff_isEmpty_descending_chain.1 h.wellFounded).false ⟨facts, fun n => ?_⟩
  obtain ⟨hmem, hbelow, hne⟩ := hfacts n
  exact ⟨(hfacts (n + 1)).1, hmem, (L.lessOrEqual_iff ..).1 hbelow, hne⟩

/-- A map over two keys that gains one and falls under the other, in a lattice without endless
falls. -/
theorem no_endless_fall_pairs : ∃ K : MapFact Nat (Option (Constant Nat) × ValueSet Nat) → Prop,
    let a := MapFact.ofList pairs [(0, some (.value 7), .ofList 2 [1])]
    let b := MapFact.ofList pairs [(0, some (.value 7), .ofList 2 [1, 3]), (1, none, .unknown)]
    Confined true (MapFact.lattice pairs) K ∧ K a ∧ K b ∧
      ((MapFact.lattice pairs).lessOrEqual b a ∧ b ≠ a) ∧
        ¬ ∃ facts : Nat → MapFact Nat (Option (Constant Nat) × ValueSet Nat), ∀ n, K (facts n) ∧
          (MapFact.lattice pairs).lessOrEqual (facts (n + 1)) (facts n) ∧
            facts (n + 1) ≠ facts n := by
  have hpairs : Confined true pairs _ := .product (.maybe .constant) (.union 2)
  have hmap : Confined true (MapFact.lattice pairs : Lattice (MapFact Nat _)) _ :=
    .map [0, 1] hpairs
  have hset (items : List Nat) : (ValueSet.ofList 2 items).WithinBound 2 :=
    ValueSet.withinBound_bounded 2 _
  refine ⟨_, hmap, ⟨?_, by decide +kernel⟩, ⟨?_, by decide +kernel⟩, by decide +kernel,
    no_endless_fall hmap⟩
  · exact MapFact.wellFormed_ofList hpairs.lawful.2
      (List.forall_mem_singleton.2 ⟨fun _ _ => trivial, hset [1]⟩)
  · exact MapFact.wellFormed_ofList hpairs.lawful.2 (List.forall_mem_cons.2
      ⟨⟨fun _ _ => trivial, hset [1, 3]⟩,
        List.forall_mem_singleton.2 ⟨fun _ _ => trivial, trivial⟩⟩)

end FlowFacts
