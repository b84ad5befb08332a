import FlowFacts.Proofs.Lattice.MapFact
import FlowFacts.Proofs.Lattice.ValueSet
import Mathlib.Algebra.Order.BigOperators.Group.List
import Mathlib.Data.Nat.Find

/-! Ranks: numbers that grow as facts fall.

Where the facts of a class have ranks up to some number, no fact of the class can fall more
often than that (`Lattice.RankedOn`). A lattice in which no chain of falls from the top is
longer than its height has such ranks (`HeightOn.ranked`). A may-set has its size as rank,
and the unknown one more than the bound; a map over given keys has the ranks of what it
gives them, added up. -/
namespace FlowFacts

/-- Whenever a fact of the class falls its rank grows, up to a highest. -/
structure Lattice.RankedOn {α : Type} (L : Lattice α) (K : α → Prop) (rank : α → Nat)
    (highest : Nat) : Prop where
  grows : ∀ a b, K a → K b → L.Below b a → b ≠ a → rank a < rank b
  limit : ∀ a, K a → rank a ≤ highest

/-! ### Heights -/

/-- Facts of the class can fall so often one after another, from the top down to the fact. -/
inductive Lattice.Descends {α : Type} (L : Lattice α) (K : α → Prop) : Nat → α → Prop
  | top : Descends L K 0 L.top
  | fall {n : Nat} {a b : α} (descends : Descends L K n a) (mem : K b) (below : L.Below b a)
      (ne : b ≠ a) : Descends L K (n + 1) b

/-- No chain of facts of the class that falls from the top has more steps than the height. -/
def Lattice.HeightOn {α : Type} (L : Lattice α) (K : α → Prop) (height : Nat) : Prop :=
  ∀ n a, L.Descends K n a → n ≤ height

/-- The steps of the longest chain down to a fact are a rank. -/
theorem Lattice.HeightOn.ranked {α : Type} {L : Lattice α} {K : α → Prop} {height : Nat}
    (h : L.HeightOn K height) (hL : L.LawfulOn K) : ∃ rank, L.RankedOn K rank height := by
  classical
  have hlongest {a : α} (ha : K a) :
      L.Descends K (Nat.findGreatest (fun n => L.Descends K n a) height) a := by
    by_cases htop : a = L.top
    · subst htop
      exact Nat.findGreatest_spec (P := fun n => L.Descends K n L.top) (Nat.zero_le height) .top
    · have hone : L.Descends K 1 a := .fall .top ha (hL.below_top ha) htop
      exact Nat.findGreatest_spec (P := fun n => L.Descends K n a) (h 1 a hone) hone
  refine ⟨fun a => Nat.findGreatest (fun n => L.Descends K n a) height, ?_, ?_⟩
  · intro a b ha hb hbelow hne
    have hmore := (hlongest ha).fall hb hbelow hne
    exact Nat.le_findGreatest (h _ b hmore) hmore
  · exact fun a _ => Nat.findGreatest_le height

/-! ### May-sets -/

namespace ValueSet
variable {α : Type} [Ord α] [Std.TransOrd α] [Std.LawfulEqOrd α]

/-- A set with more members than another, and all of them, is larger. -/
theorem size_lt_of_subset {s t : Std.ExtTreeSet α} (sub : ∀ a ∈ s, a ∈ t) (hne : t ≠ s) :
    s.size < t.size := by
  classical
  rw [← card_toList, ← card_toList]
  refine Finset.card_lt_card (Finset.ssubset_iff_subset_ne.2 ⟨?_, ?_⟩)
  · intro a ha
    simp only [List.mem_toFinset, Std.ExtTreeSet.mem_toList] at ha ⊢
    exact sub a ha
  · intro heq
    refine hne (Std.ExtTreeSet.ext_mem fun a => ?_)
    have := Finset.ext_iff.1 heq a
    simpa only [List.mem_toFinset, Std.ExtTreeSet.mem_toList] using this.symm

omit [Std.TransOrd α] [Std.LawfulEqOrd α] in
def rank (bound : Nat) : ValueSet α → Nat
  | .values members => members.size
  | .unknown => bound + 1

theorem ranked (bound : Nat) : (lattice bound : Lattice (ValueSet α)).RankedOn
    (WithinBound bound) (rank bound) (bound + 1) := by
  constructor
  case grows =>
    intro a b ha hb hbelow hne
    cases b with
    | unknown =>
      cases a with
      | unknown => exact absurd rfl hne
      | values s => exact Nat.lt_succ_of_le ha
    | values t =>
      cases a with
      | unknown => cases hbelow
      | values s =>
        have hunion : t ∪ s = t := by
          change bounded bound (t ∪ s) = values t at hbelow
          unfold bounded at hbelow
          split at hbelow
          · cases hbelow
          · exact ValueSet.values.inj hbelow
        refine size_lt_of_subset (fun x hx => ?_) fun heq => hne (congrArg values heq)
        rw [← hunion]
        exact Std.ExtTreeSet.mem_union_iff.2 (.inr hx)
  case limit =>
    intro a ha
    cases a with
    | unknown => exact le_rfl
    | values s => exact Nat.le_succ_of_le ha

end ValueSet

/-! ### Maps -/

namespace MapFact
variable {κ ν : Type} [Ord κ] [Std.TransOrd κ] {L : Lattice ν} {K : ν → Prop} {r : ν → Nat}
  {highest : Nat}

/-- Every key but the given ones has the top. -/
def Over (L : Lattice ν) (keys : List κ) (m : MapFact κ ν) : Prop :=
  ∀ key, key ∉ keys → m.getOrTop L key = L.top

theorem over_empty (keys : List κ) : (empty : MapFact κ ν).Over L keys := fun key _ =>
  getOrTop_empty key

/-- The ranks of what a map gives the keys, added up. -/
def rank (L : Lattice ν) (r : ν → Nat) (keys : List κ) (m : MapFact κ ν) : Nat :=
  (keys.map fun key => r (m.getOrTop L key)).sum

variable [Std.LawfulEqOrd κ] [DecidableEq κ]

theorem Over.insert (only_top : ∀ v, L.isTop v → v = L.top) {keys : List κ} {m : MapFact κ ν}
    (h : m.Over L keys) {key : κ} (hkey : key ∈ keys) (value : ν) :
    (m.insert L key value).Over L keys := by
  intro other hother
  have hne : key ≠ other := by
    rintro rfl
    exact hother hkey
  rw [getOrTop_insert only_top, if_neg hne]
  exact h other hother

theorem Over.meet (tells : ∀ v, L.isTop v ↔ v = L.top) (hL : L.LawfulOn K) {keys : List κ}
    {a b : MapFact κ ν} (hka : a.WellFormed L K) (hkb : b.WellFormed L K) (ha : a.Over L keys)
    (hb : b.Over L keys) : (a.meet L b).Over L keys := by
  intro key hkey
  rw [hka.getOrTop_meet tells hL hkb, ha key hkey, hb key hkey, hL.meet_self _ hL.top_mem]

theorem ranked (tells : ∀ v, L.isTop v ↔ v = L.top) (hL : L.LawfulOn K)
    (h : L.RankedOn K r highest) (keys : List κ) :
    (lattice L : Lattice (MapFact κ ν)).RankedOn (fun m => m.WellFormed L K ∧ m.Over L keys)
      (rank L r keys) (keys.length * highest) := by
  have hmem {m : MapFact κ ν} (hm : m.WellFormed L K) (key : κ) : K (m.getOrTop L key) :=
    hm.getOrTop_mem hL.top_mem key
  constructor
  case grows =>
    intro a b ha hb hbelow hne
    rw [below_iff tells hL hb.1 ha.1] at hbelow
    have hgrows (key : κ) (hkey : b.getOrTop L key ≠ a.getOrTop L key) :
        r (a.getOrTop L key) < r (b.getOrTop L key) :=
      h.grows _ _ (hmem ha.1 key) (hmem hb.1 key) (hbelow key) hkey
    obtain ⟨key, hkey⟩ : ∃ key, b.getOrTop L key ≠ a.getOrTop L key := by
      by_contra hall
      exact hne (hb.1.ext ha.1 fun key => by_contra fun hkey => hall ⟨key, hkey⟩)
    refine List.sum_lt_sum _ _ (fun other _ => ?_) ⟨key, ?_, hgrows key hkey⟩
    · by_cases hsame : b.getOrTop L other = a.getOrTop L other
      · rw [hsame]
      · exact (hgrows other hsame).le
    · by_contra hkeys
      exact hkey ((hb.2 key hkeys).trans (ha.2 key hkeys).symm)
  case limit =>
    intro a ha
    have := List.sum_le_card_nsmul (keys.map fun key => r (a.getOrTop L key)) highest
      fun n hn => by
        obtain ⟨key, -, rfl⟩ := List.mem_map.1 hn
        exact h.limit _ (hmem ha.1 key)
    simpa [rank] using this

end MapFact

end FlowFacts
