import FlowFacts.Lattice.Constant
import FlowFacts.Proofs.Json.RoundTrip
import FlowFacts.Proofs.Lattice.Composed
import FlowFacts.Proofs.Sequence

/-! Optional facts, written and read back.

An optional fact is written as the fact inside it, and the absent one as null. So it survives
as long as no fact inside is written as null (`survives_some_iff`). Of the constructions only
the optional facts write null themselves: constants and sets are cases, pairs are arrays, and
maps are objects. A form that is put together from them (`FactForm`) survives when no optional
fact is directly inside another (`FactForm.forall_survives_iff`), and putting an optional fact
over it keeps absent apart from present unless the form is already optional
(`FactForm.survives_maybe`). -/
namespace FlowFacts
open Json

/-! ### One construction -/

section MadeOf
variable {α : Type} (K : α → Prop)

/-- What is known of the constant is in `K`. -/
def Constant.MadeOf (c : Constant α) : Prop := ∀ a ∈ c.value?, K a

/-- The members that are known are in `K`. -/
def ValueSet.MadeOf [Ord α] [Std.TransOrd α] (s : ValueSet α) : Prop :=
  ∀ members ∈ s.values?, ∀ a ∈ members, K a

def DefiniteSet.MadeOf [Ord α] [Std.TransOrd α] (s : DefiniteSet α) : Prop :=
  ∀ members ∈ s.values?, ∀ a ∈ members, K a

/-- Every key that has an entry has it in `K`. -/
def MapFact.MadeOf {κ : Type} [Ord κ] [Std.TransOrd κ] (m : MapFact κ α) : Prop :=
  ∀ k a, m.get? k = some a → K a

end MadeOf

section Construction
variable {α : Type} [Encode α] [Decode α]

namespace Constant

theorem survives {c : Constant α} (h : c.MadeOf Survives) : Survives c := by
  cases c with
  | value a => exact (survives_around (fun _ _ => value.inj) rfl fun _ => rfl).2 (h a rfl)
  | unknown => exact ⟨.text "Unknown", rfl, rfl⟩

omit [Decode α] in
theorem encode_ne_null (c : Constant α) : encode c ≠ .ok .null := by
  cases c with
  | value a => exact map_tagged_ne_null _ _
  | unknown => exact nofun

end Constant

section Set
variable [Ord α] [Std.TransOrd α]

omit [Decode α] in
theorem ValueSet.encode_ne_null (s : ValueSet α) : encode s ≠ .ok .null := by
  cases s with
  | values members => exact map_tagged_ne_null _ _
  | unknown => exact nofun

omit [Decode α] in
theorem DefiniteSet.encode_ne_null (s : DefiniteSet α) : encode s ≠ .ok .null := by
  cases s with
  | everything => exact nofun
  | values members => exact map_tagged_ne_null _ _

variable [Std.LawfulEqOrd α] [DecidableEq α]

theorem ValueSet.survives {s : ValueSet α} (h : s.MadeOf Survives) : Survives s := by
  cases s with
  | values members =>
    have hmembers : Survives members := survives_set (h members rfl)
    exact (survives_around (fun _ _ => values.inj) rfl fun _ => rfl).2 hmembers
  | unknown => exact ⟨.text "Unknown", rfl, rfl⟩

theorem DefiniteSet.survives {s : DefiniteSet α} (h : s.MadeOf Survives) : Survives s := by
  cases s with
  | everything => exact ⟨.text "Universe", rfl, rfl⟩
  | values members =>
    have hmembers : Survives members := survives_set (h members rfl)
    exact (survives_around (fun _ _ => values.inj) rfl fun _ => rfl).2 hmembers

end Set

namespace MapFact

omit [Decode α] in
theorem encode_ne_null (m : MapFact String α) : encode m ≠ .ok .null := by
  intro h
  obtain ⟨j, -, hj⟩ := needs_eq_ok.1 h
  cases hj

theorem survives {m : MapFact String α} (h : m.MadeOf Survives) : Survives m := by
  obtain ⟨j, hwrite, hread⟩ : Survives m.entries :=
    survives_map fun k a ha => ⟨⟨k, rfl, rfl⟩, h k a ha⟩
  exact ⟨.object [("entries", j)], needs_eq_ok.2 ⟨j, hwrite, rfl⟩,
    read_field (by simp [field?]) hread rfl⟩

/-- The map with one entry. -/
def only (k : String) (a : α) : MapFact String α := ⟨(∅ : Std.ExtTreeMap String α).insert k a⟩

omit [Encode α] [Decode α] in
theorem get?_only (k : String) (a : α) : (only k a).get? k = some a := by simp [only, get?]

omit [Encode α] [Decode α] in
theorem eq_of_get?_only {k k' : String} {a b : α} (h : (only k a).get? k' = some b) : a = b := by
  simp only [only, get?, Std.ExtTreeMap.getElem?_insert] at h
  split at h
  · exact Option.some.inj h
  · simp at h

omit [Encode α] [Decode α] in
theorem toList_only (k : String) (a : α) : (only k a).entries.toList = [(k, a)] := by
  have hlength : (only k a).entries.toList.length = 1 := by
    rw [Std.ExtTreeMap.length_toList, only, Std.ExtTreeMap.size_insert]
    simp
  have hmem : (k, a) ∈ (only k a).entries.toList :=
    Std.ExtTreeMap.mem_toList_iff_getElem?_eq_some.2 (get?_only k a)
  obtain ⟨entry, hentry⟩ := List.length_eq_one_iff.1 hlength
  rw [hentry, List.mem_singleton] at hmem
  rw [hentry, hmem]

theorem survives_only {k : String} {a : α} : Survives (only k a) ↔ Survives a := by
  refine survives_around (f := only k) (g := fun j => .object [("entries", .object [(k, j)])])
    ?injective ?writes ?reads
  case injective =>
    intro a b hab
    exact Option.some.inj ((get?_only k a).symm.trans (hab ▸ get?_only k b))
  case writes =>
    simp only [encode, toList_only]
    cases h : encode a <;>
      simp [encodeEntry, encodeKey, h, bind, Except.bind, pure, Except.pure, Except.map]
  case reads =>
    intro j
    cases h : (decode j : Option α) <;>
      simp [decode, field?, object?, decodeEntry, decodeKey, h, only]

end MapFact
end Construction

/-! ### Any nesting -/

/-- Facts put together from the constructions, over values that survive, with the facts that
are made of such values. The form is flat when no optional fact is directly inside another, and
has the null when it is that of an optional fact. -/
inductive FactForm :
    (flat hasNull : Bool) → {α : Type} → [Encode α] → [Decode α] → (α → Prop) → Prop
  | constant {α : Type} [Encode α] [Decode α] {K : α → Prop} (leaves : ∀ a, K a → Survives a) :
    FactForm true false (Constant.MadeOf K)
  | union {α : Type} [Encode α] [Decode α] [Ord α] [Std.TransOrd α] [Std.LawfulEqOrd α]
    [DecidableEq α] {K : α → Prop} (leaves : ∀ a, K a → Survives a) :
    FactForm true false (ValueSet.MadeOf K)
  | inter {α : Type} [Encode α] [Decode α] [Ord α] [Std.TransOrd α] [Std.LawfulEqOrd α]
    [DecidableEq α] {K : α → Prop} (leaves : ∀ a, K a → Survives a) :
    FactForm true false (DefiniteSet.MadeOf K)
  | product {flat flat' hasNull hasNull' : Bool} {α β : Type} [Encode α] [Decode α] [Encode β]
    [Decode β] {K : α → Prop} {K' : β → Prop} (h : FactForm flat hasNull K)
    (h' : FactForm flat' hasNull' K') : FactForm (flat && flat') false (BothParts K K')
  | map {flat hasNull : Bool} {α : Type} [Encode α] [Decode α] {K : α → Prop}
    (h : FactForm flat hasNull K) :
    FactForm flat false (MapFact.MadeOf K : MapFact String α → Prop)
  | maybe {flat hasNull : Bool} {α : Type} [Encode α] [Decode α] {K : α → Prop}
    (h : FactForm flat hasNull K) :
    FactForm (flat && !hasNull) true fun o : Option α => ∀ a ∈ o, K a

namespace FactForm
variable {flat hasNull : Bool} {α : Type} [Encode α] [Decode α] {K : α → Prop}

theorem exists_fact (h : FactForm flat hasNull K) : ∃ a, K a := by
  have absent {β : Type} {P : β → Prop} : ∀ b ∈ (none : Option β), P b :=
    fun b hb => absurd hb (Option.not_mem_none b)
  induction h with
  | constant => exact ⟨.unknown, absent⟩
  | union => exact ⟨.unknown, absent⟩
  | inter => exact ⟨.everything, absent⟩
  | product _ _ ih ih' =>
    obtain ⟨a, ha⟩ := ih
    obtain ⟨b, hb⟩ := ih'
    exact ⟨(a, b), ha, hb⟩
  | map => exact ⟨.empty, by simp [MapFact.MadeOf, MapFact.empty, MapFact.get?]⟩
  | maybe => exact ⟨none, absent⟩

/-- Only optional facts are written as null, and one of them is. -/
theorem written_null_iff (h : FactForm flat hasNull K) :
    (∃ a, K a ∧ encode a = .ok .null) ↔ hasNull = true := by
  cases h with
  | constant => simp [Constant.encode_ne_null]
  | union => simp [ValueSet.encode_ne_null]
  | inter => simp [DefiniteSet.encode_ne_null]
  | product => simp [encode_pair_ne_null]
  | map => simp [MapFact.encode_ne_null]
  | maybe => exact ⟨fun _ => rfl, fun _ => ⟨none, nofun, rfl⟩⟩

/-- An optional fact survives when the fact inside does and is not written as null. -/
theorem forall_survives_option_iff (h : FactForm flat hasNull K) :
    (∀ o : Option α, (∀ a ∈ o, K a) → Survives o) ↔
      (∀ a, K a → Survives a) ∧ hasNull = false := by
  rw [← Bool.not_eq_true, ← h.written_null_iff]
  constructor
  · intro hall
    have hsome (a : α) (ha : K a) : Survives a ∧ encode a ≠ .ok .null :=
      survives_some_iff.1 (hall (some a) fun _ hb => Option.some.inj hb ▸ ha)
    exact ⟨fun a ha => (hsome a ha).1, fun ⟨a, ha, hnull⟩ => (hsome a ha).2 hnull⟩
  · intro h o ho
    obtain ⟨hall, hnull⟩ := h
    cases o with
    | none => exact survives_none
    | some a => exact survives_some_iff.2 ⟨hall a (ho a rfl), fun h => hnull ⟨a, ho a rfl, h⟩⟩

theorem forall_survives_iff (h : FactForm flat hasNull K) :
    (∀ a, K a → Survives a) ↔ flat = true := by
  induction h with
  | constant leaves => simpa using fun _ h => Constant.survives fun a ha => leaves a (h a ha)
  | union leaves =>
    simpa using fun _ h => ValueSet.survives fun s hs a ha => leaves a (h s hs a ha)
  | inter leaves =>
    simpa using fun _ h => DefiniteSet.survives fun s hs a ha => leaves a (h s hs a ha)
  | product h h' ih ih' =>
    obtain ⟨a₀, ha₀⟩ := h.exists_fact
    obtain ⟨b₀, hb₀⟩ := h'.exists_fact
    rw [Bool.and_eq_true, ← ih, ← ih']
    constructor
    · intro hall
      exact ⟨fun a ha => (survives_pair_iff.1 (hall (a, b₀) ⟨ha, hb₀⟩)).1,
        fun b hb => (survives_pair_iff.1 (hall (a₀, b) ⟨ha₀, hb⟩)).2⟩
    · intro hall p hp
      exact survives_pair_iff.2 ⟨hall.1 p.1 hp.1, hall.2 p.2 hp.2⟩
  | map _ ih =>
    rw [← ih]
    constructor
    · intro hall a ha
      refine MapFact.survives_only.1 (hall (.only "" a) fun k b hb => ?_)
      exact MapFact.eq_of_get?_only hb ▸ ha
    · intro hall m hm
      exact MapFact.survives fun k a ha => hall a (hm k a ha)
  | maybe h ih => rw [h.forall_survives_option_iff, ih, Bool.and_eq_true, Bool.not_eq_true']

/-- An optional fact over a form that survives is itself told apart from the others, written and
read back, unless the form is that of an optional fact: a present fact is lost just when it is
written as null. -/
theorem survives_maybe (h : FactForm flat hasNull K) :
    ((∀ a, K a → Survives a) ↔ flat = true) ∧
    (flat = true →
      (∀ o : Option α, (∀ a ∈ o, K a) → (Survives o ↔ ∀ a ∈ o, encode a ≠ .ok .null)) ∧
      ((∀ o : Option α, (∀ a ∈ o, K a) → Survives o) ↔ hasNull = false) ∧
      ((∀ o o' : Option α, (∀ a ∈ o, K a) → (∀ a ∈ o', K a) → encode o = encode o' → o = o') ↔
        hasNull = false)) := by
  refine ⟨h.forall_survives_iff, fun hflat => ?_⟩
  have hall := h.forall_survives_iff.2 hflat
  have hoption := h.forall_survives_option_iff
  refine ⟨fun o ho => ?one, ?all, ?alike⟩
  case one =>
    cases o with
    | none => simp [survives_none]
    | some a => simp [survives_some_iff, hall a (ho a rfl)]
  case all => rw [hoption, and_iff_right hall]
  case alike =>
    constructor
    · intro alike
      rw [← Bool.not_eq_true, ← h.written_null_iff]
      intro hnull
      obtain ⟨a, ha, hwrite⟩ := hnull
      cases alike (some a) none (fun _ hb => Option.some.inj hb ▸ ha) nofun hwrite
    · intro hnull o o' ho ho' same
      have hsurvives := hoption.2 ⟨hall, hnull⟩
      exact (hsurvives o ho).eq_of_encode (hsurvives o' ho') same

/-- A map with a constant under a name, beside a must-set. -/
def bindings : MapFact String (Option (Constant Int)) × DefiniteSet String :=
  (.only "x" (some (.value 7)), .ofList ["x"])

theorem survives_maybe_bindings : ∃ K, FactForm true false K ∧ K bindings ∧
    Survives (some bindings) ∧
      ∀ o : Option (MapFact String (Option (Constant Int)) × DefiniteSet String),
        (∀ a ∈ o, K a) → encode o = encode (some bindings) → o = some bindings := by
  obtain ⟨K, hform, hfact⟩ : ∃ K, FactForm true false K ∧ K bindings := by
    refine ⟨_, .product (.map (.maybe (.constant fun _ => survives_int)))
      (.inter fun s (_ : True) => ⟨.text s, rfl, rfl⟩), fun k o ho c hc n hn => ?_,
      fun _ _ _ _ => trivial⟩
    cases MapFact.eq_of_get?_only ho
    cases hc
    cases hn
    decide
  obtain ⟨-, hsurvives⟩ := hform.survives_maybe
  obtain ⟨-, hall, halike⟩ := hsurvives rfl
  have hsome : ∀ a ∈ some bindings, K a := fun _ ha => Option.some.inj ha ▸ hfact
  exact ⟨K, hform, hfact, hall.2 rfl _ hsome, fun o ho same => halike.2 rfl o _ ho hsome same⟩

end FactForm

/-- An optional constant survives, but in another optional fact the absent constant is not told
apart from the absent fact: both are written as null, and null reads as the latter. -/
theorem present_absent_lost :
    (∀ o : Option (Constant Int), (∀ c ∈ o, c.MadeOf IsInt64) → Survives o) ∧
    (some none : Option (Option (Constant Int))) ≠ none ∧
    encode (some none : Option (Option (Constant Int))) = .ok .null ∧
    encode (none : Option (Option (Constant Int))) = .ok .null ∧
    ¬ Survives (some none : Option (Option (Constant Int))) := by
  have hform : FactForm true true fun o : Option (Constant Int) => ∀ c ∈ o, c.MadeOf IsInt64 :=
    .maybe (.constant fun _ => survives_int)
  exact ⟨hform.forall_survives_iff.2 rfl, nofun, rfl, rfl,
    fun h => (survives_some_iff.1 h).2 rfl⟩

end FlowFacts
