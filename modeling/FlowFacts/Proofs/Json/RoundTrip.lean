import FlowFacts.Json.Codec
import FlowFacts.Proofs.Sequence
import Mathlib.Data.List.Basic

/-! Values that survive being written.

A value survives when it can be written and what is written reads back as the value
(`Survives`). A number does within 64 bits, as an item and as a key, since its decimal is read
digit for digit (`indexKey?_repr`). A list, a set, a map or a pair survives when what it holds
does; an optional value, when what it holds does and is not written as null, which is kept for
the absent one (`survives_some_iff`). A map cannot be written when one of its keys has no text
(`encode_map_error`). -/
namespace FlowFacts.Json
variable {α β κ : Type}

/-- What is written of the value reads back as the value. -/
def Survives [Encode α] [Decode α] (a : α) : Prop := ∃ j, encode a = .ok j ∧ decode j = some a

/-- The same of a key of a map. -/
def KeySurvives [EncodeKey κ] [DecodeKey κ] (k : κ) : Prop :=
  ∃ s, encodeKey k = .ok s ∧ decodeKey s = some k

theorem not_survives_of_error [Encode α] [Decode α] {a : α} {e : WriteError}
    (h : encode a = .error e) : ¬ Survives a := by
  intro hsurvives
  obtain ⟨j, hwritten, -⟩ := hsurvives
  cases h.symm.trans hwritten

/-- No two values that survive are written alike. -/
theorem Survives.eq_of_encode [Encode α] [Decode α] {a b : α} (ha : Survives a) (hb : Survives b)
    (same : encode a = encode b) : a = b := by
  obtain ⟨j, hwrite, hread⟩ := ha
  obtain ⟨j', hwrite', hread'⟩ := hb
  cases hwrite.symm.trans (same.trans hwrite')
  exact Option.some.inj (hread.symm.trans hread')

/-- There is one reason not to be written, so a value is not where some part is not. -/
theorem write_fails {part : Except WriteError α} {rest : α → Except WriteError β}
    (h : ∀ a, part = .ok a → rest a = .error .keyNotText) : part >>= rest = .error .keyNotText := by
  cases part with
  | error e =>
    cases e
    rfl
  | ok a => exact h a rfl

/-! ### Numbers -/

theorem index?_nat {n : Nat} (h : n < indexBound) : (nat n).index? = some n := by
  have hbound : (n : Int) < indexBound := Int.ofNat_lt.2 h
  simp [nat, index?, hbound]

theorem survives_nat {n : Nat} (h : n < indexBound) : Survives n :=
  ⟨nat n, rfl, index?_nat h⟩

/-- It has 64 bits, one of them for the sign. -/
def IsInt64 (n : Int) : Prop := -0x8000000000000000 ≤ n ∧ n < 0x8000000000000000

instance (n : Int) : Decidable (IsInt64 n) :=
  inferInstanceAs (Decidable (-0x8000000000000000 ≤ n ∧ n < 0x8000000000000000))

theorem survives_int {n : Int} (h : IsInt64 n) : Survives n := ⟨.int n, rfl, if_pos h⟩

/-- No decimal but that of zero begins with a zero. -/
theorem eq_zero_of_head?_toDigits (n : Nat) (h : (Nat.toDigits 10 n).head? = some '0') : n = 0 := by
  induction n using Nat.strongRecOn with
  | ind n ih =>
    rw [Nat.toDigits_eq_if (by decide)] at h
    by_cases hsmall : n < 10
    · have hdigit : ∀ m < 10, Nat.digitChar m = '0' → m = 0 := by decide
      rw [if_pos hsmall] at h
      exact hdigit n hsmall (Option.some.inj h)
    · rw [if_neg hsmall, List.head?_append_of_ne_nil _ Nat.toDigits_ne_nil] at h
      have hzero := ih (n / 10) (by omega) h
      omega

theorem indexKey?_repr {n : Nat} (h : n < indexBound) : indexKey? n.repr = some n := by
  have hdigits : ∀ c ∈ Nat.toDigits 10 n, c.isDigit :=
    fun c hc => Nat.isDigit_of_mem_toDigits (by decide) (by decide) hc
  have hvalue : Nat.ofDigitChars 10 (Nat.toDigits 10 n) 0 = n := Nat.ofDigitChars_ten_toDigits
  have hzero := eq_zero_of_head?_toDigits n
  rw [indexKey?, Nat.toList_repr]
  cases hdecimal : Nat.toDigits 10 n with
  | nil => exact absurd hdecimal Nat.toDigits_ne_nil
  | cons c rest =>
    rw [hdecimal] at hdigits hvalue hzero
    have hlead : (c != '0' || rest.isEmpty) = true := by
      by_cases hc : c = '0'
      · have hn : n = 0 := hzero (congrArg some hc)
        rw [hn, Nat.toDigits_zero] at hdecimal
        simp [(List.cons.inj hdecimal).2.symm]
      · simp [hc]
    have hall : (c :: rest).all Char.isDigit = true := List.all_eq_true.2 hdigits
    simp only [hall, hlead, hvalue, h, Bool.and_self, if_true]

theorem keySurvives_nat {n : Nat} (h : n < indexBound) : KeySurvives n :=
  ⟨n.repr, rfl, indexKey?_repr h⟩

/-! ### Lists -/

/-- Items that are read one by one as they were written make the list again. -/
theorem mapM_read {ε : Type} {write : α → Except ε β} {read : β → Option α} {items : List α}
    (h : ∀ a ∈ items, ∃ b, write a = .ok b ∧ read b = some a) :
    ∃ written, items.mapM write = .ok written ∧ written.mapM read = some items := by
  induction items with
  | nil => exact ⟨[], rfl, rfl⟩
  | cons a items ih =>
    obtain ⟨b, hwrite, hread⟩ := h a List.mem_cons_self
    obtain ⟨written, hwrites, hreads⟩ := ih fun c hc => h c (List.mem_cons_of_mem a hc)
    refine ⟨b :: written, ?_, ?_⟩
    · simp [List.mapM_cons, hwrite, hwrites, bind, Except.bind, pure, Except.pure]
    · simp [List.mapM_cons, hread, hreads]

/-- One item that cannot be written is enough. -/
theorem mapM_fails {ε : Type} {write : α → Except ε β} {items : List α} {a : α} (mem : a ∈ items)
    (h : ∃ e, write a = .error e) : ∃ e, items.mapM write = .error e := by
  obtain ⟨e, he⟩ := h
  cases hall : items.mapM write with
  | error e => exact ⟨e, rfl⟩
  | ok written =>
    obtain ⟨b, hb⟩ := exists_mapM_iff.1 ⟨written, hall⟩ a mem
    cases he.symm.trans hb

theorem list?_map {write : α → Json} {read : Json → Option α} {items : List α}
    (h : ∀ a ∈ items, read (write a) = some a) :
    (Json.array (items.map write)).list? read = some items := by
  show (items.map write).mapM read = some items
  induction items with
  | nil => rfl
  | cons a items ih =>
    have hrest := ih fun b hb => h b (List.mem_cons_of_mem a hb)
    simp [List.mapM_cons, h a List.mem_cons_self, hrest]

section Containers
variable [Encode α] [Decode α] [Encode β] [Decode β]

theorem survives_list {items : List α} (h : ∀ a ∈ items, Survives a) : Survives items := by
  obtain ⟨written, hwrites, hreads⟩ := mapM_read h
  exact ⟨.array written, by simp only [encode, hwrites, Except.map], hreads⟩

variable [Ord α] [Std.TransOrd α] [Std.LawfulEqOrd α] [DecidableEq α]

omit [Encode α] [Decode α] in
theorem ofList_toList (s : Std.ExtTreeSet α) : .ofList s.toList = s := by
  refine Std.ExtTreeSet.ext_mem fun a => ?_
  rw [Std.ExtTreeSet.mem_ofList, Std.ExtTreeSet.contains_toList, Std.ExtTreeSet.contains_iff_mem]

theorem survives_set {s : Std.ExtTreeSet α} (h : ∀ a ∈ s, Survives a) : Survives s := by
  obtain ⟨j, hwrite, hread⟩ := survives_list fun a ha => h a (Std.ExtTreeSet.mem_toList.1 ha)
  refine ⟨j, hwrite, ?_⟩
  simp only [decode] at hread ⊢
  rw [hread]
  exact congrArg some (ofList_toList s)

/-! ### Maps -/

variable [Ord κ] [Std.TransOrd κ] [Std.LawfulEqOrd κ] [DecidableEq κ] [EncodeKey κ] [DecodeKey κ]

omit [Encode β] [Decode β] [EncodeKey κ] [DecodeKey κ] in
theorem map_ofList_toList (m : Std.ExtTreeMap κ β) : .ofList m.toList = m := by
  refine Std.ExtTreeMap.ext_getElem? fun k => ?_
  cases hk : m[k]? with
  | none =>
    refine Std.ExtTreeMap.getElem?_ofList_of_contains_eq_false ?_
    rw [Std.ExtTreeMap.map_fst_toList_eq_keys, Std.ExtTreeMap.contains_keys,
      Std.ExtTreeMap.contains_eq_isSome_getElem?, hk, Option.isSome_none]
  | some b =>
    exact Std.ExtTreeMap.getElem?_ofList_of_mem Std.ReflOrd.compare_self
      Std.ExtTreeMap.distinct_keys_toList
      (Std.ExtTreeMap.mem_toList_iff_getElem?_eq_some.2 hk)

theorem survives_map {m : Std.ExtTreeMap κ β}
    (h : ∀ (k : κ) (b : β), m[k]? = some b → KeySurvives k ∧ Survives b) : Survives m := by
  have hentries : ∀ entry ∈ m.toList, ∃ written,
      encodeEntry entry = .ok written ∧ decodeEntry written = some entry := by
    intro entry hentry
    obtain ⟨⟨s, hkey, hkey'⟩, j, hvalue, hvalue'⟩ :=
      h entry.1 entry.2 (Std.ExtTreeMap.mem_toList_iff_getElem?_eq_some.1 hentry)
    refine ⟨(s, j), ?_, ?_⟩
    · simp [encodeEntry, hkey, hvalue, bind, Except.bind, pure, Except.pure]
    · simp [decodeEntry, hkey', hvalue']
  obtain ⟨written, hwrites, hreads⟩ := mapM_read hentries
  refine ⟨.object written, by simp only [encode, hwrites, Except.map], ?_⟩
  simp only [decode, object?, Option.bind_eq_bind, Option.bind_some]
  rw [hreads]
  exact congrArg some (map_ofList_toList m)

omit [Decode β] [DecidableEq κ] [DecodeKey κ] in
/-- A key without a text is enough. -/
theorem encode_map_error {m : Std.ExtTreeMap κ β} {k : κ} (mem : k ∈ m)
    (h : encodeKey k = .error .keyNotText) : encode m = .error .keyNotText := by
  obtain ⟨b, hb⟩ := Option.isSome_iff_exists.1 (Std.ExtTreeMap.mem_iff_isSome_getElem?.1 mem)
  have hentry : encodeEntry (k, b) = .error .keyNotText := by
    simp [encodeEntry, h, bind, Except.bind]
  obtain ⟨⟨⟩, hfails⟩ :=
    mapM_fails (Std.ExtTreeMap.mem_toList_iff_getElem?_eq_some.2 hb) ⟨_, hentry⟩
  simp only [encode, hfails, Except.map]

end Containers

/-! ### Optional values, pairs and cases -/

section Parts
variable [Encode α] [Decode α] [Encode β] [Decode β]

theorem survives_none : Survives (none : Option α) := ⟨.null, rfl, rfl⟩

omit [Encode α] in
theorem decode_eq_some_some {j : Json} {a : α} :
    decode j = some (some a) ↔ j ≠ .null ∧ decode j = some a := by
  cases j <;> simp [decode]

theorem survives_some_iff {a : α} : Survives (some a) ↔ Survives a ∧ encode a ≠ .ok .null := by
  constructor
  · intro h
    obtain ⟨j, hwrite, hread⟩ := h
    obtain ⟨hnull, hread⟩ := decode_eq_some_some.1 hread
    exact ⟨⟨j, hwrite, hread⟩, fun h => hnull (Except.ok.inj (hwrite.symm.trans h))⟩
  · intro h
    obtain ⟨⟨j, hwrite, hread⟩, hnull⟩ := h
    refine ⟨j, hwrite, decode_eq_some_some.2 ⟨fun h => hnull ?_, hread⟩⟩
    rw [hwrite, h]

omit [Encode α] [Encode β] in
theorem decode_pair_eq_some {first second : Json} {p : α × β} :
    decode (.array [first, second]) = some p ↔
      decode first = some p.1 ∧ decode second = some p.2 := by
  obtain ⟨a, b⟩ := p
  cases hfirst : (decode first : Option α) <;> cases hsecond : (decode second : Option β) <;>
    simp [decode, hfirst, hsecond]

theorem survives_pair_iff {p : α × β} : Survives p ↔ Survives p.1 ∧ Survives p.2 := by
  constructor
  · intro h
    obtain ⟨j, hwrite, hread⟩ := h
    obtain ⟨first, hfirst, hrest⟩ := needs_eq_ok.1 hwrite
    obtain ⟨second, hsecond, hj⟩ := needs_eq_ok.1 hrest
    cases hj
    obtain ⟨hfirst', hsecond'⟩ := decode_pair_eq_some.1 hread
    exact ⟨⟨first, hfirst, hfirst'⟩, second, hsecond, hsecond'⟩
  · intro h
    obtain ⟨⟨first, hfirst, hfirst'⟩, second, hsecond, hsecond'⟩ := h
    refine ⟨.array [first, second], ?_, decode_pair_eq_some.2 ⟨hfirst', hsecond'⟩⟩
    exact needs_eq_ok.2 ⟨_, hfirst, needs_eq_ok.2 ⟨_, hsecond, rfl⟩⟩

omit [Decode α] [Decode β] in
theorem encode_pair_ne_null (p : α × β) : encode p ≠ .ok .null := by
  intro h
  obtain ⟨first, -, hrest⟩ := needs_eq_ok.1 h
  obtain ⟨second, -, hj⟩ := needs_eq_ok.1 hrest
  cases hj

/-- A value that is written as a form around its one part survives when the part does. -/
theorem survives_around {f : β → α} {g : Json → Json} {b : β} (injective : Function.Injective f)
    (writes : encode (f b) = (encode b).map g) (reads : ∀ j, decode (g j) = (decode j).map f) :
    Survives (f b) ↔ Survives b := by
  constructor
  · intro h
    obtain ⟨j, hwrite, hread⟩ := h
    obtain ⟨inner, hinner, rfl⟩ := map_eq_ok.1 (writes.symm.trans hwrite)
    obtain ⟨b', hb', hf⟩ := Option.map_eq_some_iff.1 ((reads inner).symm.trans hread)
    exact ⟨inner, hinner, hb'.trans (congrArg some (injective hf))⟩
  · intro h
    obtain ⟨inner, hinner, hread⟩ := h
    exact ⟨g inner, by rw [writes, hinner, Except.map], by rw [reads, hread, Option.map_some]⟩

end Parts

theorem map_tagged_ne_null (case : String) (e : Except WriteError Json) :
    e.map (tagged case) ≠ .ok .null := by
  intro h
  obtain ⟨j, -, hj⟩ := map_eq_ok.1 h
  cases hj

/-! ### Fields -/

/-- A record is read field by field. -/
theorem read_field {j form : Json} {key : String} {read : Json → Option α} {a : α}
    {rest : α → Option β} {b : β} (field : j.field? key = some form) (reads : read form = some a)
    (h : rest a = some b) : ((j.field? key).bind fun form => (read form).bind rest) = some b := by
  rw [field, Option.bind_some, reads, Option.bind_some, h]

theorem optionalField?_optional {write : α → Json} {read : Json → Option α} {key : String}
    {fields : List (String × Json)} {x : Option α}
    (field : (Json.object fields).field? key = some (optional write x))
    (h : ∀ a, x = some a → write a ≠ .null ∧ read (write a) = some a) :
    (Json.object fields).optionalField? read key = some x := by
  cases x with
  | none => simp only [optionalField?, field, optional]
  | some a =>
    obtain ⟨hnull, hread⟩ := h a rfl
    -- the third case of the match, since what is written is not null
    simp only [optionalField?, field, optional, hread, Option.map_some]

end FlowFacts.Json
