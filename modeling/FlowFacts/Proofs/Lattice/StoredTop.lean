import FlowFacts.Proofs.Lattice.FactForm

/-! Map facts that store the top.

A map fact that the operations of a lattice have produced stores no top (`Produced.wellFormed`),
and is told by what it gives each key. A map fact can also be read from its written form, which
keeps what is stored, and a key with the top stored has what a key without an entry has. So maps
that give every key the same are equal just when they store the top under the same keys
(`eq_iff_agree`). The entries of the first map come into a meet as they are, those of the second
by way of an insertion, which leaves the top out: a stored top therefore stays only on the left,
where the right has no entry (`storesTop_meet`), and meets have their laws exactly where that
makes no difference (`stored_top_decides`). -/
namespace FlowFacts.MapFact
variable {κ ν : Type} [Ord κ] [Std.TransOrd κ] {L : Lattice ν} {K : ν → Prop} {a b m : MapFact κ ν}

/-- The key has an entry, which says no more than none would. -/
def StoresTop (L : Lattice ν) (m : MapFact κ ν) (key : κ) : Prop := m.get? key = some L.top

/-- Put together by the operations of the lattice, from values of a class. -/
inductive Produced (L : Lattice ν) (K : ν → Prop) : MapFact κ ν → Prop
  | top : Produced L K (lattice L).top
  | ofList {entries : List (κ × ν)} (values : ∀ entry ∈ entries, K entry.2) :
      Produced L K (ofList L entries)
  | insert {m : MapFact κ ν} (made : Produced L K m) (key : κ) {value : ν} (hvalue : K value) :
      Produced L K (m.insert L key value)
  | meet {a b : MapFact κ ν} (left : Produced L K a) (right : Produced L K b) :
      Produced L K ((lattice L).meet a b)

theorem wellFormed_iff : m.WellFormed L K ↔ m.MadeOf K ∧ ∀ key, ¬ m.StoresTop L key := by
  constructor
  · intro h
    exact ⟨fun key value hkey => (h key value hkey).1, fun key htop => (h key _ htop).2 rfl⟩
  · intro h key value hkey
    exact ⟨h.1 key value hkey, fun heq => h.2 key (hkey.trans (congrArg some heq))⟩

theorem isSome_get?_only {k key : String} {value : ν} :
    ((only k value).get? key).isSome ↔ key = k := by
  rw [only, get?, Std.ExtTreeMap.getElem?_insert]
  by_cases h : k = key
  · simp [h]
  · simp [h, Ne.symm h]

variable [Std.LawfulEqOrd κ]

/-- Maps are equal when they give every key the same and store the top under the same keys. -/
theorem eq_iff_agree : a = b ↔ (∀ key, a.getOrTop L key = b.getOrTop L key) ∧
    ∀ key, a.StoresTop L key ↔ b.StoresTop L key := by
  constructor
  · rintro rfl
    exact ⟨fun _ => rfl, fun _ => Iff.rfl⟩
  · rintro ⟨agree, tops⟩
    refine ext_get? fun key => ?_
    have hagree := agree key
    have htops := tops key
    unfold getOrTop at hagree
    unfold StoresTop at htops
    cases ha : a.get? key <;> cases hb : b.get? key <;> simp_all

section
variable [DecidableEq κ] (tells : ∀ v, L.isTop v ↔ v = L.top)
include tells

/-- A meet stores the top where the first map does and the second has no entry. -/
theorem storesTop_meet {key : κ} :
    (a.meet L b).StoresTop L key ↔ a.StoresTop L key ∧ b.get? key = none := by
  unfold StoresTop
  rw [get?_meet]
  cases hb : b.get? key with
  | none => simp
  | some value =>
    have hstored (v : ν) : (if L.isTop v then none else some v) ≠ some L.top := by
      split
      · exact (Option.some_ne_none _).symm
      · rename_i htop
        exact fun heq => htop ((tells v).2 (Option.some.inj heq))
    simp [hstored]

variable (hL : L.LawfulOn K)
include hL

theorem Produced.wellFormed (h : Produced L K m) : m.WellFormed L K := by
  induction h with
  | top => exact wellFormed_empty
  | ofList values => exact wellFormed_ofList tells values
  | insert _ key hvalue ih => exact ih.insert tells key hvalue
  | meet _ _ iha ihb => exact iha.meet tells hL ihb

theorem meet_comm_iff (ha : a.MadeOf K) (hb : b.MadeOf K) : a.meet L b = b.meet L a ↔
    ∀ key, (a.StoresTop L key → (b.get? key).isSome) ∧
      (b.StoresTop L key → (a.get? key).isSome) := by
  have hka := getOrTop_mem ha hL.top_mem
  have hkb := getOrTop_mem hb hL.top_mem
  have hsame (key : κ) : (a.meet L b).getOrTop L key = (b.meet L a).getOrTop L key := by
    rw [getOrTop_meet_of_mem tells hL (hka key) (hkb key),
      getOrTop_meet_of_mem tells hL (hkb key) (hka key), hL.meet_comm _ _ (hka key) (hkb key)]
  rw [eq_iff_agree (L := L), and_iff_right hsame]
  refine forall_congr' fun key => ?_
  rw [storesTop_meet tells, storesTop_meet tells]
  unfold StoresTop
  cases a.get? key <;> cases b.get? key <;> simp

theorem meet_self_iff (ha : a.MadeOf K) : a.meet L a = a ↔ ∀ key, ¬ a.StoresTop L key := by
  have hka := getOrTop_mem ha hL.top_mem
  have hsame (key : κ) : (a.meet L a).getOrTop L key = a.getOrTop L key := by
    rw [getOrTop_meet_of_mem tells hL (hka key) (hka key), hL.meet_self _ (hka key)]
  rw [eq_iff_agree (L := L), and_iff_right hsame]
  refine forall_congr' fun key => ?_
  rw [storesTop_meet tells]
  unfold StoresTop
  cases a.get? key <;> simp

end

/-- Maps that the operations have produced store no top; they are equal when they give every key
the same, and meet in either order and with themselves as their values do. Maps with any entries,
as they are read, are equal when they also store the top under the same keys; they meet alike in
either order when neither stores the top under a key that the other has no entry for, and a map is
its own meet with itself when it stores no top. -/
theorem stored_top_decides [DecidableEq κ] (tells : ∀ v, L.isTop v ↔ v = L.top)
    (hL : L.LawfulOn K) :
    (∀ m : MapFact κ ν, Produced L K m → m.MadeOf K ∧ ∀ key, ¬ m.StoresTop L key) ∧
    (∀ a b : MapFact κ ν, Produced L K a → Produced L K b →
      (a = b ↔ ∀ key, a.getOrTop L key = b.getOrTop L key) ∧
        a.meet L b = b.meet L a ∧ a.meet L a = a) ∧
    ∀ a b : MapFact κ ν, a.MadeOf K → b.MadeOf K →
      (a = b ↔ (∀ key, a.getOrTop L key = b.getOrTop L key) ∧
        ∀ key, a.StoresTop L key ↔ b.StoresTop L key) ∧
      (a.meet L b = b.meet L a ↔ ∀ key, (a.StoresTop L key → (b.get? key).isSome) ∧
        (b.StoresTop L key → (a.get? key).isSome)) ∧
      (a.meet L a = a ↔ ∀ key, ¬ a.StoresTop L key) := by
  refine ⟨fun m hm => wellFormed_iff.1 (hm.wellFormed tells hL), fun a b ha hb => ?_,
    fun a b ha hb => ⟨eq_iff_agree, meet_comm_iff tells hL ha hb, meet_self_iff tells hL ha⟩⟩
  have hwa := ha.wellFormed tells hL
  have hwb := hb.wellFormed tells hL
  have hlaws : (lattice L : Lattice (MapFact κ ν)).LawfulOn (WellFormed L K) := lawful tells hL
  exact ⟨⟨fun heq _ => heq ▸ rfl, hwa.ext hwb⟩, hlaws.meet_comm a b hwa hwb, hlaws.meet_self a hwa⟩

/-- Optional integers. -/
def integers : Lattice (Option (Constant Int)) := Optional.lattice Constant.lattice

theorem tells_integers : ∀ v, integers.isTop v ↔ v = integers.top := Lattice.isTop_ofMeet _ _

theorem lawful_integers : integers.LawfulOn fun _ => True :=
  (Optional.lawful Constant.lawful).restrict (fun _ _ _ _ => trivial) trivial
    fun _ _ _ _ => trivial

theorem stored_top_decides_integers : ∃ a b : MapFact String (Option (Constant Int)),
    (∀ v, integers.isTop v ↔ v = integers.top) ∧ integers.LawfulOn (fun _ => True) ∧
      Produced integers (fun _ => True) a ∧ Produced integers (fun _ => True) b ∧
      a.meet integers b = b.meet integers a ∧ a.meet integers a = a ∧
        (only "x" none).meet integers (only "x" none) ≠ only "x" none ∧
        (only "x" none).meet integers (only "x" (some .unknown)) =
          (only "x" (some .unknown)).meet integers (only "x" none) := by
  obtain ⟨-, hproduced, hall⟩ := stored_top_decides (κ := String) tells_integers lawful_integers
  let a : MapFact String (Option (Constant Int)) :=
    ofList integers [("x", some (.value 7)), ("y", none)]
  have ha : Produced integers (fun _ => True) a := .ofList fun _ _ => trivial
  have hb : Produced integers (fun _ => True)
      ((a.meet integers (a.insert integers "z" (some .unknown))).insert integers "x" none) :=
    .insert (.meet ha (.insert ha "z" trivial)) "x" trivial
  obtain ⟨-, hcomm, hself⟩ := hproduced _ _ ha hb
  obtain ⟨-, hcomm', hself'⟩ := hall (only "x" none) (only "x" (some .unknown))
    (fun _ _ _ => trivial) fun _ _ _ => trivial
  refine ⟨_, _, tells_integers, lawful_integers, ha, hb, hcomm, hself,
    fun heq => hself'.1 heq "x" (get?_only "x" none), hcomm'.2 fun key => ⟨?_, ?_⟩⟩
  · intro htop
    exact isSome_get?_only.2 (isSome_get?_only.1 (Option.isSome_of_eq_some htop))
  · intro htop
    cases eq_of_get?_only htop

/-- The top stored under one key, as it is read, gives every key what no entries give, but is
another map: which one a meet with it makes depends on the order, and it is not its own meet with
itself. -/
theorem read_top_told_apart :
    integers.LawfulOn (fun _ => True) ∧
    Json.decode (.object [("entries", .object [("x", .null)])]) =
      some (only "x" (none : Option (Constant Int))) ∧
    Json.decode (.object [("entries", .object [])]) =
      some (empty : MapFact String (Option (Constant Int))) ∧
    (∀ key, (only "x" none).getOrTop integers key = empty.getOrTop integers key) ∧
    only "x" none ≠ (empty : MapFact String (Option (Constant Int))) ∧
    (only "x" none).meet integers empty ≠ empty.meet integers (only "x" none) ∧
    (only "x" none).meet integers (only "x" none) ≠ only "x" none := by
  have hstored : (only "x" none : MapFact String (Option (Constant Int))).StoresTop integers "x" :=
    get?_only "x" none
  have hall (m : MapFact String (Option (Constant Int))) : m.MadeOf fun _ => True :=
    fun _ _ _ => trivial
  refine ⟨lawful_integers, rfl, rfl, fun key => ?agree, fun heq => ?apart, fun heq => ?comm,
    fun heq => ?self⟩
  case agree =>
    rw [getOrTop_empty, getOrTop]
    cases hkey : (only "x" none : MapFact String (Option (Constant Int))).get? key with
    | none => rfl
    | some value => exact (eq_of_get?_only hkey).symm
  case apart => cases (get?_only "x" none).symm.trans (heq ▸ get?_empty "x")
  case comm =>
    have hempty := ((meet_comm_iff tells_integers lawful_integers (hall _) (hall _)).1 heq "x").1
      hstored
    simp at hempty
  case self => exact (meet_self_iff tells_integers lawful_integers (hall _)).1 heq "x" hstored

end FlowFacts.MapFact
