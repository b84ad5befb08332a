import FlowFacts.Lattice.MapFact
import FlowFacts.Proofs.Lattice.Laws
import Mathlib.Data.List.Nodup

/-! Map facts, by what they say of each key.

An operation is known by what the map gives for a key afterwards. An insertion changes one
key; a meet gives each key the meet of what both maps have for it, or what one of them
has when the other has nothing (`getOrTop_meet`).

Maps that store no top are equal when they give every key the same (`WellFormed.ext`), and
the operations make no others. On them the lattice has its laws when that of the values has
them, and it is ordered key by key (`below_iff`). -/
namespace FlowFacts.MapFact
variable {κ ν : Type} [Ord κ] [Std.TransOrd κ] {L : Lattice ν}

@[simp]
theorem get?_empty (key : κ) : (empty : MapFact κ ν).get? key = none :=
  Std.ExtTreeMap.getElem?_empty

@[simp]
theorem getOrTop_empty (key : κ) : (empty : MapFact κ ν).getOrTop L key = L.top := by
  simp [getOrTop]

/-- What a map gives a key is stored, or it is the top. -/
theorem getOrTop_mem {K : ν → Prop} {m : MapFact κ ν}
    (stored : ∀ key value, m.get? key = some value → K value) (top_mem : K L.top) (key : κ) :
    K (m.getOrTop L key) := by
  unfold getOrTop
  cases hkey : m.get? key with
  | none => exact top_mem
  | some value => exact stored key value hkey

section
variable [Std.LawfulEqOrd κ] [DecidableEq κ]

theorem get?_insert (m : MapFact κ ν) (key other : κ) (value : ν) :
    (m.insert L key value).get? other =
      if key = other then (if L.isTop value then none else some value) else m.get? other := by
  unfold insert get?
  split
  · rw [Std.ExtTreeMap.getElem?_erase]
    by_cases h : key = other <;> simp [h]
  · rw [Std.ExtTreeMap.getElem?_insert]
    by_cases h : key = other <;> simp [h]

/-! ### The entries of a meet -/

/-- What a meet gives a key that the second map has. -/
def merged (L : Lattice ν) (a : MapFact κ ν) (key : κ) (value : ν) : ν :=
  match a.get? key with
  | some own => L.meet own value
  | none => value

theorem get?_foldl_of_not_mem (a result : MapFact κ ν) {entries : List (κ × ν)} {key : κ}
    (h : key ∉ entries.map Prod.fst) :
    (entries.foldl (a.meetEntry L) result).get? key = result.get? key := by
  induction entries generalizing result with
  | nil => rfl
  | cons entry entries ih =>
    obtain ⟨hne, hrest⟩ := not_or.1 (List.mem_cons.not.1 h)
    rw [List.foldl_cons, ih _ hrest, meetEntry, get?_insert, if_neg (Ne.symm hne)]

theorem get?_foldl_of_mem (a result : MapFact κ ν) {entries : List (κ × ν)} {key : κ} {value : ν}
    (nodup : (entries.map Prod.fst).Nodup) (h : (key, value) ∈ entries) :
    (entries.foldl (a.meetEntry L) result).get? key =
      if L.isTop (merged L a key value) then none else some (merged L a key value) := by
  induction entries generalizing result with
  | nil => cases h
  | cons entry entries ih =>
    obtain ⟨hnew, hrest⟩ := List.nodup_cons.1 nodup
    rw [List.foldl_cons]
    rcases List.mem_cons.1 h with rfl | h
    · rw [get?_foldl_of_not_mem _ _ hnew, meetEntry, get?_insert, if_pos rfl]
      rfl
    · exact ih _ hrest h

/-- A key that the second map has is given anew, the top being left out; another keeps what the
first has for it. -/
theorem get?_meet (a b : MapFact κ ν) (key : κ) : (a.meet L b).get? key =
    match b.get? key with
    | some value => if L.isTop (merged L a key value) then none else some (merged L a key value)
    | none => a.get? key := by
  have hkeys : b.toList.map Prod.fst = b.entries.keys := Std.ExtTreeMap.map_fst_toList_eq_keys
  cases h : b.get? key with
  | some value =>
    exact get?_foldl_of_mem a a (hkeys ▸ b.entries.nodup_keys)
      (Std.ExtTreeMap.mem_toList_iff_getElem?_eq_some.2 h)
  | none =>
    refine get?_foldl_of_not_mem a a fun hmem => ?_
    rw [hkeys, Std.ExtTreeMap.mem_keys, Std.ExtTreeMap.mem_iff_isSome_getElem?] at hmem
    exact absurd hmem (by simpa [get?] using h)

section
variable (only_top : ∀ v, L.isTop v → v = L.top)
include only_top

theorem getD_stored (value : ν) :
    (if L.isTop value then none else some value).getD L.top = value := by
  split
  · rename_i htop
    exact (only_top value htop).symm
  · rfl

theorem getOrTop_insert (m : MapFact κ ν) (key other : κ) (value : ν) :
    (m.insert L key value).getOrTop L other =
      if key = other then value else m.getOrTop L other := by
  rw [getOrTop, get?_insert]
  split
  · exact getD_stored only_top value
  · rfl

theorem getOrTop_meet (a b : MapFact κ ν) (key : κ) : (a.meet L b).getOrTop L key =
    match b.get? key with
    | some value => merged L a key value
    | none => a.getOrTop L key := by
  rw [getOrTop, get?_meet]
  cases b.get? key with
  | some value => exact getD_stored only_top _
  | none => rfl

/-- A key has what one map gives it when the other gives it the top, or the meet. -/
theorem getOrTop_meet_cases (a b : MapFact κ ν) (key : κ) :
    (b.getOrTop L key = L.top ∧ (a.meet L b).getOrTop L key = a.getOrTop L key) ∨
      (a.getOrTop L key = L.top ∧ (a.meet L b).getOrTop L key = b.getOrTop L key) ∨
        (a.meet L b).getOrTop L key = L.meet (a.getOrTop L key) (b.getOrTop L key) := by
  rw [getOrTop_meet only_top]
  unfold merged
  cases hb : b.get? key with
  | none => exact .inl ⟨by simp [getOrTop, hb], rfl⟩
  | some value =>
    cases ha : a.get? key with
    | none => exact .inr (.inl ⟨by simp [getOrTop, ha], by simp [getOrTop, hb]⟩)
    | some own => exact .inr (.inr (by simp [getOrTop, ha, hb]))

end

end

theorem isTop_lattice (m : MapFact κ ν) : (lattice L).isTop m ↔ m = (lattice L).top := by
  cases m with
  | mk entries => exact Std.ExtTreeMap.isEmpty_iff.trans (by simp [lattice, empty])

/-! ### Maps that store no top -/

/-- What is stored belongs to the class, and is not the top. -/
def WellFormed (L : Lattice ν) (K : ν → Prop) (m : MapFact κ ν) : Prop :=
  ∀ key value, m.get? key = some value → K value ∧ value ≠ L.top

section
variable {K : ν → Prop} {a b m : MapFact κ ν}

theorem wellFormed_empty : (empty : MapFact κ ν).WellFormed L K := by
  intro key value h
  simp at h

theorem WellFormed.getOrTop_mem (h : m.WellFormed L K) (top_mem : K L.top) (key : κ) :
    K (m.getOrTop L key) :=
  MapFact.getOrTop_mem (fun key value hkey => (h key value hkey).1) top_mem key

/-- An entry is what holds of its key, unless that is the top. -/
theorem WellFormed.get?_eq_some (h : m.WellFormed L K) {key : κ} {value : ν} :
    m.get? key = some value ↔ m.getOrTop L key = value ∧ value ≠ L.top := by
  unfold getOrTop
  cases hkey : m.get? key with
  | none => simp +contextual [eq_comm]
  | some own =>
    have hown : own ≠ L.top := (h key own hkey).2
    rw [Option.some_inj, Option.getD_some]
    exact ⟨fun heq => ⟨heq, heq ▸ hown⟩, And.left⟩

variable [Std.LawfulEqOrd κ]

/-- Maps with the same entries are equal. -/
theorem ext_get? (same : ∀ key, a.get? key = b.get? key) : a = b := by
  cases a
  cases b
  exact congrArg mk (Std.ExtTreeMap.ext_getElem? same)

theorem WellFormed.ext (ha : a.WellFormed L K) (hb : b.WellFormed L K)
    (same : ∀ key, a.getOrTop L key = b.getOrTop L key) : a = b := by
  refine ext_get? fun key => Option.ext fun value => ?_
  exact (ha.get?_eq_some.trans (by rw [same])).trans hb.get?_eq_some.symm

variable [DecidableEq κ]

section
variable (tells : ∀ v, L.isTop v ↔ v = L.top)
include tells

theorem WellFormed.insert (h : m.WellFormed L K) (key : κ) {value : ν} (hvalue : K value) :
    (m.insert L key value).WellFormed L K := by
  intro other stored hstored
  rw [get?_insert] at hstored
  split at hstored
  · split at hstored
    · cases hstored
    · rename_i htop
      cases hstored
      exact ⟨hvalue, fun heq => htop ((tells _).2 heq)⟩
  · exact h other stored hstored

theorem wellFormed_ofList {entries : List (κ × ν)} (h : ∀ entry ∈ entries, K entry.2) :
    (ofList L entries).WellFormed L K := by
  suffices ∀ m : MapFact κ ν, m.WellFormed L K →
      (entries.foldl (fun m entry => m.insert L entry.1 entry.2) m).WellFormed L K from
    this empty wellFormed_empty
  induction entries with
  | nil => exact fun _ hm => hm
  | cons entry entries ih =>
    intro m hm
    exact ih (fun e he => h e (List.mem_cons_of_mem entry he)) _
      (hm.insert tells entry.1 (h entry List.mem_cons_self))

variable (hL : L.LawfulOn K)
include hL

theorem WellFormed.meet (ha : a.WellFormed L K) (hb : b.WellFormed L K) :
    (a.meet L b).WellFormed L K := by
  have hentry (entry : κ × ν) (he : entry ∈ b.toList) : K entry.2 :=
    (hb entry.1 entry.2 (Std.ExtTreeMap.mem_toList_iff_getElem?_eq_some.1 he)).1
  unfold MapFact.meet
  suffices ∀ m : MapFact κ ν, m.WellFormed L K →
      (b.toList.foldl (a.meetEntry L) m).WellFormed L K from this a ha
  generalize b.toList = entries at hentry
  induction entries with
  | nil => exact fun _ hm => hm
  | cons entry entries ih =>
    intro m hm
    refine ih (fun e he => hentry e (List.mem_cons_of_mem entry he)) _ (hm.insert tells entry.1 ?_)
    have hvalue := hentry entry List.mem_cons_self
    cases hown : a.get? entry.1 with
    | some own => exact hL.meet_mem own entry.2 (ha entry.1 own hown).1 hvalue
    | none => exact hvalue

/-- A key has the meet of what both maps give it. -/
theorem getOrTop_meet_of_mem {key : κ} (hka : K (a.getOrTop L key)) (hkb : K (b.getOrTop L key)) :
    (a.meet L b).getOrTop L key = L.meet (a.getOrTop L key) (b.getOrTop L key) := by
  rcases getOrTop_meet_cases (fun v => (tells v).1) a b key with
    ⟨htop, heq⟩ | ⟨htop, heq⟩ | heq <;> rw [heq]
  · rw [htop, hL.meet_top _ hka]
  · rw [htop, hL.meet_comm _ _ hL.top_mem hkb, hL.meet_top _ hkb]

theorem WellFormed.getOrTop_meet (ha : a.WellFormed L K) (hb : b.WellFormed L K) (key : κ) :
    (a.meet L b).getOrTop L key = L.meet (a.getOrTop L key) (b.getOrTop L key) :=
  getOrTop_meet_of_mem tells hL (ha.getOrTop_mem hL.top_mem key) (hb.getOrTop_mem hL.top_mem key)

theorem lawful : (lattice L : Lattice (MapFact κ ν)).LawfulOn (WellFormed L K) := by
  have hmeet {a b : MapFact κ ν} (ha : a.WellFormed L K) (hb : b.WellFormed L K) :
      (a.meet L b).WellFormed L K := ha.meet tells hL hb
  have hkey {a b : MapFact κ ν} (ha : a.WellFormed L K) (hb : b.WellFormed L K) (key : κ) :
      (a.meet L b).getOrTop L key = L.meet (a.getOrTop L key) (b.getOrTop L key) :=
    ha.getOrTop_meet tells hL hb key
  have hmem {a : MapFact κ ν} (ha : a.WellFormed L K) (key : κ) : K (a.getOrTop L key) :=
    ha.getOrTop_mem hL.top_mem key
  constructor
  case top_mem => exact wellFormed_empty
  case meet_mem => exact fun a b ha hb => hmeet ha hb
  case meet_self =>
    intro a ha
    refine (hmeet ha ha).ext ha fun key => ?_
    rw [hkey ha ha, hL.meet_self _ (hmem ha key)]
  case meet_comm =>
    intro a b ha hb
    refine (hmeet ha hb).ext (hmeet hb ha) fun key => (hkey ha hb key).trans ?_
    exact (hL.meet_comm _ _ (hmem ha key) (hmem hb key)).trans (hkey hb ha key).symm
  case meet_assoc =>
    intro a b c ha hb hc
    refine (hmeet (hmeet ha hb) hc).ext (hmeet ha (hmeet hb hc)) fun key => ?_
    refine (hkey (hmeet ha hb) hc key).trans (.trans ?_ (hkey ha (hmeet hb hc) key).symm)
    rw [hkey ha hb, hkey hb hc, hL.meet_assoc _ _ _ (hmem ha key) (hmem hb key) (hmem hc key)]
  case meet_top =>
    intro a ha
    refine (hmeet ha wellFormed_empty).ext ha fun key => ?_
    rw [hkey ha wellFormed_empty, getOrTop_empty, hL.meet_top _ (hmem ha key)]

/-- A map lies below another when it does at every key. -/
theorem below_iff (ha : a.WellFormed L K) (hb : b.WellFormed L K) :
    (lattice L).Below a b ↔ ∀ key, L.Below (a.getOrTop L key) (b.getOrTop L key) := by
  have hkey := ha.getOrTop_meet tells hL hb
  constructor
  · intro h key
    exact (hkey key).symm.trans (congrArg (·.getOrTop L key) h)
  · intro h
    exact (ha.meet tells hL hb).ext ha fun key => (hkey key).trans (h key)

/-- Lower facts under a key make a lower map. -/
theorem insert_below (ha : a.WellFormed L K) (hb : b.WellFormed L K) (hab : (lattice L).Below a b)
    {low high : ν} (hlow : K low) (hhigh : K high) (hbelow : L.Below low high) (key : κ) :
    (lattice L).Below (a.insert L key low) (b.insert L key high) := by
  rw [below_iff tells hL ha hb] at hab
  rw [below_iff tells hL (ha.insert tells key hlow) (hb.insert tells key hhigh)]
  intro other
  rw [getOrTop_insert fun v => (tells v).1, getOrTop_insert fun v => (tells v).1]
  split
  · exact hbelow
  · exact hab other

end

end

end FlowFacts.MapFact
