import FlowFacts.Proofs.Lattice.Pointwise

/-! Maps remember the last write of each key.

A map that is written key by key may give a key one value after another, and the top among them,
which takes the entry away. What it holds in the end is decided by the last write of each key
(`get?_ofList`): its value is stored if it says something, and a key that was given the top last is
as one that was never written. The order in which different keys were written leaves no trace, and
neither do the writes that were written over, so two histories make the same map when they end
alike for every key (`last_writes_decide`). -/
namespace FlowFacts.MapFact
variable {κ ν : Type} [Ord κ] [Std.TransOrd κ] {L : Lattice ν} {m : MapFact κ ν}
  {history : List (κ × ν)}

/-- The map that some writes make, one after another, from the map without entries. -/
inductive Written (L : Lattice ν) : List (κ × ν) → MapFact κ ν → Prop
  | empty : Written L [] empty
  | ofList (entries : List (κ × ν)) : Written L entries (ofList L entries)
  | insert {history : List (κ × ν)} {m : MapFact κ ν} (made : Written L history m) (key : κ)
      (value : ν) : Written L (history ++ [(key, value)]) (m.insert L key value)

theorem ofList_concat (history : List (κ × ν)) (key : κ) (value : ν) :
    ofList L (history ++ [(key, value)]) = (ofList L history).insert L key value :=
  List.foldl_concat ..

/-- Writes make one map, whether they come as entries or one at a time. -/
theorem Written.eq_ofList (h : Written L history m) : m = MapFact.ofList L history := by
  induction h with
  | empty => rfl
  | ofList entries => rfl
  | insert _ key value ih => rw [ofList_concat, ih]

/-- Its keys are listed in ascending order. -/
theorem keys_ascending (m : MapFact κ ν) : m.keys.Pairwise fun a b => compare a b = .lt :=
  Std.ExtTreeMap.ordered_keys

variable [DecidableEq κ]

/-- What was written for the key last, if anything was. -/
def lastWrite (history : List (κ × ν)) (key : κ) : Option ν :=
  (history.reverse.find? fun write => write.1 = key).map Prod.snd

omit [Ord κ] [Std.TransOrd κ] in
theorem lastWrite_concat (history : List (κ × ν)) (key other : κ) (value : ν) :
    lastWrite (history ++ [(key, value)]) other =
      if key = other then some value else lastWrite history other := by
  unfold lastWrite
  rw [List.reverse_concat, List.find?_cons]
  by_cases h : key = other <;> simp [h]

variable [Std.LawfulEqOrd κ]

/-- A key has the value of its last write, unless that is the top. -/
theorem get?_ofList (history : List (κ × ν)) (key : κ) :
    (ofList L history).get? key = (lastWrite history key).filter fun value => !L.isTop value := by
  induction history using List.reverseRecOn with
  | nil => exact get?_empty key
  | append_singleton history write ih =>
    obtain ⟨written, value⟩ := write
    rw [ofList_concat, get?_insert, lastWrite_concat, ih]
    by_cases hkey : written = key
    · rw [if_pos hkey, if_pos hkey]
      by_cases htop : L.isTop value <;> simp [Option.filter_some, htop]
    · rw [if_neg hkey, if_neg hkey]

section
variable (tells : ∀ value, L.isTop value ↔ value = L.top)
include tells

theorem getOrTop_ofList (history : List (κ × ν)) (key : κ) :
    (ofList L history).getOrTop L key = (lastWrite history key).getD L.top := by
  rw [getOrTop, get?_ofList]
  cases lastWrite history key with
  | none => rfl
  | some value =>
    by_cases htop : L.isTop value
    · simpa [Option.filter_some, htop] using ((tells value).1 htop).symm
    · simp [Option.filter_some, htop]

theorem mem_keys_ofList (history : List (κ × ν)) (key : κ) :
    key ∈ (ofList L history).keys ↔ ∃ value, lastWrite history key = some value ∧ value ≠ L.top := by
  rw [mem_keys, get?_ofList]
  cases lastWrite history key with
  | none => simp
  | some value => simp [← tells]

/-- **Maps remember the last write of each key, and nothing else.** However a map was written, from
entries or by insertions, with keys repeated in any order and with any values: a key has the value
of its last write, and the top if there was none; the keys, in ascending order, are those whose
last write says something; and two maps are equal when for every key the last writes, or the top
where there is none, are. -/
theorem last_writes_decide (h : Written L history m) :
    (∀ key, m.getOrTop L key = (lastWrite history key).getD L.top) ∧
    m.keys.Pairwise (fun a b => compare a b = .lt) ∧
    (∀ key, key ∈ m.keys ↔ ∃ value, lastWrite history key = some value ∧ value ≠ L.top) ∧
    ∀ history' m', Written L history' m' → (m = m' ↔
      ∀ key, (lastWrite history key).getD L.top = (lastWrite history' key).getD L.top) := by
  cases h.eq_ofList
  refine ⟨getOrTop_ofList tells history, keys_ascending _, mem_keys_ofList tells history,
    fun history' m' h' => ?_⟩
  cases h'.eq_ofList
  -- What is written so stores no top, so that the map is told by what it gives each key.
  have hproper (writes : List (κ × ν)) : (ofList L writes).WellFormed L fun _ => True :=
    wellFormed_ofList tells fun _ _ => trivial
  simp only [← getOrTop_ofList tells]
  exact ⟨fun heq _ => by rw [heq], (hproper history).ext (hproper history')⟩

end

/-- A map of maps: one key is written three times, and the top between, another is taken away. -/
theorem last_writes_decide_tables :
    let row (n : Nat) : MapFact Nat (ValueSet Nat) :=
      ofList (ValueSet.lattice 2) [(n, .ofList 2 [n])]
    let first : MapFact String (MapFact Nat (ValueSet Nat)) :=
      ofList tables [("x", row 1), ("y", row 2), ("x", tables.top)]
    let made := (first.insert tables "y" tables.top).insert tables "x" (row 3)
    (∀ value, tables.isTop value ↔ value = tables.top) ∧
      Written tables ([("x", row 1), ("y", row 2), ("x", tables.top)] ++ [("y", tables.top)] ++
        [("x", row 3)]) made ∧
      made.getOrTop tables "x" = row 3 ∧ made.getOrTop tables "y" = tables.top ∧
        "x" ∈ made.keys ∧ "y" ∉ made.keys ∧ made = ofList tables [("x", row 3)] := by
  intro row first made
  have tells : ∀ value, tables.isTop value ↔ value = tables.top := isTop_lattice
  have hmade : Written tables ([("x", row 1), ("y", row 2), ("x", tables.top)] ++
      [("y", tables.top)] ++ [("x", row 3)]) made := ((Written.ofList _).insert _ _).insert _ _
  obtain ⟨hgives, -, hkeys, hequal⟩ := last_writes_decide tells hmade
  have hy : lastWrite ([("x", row 1), ("y", row 2), ("x", tables.top)] ++ [("y", tables.top)] ++
      [("x", row 3)]) "y" = some tables.top := by decide +kernel
  refine ⟨tells, hmade, ?_, ?_, (hkeys "x").2 ⟨row 3, ?_, ?_⟩, fun hmem => ?_,
    (hequal _ _ (.ofList _)).2 fun key => ?_⟩
  · rw [hgives]
    decide +kernel
  · rw [hgives, hy]
    rfl
  · decide +kernel
  · decide +kernel
  · obtain ⟨value, hvalue, hne⟩ := (hkeys "y").1 hmem
    exact hne (Option.some.inj (hvalue.symm.trans hy))
  · by_cases hx : "x" = key <;> by_cases hy : "y" = key <;> simp [lastWrite, hx, hy]

end FlowFacts.MapFact
