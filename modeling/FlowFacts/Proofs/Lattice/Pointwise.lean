import FlowFacts.Proofs.Lattice.Composed

/-! Maps meet key by key.

A meet goes through the entries of the second map and drops what becomes the top. Where neither
map stores the top, nothing does: facts that say something meet to one that does. The entries of
the meet are then the entries of both maps, met where both have one (`WellFormed.get?_meet`), and
so a key has an entry when it has one in either map, and is given the meet of what both give it
(`meet_pointwise`). Nothing is asked of the values but that their lattice has its laws on a class
and tells its top there, so they may be maps themselves. -/
namespace FlowFacts.MapFact
variable {κ ν : Type} [Ord κ] [Std.TransOrd κ] [Std.LawfulEqOrd κ] {L : Lattice ν} {K : ν → Prop}
  {a b m : MapFact κ ν}

theorem mem_keys {key : κ} : key ∈ m.keys ↔ (m.get? key).isSome :=
  Std.ExtTreeMap.mem_keys.trans Std.ExtTreeMap.mem_iff_isSome_getElem?

section
variable [DecidableEq κ] (tells : ∀ v, K v → (L.isTop v ↔ v = L.top)) (hL : L.LawfulOn K)
include tells hL

/-- Entries are met where both maps have one, and kept where one of them has. -/
theorem WellFormed.get?_meet (ha : a.WellFormed L K) (hb : b.WellFormed L K) (key : κ) :
    (a.meet L b).get? key = (a.get? key).merge L.meet (b.get? key) := by
  have hkept {v : ν} (hv : K v) (hne : v ≠ L.top) : (if L.isTop v then none else some v) = some v :=
    if_neg fun htop => hne ((tells v hv).1 htop)
  rw [MapFact.get?_meet]
  unfold merged
  cases hstored : b.get? key with
  | none => rw [Option.merge_none_right]
  | some value =>
    obtain ⟨hvalue, hne⟩ := hb key value hstored
    cases hown : a.get? key with
    | none => exact hkept hvalue hne
    | some own =>
      obtain ⟨hmem, hown⟩ := ha key own hown
      exact hkept (hL.meet_mem own value hmem hvalue) (hL.meet_ne_top hmem hvalue hown)

/-- The meet of maps that store no top gives every key the meet of what both give it, has the keys
of either and no others, and stores no top. -/
theorem meet_pointwise (ha : a.WellFormed L K) (hb : b.WellFormed L K) :
    (∀ key, (a.meet L b).getOrTop L key = L.meet (a.getOrTop L key) (b.getOrTop L key)) ∧
    (∀ key, key ∈ (a.meet L b).keys ↔ key ∈ a.keys ∨ key ∈ b.keys) ∧
    (a.meet L b).WellFormed L K := by
  have hget := ha.get?_meet tells hL hb
  have htop {v : ν} (hv : K v) : L.meet L.top v = v := by
    rw [hL.meet_comm _ v hL.top_mem hv, hL.meet_top v hv]
  refine ⟨fun key => ?gives, fun key => ?keys, fun key value hkey => ?stores⟩
  case gives =>
    unfold getOrTop
    rw [hget]
    cases hown : a.get? key with
    | none =>
      cases hstored : b.get? key with
      | none => exact (htop hL.top_mem).symm
      | some value => exact (htop (hb key value hstored).1).symm
    | some own =>
      cases hstored : b.get? key with
      | none => exact (hL.meet_top own (ha key own hown).1).symm
      | some value => rfl
  case keys => rw [mem_keys, mem_keys, mem_keys, hget, Option.isSome_merge, Bool.or_eq_true]
  case stores =>
    rw [hget, Option.merge_eq_some_iff] at hkey
    rcases hkey with ⟨hown, -⟩ | ⟨-, hstored⟩ | ⟨own, stored, hown, hstored, rfl⟩
    · exact ha key value hown
    · exact hb key value hstored
    · obtain ⟨hmem, hne⟩ := ha key own hown
      have hvalue := (hb key stored hstored).1
      exact ⟨hL.meet_mem own stored hmem hvalue, hL.meet_ne_top hmem hvalue hne⟩

end

/-- Maps of sets with two members at most. -/
def tables : Lattice (MapFact Nat (ValueSet Nat)) := lattice (ValueSet.lattice 2)

/-- Two maps of maps: one key is in both, with a set that is too large once they meet, and each
has a key of its own. -/
theorem meet_pointwise_tables :
    let K : MapFact Nat (ValueSet Nat) → Prop := WellFormed (ValueSet.lattice 2) (·.WithinBound 2)
    let row (entries : List (Nat × List Nat)) : MapFact Nat (ValueSet Nat) :=
      ofList (ValueSet.lattice 2) (entries.map fun entry => (entry.1, .ofList 2 entry.2))
    let a : MapFact String (MapFact Nat (ValueSet Nat)) :=
      ofList tables [("x", row [(0, [1])]), ("y", row [(0, [7])])]
    let b : MapFact String (MapFact Nat (ValueSet Nat)) :=
      ofList tables [("x", row [(0, [2, 3]), (1, [5])]), ("z", row [(2, [4])])]
    (∀ v, K v → (tables.isTop v ↔ v = tables.top)) ∧ tables.LawfulOn K ∧
      a.WellFormed tables K ∧ b.WellFormed tables K ∧
        (a.meet tables b).getOrTop tables "x" =
          (row [(1, [5])]).insert (ValueSet.lattice 2) 0 .unknown ∧
        (a.meet tables b).getOrTop tables "w" = tables.top ∧
        (∀ key ∈ ["x", "y", "z"], key ∈ (a.meet tables b).keys) := by
  intro K row a b
  have htables : Composed true tables K := .map (.union 2)
  obtain ⟨hL, tells⟩ := htables.lawful
  have hrow (entries : List (Nat × List Nat)) : K (row entries) := by
    refine wellFormed_ofList (Lattice.isTop_ofMeet _ _) fun entry hentry => ?_
    obtain ⟨_, -, rfl⟩ := List.mem_map.1 hentry
    exact ValueSet.withinBound_bounded 2 _
  have ha : a.WellFormed tables K := wellFormed_ofList tells (List.forall_mem_cons.2
    ⟨hrow _, List.forall_mem_singleton.2 (hrow _)⟩)
  have hb : b.WellFormed tables K := wellFormed_ofList tells (List.forall_mem_cons.2
    ⟨hrow _, List.forall_mem_singleton.2 (hrow _)⟩)
  obtain ⟨hgives, hkeys, -⟩ := meet_pointwise (fun v _ => tells v) hL ha hb
  refine ⟨fun v _ => tells v, hL, ha, hb, ?_, ?_, fun key hkey => (hkeys key).2 ?_⟩
  · rw [hgives]
    decide +kernel
  · rw [hgives]
    decide +kernel
  · revert key
    decide +kernel

end FlowFacts.MapFact
