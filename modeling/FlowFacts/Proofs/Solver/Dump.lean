import FlowFacts.Lattice.Atom
import FlowFacts.Lattice.ShapeForm
import FlowFacts.Proofs.Json.RoundTrip
import FlowFacts.Proofs.Program.Built
import FlowFacts.Proofs.Sequence
import FlowFacts.Solver.AtomTransfer
import FlowFacts.Solver.FactStore
import FlowFacts.Solver.Worklist

/-! Dumps of the facts of a run.

A store is written point by point, so its dump fails as soon as one fact cannot be written
(`Writable`). Of all that the constructions build, only a map may fail: its keys become the
names of fields, and a local, a point or a named value has no text. An empty map has no keys,
so that whether a store can be dumped depends on the facts that a run has found
(`FactStore.dump_iff`), unless there are no maps in the shape of its facts. -/
namespace FlowFacts
open Json

namespace Json
variable {α β κ : Type}

/-! ### What can be written -/

/-- The value has a JSON form. -/
def Writable [Encode α] (a : α) : Prop := ∃ j, encode a = .ok j

section Containers
variable [Encode α] [Encode β]

theorem writable_option_iff {o : Option α} : Writable o ↔ ∀ a ∈ o, Writable a := by
  cases o with
  | none => exact iff_of_true ⟨.null, rfl⟩ nofun
  | some a => exact ⟨fun h _ ha => Option.some.inj ha ▸ h, fun h => h a rfl⟩

theorem writable_pair_iff {p : α × β} : Writable p ↔ Writable p.1 ∧ Writable p.2 :=
  exists_needs fun _ => exists_needs_pure

theorem writable_list_iff {items : List α} : Writable items ↔ ∀ a ∈ items, Writable a :=
  exists_map.trans exists_mapM_iff

theorem writable_set_iff [Ord α] [Std.TransOrd α] [Std.LawfulEqOrd α] {s : Std.ExtTreeSet α} :
    Writable s ↔ ∀ a ∈ s, Writable a := by
  refine writable_list_iff.trans ?_
  simp only [Std.ExtTreeSet.mem_toList]

theorem writable_map_iff [Ord κ] [Std.TransOrd κ] [Std.LawfulEqOrd κ] [EncodeKey κ]
    {m : Std.ExtTreeMap κ α} :
    Writable m ↔ ∀ (k : κ) (a : α), m[k]? = some a → (∃ s, encodeKey k = .ok s) ∧ Writable a := by
  refine (exists_map.trans exists_mapM_iff).trans ?_
  constructor
  · intro h k a ha
    have hentry := h (k, a) (Std.ExtTreeMap.mem_toList_iff_getElem?_eq_some.2 ha)
    exact (exists_needs fun _ => exists_needs_pure).1 hentry
  · intro h entry hentry
    exact (exists_needs fun _ => exists_needs_pure).2
      (h entry.1 entry.2 (Std.ExtTreeMap.mem_toList_iff_getElem?_eq_some.1 hentry))

end Containers
end Json

/-! ### What the constructions write -/

section Construction
variable {α : Type} [Encode α]

theorem Constant.writable (h : ∀ a : α, Writable a) (c : Constant α) : Writable c := by
  cases c with
  | value a => exact exists_map.2 (h a)
  | unknown => exact ⟨.text "Unknown", rfl⟩

variable [Ord α] [Std.TransOrd α] [Std.LawfulEqOrd α]

theorem ValueSet.writable (h : ∀ a : α, Writable a) (s : ValueSet α) : Writable s := by
  cases s with
  | values members => exact exists_map.2 (writable_set_iff.2 fun a _ => h a)
  | unknown => exact ⟨.text "Unknown", rfl⟩

theorem DefiniteSet.writable (h : ∀ a : α, Writable a) (s : DefiniteSet α) : Writable s := by
  cases s with
  | everything => exact ⟨.text "Universe", rfl⟩
  | values members => exact exists_map.2 (writable_set_iff.2 fun a _ => h a)

end Construction

theorem MapFact.writable_iff {κ ν : Type} [Ord κ] [Std.TransOrd κ] [Std.LawfulEqOrd κ]
    [EncodeKey κ] [Encode ν] {m : MapFact κ ν} :
    Writable m ↔ ∀ k a, m.get? k = some a → (∃ s, encodeKey k = .ok s) ∧ Writable a :=
  exists_needs_pure.trans writable_map_iff

/-! ### Atoms and shapes -/

namespace Atom

theorem writable (x : Atom) : Writable x := by
  cases x <;> exact ⟨_, rfl⟩

/-- Numbers, texts and the values without a name can stand for a field. -/
def HasText : Atom → Prop
  | .int _ | .text _ | .symbol .null | .symbol .opaqueValue => True
  | .slot _ | .point _ | .symbol (.text _) | .symbol (.type _) => False

theorem hasText_iff (x : Atom) : (∃ s, encodeKey x = .ok s) ↔ x.HasText := by
  cases x with
  | int n => exact iff_of_true ⟨n.repr, rfl⟩ trivial
  | text s => exact iff_of_true ⟨s, rfl⟩ trivial
  | slot l => exact iff_of_false nofun id
  | point p => exact iff_of_false nofun id
  | symbol v =>
    cases v with
    | null => exact iff_of_true ⟨"Null", rfl⟩ trivial
    | opaqueValue => exact iff_of_true ⟨"Opaque", rfl⟩ trivial
    | text s => exact iff_of_false nofun id
    | type s => exact iff_of_false nofun id

end Atom

namespace Shape

/-- Every key of every map in the fact has a text. -/
def KeysHaveText : {hasTop : Bool} → (s : Shape hasTop) → s.Fact Atom → Prop
  | _, .constant, _ => True
  | _, .withoutTop s, a => s.KeysHaveText a
  | _, .maybe s, o => ∀ a ∈ o, s.KeysHaveText a
  | _, .union _, _ => True
  | _, .inter, _ => True
  | _, .product s t, p => s.KeysHaveText p.1 ∧ t.KeysHaveText p.2
  | _, .map s, m => ∀ k a, MapFact.get? m k = some a → k.HasText ∧ s.KeysHaveText a

theorem writable_iff : {hasTop : Bool} → (s : Shape hasTop) → (a : s.Fact Atom) →
    (Writable a ↔ s.KeysHaveText a)
  | _, .constant, c => iff_of_true (Constant.writable Atom.writable c) trivial
  | _, .withoutTop s, a => s.writable_iff a
  | _, .maybe s, _ => writable_option_iff.trans <| forall₂_congr fun a _ => s.writable_iff a
  | _, .union _, v => iff_of_true (ValueSet.writable Atom.writable v) trivial
  | _, .inter, v => iff_of_true (DefiniteSet.writable Atom.writable v) trivial
  | _, .product s t, p =>
    writable_pair_iff.trans <| and_congr (s.writable_iff p.1) (t.writable_iff p.2)
  | _, .map s, _ =>
    MapFact.writable_iff.trans <| forall₃_congr fun k a _ =>
      and_congr k.hasText_iff (s.writable_iff a)

theorem keysHaveText_of_not_hasMap : {hasTop : Bool} → (s : Shape hasTop) → s.hasMap = false →
    ∀ a : s.Fact Atom, s.KeysHaveText a
  | _, .constant, _, _ => trivial
  | _, .withoutTop s, h, a => s.keysHaveText_of_not_hasMap h a
  | _, .maybe s, h, _ => fun a _ => s.keysHaveText_of_not_hasMap h a
  | _, .union _, _, _ => trivial
  | _, .inter, _, _ => trivial
  | _, .product s t, h, p =>
    have ⟨hs, ht⟩ := Bool.or_eq_false_iff.1 h
    ⟨s.keysHaveText_of_not_hasMap hs p.1, t.keysHaveText_of_not_hasMap ht p.2⟩

end Shape

/-! ### Stores -/

section Store
variable {α : Type} [Encode α]

/-- The entry of a point: where it is, the facts on both sides as they are written, and how often
it was visited. -/
def PointFacts.IsEntry (f : PointFacts α) (entry : Json) : Prop :=
  ∃ before after, encode f.before = .ok before ∧ encode f.after = .ok after ∧
    entry = .object [("point", f.point.toJson), ("before", before), ("after", after),
      ("visits", nat f.visits)]

theorem PointFacts.encode_eq_ok {f : PointFacts α} {entry : Json} :
    encode f = .ok entry ↔ f.IsEntry entry := by
  constructor
  · intro h
    obtain ⟨before, hbefore, hrest⟩ := needs_eq_ok.1 h
    obtain ⟨after, hafter, hentry⟩ := needs_eq_ok.1 hrest
    cases hentry
    exact ⟨before, after, hbefore, hafter, rfl⟩
  · intro h
    obtain ⟨before, after, hbefore, hafter, rfl⟩ := h
    exact needs_eq_ok.2 ⟨before, hbefore, needs_eq_ok.2 ⟨after, hafter, rfl⟩⟩

theorem PointFacts.writable_iff {f : PointFacts α} :
    Writable f ↔ Writable f.before ∧ Writable f.after :=
  exists_needs fun _ => exists_needs_pure

namespace FactStore
variable {store : FactStore α}

theorem encode_eq_ok {j : Json} : encode store = .ok j ↔ ∃ entries,
    List.Forall₂ PointFacts.IsEntry store.facts entries ∧
      j = .object [("direction", store.direction.toJson), ("facts", .array entries)] := by
  constructor
  · intro h
    obtain ⟨facts, hfacts, hj⟩ := needs_eq_ok.1 h
    obtain ⟨entries, hentries, rfl⟩ := map_eq_ok.1 hfacts
    cases hj
    exact ⟨entries, (mapM_eq_ok.1 hentries).imp fun _ _ => PointFacts.encode_eq_ok.1, rfl⟩
  · intro h
    obtain ⟨entries, hentries, rfl⟩ := h
    have hfacts : store.facts.mapM encode = .ok entries :=
      mapM_eq_ok.2 (hentries.imp fun _ _ => PointFacts.encode_eq_ok.2)
    exact needs_eq_ok.2 ⟨_, map_eq_ok.2 ⟨entries, hfacts, rfl⟩, rfl⟩

theorem writable_iff :
    Writable store ↔ ∀ f ∈ store.facts, Writable f.before ∧ Writable f.after := by
  refine exists_needs_pure.trans (writable_list_iff.trans ?_)
  exact forall₂_congr fun f _ => PointFacts.writable_iff

theorem dump_eq_ok {text : String} :
    store.dump = .ok text ↔ ∃ j, encode store = .ok j ∧ text = j.pretty := by
  cases h : encode store <;> simp [dump, h, eq_comm]

theorem exists_dump_iff : (∃ text, store.dump = .ok text) ↔ Writable store := by
  constructor
  · intro h
    obtain ⟨text, htext⟩ := h
    obtain ⟨j, hj, -⟩ := dump_eq_ok.1 htext
    exact ⟨j, hj⟩
  · intro h
    obtain ⟨j, hj⟩ := h
    exact ⟨j.pretty, dump_eq_ok.2 ⟨j, hj, rfl⟩⟩

theorem dump_eq_error {e : Error} (h : store.dump = .error e) : e = .json .keyNotText := by
  cases hencode : encode store with
  | ok j => simp [dump, hencode] at h
  | error cause =>
    cases cause
    simpa [dump, hencode, eq_comm] using h

end FactStore
end Store

/-- A store can be dumped when the keys of all maps in its facts have a text, and so always when
there are no maps; the one reason not to is a key that has none. The dump has one entry for each
point, in the order of the points. -/
theorem FactStore.dump_iff {hasTop : Bool} (s : Shape hasTop) (store : FactStore (s.Fact Atom)) :
    ((∃ text, store.dump = .ok text) ↔
      ∀ f ∈ store.facts, s.KeysHaveText f.before ∧ s.KeysHaveText f.after) ∧
    (s.hasMap = false → ∃ text, store.dump = .ok text) ∧
    (∀ e, store.dump = .error e → e = .json .keyNotText) ∧
    ∀ text, store.dump = .ok text → ∃ entries,
      List.Forall₂ PointFacts.IsEntry store.facts entries ∧
      text = (Json.object [("direction", store.direction.toJson),
        ("facts", .array entries)]).pretty := by
  have hwritable : (∃ text, store.dump = .ok text) ↔
      ∀ f ∈ store.facts, s.KeysHaveText f.before ∧ s.KeysHaveText f.after := by
    refine exists_dump_iff.trans (writable_iff.trans (forall₂_congr fun f _ => ?_))
    exact and_congr (s.writable_iff f.before) (s.writable_iff f.after)
  refine ⟨hwritable, fun noMap => ?_, fun e => dump_eq_error, fun text h => ?_⟩
  · exact hwritable.2 fun f _ =>
      ⟨s.keysHaveText_of_not_hasMap noMap f.before, s.keysHaveText_of_not_hasMap noMap f.after⟩
  · obtain ⟨j, hj, rfl⟩ := dump_eq_ok.1 h
    obtain ⟨entries, hentries, rfl⟩ := encode_eq_ok.1 hj
    exact ⟨entries, hentries, rfl⟩

/-- May-sets under atoms. -/
def setMap : Shape true := .map (.union 4)

/-- A name has a set after the one point. -/
def named : FactStore (setMap.Fact Atom) where
  direction := .forward
  facts := [⟨.emptyBlock 0, .empty,
    ⟨(∅ : Std.ExtTreeMap Atom (ValueSet Atom)).insert (.text "x") .unknown⟩, 1⟩]

theorem FactStore.dump_iff_named : ∃ text entries, named.dump = .ok text ∧
    List.Forall₂ PointFacts.IsEntry named.facts entries ∧
    text = (Json.object [("direction", .text "Forward"), ("facts", .array entries)]).pretty := by
  obtain ⟨hwritable, -, -, hform⟩ := FactStore.dump_iff setMap named
  obtain ⟨text, htext⟩ := hwritable.2 <| List.forall_mem_singleton.2 <| by
    refine ⟨fun k a h => ?before, fun k a h => ?after⟩
    case before => simp [MapFact.empty, MapFact.get?] at h
    case after =>
      simp [MapFact.get?, Std.ExtTreeMap.getElem?_insert] at h
      obtain ⟨rfl, -⟩ := h
      exact ⟨trivial, trivial⟩
  obtain ⟨entries, hentries, rfl⟩ := hform text htext
  exact ⟨_, entries, htext, hentries, rfl⟩

/-- One block with one assignment. -/
def assigned : ControlFlowGraph :=
  .build [.newBlock, .push 0 (.assign ⟨0⟩ (.text "x")), .setEntry 0]

/-- The values of locals. -/
def localSets : Analysis (setMap.Fact Atom) where
  lattice := setMap.lattice
  transfer := .evaluate (.union 4)

/-- A run that follows the values of locals comes to an end, and its facts cannot be dumped as
soon as a local has a value. -/
theorem assigned_undumpable : assigned.Built ∧ ∃ store,
    Solver.fixedPoint localSets assigned .empty {} = .ok store ∧
      store.points = assigned.points ∧ store.dump = .error (.json .keyNotText) := by
  have hrun : (Solver.fixedPoint localSets assigned .empty {}).map
      (fun store => (store.points, store.dump)) =
        .ok (assigned.points, .error (.json .keyNotText)) := by decide +kernel
  obtain ⟨store, hstore, hdump⟩ := map_eq_ok.1 hrun
  obtain ⟨hpoints, hdump⟩ := Prod.mk.inj hdump
  exact ⟨⟨_, rfl⟩, store, hstore, hpoints.symm, hdump.symm⟩

end FlowFacts
