import FlowFacts.Client.Capability
import FlowFacts.Client.Reflection
import FlowFacts.Proofs.Lattice.FactForm
import FlowFacts.Proofs.Program.RoundTrip

/-! What analyses read and answer survives being written.

The parts of a program survive when their numbers have 64 bits, as `Proofs.Program.RoundTrip`
shows of all but edges and points. So do the findings, which name a point and hold texts beside
it, and the facts over numbers and texts, which are forms of `FactForm`. A map keeps an entry
that holds the absent fact: it is written as null under its key, and read back as an entry
(`forms_survive`). -/
namespace FlowFacts
open Json

/-! ### Edges and points -/

def Edge.numbers (e : Edge) : List Nat := [e.head, e.tail]

theorem Edge.read {e : Edge} (h : Within e.numbers) : Edge.ofJson? e.toJson = some e := by
  simp only [numbers, within_cons] at h
  simp -implicitDefEqProofs [ofJson?, toJson, field?, index?_nat h.1, index?_nat h.2.1]

def Point.numbers : Point → List Nat
  | .instruction block index => [block, index]
  | .emptyBlock block => [block]

theorem Point.read {p : Point} (h : Within p.numbers) : Point.ofJson? p.toJson = some p := by
  cases p with
  | instruction block index =>
    simp only [numbers, within_cons] at h
    simp -implicitDefEqProofs [ofJson?, toJson, tagged, case?, field?, index?_nat h.1,
      index?_nat h.2.1]
  | emptyBlock block =>
    simp only [numbers, within_cons] at h
    simp -implicitDefEqProofs [ofJson?, toJson, tagged, case?, field?, index?_nat h.1]

/-! ### Findings -/

theorem SymbolicValue.read (v : SymbolicValue) : SymbolicValue.ofJson? v.toJson = some v := by
  cases v <;> simp [ofJson?, toJson, tagged, case?, content?, plain?, text?]

theorem UseStatus.read (s : UseStatus) : UseStatus.ofJson? s.toJson = some s := by
  cases s <;> simp [ofJson?, toJson, name, case?, plain?]

theorem Direction.read (d : Direction) : Direction.ofJson? d.toJson = some d := by
  cases d <;> simp [ofJson?, toJson, case?, plain?]

theorem Resolution.read (r : Resolution) : Resolution.ofJson? r.toJson = some r := by
  cases r with
  | unreachable => rfl
  | unresolvable => rfl
  | resolved names =>
    have hlist : (Json.array (names.toList.map .text)).list? text? = some names.toList :=
      list?_map fun _ _ => rfl
    simp [ofJson?, toJson, tagged, case?, content?, decode, hlist, ofList_toList]

def ReflectionSite.numbers (s : ReflectionSite) : List Nat := s.argument :: s.point.numbers

theorem ReflectionSite.read {s : ReflectionSite} (h : Within s.numbers) :
    ReflectionSite.ofJson? s.toJson = some s := by
  obtain ⟨hargument, hpoint⟩ := within_cons.1 h
  simp -implicitDefEqProofs [ofJson?, toJson, field?, text?, Point.read hpoint,
    index?_nat hargument, Resolution.read]

def CapabilityUse.numbers (u : CapabilityUse) : List Nat := u.point.numbers

theorem CapabilityUse.read {u : CapabilityUse} (h : Within u.numbers) :
    CapabilityUse.ofJson? u.toJson = some u := by
  simp -implicitDefEqProofs [ofJson?, toJson, field?, text?, Point.read h, UseStatus.read]

/-! ### All forms -/

/-- Every part of a program, every finding, and the facts over numbers and texts survive, as
long as their numbers have 64 bits. -/
theorem forms_survive :
    (∀ l : Local, Within l.numbers → Survives l) ∧
    (∀ o : Operand, Within o.numbers → Survives o) ∧
    (∀ a : Annotation, Within a.numbers → Survives a) ∧
    (∀ m : MethodRef, Within m.numbers → Survives m) ∧
    (∀ o : Operation, Within o.numbers → Survives o) ∧
    (∀ i : Instruction, Within i.numbers → Survives i) ∧
    (∀ b : Block, Within b.numbers → Survives b) ∧
    (∀ e : Edge, Within e.numbers → Survives e) ∧
    (∀ p : Point, Within p.numbers → Survives p) ∧
    (∀ v : SymbolicValue, Survives v) ∧
    (∀ r : Resolution, Survives r) ∧
    (∀ s : ReflectionSite, Within s.numbers → Survives s) ∧
    (∀ u : CapabilityUse, Within u.numbers → Survives u) ∧
    (∀ s : UseStatus, Survives s) ∧
    (∀ d : Direction, Survives d) ∧
    (∀ o : Option (Constant Int), (∀ c ∈ o, c.MadeOf IsInt64) → Survives o) ∧
    (∀ s : ValueSet Int, s.MadeOf IsInt64 → Survives s) ∧
    (∀ s : DefiniteSet String, Survives s) ∧
    ∀ m : MapFact String (Option (Constant Int)),
      m.MadeOf (fun o => ∀ c ∈ o, c.MadeOf IsInt64) → Survives m := by
  have hconstants : FactForm true true fun o : Option (Constant Int) =>
      ∀ c ∈ o, c.MadeOf IsInt64 := .maybe (.constant fun _ => survives_int)
  have htexts (s : DefiniteSet String) : s.MadeOf Survives := fun _ _ a _ => ⟨.text a, rfl, rfl⟩
  exact ⟨fun _ h => ⟨_, rfl, Local.read h⟩, fun _ h => ⟨_, rfl, Operand.read h⟩,
    fun _ h => ⟨_, rfl, Annotation.read h⟩, fun _ h => ⟨_, rfl, MethodRef.read h⟩,
    fun _ h => ⟨_, rfl, Operation.read h⟩, fun _ h => ⟨_, rfl, Instruction.read h⟩,
    fun _ h => ⟨_, rfl, Block.read h⟩, fun _ h => ⟨_, rfl, Edge.read h⟩,
    fun _ h => ⟨_, rfl, Point.read h⟩, fun v => ⟨_, rfl, v.read⟩, fun r => ⟨_, rfl, r.read⟩,
    fun _ h => ⟨_, rfl, ReflectionSite.read h⟩, fun _ h => ⟨_, rfl, CapabilityUse.read h⟩,
    fun s => ⟨_, rfl, s.read⟩, fun d => ⟨_, rfl, d.read⟩, hconstants.forall_survives_iff.2 rfl,
    (FactForm.union fun _ => survives_int).forall_survives_iff.2 rfl,
    fun s => DefiniteSet.survives (htexts s), hconstants.map.forall_survives_iff.2 rfl⟩

/-- A call that looks a member up, with an operand of every kind. -/
def lookupCall : Operation :=
  .call ⟨"Type.GetMethod", [.reflectionAccess 1, .requires "Members" "By name"]⟩
    [.type "Plugin", .slot ⟨5⟩, .text "Run", .null] (some ⟨6⟩)

def lookupSite : ReflectionSite :=
  ⟨.instruction 3 0, "Type.GetMethod", 1, .resolved (.ofList ["Run", "Dispose"])⟩

def lookupUse : CapabilityUse :=
  ⟨.instruction 3 0, "Type.GetMethod", "Members", "By name", .unguarded⟩

theorem forms_survive_lookup :
    Survives (⟨6⟩ : Local) ∧ Survives (Operand.slot ⟨5⟩) ∧
    Survives (.reflectionAccess 1 : Annotation) ∧
    Survives (⟨"Type.GetMethod", [.reflectionAccess 1]⟩ : MethodRef) ∧ Survives lookupCall ∧
    Survives (⟨lookupCall, 0⟩ : Instruction) ∧ Survives (⟨3, 1, [⟨lookupCall, 0⟩]⟩ : Block) ∧
    Survives (⟨3, 4⟩ : Edge) ∧ Survives (Point.emptyBlock 4) ∧ Survives lookupSite ∧
    Survives lookupUse ∧ Survives (some (.value (-7)) : Option (Constant Int)) ∧
    Survives (.values (.ofList [7, -7]) : ValueSet Int) ∧
    Survives (.only "x" none : MapFact String (Option (Constant Int))) := by
  obtain ⟨hlocal, hoperand, hannotation, hcallee, hoperation, hinstruction, hblock, hedge, hpoint,
    -, -, hsite, huse, -, -, hconstant, hset, -, hmap⟩ := forms_survive
  have hconstants : (.value (-7) : Constant Int).MadeOf IsInt64 := by
    intro n hn
    cases hn
    decide
  have hmembers : (.values (.ofList [7, -7]) : ValueSet Int).MadeOf IsInt64 := by
    intro members hmembers n hn
    cases hmembers
    have hn : n = 7 ∨ n = -7 := by simpa using hn
    rcases hn with rfl | rfl <;> decide
  have habsent : (.only "x" none : MapFact String (Option (Constant Int))).MadeOf
      fun o => ∀ c ∈ o, c.MadeOf IsInt64 := by
    intro k o ho c hc
    cases MapFact.eq_of_get?_only ho
    cases hc
  exact ⟨hlocal _ (by decide +kernel), hoperand _ (by decide +kernel),
    hannotation _ (by decide +kernel), hcallee _ (by decide +kernel),
    hoperation _ (by decide +kernel), hinstruction _ (by decide +kernel),
    hblock _ (by decide +kernel), hedge _ (by decide +kernel), hpoint _ (by decide +kernel),
    hsite _ (by decide +kernel), huse _ (by decide +kernel),
    hconstant _ fun _ hc => Option.some.inj hc ▸ hconstants, hset _ hmembers, hmap _ habsent⟩

end FlowFacts
