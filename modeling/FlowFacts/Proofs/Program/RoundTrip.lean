import FlowFacts.Program.Form
import FlowFacts.Proofs.Json.RoundTrip
import FlowFacts.Proofs.Program.Built

/-! Programs that survive being written.

Every part of a program survives when its numbers have 64 bits (`Within`): locals, operands,
annotations, operations, blocks, and the sets of neighbours. What does not is an edge, since
its two ends are no text that could stand for a key. So a built program survives as long as it
has no edges (`Method.survives_iff`), and with one edge, which is to say as soon as control can
pass from a block to another, it cannot be written at all. -/
namespace FlowFacts
open Json

/-! ### The numbers of a program -/

/-- They have 64 bits. -/
def Within (numbers : List Nat) : Prop := ∀ n ∈ numbers, n < indexBound

instance (numbers : List Nat) : Decidable (Within numbers) :=
  inferInstanceAs (Decidable (∀ n ∈ numbers, n < indexBound))

section Within
variable {n : Nat} {ns ms : List Nat}

@[simp]
theorem within_nil : Within [] := by simp [Within]

@[simp]
theorem within_cons : Within (n :: ns) ↔ n < indexBound ∧ Within ns := by simp [Within]

@[simp]
theorem within_append : Within (ns ++ ms) ↔ Within ns ∧ Within ms := by
  simp [Within, or_imp, forall_and]

@[simp]
theorem within_flatMap {α : Type} {f : α → List Nat} {l : List α} :
    Within (l.flatMap f) ↔ ∀ a ∈ l, Within (f a) := by
  simp only [Within, List.mem_flatMap]
  exact ⟨fun h a ha n hn => h n ⟨a, ha, hn⟩, fun h n ⟨a, ha, hn⟩ => h a ha n hn⟩

end Within

def Local.numbers (l : Local) : List Nat := [l.index]

def Operand.numbers : Operand → List Nat
  | .slot l => l.numbers
  | .text _ | .type _ | .null => []

def Annotation.numbers : Annotation → List Nat
  | .requires _ _ => []
  | .reflectionAccess argument => [argument]

def MethodRef.numbers (m : MethodRef) : List Nat := m.annotations.flatMap Annotation.numbers

def Operation.numbers : Operation → List Nat
  | .assign dst src => dst.numbers ++ src.numbers
  | .load dst => dst.numbers
  | .call callee args dst =>
    callee.numbers ++ args.flatMap Operand.numbers ++ dst.toList.flatMap Local.numbers
  | .assume _ => []
  | .ret value => value.toList.flatMap Operand.numbers
  | .nop => []

def Instruction.numbers (i : Instruction) : List Nat := i.index :: i.operation.numbers

def Block.numbers (b : Block) : List Nat :=
  b.index :: b.nextInstruction :: b.instructions.flatMap Instruction.numbers

def ControlFlowGraph.numbers (c : ControlFlowGraph) : List Nat :=
  c.nextIndex :: c.blocks.flatMap Block.numbers

def Method.numbers (m : Method) : List Nat :=
  m.annotations.flatMap Annotation.numbers ++ m.body.numbers

/-! ### Operations and blocks -/

-- The steps of `simp` are kept apart below: as one step up to definitions, the kernel would count
-- down from the bound of 64 bits to check it.

theorem Local.read {l : Local} (h : Within l.numbers) : Local.ofJson? l.toJson = some l := by
  simp only [numbers, within_cons] at h
  simp -implicitDefEqProofs [ofJson?, toJson, field?, index?_nat h.1]

theorem Local.read_optional {x : Option Local} (h : Within (x.toList.flatMap Local.numbers))
    {fields : List (String × Json)} {key : String}
    (field : (Json.object fields).field? key = some (optional Local.toJson x)) :
    (Json.object fields).optionalField? Local.ofJson? key = some x := by
  refine optionalField?_optional field fun l hl => ⟨by simp [Local.toJson], ?_⟩
  exact Local.read (within_flatMap.1 h l (Option.mem_toList.2 hl))

theorem Operand.read {o : Operand} (h : Within o.numbers) : Operand.ofJson? o.toJson = some o := by
  cases o with
  | slot l => simp -implicitDefEqProofs [ofJson?, toJson, tagged, case?, content?, l.read h]
  | text value => simp [ofJson?, toJson, tagged, case?, content?, text?]
  | type name => simp [ofJson?, toJson, tagged, case?, content?, text?]
  | null => simp [ofJson?, toJson, case?, plain?]

theorem Operand.read_optional {x : Option Operand} (h : Within (x.toList.flatMap Operand.numbers))
    {fields : List (String × Json)} {key : String}
    (field : (Json.object fields).field? key = some (optional Operand.toJson x)) :
    (Json.object fields).optionalField? Operand.ofJson? key = some x := by
  refine optionalField?_optional field fun o ho => ⟨?_, ?_⟩
  · cases o <;> simp [Operand.toJson, tagged]
  · exact Operand.read (within_flatMap.1 h o (Option.mem_toList.2 ho))

theorem Annotation.read {a : Annotation} (h : Within a.numbers) :
    Annotation.ofJson? a.toJson = some a := by
  cases a with
  | requires capability message => simp [ofJson?, toJson, tagged, case?, field?, text?]
  | reflectionAccess argument =>
    simp only [numbers, within_cons] at h
    simp -implicitDefEqProofs [ofJson?, toJson, tagged, case?, field?, index?_nat h.1]

theorem MethodRef.read {m : MethodRef} (h : Within m.numbers) :
    MethodRef.ofJson? m.toJson = some m := by
  have hannotations := list?_map fun a ha => Annotation.read (within_flatMap.1 h a ha)
  simp [ofJson?, toJson, field?, text?, hannotations]

theorem Operation.read {o : Operation} (h : Within o.numbers) :
    Operation.ofJson? o.toJson = some o := by
  cases o with
  | assign dst src =>
    obtain ⟨hdst, hsrc⟩ := within_append.1 h
    simp -implicitDefEqProofs [ofJson?, toJson, tagged, case?, field?, Local.read hdst,
      Operand.read hsrc]
  | load dst =>
    simp -implicitDefEqProofs [ofJson?, toJson, tagged, case?, field?, Local.read h]
  | call callee args dst =>
    obtain ⟨hparts, hdst⟩ := within_append.1 h
    obtain ⟨hcallee, hargs⟩ := within_append.1 hparts
    have hlist := list?_map fun a ha => Operand.read (within_flatMap.1 hargs a ha)
    simp -implicitDefEqProofs [ofJson?, toJson, tagged, case?, field?, MethodRef.read hcallee,
      hlist, Local.read_optional hdst]
  | assume capability => simp [ofJson?, toJson, tagged, case?, field?, text?]
  | ret value =>
    simp -implicitDefEqProofs [ofJson?, toJson, tagged, case?, field?, Operand.read_optional h]
  | nop => simp [ofJson?, toJson, case?, plain?]

theorem Instruction.read {i : Instruction} (h : Within i.numbers) :
    Instruction.ofJson? i.toJson = some i := by
  obtain ⟨hindex, hoperation⟩ := within_cons.1 h
  simp -implicitDefEqProofs [ofJson?, toJson, field?, Operation.read hoperation, index?_nat hindex]

theorem Block.read {b : Block} (h : Within b.numbers) : Block.ofJson? b.toJson = some b := by
  obtain ⟨hindex, hrest⟩ := within_cons.1 h
  obtain ⟨hnext, hinstructions⟩ := within_cons.1 hrest
  have hlist := list?_map fun i hi => Instruction.read (within_flatMap.1 hinstructions i hi)
  simp -implicitDefEqProofs [ofJson?, toJson, field?, index?_nat hindex, index?_nat hnext, hlist]

/-! ### Graphs -/

section Graph
variable {ν ε : Type} [IsVertex ν] [IsEdge ε] [Encode ν] [Decode ν] [Encode ε] [Decode ε]
  {g : Graph ν ε}

omit [IsVertex ν] [IsEdge ε] [Encode ν] [Decode ν] [Encode ε] [Decode ε] in
/-- Sets of neighbours survive when their vertices have 64 bits. -/
theorem Graph.survives_neighbours {m : Std.ExtTreeMap Nat Indices}
    (bound : ∀ i, g.hasVertex i → i < indexBound) (keys : ∀ i, i ∈ m ↔ g.hasVertex i)
    (members : ∀ i j, Neighbour m i j → g.hasVertex j) : Survives m := by
  refine survives_map fun i s hs => ⟨keySurvives_nat (bound i ((keys i).1 ?_)), ?_⟩
  · rw [Std.ExtTreeMap.mem_iff_isSome_getElem?, hs, Option.isSome_some]
  · exact survives_set fun j hj => survives_nat (bound j (members i j ⟨s, hs, hj⟩))

/-- Without edges a graph survives when its vertices do. -/
theorem Graph.survives (h : g.Consistent) (noEdges : g.edges = [])
    (vertices : ∀ v ∈ g.vertices, IsVertex.index v < indexBound ∧ Survives v) : Survives g := by
  have hbound (i : Nat) (hi : g.hasVertex i) : i < indexBound := by
    obtain ⟨v, hv⟩ := (g.hasVertex_iff i).1 hi
    obtain ⟨hmem, rfl⟩ := h.vertexMap_eq_some.1 hv
    exact (vertices v hmem).1
  have hvertices : Survives g.vertexMap := by
    refine survives_map fun i v hv => ⟨keySurvives_nat (hbound i ?_), ?_⟩
    · exact (g.hasVertex_iff i).2 ⟨v, hv⟩
    · exact (vertices v (h.vertexMap_eq_some.1 hv).1).2
  have hedges : Survives g.edgeMap := by
    refine survives_map fun ends e he => ?_
    have hmem := (h.edgeMap_eq_some.1 he).1
    rw [noEdges] at hmem
    cases hmem
  have hsuccessors : Survives g.successorMap :=
    survives_neighbours hbound h.successor_keys fun i j hij =>
      (h.ends_are_vertices i j ((h.successors i j).1 hij)).2
  have hpredecessors : Survives g.predecessorMap :=
    survives_neighbours hbound h.predecessor_keys fun i j hij =>
      (h.ends_are_vertices j i ((h.predecessors i j).1 hij)).1
  obtain ⟨vertexForm, hwrite₁, hread₁⟩ := hvertices
  obtain ⟨edgeForm, hwrite₂, hread₂⟩ := hedges
  obtain ⟨successorForm, hwrite₃, hread₃⟩ := hsuccessors
  obtain ⟨predecessorForm, hwrite₄, hread₄⟩ := hpredecessors
  refine ⟨.object [("vertices", vertexForm), ("edges", edgeForm), ("successors", successorForm),
    ("predecessors", predecessorForm)], ?_, ?_⟩
  · exact needs_eq_ok.2 ⟨_, hwrite₁, needs_eq_ok.2 ⟨_, hwrite₂, needs_eq_ok.2 ⟨_, hwrite₃,
      needs_eq_ok.2 ⟨_, hwrite₄, rfl⟩⟩⟩⟩
  · refine read_field (by simp [field?]) hread₁ ?_
    refine read_field (by simp [field?]) hread₂ ?_
    refine read_field (by simp [field?]) hread₃ ?_
    exact read_field (by simp [field?]) hread₄ rfl

omit [Decode ν] [Decode ε] in
/-- With an edge a graph cannot be written. -/
theorem Graph.encode_error (h : g.Consistent) (someEdge : g.edges ≠ []) :
    encode g = .error .keyNotText := by
  obtain ⟨e, he⟩ := List.exists_mem_of_ne_nil _ someEdge
  have hends : g.edgeMap[Ends.mk (IsEdge.head e) (IsEdge.tail e)]? = some e :=
    h.edgeMap_eq_some.2 ⟨he, rfl⟩
  have hmem : ⟨IsEdge.head e, IsEdge.tail e⟩ ∈ g.edgeMap := by
    rw [Std.ExtTreeMap.mem_iff_isSome_getElem?, hends, Option.isSome_some]
  have hedges : encode g.edgeMap = .error .keyNotText := encode_map_error hmem rfl
  exact write_fails fun _ _ => write_fails fun _ hwritten => nomatch hedges.symm.trans hwritten

end Graph

/-! ### Control flow graphs and methods -/

namespace ControlFlowGraph
variable {c : ControlFlowGraph}

/-- The entry and the exit are blocks, so they have 64 bits too. -/
theorem read_optional (h : c.WellFormed) (within : Within c.numbers) {x : Option Nat}
    (block : ∀ i, x = some i → c.graph.hasVertex i) {fields : List (String × Json)} {key : String}
    (field : (Json.object fields).field? key = some (optional nat x)) :
    (Json.object fields).optionalField? index? key = some x := by
  refine optionalField?_optional field fun i hi => ⟨by simp [nat], index?_nat ?_⟩
  exact Nat.lt_trans ((h.numbers i).1 (block i hi)) (within_cons.1 within).1

theorem survives (h : c.WellFormed) (within : Within c.numbers) (noEdges : c.edges = []) :
    Survives c := by
  obtain ⟨hnext, hblocks⟩ := within_cons.1 within
  have hgraph : Survives c.graph := by
    refine Graph.survives h.consistent noEdges fun b hb => ?_
    have hb := within_flatMap.1 hblocks b hb
    exact ⟨(within_cons.1 hb).1, b.toJson, rfl, Block.read hb⟩
  obtain ⟨form, hwrite, hread⟩ := hgraph
  refine ⟨.object [("graph", form), ("next_index", nat c.nextIndex),
    ("entry", optional nat c.entry), ("exit", optional nat c.exit)], ?_, ?_⟩
  · exact needs_eq_ok.2 ⟨_, hwrite, rfl⟩
  · refine read_field (by simp [field?]) hread ?_
    refine read_field (by simp [field?]) (index?_nat hnext) ?_
    refine Option.bind_eq_some_iff.2 ⟨_, read_optional h within h.entry (by simp [field?]), ?_⟩
    exact Option.bind_eq_some_iff.2 ⟨_, read_optional h within h.exit (by simp [field?]), rfl⟩

theorem encode_error (h : c.WellFormed) (someEdge : c.edges ≠ []) :
    encode c = .error .keyNotText := by
  have hgraph := Graph.encode_error h.consistent someEdge
  exact write_fails fun _ hwritten => nomatch hgraph.symm.trans hwritten

end ControlFlowGraph

namespace Method
variable {m : Method}

theorem survives (h : m.body.WellFormed) (within : Within m.numbers)
    (noEdges : m.body.edges = []) : Survives m := by
  obtain ⟨hannotations, hbody⟩ := within_append.1 within
  obtain ⟨form, hwrite, hread⟩ := ControlFlowGraph.survives h hbody noEdges
  have hlist := list?_map fun a ha => Annotation.read (within_flatMap.1 hannotations a ha)
  refine ⟨.object [("name", .text m.name),
    ("annotations", .array (m.annotations.map Annotation.toJson)), ("control_flow_graph", form)],
    ?_, ?_⟩
  · exact needs_eq_ok.2 ⟨_, hwrite, rfl⟩
  · refine read_field (by simp [field?]) (rfl : text? (.text m.name) = some m.name) ?_
    refine read_field (by simp [field?]) hlist ?_
    exact read_field (by simp [field?]) hread rfl

theorem encode_error (h : m.body.WellFormed) (someEdge : m.body.edges ≠ []) :
    encode m = .error .keyNotText := by
  have hbody := ControlFlowGraph.encode_error h someEdge
  exact write_fails fun _ hwritten => nomatch hbody.symm.trans hwritten

end Method

/-- A built program, and a method with it for a body, survive being written when there are no
edges between the blocks, and only then: with an edge neither can be written. -/
theorem Method.survives_iff (m : Method) (built : m.body.Built) (within : Within m.numbers) :
    (Survives m.body ↔ m.body.edges = []) ∧ (Survives m ↔ m.body.edges = []) ∧
      (m.body.edges ≠ [] →
        encode m.body = .error .keyNotText ∧ encode m = .error .keyNotText) := by
  have h := built.wellFormed
  have hbody : Within m.body.numbers := (within_append.1 within).2
  refine ⟨⟨fun hsurvives => ?_, ControlFlowGraph.survives h hbody⟩,
    ⟨fun hsurvives => ?_, Method.survives h within⟩,
    fun someEdge => ⟨ControlFlowGraph.encode_error h someEdge, Method.encode_error h someEdge⟩⟩
  · by_contra someEdge
    exact not_survives_of_error (ControlFlowGraph.encode_error h someEdge) hsurvives
  · by_contra someEdge
    exact not_survives_of_error (Method.encode_error h someEdge) hsurvives

/-- Two blocks that no edge joins, with an operand of every kind. -/
def unjoined : Method where
  name := "Plugins.Load"
  annotations := [.requires "UnreferencedCode" "Types are found by name", .reflectionAccess 1]
  body := .build [.newBlock, .newBlock, .push 0 (.load ⟨4⟩), .push 0 (.assign ⟨5⟩ (.text "Run")),
    .push 0 (.call ⟨"Type.GetMethod", [.reflectionAccess 1]⟩ [.type "Plugin", .slot ⟨5⟩] (some ⟨6⟩)),
    .push 1 (.assume "UnreferencedCode"), .push 1 (.ret (some .null)), .setEntry 0, .setExit 1]

theorem Method.survives_iff_unjoined : unjoined.body.Built ∧ Within unjoined.numbers ∧
    unjoined.body.edges = [] ∧ Survives unjoined.body ∧ Survives unjoined := by
  have hbuilt : unjoined.body.Built := ⟨_, rfl⟩
  have hwithin : Within unjoined.numbers := by decide +kernel
  have hnone : unjoined.body.edges = [] := by decide +kernel
  obtain ⟨hbody, hmethod, -⟩ := Method.survives_iff unjoined hbuilt hwithin
  exact ⟨hbuilt, hwithin, hnone, hbody.2 hnone, hmethod.2 hnone⟩

/-- Two blocks and the edge between them. -/
def joined : Method where
  name := "Plugins.Load"
  annotations := []
  body := .build [.newBlock, .newBlock, .addEdge 0 1]

/-- One edge is enough for a program, and a method with it, not to be written. -/
theorem joined_keyNotText : joined.body.Built ∧ Within joined.numbers ∧
    encode joined.body = .error .keyNotText ∧ encode joined = .error .keyNotText ∧
      ¬ Survives joined.body ∧ ¬ Survives joined := by
  have hbuilt : joined.body.Built := ⟨_, rfl⟩
  have hwithin : Within joined.numbers := by decide +kernel
  have hedge : joined.body.edges ≠ [] := by decide +kernel
  have hbody := ControlFlowGraph.encode_error hbuilt.wellFormed hedge
  have hmethod := Method.encode_error hbuilt.wellFormed hedge
  exact ⟨hbuilt, hwithin, hbody, hmethod, not_survives_of_error hbody,
    not_survives_of_error hmethod⟩

end FlowFacts
