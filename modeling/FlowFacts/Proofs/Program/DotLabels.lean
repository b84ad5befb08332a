import FlowFacts.Proofs.Graph.DotStrings
import FlowFacts.Proofs.Program.Built
import FlowFacts.Proofs.Text.Hex

/-! Which blocks have a label that can be read back.

A block's label is its text, and nothing in it is escaped but the line ends. What stands in it
freely is the names of types, callees and capabilities, each of which may have a quote; a text
literal stands between quotes of its own, so that the first one in a block ends the label,
whatever the literal is. `Block.Quotable` says that a block has neither. Its label is then read
back up to the quote that was written to close it, and otherwise up to a quote of its own
(`labels_read_back`). -/
namespace FlowFacts
open Dot

/-! ### Numbers -/

theorem plain_digits {digits : List Char} (h : digits ⊆ Text.capitalDigits) :
    Plain (String.ofList digits) := by
  have hquote : '"' ∉ Text.capitalDigits := by decide
  have hslash : '\\' ∉ Text.capitalDigits := by decide
  unfold Plain
  rw [String.toList_ofList]
  exact fun c hc => ⟨ne_of_mem_of_not_mem (h hc) hquote, ne_of_mem_of_not_mem (h hc) hslash⟩

theorem plain_hexNumberCapital (n : Nat) : Plain (Text.hexNumberCapital n) :=
  Plain.append (by decide) (plain_digits (Text.hexCapital_subset n))

theorem Local.plain_display (l : Local) : Plain l.display :=
  Plain.append (by decide) (plain_repr l.index)

/-! ### What can stand in a label -/

def Operand.Quotable : Operand → Prop
  | .slot _ | .null => True
  | .text _ => False
  | .type name => Harmless name

instance (o : Operand) : Decidable o.Quotable :=
  match o with
  | .slot _ | .null => inferInstanceAs (Decidable True)
  | .text _ => inferInstanceAs (Decidable False)
  | .type name => inferInstanceAs (Decidable (Harmless name))

/-- No text literal is read, and no name in the operation has a quote that ends the label. -/
def Operation.Quotable : Operation → Prop
  | .assign _ src => src.Quotable
  | .call callee args _ => Harmless callee.name ∧ ∀ o ∈ args, o.Quotable
  | .assume capability => Harmless capability
  | .ret (some value) => value.Quotable
  | .load _ | .ret none | .nop => True

instance (o : Operation) : Decidable o.Quotable :=
  match o with
  | .assign _ src => inferInstanceAs (Decidable src.Quotable)
  | .call callee args _ =>
    inferInstanceAs (Decidable (Harmless callee.name ∧ ∀ o ∈ args, o.Quotable))
  | .assume capability => inferInstanceAs (Decidable (Harmless capability))
  | .ret (some value) => inferInstanceAs (Decidable value.Quotable)
  | .load _ | .ret none | .nop => inferInstanceAs (Decidable True)

def Block.Quotable (b : Block) : Prop := ∀ i ∈ b.instructions, i.operation.Quotable

instance (b : Block) : Decidable b.Quotable :=
  inferInstanceAs (Decidable (∀ i ∈ b.instructions, i.operation.Quotable))

/-! ### Texts of operations -/

/-- A text literal begins with a quote of its own. -/
theorem not_harmless_quoted (value : String) : ¬Harmless (Text.quoted value) := by
  rw [Harmless, Text.quoted, String.toList_ofList, List.cons_append, scan_cons]
  exact Bool.false_ne_true

theorem Operand.harmless_display (o : Operand) : Harmless o.display ↔ o.Quotable := by
  cases o with
  | slot l => exact iff_of_true l.plain_display.harmless trivial
  | text value => exact iff_of_false (not_harmless_quoted value) id
  | type name =>
    have hopen : Plain "typeof(" := by decide
    have hclose : Plain ")" := by decide
    rw [display, harmless_before hclose (by decide), harmless_after hopen, Quotable]
  | null => exact iff_of_true (by decide) trivial

/-- A call after the name of the local that takes its result, if there is one. -/
theorem harmless_call {start : String} (h : Plain start) (callee : MethodRef)
    (args : List Operand) :
    Harmless (start ++ "call " ++ callee.display ++ "(" ++
        ", ".intercalate (args.map Operand.display) ++ ")") ↔
      Harmless callee.name ∧ ∀ o ∈ args, o.Quotable := by
  have hstart : Plain (start ++ "call ") := h.append (by decide)
  have hopen : Plain "(" := by decide
  have hcomma : Plain ", " := by decide
  have hclose : Plain ")" := by decide
  rw [harmless_before hclose (by decide), harmless_between hopen (by decide),
    harmless_after hstart, harmless_intercalate hcomma (by decide), List.forall_mem_map]
  exact and_congr_right fun _ => forall₂_congr fun o _ => o.harmless_display

theorem Operation.harmless_display (o : Operation) : Harmless o.display ↔ o.Quotable := by
  cases o with
  | assign dst src =>
    have hdst : Plain (dst.display ++ " = ") := dst.plain_display.append (by decide)
    rw [display, harmless_after hdst, src.harmless_display, Quotable]
  | load dst =>
    exact iff_of_true (dst.plain_display.append (by decide)).harmless trivial
  | call callee args dst =>
    cases dst with
    | none => exact harmless_call (by decide) callee args
    | some dst => exact harmless_call (dst.plain_display.append (by decide)) callee args
  | assume capability =>
    have hassume : Plain "assume " := by decide
    rw [display, harmless_after hassume, Quotable]
  | ret value =>
    cases value with
    | none => exact iff_of_true (by decide) trivial
    | some value =>
      have hret : Plain "ret " := by decide
      rw [display, harmless_after hret, value.harmless_display, Quotable]
  | nop => exact iff_of_true (by decide) trivial

theorem Instruction.harmless_display (i : Instruction) :
    Harmless i.display ↔ i.operation.Quotable := by
  have hnumber : Plain (String.ofList (Text.hexPair i.index) ++ " ") :=
    (plain_digits (Text.hexPair_subset i.index)).append (by decide)
  rw [display, harmless_after hnumber, i.operation.harmless_display]

theorem Block.scan_display (b : Block) :
    scan false b.display.toList = if b.Quotable then some false else none := by
  have hheading : Plain ("[ Block: " ++ Text.hexNumberCapital b.index ++ " ]\n") :=
    (Plain.append (by decide) (plain_hexNumberCapital b.index)).append (by decide)
  rw [display, scan_lines hheading]
  exact if_congr (forall₂_congr fun i _ => i.harmless_display) rfl rfl

theorem Block.closed_display (b : Block) : Closed b.display ↔ b.Quotable := by
  rw [Closed, b.scan_display]
  split <;> simp_all

/-! ### Labels of blocks -/

namespace ControlFlowGraph
open FlowFacts.Graph (dotLabel dotBefore dotAfter)

/-- **The label of a block is read back when the block is quotable, and only then.** It stands in the
text between its quotes, and is read up to the one that was written to close it; that of any other
block ends before, at a quote of its own. Where every block is quotable, the strings of the whole
text are the ones that were written. -/
theorem labels_read_back (c : ControlFlowGraph) :
    (∀ earlier b later, c.blocks = earlier ++ b :: later →
      c.dot = dotBefore earlier b ++ dotLabel b.display ++ "\"" ++ dotAfter later c.edges ∧
      (readString ((dotLabel b.display).toList ++ '"' :: (dotAfter later c.edges).toList) =
        some ((dotLabel b.display).toList, (dotAfter later c.edges).toList) ↔ b.Quotable) ∧
      (¬b.Quotable → ∃ inside tail, (dotLabel b.display).toList = inside ++ '"' :: tail ∧
        readString ((dotLabel b.display).toList ++ '"' :: (dotAfter later c.edges).toList) =
          some (inside, tail ++ '"' :: (dotAfter later c.edges).toList))) ∧
    ((∀ b ∈ c.blocks, b.Quotable) →
      strings c.dot.toList =
        ["Courier New", "polyline", "Courier New", "Courier New"] ++
          c.blocks.flatMap (fun b => ["box", dotLabel b.display, "filled", "#ffddcc"]) ++
          c.edges.map fun _ => "") := by
  refine ⟨fun earlier b later hsplit => ⟨Graph.dot_eq hsplit, ?_, fun hnot => ?_⟩, fun h => ?_⟩
  · rw [readString_iff]
    exact (Graph.closed_dotLabel b.display).trans b.closed_display
  · refine readOn_of_scan_none ?_ _
    rw [Graph.scan_dotLabel, b.scan_display, if_neg hnot]
  · have hvertices : ∀ b ∈ c.graph.vertices, Closed (IsVertex.label b) :=
      fun b hb => b.closed_display.2 (h b hb)
    have hedges : ∀ e ∈ c.graph.edges, Closed (IsEdge.label e) := fun _ _ => rfl
    exact Graph.strings_dot hvertices hedges

/-- A call with a type among its arguments, and after it an empty block. -/
def lookup : ControlFlowGraph := .build [.newBlock,
  .push 0 (.call ⟨"GetMethod", []⟩ [.type "List<T>", .slot ⟨1⟩] (some ⟨0⟩)), .newBlock, .addEdge 0 1]

/-- One block, which assigns a text literal. -/
def greeting : ControlFlowGraph := .build [.newBlock, .push 0 (.assign ⟨0⟩ (.text "x"))]

def greetingBlock : Block := ⟨0, 1, [⟨.assign ⟨0⟩ (.text "x"), 0⟩]⟩

theorem labels_read_back_lookup :
    (∀ b ∈ lookup.blocks, b.Quotable) ∧
    strings lookup.dot.toList = ["Courier New", "polyline", "Courier New", "Courier New",
      "box", "[ Block: 0x0 ]\\l00 loc0 = call GetMethod(typeof(List<T>), loc1)\\l", "filled",
      "#ffddcc", "box", "[ Block: 0x1 ]\\l", "filled", "#ffddcc", ""] ∧
    greeting.blocks = [greetingBlock] ∧ ¬greetingBlock.Quotable ∧
    ∃ inside tail, (dotLabel greetingBlock.display).toList = inside ++ '"' :: tail := by
  have hquotable : ∀ b ∈ lookup.blocks, b.Quotable := by decide +kernel
  have hblocks : greeting.blocks = [] ++ greetingBlock :: [] := rfl
  have hnot : ¬greetingBlock.Quotable := by decide
  obtain ⟨inside, tail, hends, -⟩ := ((labels_read_back greeting).1 _ _ _ hblocks).2.2 hnot
  exact ⟨hquotable, ((labels_read_back lookup).2 hquotable).trans (by decide +kernel), hblocks, hnot,
    inside, tail, hends⟩

/-- The label of a block with a text literal ends where the literal begins, short of the quote
that was written to close it. -/
theorem text_ends_label :
    greeting.Built ∧ greeting.blocks = [greetingBlock] ∧
      dotLabel greetingBlock.display = "[ Block: 0x0 ]\\l00 loc0 = \"x\"\\l" ∧
      readString ((dotLabel greetingBlock.display).toList ++
          '"' :: (dotAfter ([] : List Block) greeting.edges).toList) =
        some ("[ Block: 0x0 ]\\l00 loc0 = ".toList,
          "x\"\\l\", style=\"filled\", fillcolor=\"#ffddcc\"];\n\n\x7d".toList) :=
  ⟨⟨_, rfl⟩, by decide +kernel, by decide +kernel, by decide +kernel⟩

end ControlFlowGraph

end FlowFacts
