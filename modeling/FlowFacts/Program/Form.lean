import FlowFacts.Graph.Form
import FlowFacts.Program.Method

/-! JSON forms of programs.

A record is an object with its fields in order. A case without content is its name;
a case with content is an object with the name as its one key. Reading ignores
fields it does not know, and takes a missing optional field as absent. -/
namespace FlowFacts
open Json

/-! ### Locals and operands -/

namespace Local

def toJson (l : Local) : Json := .object [("index", nat l.index)]

def ofJson? (j : Json) : Option Local := do return ⟨← (← j.field? "index").index?⟩

end Local

instance : Encode Local := ⟨fun l => .ok l.toJson⟩
instance : Decode Local := ⟨Local.ofJson?⟩

namespace Operand

def toJson : Operand → Json
  | .slot l => tagged "Local" l.toJson
  | .text value => tagged "Str" (.text value)
  | .type name => tagged "Type" (.text name)
  | .null => .text "Null"

def ofJson? (j : Json) : Option Operand := do
  match ← j.case? with
  | ("Local", c) => (content? Local.ofJson? c).map .slot
  | ("Str", c) => (content? text? c).map .text
  | ("Type", c) => (content? text? c).map .type
  | ("Null", c) => plain? .null c
  | _ => none

end Operand

instance : Encode Operand := ⟨fun o => .ok o.toJson⟩
instance : Decode Operand := ⟨Operand.ofJson?⟩

/-! ### Annotations and method references -/

namespace Annotation

def toJson : Annotation → Json
  | .requires capability message =>
    tagged "Requires" (.object [("capability", .text capability), ("message", .text message)])
  | .reflectionAccess argument =>
    tagged "ReflectionAccess" (.object [("argument", nat argument)])

def ofJson? (j : Json) : Option Annotation := do
  match ← j.case? with
  | ("Requires", some c) =>
    return .requires (← (← c.field? "capability").text?) (← (← c.field? "message").text?)
  | ("ReflectionAccess", some c) => return .reflectionAccess (← (← c.field? "argument").index?)
  | _ => none

end Annotation

instance : Encode Annotation := ⟨fun a => .ok a.toJson⟩
instance : Decode Annotation where
  decode := Annotation.ofJson?

namespace MethodRef

def toJson (m : MethodRef) : Json :=
  .object [("name", .text m.name), ("annotations", .array (m.annotations.map Annotation.toJson))]

def ofJson? (j : Json) : Option MethodRef := do
  return ⟨← (← j.field? "name").text?, ← (← j.field? "annotations").list? Annotation.ofJson?⟩

end MethodRef

instance : Encode MethodRef := ⟨fun m => .ok m.toJson⟩
instance : Decode MethodRef := ⟨MethodRef.ofJson?⟩

/-! ### Operations and instructions -/

namespace OperationKind

def name : OperationKind → String
  | .assign => "Assign"
  | .load => "Load"
  | .call => "Call"
  | .assume => "Assume"
  | .ret => "Return"
  | .nop => "Nop"

def toJson (k : OperationKind) : Json := .text k.name

def ofName? (s : String) : Option OperationKind := all.find? fun k => k.name == s

def ofJson? (j : Json) : Option OperationKind := do
  let (name, content) ← j.case?
  plain? (← ofName? name) content

end OperationKind

instance : Encode OperationKind := ⟨fun k => .ok k.toJson⟩
instance : Decode OperationKind := ⟨OperationKind.ofJson?⟩

namespace Operation

def toJson : Operation → Json
  | .assign dst src => tagged "Assign" (.object [("dst", dst.toJson), ("src", src.toJson)])
  | .load dst => tagged "Load" (.object [("dst", dst.toJson)])
  | .call callee args dst =>
    tagged "Call" (.object [("callee", callee.toJson), ("args", .array (args.map Operand.toJson)),
      ("dst", optional Local.toJson dst)])
  | .assume capability => tagged "Assume" (.object [("capability", .text capability)])
  | .ret value => tagged "Return" (.object [("value", optional Operand.toJson value)])
  | .nop => .text "Nop"

def ofJson? (j : Json) : Option Operation := do
  match ← j.case? with
  | ("Assign", some c) =>
    return .assign (← Local.ofJson? (← c.field? "dst"))
      (← Operand.ofJson? (← c.field? "src"))
  | ("Load", some c) => return .load (← Local.ofJson? (← c.field? "dst"))
  | ("Call", some c) =>
    return .call (← MethodRef.ofJson? (← c.field? "callee"))
      (← (← c.field? "args").list? Operand.ofJson?)
      (← c.optionalField? Local.ofJson? "dst")
  | ("Assume", some c) => return .assume (← (← c.field? "capability").text?)
  | ("Return", some c) =>
    return .ret (← c.optionalField? Operand.ofJson? "value")
  | ("Nop", c) => plain? .nop c
  | _ => none

end Operation

instance : Encode Operation := ⟨fun o => .ok o.toJson⟩
instance : Decode Operation := ⟨Operation.ofJson?⟩

namespace Instruction

def toJson (i : Instruction) : Json :=
  .object [("operation", i.operation.toJson), ("index", nat i.index)]

def ofJson? (j : Json) : Option Instruction := do
  return ⟨← Operation.ofJson? (← j.field? "operation"), ← (← j.field? "index").index?⟩

end Instruction

instance : Encode Instruction := ⟨fun i => .ok i.toJson⟩
instance : Decode Instruction := ⟨Instruction.ofJson?⟩

/-! ### Blocks and edges -/

namespace Block

def toJson (b : Block) : Json :=
  .object [("index", nat b.index), ("next_instruction_index", nat b.nextInstruction),
    ("instructions", .array (b.instructions.map Instruction.toJson))]

def ofJson? (j : Json) : Option Block := do
  return ⟨← (← j.field? "index").index?, ← (← j.field? "next_instruction_index").index?,
    ← (← j.field? "instructions").list? Instruction.ofJson?⟩

end Block

instance : Encode Block := ⟨fun b => .ok b.toJson⟩
instance : Decode Block := ⟨Block.ofJson?⟩

namespace Edge

def toJson (e : Edge) : Json := .object [("head", nat e.head), ("tail", nat e.tail)]

def ofJson? (j : Json) : Option Edge := do
  return ⟨← (← j.field? "head").index?, ← (← j.field? "tail").index?⟩

end Edge

instance : Encode Edge := ⟨fun e => .ok e.toJson⟩
instance : Decode Edge := ⟨Edge.ofJson?⟩

/-! ### Graphs, methods and points -/

instance : Encode ControlFlowGraph where
  encode c := do
    let graph ← encode c.graph
    return .object [("graph", graph), ("next_index", nat c.nextIndex),
      ("entry", optional nat c.entry), ("exit", optional nat c.exit)]

instance : Decode ControlFlowGraph where
  decode j := do
    return {
      graph := ← decode (← j.field? "graph")
      nextIndex := ← (← j.field? "next_index").index?
      entry := ← j.optionalField? index? "entry"
      exit := ← j.optionalField? index? "exit" }

instance : Encode Method where
  encode m := do
    let body ← encode m.body
    return .object [("name", .text m.name),
      ("annotations", .array (m.annotations.map Annotation.toJson)), ("control_flow_graph", body)]

instance : Decode Method where
  decode j := do
    return {
      name := ← (← j.field? "name").text?
      annotations := ← (← j.field? "annotations").list? Annotation.ofJson?
      body := ← decode (← j.field? "control_flow_graph") }

namespace Point

def toJson : Point → Json
  | .instruction block index =>
    tagged "Instruction" (.object [("block", nat block), ("instruction", nat index)])
  | .emptyBlock block => tagged "EmptyBlock" (.object [("block", nat block)])

def ofJson? (j : Json) : Option Point := do
  match ← j.case? with
  | ("Instruction", some c) =>
    return .instruction (← (← c.field? "block").index?) (← (← c.field? "instruction").index?)
  | ("EmptyBlock", some c) => return .emptyBlock (← (← c.field? "block").index?)
  | _ => none

end Point

instance : Encode Point := ⟨fun p => .ok p.toJson⟩
instance : Decode Point := ⟨Point.ofJson?⟩

end FlowFacts
