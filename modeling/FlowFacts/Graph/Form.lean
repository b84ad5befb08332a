import FlowFacts.Graph.Plain
import FlowFacts.Json.Codec

/-! The JSON form of a graph: its four maps, with a vertex number as a text for a
key. The ends of an edge are no text, so a graph with edges cannot be written, and
a graph read from JSON has none. -/
namespace FlowFacts
open Json

instance : EncodeKey Ends := ⟨fun _ => .error .keyNotText⟩
instance : DecodeKey Ends := ⟨fun _ => none⟩

variable {ν ε : Type}

instance [Encode ν] [Encode ε] : Encode (Graph ν ε) where
  encode g := do
    let vertices ← encode g.vertexMap
    let edges ← encode g.edgeMap
    let successors ← encode g.successorMap
    let predecessors ← encode g.predecessorMap
    return .object [("vertices", vertices), ("edges", edges), ("successors", successors),
      ("predecessors", predecessors)]

instance [Decode ν] [Decode ε] : Decode (Graph ν ε) where
  decode j := do
    return {
      vertexMap := ← decode (← j.field? "vertices")
      edgeMap := ← decode (← j.field? "edges")
      successorMap := ← decode (← j.field? "successors")
      predecessorMap := ← decode (← j.field? "predecessors") }

/-! ### Vertices and edges -/

instance : Encode PlainVertex := ⟨fun v => .ok (.object [("index", nat v.index)])⟩
instance : Decode PlainVertex := ⟨fun j => do return ⟨← (← j.field? "index").index?⟩⟩

instance : Encode PlainEdge where
  encode e := .ok (.object [("head", nat e.head), ("tail", nat e.tail)])

instance : Decode PlainEdge where
  decode j := do return ⟨← (← j.field? "head").index?, ← (← j.field? "tail").index?⟩

instance : Encode LabelledVertex where
  encode v := .ok (.object [("index", nat v.index), ("label", .text v.label)])

instance : Decode LabelledVertex where
  decode j := do return ⟨← (← j.field? "index").index?, ← (← j.field? "label").text?⟩

instance : Encode LabelledEdge where
  encode e := .ok (.object [("head", nat e.head), ("tail", nat e.tail), ("label", .text e.label)])

instance : Decode LabelledEdge where
  decode j := do
    return ⟨← (← j.field? "head").index?, ← (← j.field? "tail").index?,
      ← (← j.field? "label").text?⟩

end FlowFacts
