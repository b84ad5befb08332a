import FlowFacts.Graph.Basic

/-! A graph in the language of graphviz: three settings, then a statement for each
vertex and each edge. A line of a label ends in `\l`, which sets it to the left;
nothing else in a label is changed. -/
namespace FlowFacts.Graph
variable {ν ε : Type}

/-- Line ends as graphviz writes them in a label. -/
def dotLabel (label : String) : String :=
  String.ofList (label.toList.flatMap fun c => if c = '\n' then ['\\', 'l'] else [c])

def dotVertex [IsVertex ν] (v : ν) : String :=
  (IsVertex.index v).repr ++ " [shape=\"box\", label=\"" ++ dotLabel (IsVertex.label v) ++
    "\", style=\"filled\", fillcolor=\"#ffddcc\"];"

def dotEdge [IsEdge ε] (e : ε) : String :=
  (IsEdge.head e).repr ++ " -> " ++ (IsEdge.tail e).repr ++
    " [label=\"" ++ dotLabel (IsEdge.label e) ++ "\"];"

def dotSettings : List String :=
  ["graph [fontname = \"Courier New\", splines=\"polyline\"]",
    "node [fontname = \"Courier New\"]",
    "edge [fontname = \"Courier New\"]"]

def dot [IsVertex ν] [IsEdge ε] (g : Graph ν ε) : String :=
  "digraph G \x7b\n" ++ "\n".intercalate dotSettings ++
    "\n\n" ++ "\n".intercalate (g.vertices.map dotVertex) ++
    "\n" ++ "\n".intercalate (g.edges.map dotEdge) ++ "\n\x7d"

end FlowFacts.Graph
