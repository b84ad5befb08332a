import FlowFacts.Proofs.Graph.Consistent
import Mathlib.Data.List.Induction

/-! Graphs that a caller has made.

From the graph without vertices a caller inserts vertices and edges, and changes what a vertex
carries; what is refused counts too (`Built`). While every vertex keeps its number (`Made`), the
four maps of the graph agree. What stands beside the vertices and the edges is then settled by
them: two graphs that a caller has made, in whatever order, are the same graph when they have the
same vertices and the same edges (`Made.representation`). -/
namespace FlowFacts.Graph
variable {ν ε : Type} [IsVertex ν] [IsEdge ε] {g g' : Graph ν ε}

/-! ### Changes -/

inductive Change (ν ε : Type) where
  | insertVertex (v : ν)
  | insertEdge (e : ε)
  | updateVertex (index : Nat) (f : ν → ν)

namespace Change

def step : Change ν ε → EStateM Error (Graph ν ε) Unit
  | .insertVertex v => Graph.insertVertex v
  | .insertEdge e => Graph.insertEdge e
  | .updateVertex index f => Graph.updateVertex index f

/-- What the change leaves, whether it succeeds or fails. -/
def apply (g : Graph ν ε) (change : Change ν ε) : Graph ν ε :=
  match change.step g with
  | .ok _ next => next
  | .error _ next => next

theorem apply_ok (change : Change ν ε) {next : Graph ν ε} (h : change.step g = .ok () next) :
    change.apply g = next := by
  rw [apply, h]

theorem apply_error (change : Change ν ε) {error : Error} {next : Graph ν ε}
    (h : change.step g = .error error next) : change.apply g = next := by
  rw [apply, h]

/-- A vertex that is changed keeps its number. -/
def KeepsNumbers (g : Graph ν ε) : Change ν ε → Prop
  | .insertVertex _ => True
  | .insertEdge _ => True
  | .updateVertex index f =>
    ∀ v, g.vertex index = .ok v → IsVertex.index (f v) = IsVertex.index v

end Change

/-- The graph that some changes make, one after another. -/
def make (changes : List (Change ν ε)) : Graph ν ε := changes.foldl Change.apply empty

/-- Some changes have made the graph, whatever numbers its vertices have come to carry. -/
def Built (g : Graph ν ε) : Prop := ∃ changes, make changes = g

/-- Changes that keep numbers have made the graph, one after another. -/
inductive Made : Graph ν ε → Prop
  | empty : Made empty
  | change {g : Graph ν ε} (made : Made g) (change : Change ν ε) (keeps : change.KeepsNumbers g) :
      Made (change.apply g)

theorem made_foldl {changes : List (Change ν ε)}
    (keeps : ∀ change ∈ changes, ∀ g : Graph ν ε, change.KeepsNumbers g) (made : g.Made) :
    (changes.foldl Change.apply g).Made := by
  induction changes generalizing g with
  | nil => exact made
  | cons change changes ih =>
    exact ih (fun other h => keeps other (List.mem_cons_of_mem change h))
      (made.change change (keeps change List.mem_cons_self g))

/-! ### Every change keeps the maps in step -/

/-- A change that is not refused adds a new vertex, or an edge between vertices, or changes what a
vertex carries. -/
theorem Change.apply_cases {motive : Graph ν ε → Prop} (change : Change ν ε) (refused : motive g)
    (addVertex : ∀ v, g.hasVertex (IsVertex.index v) = false → motive (g.addVertex v))
    (addEdge : ∀ e, g.hasVertex (IsEdge.head e) → g.hasVertex (IsEdge.tail e) →
      motive (g.addEdge e))
    (modifyVertex : ∀ i f, change = .updateVertex i f → motive (g.modifyVertex i f)) :
    motive (change.apply g) := by
  cases change with
  | insertVertex v =>
    rcases insertVertex_cases g v with ⟨fresh, hok⟩ | ⟨-, e, hno⟩
    · rw [apply_ok (.insertVertex v) hok]
      exact addVertex v fresh
    · rw [apply_error (.insertVertex v) hno]
      exact refused
  | insertEdge e =>
    rcases insertEdge_cases g e with ⟨-, hhead, htail, hok⟩ | ⟨error, hno⟩
    · rw [apply_ok (.insertEdge e) hok]
      exact addEdge e hhead htail
    · rw [apply_error (.insertEdge e) hno]
      exact refused
  | updateVertex i f =>
    rcases updateVertex_cases g i f with hok | ⟨-, error, hno⟩
    · rw [apply_ok (.updateVertex i f) hok]
      exact modifyVertex i f rfl
    · rw [apply_error (.updateVertex i f) hno]
      exact refused

theorem Made.consistent (h : g.Made) : g.Consistent := by
  induction h with
  | empty => exact consistent_empty
  | change _ change keeps ih =>
    refine change.apply_cases ih (fun _ => ih.addVertex) (fun _ => ih.addEdge) fun i f heq => ?_
    subst heq
    exact ih.modifyVertex keeps

/-! ### The vertices and the edges say everything -/

/-- Maps that hold sets with the same members under the same numbers are the same. -/
theorem neighbours_ext {m m' : Std.ExtTreeMap Nat Indices} (keys : ∀ i, i ∈ m ↔ i ∈ m')
    (members : ∀ i j, Neighbour m i j ↔ Neighbour m' i j) : m = m' := by
  refine Std.ExtTreeMap.ext_getElem? fun i => ?_
  have hkeys := keys i
  rw [Std.ExtTreeMap.mem_iff_isSome_getElem?, Std.ExtTreeMap.mem_iff_isSome_getElem?] at hkeys
  cases hs : m[i]? with
  | none => cases hs' : m'[i]? <;> simp_all
  | some s =>
    cases hs' : m'[i]? with
    | none => simp_all
    | some s' =>
      refine congrArg some (Std.ExtTreeSet.ext_mem fun j => ?_)
      have hmembers := members i j
      simp only [Neighbour, hs, hs', Option.some.injEq, exists_eq_left'] at hmembers
      exact hmembers

namespace Consistent

/-- A consistent graph is known by its vertices and its edges. -/
theorem ext (h : g.Consistent) (h' : g'.Consistent) (vertices : g'.vertices = g.vertices)
    (edges : g'.edges = g.edges) : g' = g := by
  have hvertexMap : g'.vertexMap = g.vertexMap := by
    refine Std.ExtTreeMap.ext_getElem? fun i => Option.ext fun v => ?_
    rw [h'.vertexMap_eq_some, h.vertexMap_eq_some, vertices]
  have hedgeMap : g'.edgeMap = g.edgeMap := by
    refine Std.ExtTreeMap.ext_getElem? fun ends => Option.ext fun e => ?_
    rw [h'.edgeMap_eq_some, h.edgeMap_eq_some, edges]
  have hvertex (i : Nat) : g'.hasVertex i = g.hasVertex i := by
    rw [hasVertex, hasVertex, hvertexMap]
  have hedge (i j : Nat) : g'.hasEdge i j = g.hasEdge i j := by
    rw [hasEdge, hasEdge, hedgeMap]
  have hsuccessors : g'.successorMap = g.successorMap :=
    neighbours_ext (fun i => by rw [h'.successor_keys, h.successor_keys, hvertex])
      fun i j => by rw [h'.successors, h.successors, hedge]
  have hpredecessors : g'.predecessorMap = g.predecessorMap :=
    neighbours_ext (fun i => by rw [h'.predecessor_keys, h.predecessor_keys, hvertex])
      fun i j => by rw [h'.predecessors, h.predecessors, hedge]
  cases g
  cases g'
  simp_all

end Consistent

/-- The four maps of a graph that a caller has made agree, and no other graph that a caller has
made has its vertices and its edges. -/
theorem Made.representation (h : g.Made) : g.Consistent ∧
    ∀ g' : Graph ν ε, g'.Made → g'.vertices = g.vertices → g'.edges = g.edges → g' = g :=
  ⟨h.consistent, fun _ made vertices edges => h.consistent.ext made.consistent vertices edges⟩

/-- Two vertices and what joins them, with some changes that are refused. -/
def joinedChanges : List (Change LabelledVertex LabelledEdge) :=
  [.insertVertex ⟨4, "entry"⟩, .insertVertex ⟨7, "draft"⟩, .insertEdge ⟨4, 7, "falls"⟩,
    .insertVertex ⟨4, "again"⟩, .insertEdge ⟨4, 9, "nowhere"⟩, .insertEdge ⟨7, 7, "loops"⟩,
    .updateVertex 7 fun v => { v with label := "exit" }]

/-- The same vertices and edges in another order. -/
def turnedChanges : List (Change LabelledVertex LabelledEdge) :=
  [.insertVertex ⟨7, "exit"⟩, .insertEdge ⟨7, 7, "loops"⟩, .insertEdge ⟨4, 7, "early"⟩,
    .updateVertex 4 fun v => { v with label := "early" }, .insertVertex ⟨4, "entry"⟩,
    .insertEdge ⟨4, 7, "falls"⟩, .insertEdge ⟨4, 7, "twice"⟩]

theorem representation_turned : (make joinedChanges).Made ∧ (make turnedChanges).Made ∧
    (make turnedChanges).vertices = (make joinedChanges).vertices ∧
      (make turnedChanges).edges = (make joinedChanges).edges ∧
        (make joinedChanges).Consistent ∧ make turnedChanges = make joinedChanges := by
  have hjoined : (make joinedChanges).Made :=
    made_foldl (by simp [joinedChanges, Change.KeepsNumbers, IsVertex.index]) .empty
  have hturned : (make turnedChanges).Made :=
    made_foldl (by simp [turnedChanges, Change.KeepsNumbers, IsVertex.index]) .empty
  have hvertices : (make turnedChanges).vertices = (make joinedChanges).vertices := by
    decide +kernel
  have hedges : (make turnedChanges).edges = (make joinedChanges).edges := by decide +kernel
  obtain ⟨hconsistent, hsame⟩ := hjoined.representation
  exact ⟨hjoined, hturned, hvertices, hedges, hconsistent, hsame _ hturned hvertices hedges⟩

end FlowFacts.Graph
