import FlowFacts.Graph.Dot
import Mathlib.Data.List.Basic

/-! Quoted strings in the text of a graph.

In the language of graphviz a string begins with a double quote and ends at the next one that is
not escaped; a backslash escapes the character after it. A label is written between two quotes as
it is, but for its line ends, so that a reader who comes to it may end before it does, at a quote
of its own, or go on after it. Which of the three happens is decided by going through the label
alone (`scan`): it is read back whole, up to the quote that was written to close it, when no quote
ends it and no backslash is left over at its end (`readString_iff`). Where that holds of every
label, the strings of the whole text are the ones that were written (`strings_dot`). -/
namespace FlowFacts

namespace Dot

/-! ### Reading a string -/

/-- A reader in a string takes a character. It ends the string, or the next one is escaped or not. -/
def advance (escaped : Bool) (c : Char) : Option Bool :=
  if escaped then some false
  else if c = '"' then none
  else some (c = '\\')

theorem advance_eq_none {escaped : Bool} {c : Char} :
    advance escaped c = none ↔ escaped = false ∧ c = '"' := by
  unfold advance
  grind

/-- What is left of a string, and the text after the quote that ends it. -/
def readOn (escaped : Bool) : List Char → Option (List Char × List Char)
  | [] => none
  | c :: rest =>
    match advance escaped c with
    | none => some ([], rest)
    | some next => (readOn next rest).map fun found => (c :: found.1, found.2)

/-- The string that begins with this text, after its opening quote. -/
def readString (text : List Char) : Option (List Char × List Char) := readOn false text

/-- Where a reader stands after some text, if no quote in it ends the string. -/
def scan (escaped : Bool) (text : List Char) : Option Bool := text.foldlM advance escaped

theorem scan_cons (escaped : Bool) (c : Char) (text : List Char) :
    scan escaped (c :: text) = (advance escaped c).bind fun next => scan next text :=
  List.foldlM_cons

theorem scan_append (escaped : Bool) (text more : List Char) :
    scan escaped (text ++ more) = (scan escaped text).bind fun next => scan next more :=
  List.foldlM_append

/-- A reader that stays in the string through some text has that text of it. -/
theorem readOn_of_scan {escaped next : Bool} {text : List Char}
    (h : scan escaped text = some next) (rest : List Char) :
    readOn escaped (text ++ rest) =
      (readOn next rest).map fun found => (text ++ found.1, found.2) := by
  induction text generalizing escaped with
  | nil =>
    cases h
    simp
  | cons c text ih =>
    rw [scan_cons] at h
    obtain ⟨middle, hc, hrest⟩ := Option.bind_eq_some_iff.1 h
    simp only [List.cons_append, readOn, hc, ih hrest, Option.map_map]
    rfl

/-- Otherwise the string ends at a quote of the text. -/
theorem readOn_of_scan_none {escaped : Bool} {text : List Char} (h : scan escaped text = none)
    (rest : List Char) : ∃ inside tail, text = inside ++ '"' :: tail ∧
      readOn escaped (text ++ rest) = some (inside, tail ++ rest) := by
  induction text generalizing escaped with
  | nil => cases h
  | cons c text ih =>
    rw [scan_cons] at h
    rw [List.cons_append, readOn]
    cases hc : advance escaped c with
    | none =>
      obtain ⟨-, rfl⟩ := advance_eq_none.1 hc
      exact ⟨[], text, rfl, rfl⟩
    | some middle =>
      rw [hc] at h
      obtain ⟨inside, tail, htext, hread⟩ := ih h
      exact ⟨c :: inside, tail, congrArg (c :: ·) htext, by simp only [hread, Option.map_some]⟩

/-- What stands before a quote is read back, and that quote ends it, when no quote of its own does
and the reader comes out of it with nothing escaped. -/
theorem readString_iff (text rest : List Char) :
    readString (text ++ '"' :: rest) = some (text, rest) ↔ scan false text = some false := by
  unfold readString
  cases hscan : scan false text with
  | none =>
    obtain ⟨inside, tail, htext, hread⟩ := readOn_of_scan_none hscan ('"' :: rest)
    rw [hread]
    refine ⟨fun heq => ?_, nofun⟩
    -- The string would be all of the text, which has a quote and more after it.
    obtain ⟨rfl, -⟩ := Prod.mk.inj (Option.some.inj heq)
    simp at htext
  | some next =>
    rw [readOn_of_scan hscan]
    cases next with
    | false => simp [readOn, advance]
    | true =>
      refine ⟨fun heq => ?_, nofun⟩
      obtain ⟨found, hfound, heq⟩ := Option.map_eq_some_iff.1 heq
      obtain ⟨after, -, rfl⟩ := Option.map_eq_some_iff.1 hfound
      simp at heq

theorem length_of_readOn {escaped : Bool} {text : List Char} {found : List Char × List Char}
    (h : readOn escaped text = some found) : found.2.length < text.length := by
  induction text generalizing escaped found with
  | nil => cases h
  | cons c rest ih =>
    rw [readOn] at h
    cases hc : advance escaped c with
    | none =>
      rw [hc] at h
      cases h
      exact Nat.lt_succ_self rest.length
    | some next =>
      rw [hc] at h
      obtain ⟨inner, hinner, rfl⟩ := Option.map_eq_some_iff.1 h
      have hshorter := ih hinner
      exact Nat.lt_trans hshorter (Nat.lt_succ_self rest.length)

/-- The strings of a text, up to one that does not end. -/
def strings : List Char → List String
  | [] => []
  | c :: rest =>
    if c = '"' then
      match _hfound : readString rest with
      | some found => String.ofList found.1 :: strings found.2
      | none => []
    else strings rest
termination_by text => text.length
decreasing_by
  · exact Nat.lt_trans (length_of_readOn _hfound) (Nat.lt_succ_self rest.length)
  · exact Nat.lt_succ_self rest.length

theorem strings_quote {rest : List Char} {found : List Char × List Char}
    (h : readString rest = some found) :
    strings ('"' :: rest) = String.ofList found.1 :: strings found.2 := by
  rw [strings, if_pos rfl]
  split
  · next other hother =>
    cases h.symm.trans hother
    rfl
  · next hnone => cases h.symm.trans hnone

/-! ### Texts in a string -/

/-- A text that can stand between quotes. -/
def Closed (text : String) : Prop := scan false text.toList = some false

/-- A text with no quote that ends a string which it is part of. -/
def Harmless (text : String) : Prop := (scan false text.toList).isSome

/-- A text without quotes and backslashes. -/
def Plain (text : String) : Prop := ∀ c ∈ text.toList, c ≠ '"' ∧ c ≠ '\\'

instance (text : String) : Decidable (Closed text) := inferInstanceAs (Decidable (_ = _))
instance (text : String) : Decidable (Harmless text) := inferInstanceAs (Decidable (_ = _))
-- By the characters of the text: an instance may be found that goes through all there are.
instance (text : String) : Decidable (Plain text) :=
  List.decidableBAll (fun c => c ≠ '"' ∧ c ≠ '\\') text.toList

section Texts
variable {s t p : String}

theorem Plain.append (hs : Plain s) (ht : Plain t) : Plain (s ++ t) := by
  intro c hc
  rw [String.toList_append, List.mem_append] at hc
  exact hc.elim (hs c) (ht c)

theorem advance_plain {c : Char} (h : c ≠ '"' ∧ c ≠ '\\') (escaped : Bool) :
    advance escaped c = some false := by
  cases escaped <;> simp [advance, h]

theorem Plain.scan_false (h : Plain p) : scan false p.toList = some false := by
  unfold Plain at h
  generalize p.toList = text at h
  induction text with
  | nil => rfl
  | cons c text ih =>
    obtain ⟨hc, hrest⟩ := List.forall_mem_cons.1 h
    rw [scan_cons, advance_plain hc, Option.bind_some, ih hrest]

/-- Wherever a reader comes from, plain text leaves it with nothing escaped. -/
theorem Plain.scan (h : Plain p) (nonempty : p ≠ "") (escaped : Bool) :
    Dot.scan escaped p.toList = some false := by
  have hfalse := h.scan_false
  unfold Plain at h
  cases htext : p.toList with
  | nil => exact absurd (String.toList_eq_nil_iff.1 htext) nonempty
  | cons c text =>
    rw [htext] at h hfalse
    have hc := h c List.mem_cons_self
    rw [scan_cons, advance_plain hc] at hfalse ⊢
    exact hfalse

/-- Plain text parts what stands on both sides of it. -/
theorem harmless_between (hp : Plain p) (nonempty : p ≠ "") :
    Harmless (s ++ p ++ t) ↔ Harmless s ∧ Harmless t := by
  unfold Harmless
  rw [String.toList_append, String.toList_append, scan_append, scan_append]
  cases scan false s.toList with
  | none => simp
  | some next => simp [hp.scan nonempty]

theorem harmless_after (hp : Plain p) : Harmless (p ++ t) ↔ Harmless t := by
  rw [Harmless, String.toList_append, scan_append, hp.scan_false, Option.bind_some, Harmless]

theorem Plain.harmless (hp : Plain p) : Harmless p := by
  rw [Harmless, hp.scan_false, Option.isSome_some]

theorem harmless_before (hp : Plain p) (nonempty : p ≠ "") : Harmless (s ++ p) ↔ Harmless s := by
  have hempty : Harmless "" := rfl
  rw [← String.append_empty (s := s ++ p), harmless_between hp nonempty, and_iff_left hempty]

theorem harmless_intercalate (hp : Plain p) (nonempty : p ≠ "") (texts : List String) :
    Harmless (p.intercalate texts) ↔ ∀ text ∈ texts, Harmless text := by
  induction texts with
  | nil => simp [Harmless, scan]
  | cons s texts ih =>
    cases texts with
    | nil => simp
    | cons t texts =>
      rw [String.intercalate_cons_cons, harmless_between hp nonempty, ih]
      exact List.forall_mem_cons.symm

/-- A reader comes out of a heading and some lines when no line has a quote that ends it, and then
with nothing escaped, since a line end stands last. -/
theorem scan_lines {ι : Type} (hp : Plain p) (text : ι → String) (items : List ι) :
    scan false (p ++ String.join (items.map fun i => text i ++ "\n")).toList =
      if ∀ i ∈ items, Harmless (text i) then some false else none := by
  rw [String.toList_append, scan_append, hp.scan_false, Option.bind_some]
  induction items with
  | nil => rfl
  | cons i items ih =>
    have hbreak : Plain "\n" := by decide
    simp only [List.map_cons, String.join_cons, String.toList_append, scan_append,
      List.forall_mem_cons, Harmless]
    cases scan false (text i).toList with
    | none => simp
    | some next =>
      simp only [Option.bind_some, hbreak.scan (by decide), Option.isSome_some, true_and]
      exact ih

theorem plain_repr (n : Nat) : Plain n.repr := by
  intro c hc
  rw [Nat.toList_repr] at hc
  have hdigit := Nat.isDigit_of_mem_toDigits (by decide) (by decide) hc
  constructor <;> rintro rfl <;> cases hdigit

end Texts

/-! ### Texts around strings -/

/-- What comes after a text has its strings after those of the text. -/
def Yields (text : String) (found : List String) : Prop :=
  ∀ rest, strings (text.toList ++ rest) = found ++ strings rest

section Yields
variable {s t : String} {a b : List String}

theorem Yields.append (hs : Yields s a) (ht : Yields t b) : Yields (s ++ t) (a ++ b) := by
  intro rest
  rw [String.toList_append, List.append_assoc, hs, ht, List.append_assoc]

theorem Plain.yields (h : Plain s) : Yields s [] := by
  intro rest
  unfold Plain at h
  generalize s.toList = text at h
  induction text with
  | nil => rfl
  | cons c text ih =>
    obtain ⟨hc, hrest⟩ := List.forall_mem_cons.1 h
    rw [List.cons_append, strings, if_neg hc.1, ih hrest]

theorem Closed.yields (h : Closed s) : Yields ("\"" ++ s ++ "\"") [s] := by
  intro rest
  have htext : ("\"" ++ s ++ "\"").toList ++ rest = '"' :: (s.toList ++ '"' :: rest) := by
    simp
  rw [htext, strings_quote ((readString_iff s.toList rest).2 h), String.ofList_toList,
    List.singleton_append]

theorem yields_intercalate {ι : Type} (hs : Yields s []) {text : ι → String}
    {found : ι → List String} {items : List ι} (each : ∀ i ∈ items, Yields (text i) (found i)) :
    Yields (s.intercalate (items.map text)) (items.flatMap found) := by
  induction items with
  | nil => exact fun rest => rfl
  | cons i items ih =>
    obtain ⟨hfirst, hrest⟩ := List.forall_mem_cons.1 each
    cases items with
    | nil => simpa using hfirst
    | cons j items =>
      have hall := (hfirst.append hs).append (ih hrest)
      rw [List.append_nil] at hall
      rw [List.map_cons, List.map_cons, String.intercalate_cons_cons, List.flatMap_cons]
      exact hall

/-- A text with strings in it, each after what stands before it, and what comes after them. -/
def weave (parts : List (String × String)) (last : String) : String :=
  String.join (parts.map fun part => part.1 ++ ("\"" ++ part.2 ++ "\"")) ++ last

theorem yields_weave {text last : String} {parts : List (String × String)}
    (h : text = weave parts last) (each : ∀ part ∈ parts, Plain part.1 ∧ Closed part.2)
    (hlast : Plain last) : Yields text (parts.map Prod.snd) := by
  subst h
  induction parts with
  | nil =>
    rw [weave, List.map_nil, String.join_nil, String.empty_append]
    exact hlast.yields
  | cons part parts ih =>
    obtain ⟨⟨hplain, hclosed⟩, hrest⟩ := List.forall_mem_cons.1 each
    rw [weave, List.map_cons, String.join_cons, String.append_assoc]
    exact (hplain.yields.append hclosed.yields).append (ih hrest)

end Yields

end Dot

namespace Graph
open Dot
variable {ν ε : Type} [IsVertex ν] [IsEdge ε]

/-! ### Labels -/

/-- A reader goes through a line end as through the two characters that are written for it. -/
theorem scan_dotLabel (escaped : Bool) (label : String) :
    scan escaped (dotLabel label).toList = scan escaped label.toList := by
  rw [dotLabel, String.toList_ofList]
  induction label.toList generalizing escaped with
  | nil => rfl
  | cons c text ih =>
    rw [List.flatMap_cons, scan_append, scan_cons escaped c]
    split
    · next hline =>
      subst hline
      cases escaped <;> exact ih false
    · rw [scan_cons, Option.bind_assoc]
      exact Option.bind_congr fun next _ => ih next

theorem closed_dotLabel (label : String) : Closed (dotLabel label) ↔ Closed label := by
  rw [Closed, scan_dotLabel, Closed]

/-- The text up to the label of a vertex, its opening quote included. -/
def dotBefore (earlier : List ν) (v : ν) : String :=
  "digraph G \x7b\n" ++ "\n".intercalate dotSettings ++ "\n\n" ++
    String.join (earlier.map fun u => dotVertex u ++ "\n") ++
    ((IsVertex.index v).repr ++ " [shape=\"box\", label=\"")

/-- The text after the closing quote of the label of a vertex. -/
def dotAfter (later : List ν) (edges : List ε) : String :=
  ", style=\"filled\", fillcolor=\"#ffddcc\"];" ++
    String.join (later.map fun u => "\n" ++ dotVertex u) ++
    "\n" ++ "\n".intercalate (edges.map dotEdge) ++ "\n\x7d"

/-- One text of many between the others. -/
theorem intercalate_split {ι : Type} (p : String) (text : ι → String) (earlier later : List ι)
    (i : ι) :
    p.intercalate ((earlier ++ i :: later).map text) =
      String.join (earlier.map fun j => text j ++ p) ++ text i ++
        String.join (later.map fun j => p ++ text j) := by
  induction earlier with
  | nil =>
    induction later generalizing i with
    | nil => simp
    | cons j later ih =>
      simp only [List.nil_append, List.map_cons] at ih ⊢
      rw [String.intercalate_cons_cons, ih j]
      simp [String.append_assoc]
  | cons j earlier ih =>
    rw [List.cons_append, List.map_cons, String.intercalate_cons_of_ne_nil (by simp), ih]
    simp [String.append_assoc]

theorem dotVertex_eq (v : ν) :
    dotVertex v = (IsVertex.index v).repr ++ " [shape=\"box\", label=\"" ++
      dotLabel (IsVertex.label v) ++ "\"" ++ ", style=\"filled\", fillcolor=\"#ffddcc\"];" := by
  refine String.toList_inj.1 ?_
  simp [dotVertex]

/-- Where the label of a vertex stands. -/
theorem dot_eq {g : Graph ν ε} {earlier later : List ν} {v : ν}
    (h : g.vertices = earlier ++ v :: later) :
    g.dot = dotBefore earlier v ++ dotLabel (IsVertex.label v) ++ "\"" ++
      dotAfter later g.edges := by
  unfold dot dotBefore dotAfter
  rw [h, intercalate_split, dotVertex_eq v]
  simp only [String.append_assoc]

/-! ### Every string of a graph -/

theorem yields_settings :
    Yields ("digraph G \x7b\n" ++ "\n".intercalate dotSettings ++ "\n\n")
      ["Courier New", "polyline", "Courier New", "Courier New"] := by
  have hweave : "digraph G \x7b\n" ++ "\n".intercalate dotSettings ++ "\n\n" =
      weave [("digraph G \x7b\ngraph [fontname = ", "Courier New"), (", splines=", "polyline"),
        ("]\nnode [fontname = ", "Courier New"), ("]\nedge [fontname = ", "Courier New")]
        "]\n\n" := by
    decide
  have hall := yields_weave hweave (by decide) (by decide)
  exact hall

theorem yields_dotVertex {v : ν} (h : Closed (IsVertex.label v)) :
    Yields (dotVertex v) ["box", dotLabel (IsVertex.label v), "filled", "#ffddcc"] := by
  have hweave : dotVertex v =
      weave [((IsVertex.index v).repr ++ " [shape=", "box"),
        (", label=", dotLabel (IsVertex.label v)), (", style=", "filled"),
        (", fillcolor=", "#ffddcc")] "];" := by
    refine String.toList_inj.1 ?_
    simp [dotVertex, weave]
  have hnumber : Plain ((IsVertex.index v).repr ++ " [shape=") :=
    (plain_repr _).append (by decide)
  have hlabel : Closed (dotLabel (IsVertex.label v)) := (closed_dotLabel _).2 h
  have hall := yields_weave hweave
    (by
      simp only [List.forall_mem_cons]
      exact ⟨⟨hnumber, by decide⟩, ⟨by decide, hlabel⟩, by decide, by decide, nofun⟩)
    (by decide)
  exact hall

theorem yields_dotEdge {e : ε} (h : Closed (IsEdge.label e)) :
    Yields (dotEdge e) [dotLabel (IsEdge.label e)] := by
  have hweave : dotEdge e =
      weave [((IsEdge.head e).repr ++ " -> " ++ (IsEdge.tail e).repr ++ " [label=",
        dotLabel (IsEdge.label e))] "];" := by
    refine String.toList_inj.1 ?_
    simp [dotEdge, weave]
  have hends : Plain ((IsEdge.head e).repr ++ " -> " ++ (IsEdge.tail e).repr ++ " [label=") :=
    (((plain_repr _).append (by decide)).append (plain_repr _)).append (by decide)
  have hall := yields_weave hweave
    (List.forall_mem_singleton.2 ⟨hends, (closed_dotLabel _).2 h⟩) (by decide)
  exact hall

/-- A graph whose labels can all stand between quotes has the strings that were written and no
others. -/
theorem strings_dot {g : Graph ν ε} (hv : ∀ v ∈ g.vertices, Closed (IsVertex.label v))
    (he : ∀ e ∈ g.edges, Closed (IsEdge.label e)) :
    strings g.dot.toList =
      ["Courier New", "polyline", "Courier New", "Courier New"] ++
        g.vertices.flatMap (fun v => ["box", dotLabel (IsVertex.label v), "filled", "#ffddcc"]) ++
        g.edges.map (fun e => dotLabel (IsEdge.label e)) := by
  have hline : Yields "\n" [] := Plain.yields (by decide)
  have hend : Yields "\n\x7d" [] := Plain.yields (by decide)
  have hvertices := yields_intercalate hline fun v hmem => yields_dotVertex (hv v hmem)
  have hedges := yields_intercalate hline fun e hmem => yields_dotEdge (he e hmem)
  have hall := ((((yields_settings.append hvertices).append hline).append hedges).append hend) []
  simp only [List.append_nil, strings] at hall
  rw [List.map_eq_flatMap]
  exact hall

end Graph

end FlowFacts
