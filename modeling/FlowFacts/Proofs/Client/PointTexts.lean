import FlowFacts.Client.Capability
import FlowFacts.Client.Pool
import FlowFacts.Client.Reflection
import FlowFacts.Proofs.Text.Hex
import Mathlib.Data.List.Basic

/-! Texts that name points.

A point is written by the digits of its block and, after a colon, by those of its instruction or
the word `empty`. No digit is a colon, and `empty` has letters that are no digits, so the two parts
can be told apart and read back (`Point.display_injective`). There is no blank in a point either.
The message of an error has its point as the last word, and a record of the log has it there or in
a fixed place from the front, so both say which point they speak of, whatever facts and names stand
beside it (`texts_name_points`). -/
namespace FlowFacts

/-! ### Points -/

namespace Point

/-- What is written of a point after its block. -/
def place : Point → List Char
  | .instruction _ index => Text.hexPair index
  | .emptyBlock _ => "empty".toList

theorem toList_display (p : Point) :
    p.display.toList = '0' :: 'x' :: Text.hexCapital p.block ++ ':' :: p.place := by
  cases p <;> simp [display, Text.hexNumberCapital, block, place]

theorem not_mem_place {c : Char} (hc : c ∉ Text.capitalDigits) (hc' : c ∉ "empty".toList)
    (p : Point) : c ∉ p.place := by
  cases p with
  | instruction block index => exact Text.not_mem_hexPair hc index
  | emptyBlock block => exact hc'

theorem blank_not_mem_display (p : Point) : ' ' ∉ p.display.toList := by
  have hblock : ' ' ∉ Text.hexCapital p.block := Text.not_mem_hexCapital (by decide) p.block
  have hplace : ' ' ∉ p.place := not_mem_place (by decide) (by decide) p
  simp [toList_display, hblock, hplace]

theorem eq_of_place {p q : Point} (hblock : p.block = q.block) (hplace : p.place = q.place) :
    p = q := by
  have hword (n : Nat) : Text.hexPair n ≠ "empty".toList := fun h =>
    Text.not_mem_hexPair (c := 'm') (by decide) n (h ▸ by decide)
  cases p with
  | instruction block index =>
    cases q with
    | instruction block' index' =>
      rw [show block = block' from hblock, Text.hexPair_injective hplace]
    | emptyBlock block' => exact absurd hplace (hword index)
  | emptyBlock block =>
    cases q with
    | instruction block' index' => exact absurd hplace.symm (hword index')
    | emptyBlock block' => rw [show block = block' from hblock]

/-- Different points are written differently. -/
theorem display_injective : Function.Injective display := by
  intro p q h
  have hparts (p : Point) : p.display.toList.splitOn ':' =
      ['0' :: 'x' :: Text.hexCapital p.block, p.place] := by
    have hblock : ':' ∉ '0' :: 'x' :: Text.hexCapital p.block := by
      simp [Text.not_mem_hexCapital (by decide : ':' ∉ Text.capitalDigits)]
    rw [toList_display, List.splitOn_append_cons_self_of_not_mem hblock,
      List.splitOn_eq_singleton (not_mem_place (by decide) (by decide) p)]
  have hsame := hparts p
  rw [h, hparts q] at hsame
  simp only [List.cons.injEq, true_and, and_true] at hsame
  exact eq_of_place (Text.hexCapital_injective hsame.1.symm) hsame.2.symm

example : (instruction 0x1A 0xF).display = "0x1A:0F" := by decide

end Point

/-! ### Words -/

namespace Text

/-- What stands between the blanks of a text. -/
def words (s : String) : List (List Char) := s.toList.splitOn ' '

theorem words_eq_singleton {w : String} (hw : ' ' ∉ w.toList) : words w = [w.toList] :=
  List.splitOn_eq_singleton hw

theorem words_cons {w : String} (hw : ' ' ∉ w.toList) (rest : String) :
    words (w ++ " " ++ rest) = w.toList :: words rest := by
  have htext : (w ++ " " ++ rest).toList = w.toList ++ ' ' :: rest.toList := by simp
  rw [words, htext, List.splitOn_append_cons_self_of_not_mem hw, words]

/-- The last word of a text stands after its last blank. -/
theorem getLast?_words {s : String} (hs : s.toList.getLast? = some ' ') (t : String) :
    (words (s ++ t)).getLast? = (words t).getLast? := by
  obtain ⟨front, hfront⟩ := List.getLast?_eq_some_iff.1 hs
  have htext : (s ++ t).toList = front ++ ' ' :: t.toList := by simp [hfront]
  rw [words, htext, List.splitOn_append_cons_self,
    List.getLast?_append_of_ne_nil _ (List.splitOn_ne_nil ' ' _), words]

theorem getLast?_toList_append {c : Char} {t : String} (h : t.toList.getLast? = some c)
    (s : String) : (s ++ t).toList.getLast? = some c := by
  rw [String.toList_append, List.getLast?_append, h, Option.some_or]

theorem blank_not_mem_repr (n : Nat) : ' ' ∉ n.repr.toList := by
  rw [Nat.toList_repr]
  intro h
  cases Nat.isDigit_of_mem_toDigits (by decide) (by decide) h

end Text
open Text

/-! ### Messages -/

/-- The error speaks of the point, or was made from one that does. -/
inductive Error.Names : Error → Point → Prop
  | budgetExceeded (p : Point) (budget : Nat) : Names (.budgetExceeded p budget) p
  | nonMonotone (p : Point) : Names (.nonMonotone p) p
  | pointNotFound (p : Point) : Names (.pointNotFound p) p
  | method (name : String) {source : Error} {p : Point} (names : Names source p) :
      Names (.method name source) p

theorem Error.Names.getLast?_message {e : Error} {p : Point} (h : e.Names p) :
    (words e.message).getLast? = some p.display.toList := by
  have hpoint (p : Point) : (words p.display).getLast? = some p.display.toList := by
    rw [words_eq_singleton p.blank_not_mem_display, List.getLast?_singleton]
  induction h with
  | budgetExceeded p budget =>
    unfold message
    rw [getLast?_words (getLast?_toList_append (by decide) _), hpoint]
  | nonMonotone p =>
    unfold message
    rw [getLast?_words (by decide), hpoint]
  | pointNotFound p =>
    unfold message
    rw [getLast?_words (by decide), hpoint]
  | method name _ ih =>
    unfold message
    rw [getLast?_words (getLast?_toList_append (by decide) _), ih]

/-! ### Records -/

/-- The point that an event is about. -/
def Solver.Event.point? {α : Type} : Solver.Event α → Option Point
  | .visited _ p _ _ | .overBudget _ p | .rose p _ _ => some p
  | .cancelled _ | .converged _ _ _ => none

/-- The record is about the point. -/
inductive Record.Names : Record → Point → Prop
  | event {α : Type} (f : α → String) {e : Solver.Event α} {p : Point} (about : e.point? = some p) :
      Names (e.record f) p
  | use (m : Method) (u : CapabilityUse) : Names (Capability.useRecord m u) u.point
  | site {m : Method} {s : ReflectionSite} {r : Record}
      (record : Reflection.siteRecord? m s = some r) : Names r s.point
  | failure {m : Method} {e : Error} {p : Point} {r : Record}
      (record : Pool.failureRecord? m e = some r) (names : e.Names p) : Names r p

/-- Where the words of a record have the point. -/
def pointAmong : Level → List (List Char) → Option (List Char)
  | .trace, first :: rest =>
    if first = "visit".toList then rest[2]?.map List.dropLast else some first
  | .warn, first :: rest =>
    if first = "fact".toList then rest[1]? else rest[2]?.map List.dropLast
  | .error, found => found.getLast?
  | _, found => found.head?

namespace Solver
variable {α : Type} (f : α → String) (p : Point)

theorem words_visited (visit : Nat) (a b : α) : ∃ rest,
    words ((Event.visited visit p a b).record f).message =
      "visit".toList :: visit.repr.toList :: "at".toList :: (p.display ++ ":").toList :: rest := by
  have hpoint : ' ' ∉ (p.display ++ ":").toList := by simpa using p.blank_not_mem_display
  have htext : ((Event.visited visit p a b).record f).message = "visit" ++ " " ++ (visit.repr ++
      " " ++ ("at" ++ " " ++ (p.display ++ ":" ++ " " ++ (f a ++ " -> " ++ f b)))) := by
    rw [← String.toList_inj]
    simp [Event.record]
  rw [htext, words_cons (by decide), words_cons (blank_not_mem_repr visit), words_cons (by decide),
    words_cons hpoint]
  exact ⟨_, rfl⟩

theorem words_overBudget (visits : Nat) : ∃ rest,
    words ((Event.overBudget visits p).record f).message =
      visits.repr.toList :: "visits".toList :: "at".toList :: (p.display ++ ",").toList ::
        rest := by
  have hpoint : ' ' ∉ (p.display ++ ",").toList := by simpa using p.blank_not_mem_display
  have htext : ((Event.overBudget visits p).record f).message = visits.repr ++ " " ++ ("visits" ++
      " " ++ ("at" ++ " " ++ (p.display ++ "," ++ " " ++ "iteration budget exceeded"))) := by
    rw [← String.toList_inj]
    simp [Event.record]
  rw [htext, words_cons (blank_not_mem_repr visits), words_cons (by decide), words_cons (by decide),
    words_cons hpoint]
  exact ⟨_, rfl⟩

theorem words_rose (old new : α) : ∃ rest,
    words ((Event.rose p old new).record f).message =
      "fact".toList :: "at".toList :: p.display.toList :: rest := by
  have htext : ((Event.rose p old new).record f).message = "fact" ++ " " ++ ("at" ++ " " ++
      (p.display ++ " " ++ ("rose from " ++ f old ++ " to " ++ f new))) := by
    rw [← String.toList_inj]
    simp [Event.record]
  rw [htext, words_cons (by decide), words_cons (by decide), words_cons p.blank_not_mem_display]
  exact ⟨_, rfl⟩

variable {f p}

theorem pointAmong_record {e : Event α} (about : e.point? = some p) :
    pointAmong (e.record f).level (words (e.record f).message) = some p.display.toList := by
  cases e with
  | visited visit q a b =>
    cases about
    obtain ⟨rest, hwords⟩ := words_visited f p visit a b
    rw [hwords]
    simp [Event.record, pointAmong]
  | overBudget visits q =>
    cases about
    obtain ⟨rest, hwords⟩ := words_overBudget f p visits
    -- the warning begins with a number, so it is not taken for the one that begins with a word
    have hfirst : visits.repr.toList ≠ "fact".toList := by
      intro h
      have hletter : 'f' ∈ Nat.toDigits 10 visits := by
        rw [← Nat.toList_repr, h]
        decide
      cases Nat.isDigit_of_mem_toDigits (by decide) (by decide) hletter
    rw [hwords]
    simp only [Event.record, pointAmong, if_neg hfirst]
    simp
  | rose q old new =>
    cases about
    obtain ⟨rest, hwords⟩ := words_rose f p old new
    rw [hwords]
    simp [Event.record, pointAmong]
  | cancelled d => cases about
  | converged d points visits => cases about

end Solver

theorem Capability.pointAmong_useRecord (m : Method) (u : CapabilityUse) :
    pointAmong (useRecord m u).level (words (useRecord m u).message) =
      some u.point.display.toList := by
  have htext : (useRecord m u).message = u.point.display ++ " " ++
      ("in " ++ m.name ++ ": " ++ u.callee ++ " " ++ u.status.display) := by
    rw [← String.toList_inj]
    simp [useRecord]
  rw [htext, words_cons u.point.blank_not_mem_display]
  simp [useRecord, pointAmong, Point.toList_display]

theorem Reflection.pointAmong_siteRecord {m : Method} {s : ReflectionSite} {r : Record}
    (h : siteRecord? m s = some r) :
    pointAmong r.level (words r.message) = some s.point.display.toList := by
  unfold siteRecord? at h
  split at h <;> cases h
  have htext : s.point.display ++ " in " ++ m.name ++ ": " ++ s.callee ++ " argument " ++
      s.argument.repr ++ " is unresolvable" = s.point.display ++ " " ++ ("in " ++ m.name ++
        ": " ++ s.callee ++ " argument " ++ s.argument.repr ++ " is unresolvable") := by
    rw [← String.toList_inj]
    simp
  rw [htext, words_cons s.point.blank_not_mem_display]
  rfl

theorem Pool.pointAmong_failureRecord {m : Method} {e : Error} {p : Point} {r : Record}
    (h : failureRecord? m e = some r) (names : e.Names p) :
    pointAmong r.level (words r.message) = some p.display.toList := by
  unfold failureRecord? at h
  split at h <;> cases h
  show (words _).getLast? = _
  rw [getLast?_words (getLast?_toList_append (by decide) _), names.getLast?_message]

theorem Record.Names.pointAmong_eq {r : Record} {p : Point} (h : r.Names p) :
    pointAmong r.level (words r.message) = some p.display.toList := by
  cases h with
  | event f about => exact Solver.pointAmong_record about
  | use m u => exact Capability.pointAmong_useRecord m u
  | site record => exact Reflection.pointAmong_siteRecord record
  | failure record names => exact Pool.pointAmong_failureRecord record names

/-- **Texts name points.** No two points are written alike, whatever the numbers of their blocks
and instructions. So two errors that have a point, or were made from one that has, and have one
message have one point, and no record of the log is about two. -/
theorem texts_name_points : Function.Injective Point.display ∧
    (∀ (e e' : Error) (p q : Point), e.Names p → e'.Names q → e.message = e'.message → p = q) ∧
    ∀ (r : Record) (p q : Point), r.Names p → r.Names q → p = q := by
  have hsame {p q : Point} (h : some p.display.toList = some q.display.toList) : p = q :=
    Point.display_injective (String.toList_inj.1 (Option.some.inj h))
  refine ⟨Point.display_injective, fun e e' p q hp hq h => hsame ?_, fun r p q hp hq => hsame ?_⟩
  · rw [← hp.getLast?_message, h, hq.getLast?_message]
  · rw [← hp.pointAmong_eq, hq.pointAmong_eq]

/-- Errors with one message can differ, when the name of a method reads like the beginning of
another message; their points do not. The record of a failure is about one point, also where the
name of the method is that of another. -/
theorem texts_name_points_nested :
    (∃ e e' : Error, e ≠ e' ∧ e.message = e'.message ∧ e.Names (.instruction 0x1A 0xF) ∧
      ∀ p, e'.Names p → p = .instruction 0x1A 0xF) ∧
    ∃ r : Record, r.Names (.instruction 0x1A 0xF) ∧
      ∀ p, r.Names p → p = .instruction 0x1A 0xF := by
  obtain ⟨-, messages, records⟩ := texts_name_points
  let source : Error := .nonMonotone (.instruction 0x1A 0xF)
  have names : source.Names (.instruction 0x1A 0xF) := .nonMonotone _
  refine ⟨?messages, ?records⟩
  case messages =>
    have hmessage : (Error.method "a" (.method "b" source)).message =
        (Error.method "a failed: Analysis of method b" source).message := by decide
    exact ⟨.method "a" (.method "b" source), .method "a failed: Analysis of method b" source,
      by decide, hmessage, .method "a" (.method "b" names), fun p hp =>
        (messages _ _ _ _ (.method "a" (.method "b" names)) hp hmessage).symm⟩
  case records =>
    have hrecord : (Pool.failureRecord? ⟨"0x1:empty", [], .empty⟩ source).isSome := by decide
    obtain ⟨r, hr⟩ := Option.isSome_iff_exists.1 hrecord
    exact ⟨r, .failure hr names, fun p hp => records r _ _ hp (.failure hr names)⟩

end FlowFacts
