import FlowFacts.Text.Literal
import Mathlib.Logic.Function.Basic

/-! Hexadecimal digits can be read back.

A number of several digits is written by its last digit, after the digits of what the others make
(`hexCapital_concat`). Reading adds the digits up in that order and so finds the number again, also
behind a zero that fills up a pair (`readCapital_hexPair`). Numbers with the same digits are
therefore the same. -/
namespace FlowFacts.Text

/-- The capital digits, each in the place of its value. -/
def capitalDigits : List Char := "0123456789ABCDEF".toList

/-- The number that capital digits write. -/
def readCapital (digits : List Char) : Nat :=
  digits.foldl (fun n c => 16 * n + capitalDigits.idxOf c) 0

/-! ### Writing -/

theorem toUpper_digitChar {d : Nat} (h : d < 16) :
    (Nat.digitChar d).toUpper ∈ capitalDigits ∧
      capitalDigits.idxOf (Nat.digitChar d).toUpper = d := by
  revert d
  decide

theorem hexCapital_of_lt {d : Nat} (h : d < 16) : hexCapital d = [(Nat.digitChar d).toUpper] := by
  rw [hexCapital, hex, Nat.toDigits_of_lt_base h, List.map_singleton]

theorem hexCapital_concat {n d : Nat} (hn : 0 < n) (hd : d < 16) :
    hexCapital (16 * n + d) = hexCapital n ++ [(Nat.digitChar d).toUpper] := by
  rw [hexCapital, hex, ← Nat.toDigits_append_toDigits (by decide) hn hd, List.map_append,
    Nat.toDigits_of_lt_base hd, List.map_singleton, hexCapital, hex]

theorem hexCapital_subset (n : Nat) : hexCapital n ⊆ capitalDigits := by
  induction n using Nat.base_induction 16 (by decide) with
  | single d hd =>
    rw [hexCapital_of_lt hd]
    exact List.cons_subset.2 ⟨(toUpper_digitChar hd).1, List.nil_subset _⟩
  | digit n d hd hn ih =>
    rw [hexCapital_concat hn hd]
    have hlast := List.cons_subset.2 ⟨(toUpper_digitChar hd).1, List.nil_subset _⟩
    exact List.append_subset.2 ⟨ih, hlast⟩

theorem hexPair_subset (n : Nat) : hexPair n ⊆ capitalDigits := by
  unfold hexPair
  split
  · exact List.cons_subset.2 ⟨by decide, hexCapital_subset n⟩
  · exact hexCapital_subset n

theorem not_mem_hexCapital {c : Char} (hc : c ∉ capitalDigits) (n : Nat) : c ∉ hexCapital n :=
  fun h => hc (hexCapital_subset n h)

theorem not_mem_hexPair {c : Char} (hc : c ∉ capitalDigits) (n : Nat) : c ∉ hexPair n :=
  fun h => hc (hexPair_subset n h)

/-! ### Reading -/

theorem readCapital_concat (digits : List Char) (c : Char) :
    readCapital (digits ++ [c]) = 16 * readCapital digits + capitalDigits.idxOf c := by
  rw [readCapital, List.foldl_append, List.foldl_cons, List.foldl_nil, readCapital]

theorem readCapital_hexCapital (n : Nat) : readCapital (hexCapital n) = n := by
  induction n using Nat.base_induction 16 (by decide) with
  | single d hd =>
    rw [hexCapital_of_lt hd, ← List.nil_append [_], readCapital_concat, (toUpper_digitChar hd).2]
    exact Nat.zero_add d
  | digit n d hd hn ih =>
    rw [hexCapital_concat hn hd, readCapital_concat, ih, (toUpper_digitChar hd).2]

theorem readCapital_hexPair (n : Nat) : readCapital (hexPair n) = n := by
  unfold hexPair
  split
  · -- the zero in front counts for nothing
    exact readCapital_hexCapital n
  · exact readCapital_hexCapital n

theorem hexCapital_injective : Function.Injective hexCapital :=
  Function.LeftInverse.injective readCapital_hexCapital

theorem hexPair_injective : Function.Injective hexPair :=
  Function.LeftInverse.injective readCapital_hexPair

end FlowFacts.Text
