import FlowFacts.Text.Printable

/-! How numbers and texts are written out for a reader.

Numbers are hexadecimal, without leading zeros, in small or capital digits. Text stands
between double quotes, so that every character can be told from its neighbours: quotes,
backslashes and the common controls get a short escape, other characters that would not
be seen are written by their code point, and everything else is written as it is. A
single quote needs no escape. -/
namespace FlowFacts.Text

/-! ### Numbers -/

/-- The digits of `n`, most significant first, in small letters. -/
def hex (n : Nat) : List Char := Nat.toDigits 16 n

/-- The digits of `n` in capitals. -/
def hexCapital (n : Nat) : List Char := (hex n).map Char.toUpper

/-- The digits of `n` in capitals, at least two of them. -/
def hexPair (n : Nat) : List Char :=
  if n < 16 then '0' :: hexCapital n else hexCapital n

/-- A number marked as hexadecimal, in small letters. -/
def hexNumber (n : Nat) : String := "0x" ++ String.ofList (hex n)

/-- A number marked as hexadecimal, in capitals. -/
def hexNumberCapital (n : Nat) : String := "0x" ++ String.ofList (hexCapital n)

/-! ### Quoted text -/

/-- A character by its code point. -/
def codePoint (c : Char) : List Char :=
  ['\\', 'u', '\x7b'] ++ hex c.toNat ++ ['\x7d']

/-- How one character stands between the quotes. -/
def escape (c : Char) : List Char :=
  if c = '\x00' then ['\\', '0']
  else if c = '\t' then ['\\', 't']
  else if c = '\r' then ['\\', 'r']
  else if c = '\n' then ['\\', 'n']
  else if c = '"' then ['\\', '"']
  else if c = '\\' then ['\\', '\\']
  else if isEscaped c then codePoint c
  else [c]

/-- The text between its quotes. -/
def quoted (s : String) : String :=
  String.ofList ('"' :: s.toList.flatMap escape ++ ['"'])

end FlowFacts.Text
