import FlowFacts.Json.Codec
import FlowFacts.Lattice.Basic

/-! Facts for many keys at once: a map from keys to facts of a value lattice.

A key without an entry has the top. The operations store no top, so that two maps
they make are equal when they give every key the same fact. -/
namespace FlowFacts

structure MapFact (κ ν : Type) [Ord κ] where
  entries : Std.ExtTreeMap κ ν

namespace MapFact
variable {κ ν : Type} [Ord κ]

/-- No entries: the top for every key. -/
def empty : MapFact κ ν := ⟨∅⟩

def isEmpty (m : MapFact κ ν) : Bool := m.entries.isEmpty

def size (m : MapFact κ ν) : Nat := m.entries.size

variable [Std.TransOrd κ]

instance [Std.LawfulEqOrd κ] [DecidableEq ν] : DecidableEq (MapFact κ ν) := fun a b =>
  decidable_of_iff (a.entries = b.entries) (by cases a; cases b; simp)

def get? (m : MapFact κ ν) (key : κ) : Option ν := m.entries[key]?

/-- The keys that have an entry, in order. -/
def keys (m : MapFact κ ν) : List κ := m.entries.keys

def toList (m : MapFact κ ν) : List (κ × ν) := m.entries.toList

/-! ### Operations over a value lattice -/

/-- What holds of a key. -/
def getOrTop (L : Lattice ν) (m : MapFact κ ν) (key : κ) : ν := (m.get? key).getD L.top

/-- Give a key its fact; the top takes the entry away. -/
def insert (L : Lattice ν) (m : MapFact κ ν) (key : κ) (value : ν) : MapFact κ ν :=
  if L.isTop value then ⟨m.entries.erase key⟩ else ⟨m.entries.insert key value⟩

/-- The entries one after another, so that the last of a key counts. -/
def ofList (L : Lattice ν) (entries : List (κ × ν)) : MapFact κ ν :=
  entries.foldl (fun m entry => m.insert L entry.1 entry.2) empty

/-- One entry of the second map, met with what the first has for its key. -/
def meetEntry (L : Lattice ν) (a : MapFact κ ν) (result : MapFact κ ν) (entry : κ × ν) :
    MapFact κ ν :=
  result.insert L entry.1 <|
    match a.get? entry.1 with
    | some value => L.meet value entry.2
    | none => entry.2

/-- Maps meet key by key. -/
def meet (L : Lattice ν) (a b : MapFact κ ν) : MapFact κ ν := b.toList.foldl (a.meetEntry L) a

/-- Only the map without entries is the top. -/
def lattice (L : Lattice ν) : Lattice (MapFact κ ν) :=
  { meet := meet L, top := empty, isTop := isEmpty }

/-! ### Text and JSON -/

/-- Entries between braces. -/
def braced (f : κ → String) (g : ν → String) (m : MapFact κ ν) : String :=
  "\x7b" ++ ", ".intercalate (m.toList.map fun entry => f entry.1 ++ ": " ++ g entry.2) ++ "\x7d"

def display (f : κ → String) (g : ν → String) (m : MapFact κ ν) : String := m.braced f g

def debug (f : κ → String) (g : ν → String) (m : MapFact κ ν) : String :=
  "MapFact \x7b entries: " ++ m.braced f g ++ " \x7d"

instance [Json.EncodeKey κ] [Json.Encode ν] : Json.Encode (MapFact κ ν) where
  encode m := do
    let entries ← Json.encode m.entries
    return .object [("entries", entries)]

instance [Json.DecodeKey κ] [Json.Decode ν] : Json.Decode (MapFact κ ν) where
  decode j := do
    return ⟨← Json.decode (← j.field? "entries")⟩

end MapFact

end FlowFacts
