import FlowFacts.Json.Basic
import Std.Data.ExtTreeMap
import Std.Data.ExtTreeSet

/-! JSON forms of numbers, texts and containers.

An optional value is its own form or null, a set is an array in ascending order, a
pair is an array of two, and a map is an object with its keys as texts. Reading a
set or a map takes repeats; the last entry of a map wins. -/
namespace FlowFacts.Json

instance : Encode Nat := ⟨fun n => .ok (nat n)⟩
instance : Decode Nat := ⟨index?⟩

instance : Encode Int := ⟨fun n => .ok (.int n)⟩
instance : Decode Int := ⟨int64?⟩

instance : Encode String := ⟨fun s => .ok (.text s)⟩
instance : Decode String := ⟨text?⟩

/-! ### Containers -/

variable {α β κ : Type}

instance [Encode α] : Encode (Option α) where
  encode
    | none => .ok .null
    | some a => encode a

instance [Decode α] : Decode (Option α) where
  decode
    | .null => some none
    | j => (decode j).map some

instance [Encode α] : Encode (List α) where
  encode items := (items.mapM encode).map .array

instance [Decode α] : Decode (List α) where
  decode j := j.list? decode

instance [Encode α] [Encode β] : Encode (α × β) where
  encode pair := do
    let first ← encode pair.1
    let second ← encode pair.2
    return .array [first, second]

instance [Decode α] [Decode β] : Decode (α × β) where
  decode
    | .array [first, second] => do return (← decode first, ← decode second)
    | _ => none

variable [Ord α] [Std.TransOrd α] [Ord κ] [Std.TransOrd κ]

instance [Encode α] : Encode (Std.ExtTreeSet α) where
  encode s := encode s.toList

instance [Decode α] : Decode (Std.ExtTreeSet α) where
  decode j := do
    let items : List α ← decode j
    return .ofList items

/-! ### Maps -/

instance : EncodeKey Nat := ⟨fun n => .ok n.repr⟩
instance : DecodeKey Nat := ⟨indexKey?⟩

instance : EncodeKey String := ⟨.ok⟩
instance : DecodeKey String := ⟨some⟩

/-- One entry of a written object. -/
def encodeEntry [EncodeKey κ] [Encode β] (entry : κ × β) : Except WriteError (String × Json) := do
  let key ← encodeKey entry.1
  let value ← encode entry.2
  return (key, value)

def decodeEntry [DecodeKey κ] [Decode β] (entry : String × Json) : Option (κ × β) := do
  return (← decodeKey entry.1, ← decode entry.2)

instance [EncodeKey κ] [Encode β] : Encode (Std.ExtTreeMap κ β) where
  encode m := (m.toList.mapM encodeEntry).map .object

instance [DecodeKey κ] [Decode β] : Decode (Std.ExtTreeMap κ β) where
  decode j := do
    let entries : List (κ × β) ← (← j.object?).mapM decodeEntry
    return .ofList entries

end FlowFacts.Json
