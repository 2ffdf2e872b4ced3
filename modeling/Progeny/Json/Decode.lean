import Progeny.Json.Basic

/-! Reading records out of JSON values: words within their range, named or positional fields. -/

namespace Progeny.Json

/-- An unsigned number below a bound. -/
def toNat? (bound : Nat) : Json → Option Nat
  | .integer (.ofNat value) => if value < bound then some value else none
  | _ => none

/-- A 64-bit word. -/
def toWord? (value : Json) : Option UInt64 :=
  (value.toNat? UInt64.size).map UInt64.ofNat

/-- A 32-bit word. -/
def toHalfWord? (value : Json) : Option UInt32 :=
  (value.toNat? UInt32.size).map UInt32.ofNat

/-- A signed byte. -/
def toSignedByte? : Json → Option Int8
  | .integer value =>
    if -128 ≤ value ∧ value < 128 then some (Int8.ofInt value) else none
  | _ => none

/-- A text. -/
def toText? : Json → Option String
  | .text value => some value
  | _ => none

/-- A truth value. -/
def toBool? : Json → Option Bool
  | .bool value => some value
  | _ => none

/-- An array whose items all decode. -/
def toList? {α : Type} (decode : Json → Option α) : Json → Option (List α)
  | .array items => items.mapM decode
  | _ => none

/-- The fields of a record that a value gives, by name. -/
abbrev Fields := List (String × Json)

/-- Keeps the members of known names; none of them may be given twice. -/
def knownMembers? (names : List String) (members : List (String × Json)) : Option Fields :=
  let known := members.filter fun (name, _) => names.contains name
  if (known.map Prod.fst).Nodup then some known else none

/-- The fields of a record with the given names in order. An object names them and may hold other
members, and an array gives them by position and may end early. -/
def fields? (names : List String) : Json → Option Fields
  | .object members => knownMembers? names members
  | .array items => if items.length ≤ names.length then some (names.zip items) else none
  | _ => none

/-- A field that must be given. -/
def Fields.required? {α : Type} (fields : Fields) (name : String) (decode : Json → Option α) :
    Option α :=
  (fields.lookup name).bind decode

/-- A field with a default for when it is not given at all. -/
def Fields.defaulted? {α : Type} (fields : Fields) (name : String) (default : α)
    (decode : Json → Option α) : Option α :=
  match fields.lookup name with
  | none => some default
  | some value => decode value

/-- A field that may be missing or null. -/
def Fields.optional? {α : Type} (fields : Fields) (name : String) (decode : Json → Option α) :
    Option (Option α) :=
  match fields.lookup name with
  | none | some .null => some none
  | some value => (decode value).map some

/-- The members of one alternative among several: the name in the tag, and the other members.
The tag is given once, and nothing beside it is without a value. -/
def tagged? (tag : String) (levels : Nat) (members : List (String × Json)) :
    Option (Json × List (String × Json)) :=
  let others := members.filter fun (name, _) => name ≠ tag
  match members.filter fun (name, _) => name = tag with
  | [(_, value)] => if areMembersReadable levels others then some (value, others) else none
  | _ => none

end Progeny.Json
