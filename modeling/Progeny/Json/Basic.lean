/-! JSON values, with the members of an object in written order. -/

namespace Progeny

/-- A JSON value as it was written. -/
inductive Json where
  | null
  | bool (value : Bool)
  /-- A numeral without fraction and exponent, in the range of 64-bit words of either sign. -/
  | integer (value : Int)
  /-- Any other numeral, kept as its text. -/
  | real (numeral : String)
  | text (value : String)
  | array (items : List Json)
  /-- Members in written order; a name may occur more than once. -/
  | object (members : List (String × Json))
  /-- Well-formed text without a value: half of a surrogate pair, or a numeral beyond all floats. -/
  | unreadable
  deriving Inhabited

namespace Json

/-- The deepest nesting of arrays and objects that a reader holds in memory. -/
def nestingLimit : Nat := 127

mutual

/-- Whether a value and all parts of it have a value, within a number of nesting levels. -/
def isReadable : Nat → Json → Bool
  | _, .unreadable => false
  | 0, .array _ | 0, .object _ => false
  | levels + 1, .array items => areItemsReadable levels items
  | levels + 1, .object members => areMembersReadable levels members
  | _, _ => true

/-- Whether every item is readable. -/
def areItemsReadable : Nat → List Json → Bool
  | _, [] => true
  | levels, item :: rest => isReadable levels item && areItemsReadable levels rest

/-- Whether the value of every member is readable. -/
def areMembersReadable : Nat → List (String × Json) → Bool
  | _, [] => true
  | levels, (_, value) :: rest => isReadable levels value && areMembersReadable levels rest

end

/-- The first member of a name. -/
def member? (name : String) : Json → Option Json
  | .object members => members.lookup name
  | _ => none

/-- Puts a member into members sorted by name; a member of the same name gives way. -/
def insertMember (name : String) (value : Json) : List (String × Json) → List (String × Json)
  | [] => [(name, value)]
  | (other, held) :: rest =>
    if name = other then (name, value) :: rest
    else if name < other then (name, value) :: (other, held) :: rest
    else (other, held) :: insertMember name value rest

mutual

/-- The value with the members of each object sorted by name, where the last of a name counts. -/
def canonical : Json → Json
  | .array items => .array (canonicalItems items)
  | .object members => .object (canonicalMembers [] members)
  | value => value

/-- Puts each item into canonical form. -/
def canonicalItems : List Json → List Json
  | [] => []
  | item :: rest => canonical item :: canonicalItems rest

/-- Adds canonical members to sorted ones. -/
def canonicalMembers (sorted : List (String × Json)) :
    List (String × Json) → List (String × Json)
  | [] => sorted
  | (name, value) :: rest => canonicalMembers (insertMember name (canonical value) sorted) rest

end

/-- A number that is not negative. -/
def ofNat (value : Nat) : Json :=
  .integer value

/-- The number of a word. -/
def ofWord (value : UInt64) : Json :=
  .integer value.toNat

/-- The value, or null where there is none. -/
def ofOption {α : Type} (encode : α → Json) : Option α → Json
  | none => .null
  | some value => encode value

/-- The array of encoded items. -/
def ofList {α : Type} (encode : α → Json) (items : List α) : Json :=
  .array (items.map encode)

end Json

end Progeny
