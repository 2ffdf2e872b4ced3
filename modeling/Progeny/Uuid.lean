import Progeny.Text.Hex

/-! Universally unique identifiers and their texts. -/

namespace Progeny

/-- An identifier of 128 bits. -/
structure Uuid where
  bits : BitVec 128
  deriving DecidableEq, Inhabited

namespace Uuid

/-- The lengths of the groups of digits between hyphens. -/
def groups : List Nat := [8, 4, 4, 4, 12]

/-- The 32 digits of an identifier. -/
def digits (uuid : Uuid) : List Char :=
  let digits := Nat.toDigits 16 uuid.bits.toNat
  List.replicate (32 - digits.length) '0' ++ digits

/-- Cuts digits into groups with hyphens between them. -/
def hyphenate : List Nat → List Char → List Char
  | [], _ => []
  | [_], digits => digits
  | length :: rest, digits => digits.take length ++ ('-' :: hyphenate rest (digits.drop length))

/-- The text of an identifier: lowercase digits in groups. -/
def text (uuid : Uuid) : String :=
  String.ofList (hyphenate groups uuid.digits)

/-- Drops the hyphens between groups; each must stand in its place. -/
def joinGroups? : List Nat → List Char → Option (List Char)
  | [], _ => none
  | [length], rest => if rest.length = length then some rest else none
  | length :: groups, rest =>
    match rest.drop length with
    | '-' :: after => (joinGroups? groups after).map (rest.take length ++ ·)
    | _ => none

/-- The identifier of 32 digits. -/
def ofDigits? (digits : List Char) : Option Uuid :=
  if digits.length = 32 then (Hex.value? digits).map fun value => ⟨BitVec.ofNat 128 value⟩
  else none

/-- Reads the digits of an identifier with hyphens between the groups. -/
def ofGroups? (chars : List Char) : Option Uuid :=
  (joinGroups? groups chars).bind ofDigits?

/-- What begins the name of an identifier in its own scheme. -/
def scheme : List Char := "urn:uuid:".toList

/-- Reads an identifier: bare digits, groups, groups in braces, or groups in a name of its own
scheme. Letters may have either case. -/
def parse? (chars : List Char) : Option Uuid :=
  if chars.length = 32 then ofDigits? chars
  else if (chars.take scheme.length).map Char.toLower = scheme then
    ofGroups? (chars.drop scheme.length)
  else
    match chars with
    | '\x7b' :: rest => if rest.getLast? = some '\x7d' then ofGroups? rest.dropLast else none
    | _ => ofGroups? chars

end Uuid

end Progeny
