import Progeny.Bytes

/-! Lowercase hexadecimal: two digits to a byte. -/

namespace Progeny.Hex

/-- The digit of a value below sixteen. -/
def digit (value : Nat) : Char :=
  Nat.digitChar value

/-- The value of a digit, in either letter case. -/
def digitValue? (char : Char) : Option Nat :=
  if '0' ≤ char ∧ char ≤ '9' then some (char.toNat - '0'.toNat)
  else if 'a' ≤ char ∧ char ≤ 'f' then some (char.toNat - 'a'.toNat + 10)
  else if 'A' ≤ char ∧ char ≤ 'F' then some (char.toNat - 'A'.toNat + 10)
  else none

/-- Writes each byte as two digits, high half first. -/
def encode (bytes : Bytes) : List Char :=
  bytes.flatMap fun byte => [digit (byte.toNat / 16), digit (byte.toNat % 16)]

/-- Reads pairs of digits; an odd digit or a foreign character is refused. -/
def decode? : List Char → Option Bytes
  | [] => some []
  | high :: low :: rest => do
    let high ← digitValue? high
    let low ← digitValue? low
    let rest ← decode? rest
    return UInt8.ofNat (high * 16 + low) :: rest
  | [_] => none

/-- The value that a run of digits denotes, most significant first. -/
def value? (digits : List Char) : Option Nat :=
  digits.foldlM (fun value char => (digitValue? char).map (value * 16 + ·)) 0

end Progeny.Hex
