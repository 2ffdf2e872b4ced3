import Progeny.Bytes

/-! Standard base64 with mandatory padding, where every byte string has exactly one written form. -/

namespace Progeny.Base64

/-- The character of a value below sixty-four. -/
def digit (value : Nat) : Char :=
  if value < 26 then Char.ofNat ('A'.toNat + value)
  else if value < 52 then Char.ofNat ('a'.toNat + (value - 26))
  else if value < 62 then Char.ofNat ('0'.toNat + (value - 52))
  else if value = 62 then '+'
  else '/'

/-- The value of a character of the alphabet. -/
def digitValue? (char : Char) : Option Nat :=
  if 'A' ≤ char ∧ char ≤ 'Z' then some (char.toNat - 'A'.toNat)
  else if 'a' ≤ char ∧ char ≤ 'z' then some (char.toNat - 'a'.toNat + 26)
  else if '0' ≤ char ∧ char ≤ '9' then some (char.toNat - '0'.toNat + 52)
  else if char = '+' then some 62
  else if char = '/' then some 63
  else none

/-- Writes three bytes as four characters and pads the last group with equals signs. -/
def encode : Bytes → List Char
  | [] => []
  | [a] =>
    [digit (a.toNat / 4), digit (a.toNat % 4 * 16), '=', '=']
  | [a, b] =>
    [digit (a.toNat / 4), digit (a.toNat % 4 * 16 + b.toNat / 16),
      digit (b.toNat % 16 * 4), '=']
  | a :: b :: c :: rest =>
    digit (a.toNat / 4) :: digit (a.toNat % 4 * 16 + b.toNat / 16) ::
      digit (b.toNat % 16 * 4 + c.toNat / 64) :: digit (c.toNat % 64) :: encode rest

/-- Reads groups of four characters. The last group may be padded, and then the bits that belong
to no byte must be zero. -/
def decode? : List Char → Option Bytes
  | [] => some []
  | a :: b :: c :: d :: rest => do
    let first ← digitValue? a
    let second ← digitValue? b
    if c = '=' ∧ d = '=' ∧ rest = [] then
      -- One byte uses the two high bits of the second character.
      if second % 16 = 0 then return [UInt8.ofNat (first * 4 + second / 16)] else none
    else
      let third ← digitValue? c
      if d = '=' ∧ rest = [] then
        -- Two bytes use the four high bits of the third character.
        if third % 4 = 0 then
          return [UInt8.ofNat (first * 4 + second / 16),
            UInt8.ofNat (second % 16 * 16 + third / 4)]
        else none
      else
        let fourth ← digitValue? d
        let rest ← decode? rest
        return UInt8.ofNat (first * 4 + second / 16) ::
          UInt8.ofNat (second % 16 * 16 + third / 4) ::
          UInt8.ofNat (third % 4 * 64 + fourth) :: rest
  | _ => none

end Progeny.Base64
