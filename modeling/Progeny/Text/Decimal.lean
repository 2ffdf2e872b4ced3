/-! Decimal and hexadecimal numerals as they appear in arguments, options and messages. -/

namespace Progeny.Decimal

/-- The digits of a number without leading zeros. -/
def write (value : Nat) : List Char :=
  Nat.toDigits 10 value

/-- The decimal text of a number. -/
def text (value : Nat) : String :=
  String.ofList (write value)

/-- The decimal text of a number that may be negative. -/
def signedText (value : Int) : String :=
  match value with
  | .ofNat value => text value
  | .negSucc value => "-" ++ text (value + 1)

/-- The lowercase hexadecimal text of a number, marked as such. -/
def hexText (value : Nat) : String :=
  "0x" ++ String.ofList (Nat.toDigits 16 value)

/-- The number that a nonempty run of decimal digits denotes. -/
def readDigits? (digits : List Char) : Option Nat :=
  if digits ≠ [] ∧ digits.all Char.isDigit then some (Nat.ofDigitChars 10 digits 0) else none

/-- Reads an unsigned numeral below `bound`: digits after an optional plus sign, with any number
of leading zeros. -/
def read? (bound : Nat) (chars : List Char) : Option Nat := do
  let value ← match chars with
    | '+' :: digits => readDigits? digits
    | digits => readDigits? digits
  if value < bound then return value else none

/-- Reads a numeral with an optional sign of either kind whose value is not negative and below
`bound`, which leaves minus signs for zero. -/
def readSigned? (bound : Nat) (chars : List Char) : Option Nat :=
  match chars with
  | '-' :: digits => (readDigits? digits).filter (· = 0)
  | _ => read? bound chars

end Progeny.Decimal
