import Progeny.Json.Basic
import Progeny.Json.Magnitude

/-! Reading numerals: integers of 64 bits by value, all others by their text. -/

namespace Progeny.Json

/-- Splits off the leading decimal digits. -/
def spanDigits (input : List Char) : List Char × List Char :=
  (input.takeWhile Char.isDigit, input.dropWhile Char.isDigit)

/-- Reads a fraction if one begins here: its digits, empty where there is none. -/
def readFraction (input : List Char) : Option (List Char × List Char) :=
  match input with
  | '.' :: rest =>
    let (digits, rest) := spanDigits rest
    if digits = [] then none else some (digits, rest)
  | _ => some ([], input)

/-- Reads the digits of an exponent, with its sign and text. -/
def readExponentDigits (isNegative : Bool) (mark rest : List Char) :
    Option (Option (Int × List Char) × List Char) :=
  let (digits, rest) := spanDigits rest
  if digits = [] then none
  else
    let value : Int := Nat.ofDigitChars 10 digits 0
    some (some (if isNegative then -value else value, mark ++ digits), rest)

/-- Reads an exponent if one begins here: its value and its text. -/
def readExponent (input : List Char) : Option (Option (Int × List Char) × List Char) :=
  match input with
  | mark :: rest =>
    if mark = 'e' ∨ mark = 'E' then
      match rest with
      | '+' :: rest => readExponentDigits false [mark, '+'] rest
      | '-' :: rest => readExponentDigits true [mark, '-'] rest
      | rest => readExponentDigits false [mark] rest
    else some (none, input)
  | [] => some (none, [])

/-- The value of a numeral without fraction and exponent. A negative zero and what exceeds a
64-bit word are not integers. -/
def integerOf (isNegative : Bool) (whole : List Char) : Json :=
  let magnitude := Nat.ofDigitChars 10 whole 0
  let numeral := String.ofList (if isNegative then '-' :: whole else whole)
  if isNegative then
    if 0 < magnitude ∧ magnitude ≤ 1 <<< 63 then .integer (-magnitude)
    else if isFinite whole [] 0 then .real numeral else .unreadable
  else if magnitude < UInt64.size then .integer magnitude
  else if isFinite whole [] 0 then .real numeral else .unreadable

/-- Reads an unsigned numeral whose sign is known. -/
def readUnsigned (isNegative : Bool) (input : List Char) : Option (Json × List Char) := do
  let (whole, rest) := spanDigits input
  -- A numeral has digits, and a leading zero stands alone.
  if whole = [] ∨ (whole.head? = some '0' ∧ whole ≠ ['0']) then none
  else
    let (fraction, rest) ← readFraction rest
    let (exponent, rest) ← readExponent rest
    if fraction = [] ∧ exponent = none then return (integerOf isNegative whole, rest)
    else
      let (power, mark) := exponent.getD (0, [])
      let point := if fraction = [] then [] else '.' :: fraction
      let sign := if isNegative then ['-'] else []
      if isFinite whole fraction power then
        return (.real (String.ofList (sign ++ whole ++ point ++ mark)), rest)
      else return (.unreadable, rest)

/-- Reads a numeral. -/
def readNumber (input : List Char) : Option (Json × List Char) :=
  match input with
  | '-' :: rest => readUnsigned true rest
  | _ => readUnsigned false input

end Progeny.Json
