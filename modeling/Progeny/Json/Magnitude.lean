/-!
The magnitude of numerals as floats of 64 bits. A numeral is scaled in one step: a word holds the
digits that fit, a power of ten stands for their place, and the word, the power and their product
are each rounded to a float.
-/

namespace Progeny.Json

/-- The nearest number of 53 significant bits; of two that are as near, the even one. -/
def roundToFloat (value : Nat) : Nat :=
  let unit := 1 <<< (value.log2 - 52)
  let kept := value / unit
  let rest := value % unit
  if unit < 2 * rest ∨ (unit = 2 * rest ∧ kept % 2 = 1) then (kept + 1) * unit else kept * unit

/-- The least number that rounds to no float: halfway between the largest float and the next power
of two. -/
def floatBound : Nat := 1 <<< 1024 - 1 <<< 970

/-- The largest power of ten that is a float. -/
def maxPower : Int := 308

/-- Appends digits to a word as long as they fit: the word, and the digits that are left. -/
def appendDigits (word : Nat) : List Char → Nat × List Char
  | [] => (word, [])
  | digit :: rest =>
    let longer := Nat.ofDigitChars 10 [digit] word
    if longer < UInt64.size then appendDigits longer rest else (word, digit :: rest)

/-- Whether a numeral of some digits, digits of a fraction, and a power of ten stays within the
floats. Digits of the fraction that do not fit the word are dropped; those before it still count for
the place. -/
def isFinite (whole fraction : List Char) (power : Int) : Bool :=
  let (word, left) := appendDigits 0 whole
  let (significand, dropped) := appendDigits word fraction
  let place := power + left.length - (fraction.length - dropped.length)
  if significand = 0 ∨ place < 0 then true
  else if maxPower < place then false
  else roundToFloat significand * roundToFloat (Nat.pow 10 place.toNat) < floatBound

end Progeny.Json
