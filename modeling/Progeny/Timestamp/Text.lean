import Progeny.Text.Blank
import Progeny.Text.Decimal
import Progeny.Timestamp.Calendar

/-! The texts of instants: a date, a time of day and an offset from universal time. -/

namespace Progeny.Timestamp

/-- Digits with zeros before them up to a width. -/
def padded (width value : Nat) : List Char :=
  let digits := Decimal.write value
  List.replicate (width - digits.length) '0' ++ digits

/-- The text of a year: four digits, or a sign and at least four. -/
def yearText (year : Int) : List Char :=
  if 0 ≤ year ∧ year ≤ 9999 then padded 4 year.toNat
  else (if year < 0 then '-' else '+') :: padded 4 year.natAbs

/-- The fraction of a second in three, six or nine digits, as few as are exact. -/
def fractionText (nano : Nat) : List Char :=
  if nano = 0 then []
  else if nano % 1000000 = 0 then '.' :: padded 3 (nano / 1000000)
  else if nano % 1000 = 0 then '.' :: padded 6 (nano / 1000)
  else '.' :: padded 9 nano

/-- The text of an instant in universal time. -/
def text (time : Timestamp) : String :=
  let (year, month, day) := dateOfDay time.day
  let leap := time.nano / 1000000000
  String.ofList (yearText year ++ '-' :: (padded 2 month ++ '-' :: (padded 2 day ++
    'T' :: (padded 2 (time.second / 3600) ++ ':' :: (padded 2 (time.second / 60 % 60) ++
      ':' :: (padded 2 (time.second % 60 + leap) ++
        (fractionText (time.nano % 1000000000) ++ ['Z'])))))))

/-- Reads a number of one to `width` digits. -/
def readNumber? (width : Nat) (input : List Char) : Option (Nat × List Char) :=
  let digits := (input.take width).takeWhile Char.isDigit
  if digits = [] then none else some (Nat.ofDigitChars 10 digits 0, input.drop digits.length)

/-- Reads a year. Behind a sign it may have any number of digits. -/
def readYear? (input : List Char) : Option (Int × List Char) :=
  match input with
  | '-' :: rest => (readNumber? rest.length rest).map fun (year, rest) => (-year, rest)
  | '+' :: rest => (readNumber? rest.length rest).map fun (year, rest) => (year, rest)
  | rest => (readNumber? 4 rest).map fun (year, rest) => (year, rest)

/-- Reads a mark and a number of at most two digits, with blanks before either. -/
def readMarked? (mark : Char) (input : List Char) : Option (Nat × List Char) :=
  match trimStart input with
  | char :: rest => if char = mark then readNumber? 2 (trimStart rest) else none
  | [] => none

/-- Reads the fraction of a second in billionths, if one begins here. Digits beyond the ninth
are dropped. -/
def readFraction? (input : List Char) : Option (Nat × List Char) :=
  match input with
  | '.' :: rest => do
    let (value, after) ← readNumber? 9 rest
    let width := rest.length - after.length
    return (value * Nat.pow 10 (9 - width), after.dropWhile Char.isDigit)
  | _ => some (0, input)

/-- Reads the minutes of an offset after its sign: two digits of hours and two of minutes. -/
def readOffsetMinutes? (input : List Char) : Option (Nat × List Char) :=
  match input with
  | a :: b :: rest =>
    match rest.dropWhile fun char => char = ':' || isWhiteSpace char with
    | c :: d :: rest =>
      if [a, b, c, d].all Char.isDigit ∧ c ≤ '5' then
        some (Nat.ofDigitChars 10 [a, b] 0 * 60 + Nat.ofDigitChars 10 [c, d] 0, rest)
      else none
    | _ => none
  | _ => none

/-- Reads an offset from universal time in minutes. -/
def readOffset? (input : List Char) : Option (Int × List Char) :=
  match input with
  | char :: rest =>
    if char = 'Z' ∨ char = 'z' then some (0, rest)
    else if (input.take 3).map Char.toUpper = ['U', 'T', 'C'] then some (0, input.drop 3)
    else if char = '+' then
      (readOffsetMinutes? rest).map fun (minutes, rest) => (minutes, rest)
    -- A minus sign may be written as the hyphen or as the sign of arithmetic.
    else if char = '-' ∨ char = '\u2212' then
      (readOffsetMinutes? rest).map fun (minutes, rest) => (-minutes, rest)
    else none
  | [] => none

/-- The instant of a local date and time at an offset in minutes. -/
def ofLocal? (year : Int) (month day hour minute second nano : Nat) (offset : Int) :
    Option Timestamp :=
  if isInCalendar year ∧ 1 ≤ month ∧ month ≤ 12 ∧ 1 ≤ day ∧ day ≤ daysInMonth year month ∧
      hour < 24 ∧ minute < 60 ∧ second ≤ 60 ∧ offset.natAbs < 24 * 60 then
    -- The sixtieth second is kept as an excess of the one before it.
    let leap := second / 60
    let seconds := dayOfDate year month day * 86400 +
      (hour * 3600 + minute * 60 + (second - leap) : Nat) - offset * 60
    let day := seconds.fdiv 86400
    if isInCalendar (dateOfDay day).1 then
      some ⟨day, (seconds - day * 86400).toNat, nano + leap * 1000000000⟩
    else none
  else none

/-- Reads a date, a time and an offset from universal time. Blanks may stand around the parts. -/
def parse? (input : List Char) : Option Timestamp := do
  let (year, rest) ← readYear? (trimStart input)
  let (month, rest) ← readMarked? '-' rest
  let (day, rest) ← readMarked? '-' rest
  let rest ← match rest with
    | char :: rest => if char = 'T' ∨ char = 't' ∨ char = ' ' then some rest else none
    | [] => none
  let (hour, rest) ← readNumber? 2 (trimStart rest)
  let (minute, rest) ← readMarked? ':' rest
  let (second, rest) ← readMarked? ':' rest
  let (nano, rest) ← readFraction? rest
  let (offset, rest) ← readOffset? (trimStart rest)
  if trimStart rest = [] then ofLocal? year month day hour minute second nano offset else none

end Progeny.Timestamp
