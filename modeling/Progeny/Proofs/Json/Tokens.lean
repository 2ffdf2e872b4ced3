import Progeny.Json.Printer
import Progeny.Json.Reader
import Progeny.Proofs.Text.Plain

/-! Numerals and strings of JSON text are read back as what was written. -/

namespace Progeny

namespace Decimal

/-- Only the numeral of zero begins with the digit zero. -/
theorem write_leading_zero {value : Nat} (leads : (write value).head? = some '0') : value = 0 := by
  -- The first digit is that of the number without its last digit, unless it is the only one.
  induction value using Nat.strongRecOn with
  | _ value ih =>
    unfold write at leads ih
    by_cases small : value < 10
    · rw [Nat.toDigits_of_lt_base small, List.head?_cons, Option.some.injEq] at leads
      have digits : ∀ digit : Fin 10, Nat.digitChar digit = '0' → digit.val = 0 := by decide
      exact digits ⟨value, small⟩ leads
    · have first : (Nat.toDigits 10 (value / 10)).head? = some '0' := by
        rw [Nat.toDigits_of_base_le (by decide) (Nat.le_of_not_lt small)] at leads
        cases digits : Nat.toDigits 10 (value / 10) with
        | nil => exact absurd digits Nat.toDigits_ne_nil
        | cons digit more => simpa [digits] using leads
      have := ih (value / 10) (by omega) first
      omega

end Decimal

/-- What was written item by item is read back item by item. -/
theorem mapM_map_of_inverse {α β : Type} {encode : α → β} {decode : β → Option α} {items : List α}
    (inverse : ∀ item ∈ items, decode (encode item) = some item) :
    (items.map encode).mapM decode = some items := by
  induction items with
  | nil => rfl
  | cons item items ih =>
    rw [List.map_cons, List.mapM_cons, inverse item (.head _),
      ih fun other member => inverse other (.tail _ member)]
    rfl

namespace Json

/-- A text does not continue a numeral that stands before it. -/
def Stops (rest : List Char) : Prop :=
  ∀ char ∈ rest.head?, char.isDigit = false ∧ char ≠ '.' ∧ char ≠ 'e' ∧ char ≠ 'E'

/-- The digits of a numeral end where a text begins that does not continue it. -/
theorem spanDigits_append {digits rest : List Char}
    (all : ∀ char ∈ digits, char.isDigit = true) (stops : Stops rest) :
    spanDigits (digits ++ rest) = (digits, rest) := by
  have none : rest.takeWhile Char.isDigit = [] ∧ rest.dropWhile Char.isDigit = rest := by
    cases rest with
    | nil => exact ⟨rfl, rfl⟩
    | cons char rest => simp [(stops char rfl).1]
  rw [spanDigits, List.takeWhile_append_of_pos all, List.dropWhile_append_of_pos all, none.1,
    none.2, List.append_nil]

/-- A text that does not continue a numeral begins no fraction. -/
theorem readFraction_of_stops {rest : List Char} (stops : Stops rest) :
    readFraction rest = some ([], rest) := by
  unfold readFraction
  split
  · exact absurd rfl (stops '.' rfl).2.1
  · rfl

/-- A text that does not continue a numeral begins no exponent. -/
theorem readExponent_of_stops {rest : List Char} (stops : Stops rest) :
    readExponent rest = some (none, rest) := by
  unfold readExponent
  split
  · rename_i mark rest
    have marks := stops mark rfl
    simp [marks.2.2.1, marks.2.2.2]
  · rfl

/-- The digits of a number are read as the integer of either sign. -/
theorem readUnsigned_write (isNegative : Bool) (value : Nat) {rest : List Char}
    (stops : Stops rest) : readUnsigned isNegative (Decimal.write value ++ rest) =
      some (integerOf isNegative (Decimal.write value), rest) := by
  have filled : Decimal.write value ≠ [] := Nat.toDigits_ne_nil
  -- A zero in front stands alone.
  have alone : ¬((Decimal.write value).head? = some '0' ∧ Decimal.write value ≠ ['0']) := by
    rintro ⟨leads, more⟩
    exact more (by rw [Decimal.write_leading_zero leads]; rfl)
  rw [readUnsigned, spanDigits_append (fun _ => Decimal.isDigit_of_mem_write) stops]
  simp only [filled, alone, false_or, if_false, readFraction_of_stops stops,
    readExponent_of_stops stops, Option.bind_eq_bind, Option.bind_some, and_self, if_true]
  rfl

/-- The digits of a number denote it. -/
theorem ofDigitChars_write (value : Nat) :
    Nat.ofDigitChars 10 (Decimal.write value) 0 = value :=
  Nat.ofDigitChars_ten_toDigits

/-- An integer fits a word of 64 bits, with a sign or without. -/
def FitsWord (value : Int) : Prop :=
  -9223372036854775808 ≤ value ∧ value < 18446744073709551616

/-- The numeral of an integer that fits a word is read back. -/
theorem readNumber_writeScalar {value : Int} (fits : FitsWord value) {rest : List Char}
    (stops : Stops rest) :
    readNumber (writeScalar (.integer value) ++ rest) = some (.integer value, rest) := by
  obtain ⟨least, greatest⟩ := fits
  cases value with
  | ofNat value =>
    have small : value < UInt64.size := by
      simp only [UInt64.size]
      exact Int.ofNat_lt.mp greatest
    simp only [writeScalar]
    -- A number does not begin with a sign.
    unfold readNumber
    split
    · rename_i tail sign
      have begins : '-' ∈ Decimal.write value := by
        cases digits : Decimal.write value with
        | nil => exact absurd digits Nat.toDigits_ne_nil
        | cons first more =>
          rw [digits, List.cons_append, List.cons.injEq] at sign
          exact sign.1 ▸ List.mem_cons_self
      have digit := Decimal.isDigit_of_mem_write begins
      simp at digit
    · rw [readUnsigned_write false value stops, integerOf, ofDigitChars_write]
      simp [small]
  | negSucc value =>
    have bounds : 0 < value + 1 ∧ value + 1 ≤ 1 <<< 63 := by
      rw [Nat.one_shiftLeft]
      omega
    simp only [writeScalar, List.cons_append, readNumber]
    rw [readUnsigned_write true (value + 1) stops, integerOf, ofDigitChars_write]
    simp only [if_true, bounds, and_self]
    rfl

/-- An escape of two characters is read as the character that it names. -/
theorem readPoints_short {code char : Char} (short : shortEscape? code = some char)
    (rest : List Char) : readPoints ('\\' :: code :: rest) =
      (readPoints rest).bind fun (points, rest) => some (char.toNat :: points, rest) := by
  have other : code ≠ 'u' := by
    rintro rfl
    simp [shortEscape?] at short
  rw [readPoints.eq_4 code rest fun _ _ _ _ _ same => absurd same other, short]
  rfl

/-- An escape by number is read as the character of that number. -/
theorem readPoints_control {char : Char} (control : char.toNat < 0x20) (rest : List Char) :
    readPoints ('\\' :: 'u' :: '0' :: '0' :: Nat.digitChar (char.toNat / 16) ::
      Nat.digitChar (char.toNat % 16) :: rest) =
      (readPoints rest).bind fun (points, rest) => some (char.toNat :: points, rest) := by
  have values : ∀ value : Fin 0x20, Hex.value? ['0', '0', Nat.digitChar (value / 16),
      Nat.digitChar (value % 16)] = some value.val := by decide
  rw [readPoints, values ⟨char.toNat, control⟩]
  rfl

/-- A character that needs no escape is read as itself. -/
theorem readPoints_raw {char : Char} (quote : char ≠ '"') (backslash : char ≠ '\\')
    (printable : ¬char.toNat < 0x20) (rest : List Char) : readPoints (char :: rest) =
      (readPoints rest).bind fun (points, rest) => some (char.toNat :: points, rest) := by
  rw [readPoints.eq_5 char rest quote (fun _ _ _ _ _ same => absurd same backslash)
    fun _ _ same => absurd same backslash, if_neg printable]
  rfl

/-- Every character is read back from how it is written in a string. -/
theorem readPoints_escape (char : Char) (rest : List Char) : readPoints (escape char ++ rest) =
    (readPoints rest).bind fun (points, rest) => some (char.toNat :: points, rest) := by
  -- The cases are those of the escapes, from the named ones to the raw characters.
  unfold escape
  split
  · subst char
    exact readPoints_short rfl rest
  split
  · subst char
    exact readPoints_short rfl rest
  split
  · subst char
    exact readPoints_short rfl rest
  split
  · subst char
    exact readPoints_short rfl rest
  split
  · subst char
    exact readPoints_short rfl rest
  split
  · subst char
    exact readPoints_short rfl rest
  split
  · subst char
    exact readPoints_short rfl rest
  split
  · rename_i control
    exact readPoints_control control rest
  · rename_i quote backslash _ _ _ _ _ printable
    exact readPoints_raw quote backslash printable rest

/-- The characters of a string are read up to its closing quote. -/
theorem readPoints_flatMap_escape (chars rest : List Char) :
    readPoints (chars.flatMap escape ++ '"' :: rest) = some (chars.map Char.toNat, rest) := by
  induction chars with
  | nil => exact readPoints.eq_2 rest
  | cons char chars ih =>
    rw [List.flatMap_cons, List.append_assoc, readPoints_escape, ih]
    rfl

/-- No character is half of a surrogate pair. -/
theorem toNat_apart (char : Char) : char.toNat < 0xD800 ∨ 0xE000 ≤ char.toNat := by
  have valid := char.valid
  unfold UInt32.isValidChar Nat.isValidChar at valid
  simp only [Char.toNat]
  omega

/-- Code points of characters are the text of these. -/
theorem joinPoints_map_toNat (chars : List Char) :
    joinPoints (chars.map Char.toNat) = some chars := by
  -- None of the points is half of a pair, so that each is taken alone.
  induction chars with
  | nil => rfl
  | cons char chars ih =>
    have apart := toNat_apart char
    have high : ¬(0xD800 ≤ char.toNat ∧ char.toNat < 0xDC00) := by omega
    have low : ¬(0xDC00 ≤ char.toNat ∧ char.toNat < 0xE000) := by omega
    have half : ¬(0xD800 ≤ char.toNat ∧ char.toNat < 0xE000) := by omega
    cases chars with
    | nil =>
      simp only [List.map_cons, List.map_nil, joinPoints, if_neg half, Char.ofNat_toNat]
    | cons next chars =>
      rw [List.map_cons, List.map_cons, joinPoints, if_neg high, if_neg low, ← List.map_cons, ih,
        Char.ofNat_toNat]
      rfl

/-- A string is read back after its opening quote. -/
theorem readText_escape (text : String) (rest : List Char) :
    readText (text.toList.flatMap escape ++ '"' :: rest) = some (some text, rest) := by
  rw [readText, readPoints_flatMap_escape]
  simp [joinPoints_map_toNat]

end Json

end Progeny
