import Progeny.Text.Decimal
import Progeny.Text.Utf8

/-! Texts as bytes: they are told apart by these, and those of characters that are one byte each,
numerals among them, are read from their own bytes and from no others. -/

namespace Progeny

/-- What is read back is told apart by how it was written. -/
theorem inj_of_inverse {α β : Type} {encode : α → β} {decode : β → Option α}
    (inverse : ∀ item, decode (encode item) = some item) {one other : α} :
    encode one = encode other ↔ one = other := by
  refine ⟨fun same => ?_, congrArg encode⟩
  have read := inverse one
  rw [same, inverse other] at read
  exact (Option.some.inj read).symm

/-- The bytes of a text of characters below 128 are their numbers. -/
theorem Bytes.ofText_eq_map {text : List Char} (plain : ∀ char ∈ text, char.toNat < 128) :
    Bytes.ofText text = text.map Char.toUInt8 := by
  induction text with
  | nil => rfl
  | cons char rest ih =>
    -- A character of size one is encoded by its only byte.
    have size : char.utf8Size = 1 := by
      rw [Char.utf8Size_eq_one_iff, UInt32.le_iff_toNat_le]
      exact Nat.le_of_lt_succ (plain char (by simp))
    have tail := ih fun other member => plain other (by simp [member])
    unfold Bytes.ofText at tail ⊢
    rw [List.flatMap_cons, String.utf8EncodeChar_eq_singleton size, tail]
    rfl

/-- Different texts have different bytes. -/
theorem Bytes.ofText_inj {one other : List Char} : ofText one = ofText other ↔ one = other := by
  refine ⟨fun same => ?_, congrArg ofText⟩
  -- A string is its bytes.
  have bytes : (String.ofList one).toByteArray = (String.ofList other).toByteArray := by
    rw [String.toByteArray_ofList, String.toByteArray_ofList]
    exact congrArg List.toByteArray same
  exact String.ofList_injective (String.toByteArray_inj.mp bytes)

/-- The byte of a character below 128 has its number. -/
theorem toNat_toUInt8 {char : Char} (plain : char.toNat < 128) :
    char.toUInt8.toNat = char.toNat := by
  rw [← Char.toUInt8_val, UInt32.toNat_toUInt8]
  exact Nat.mod_eq_of_lt (Nat.lt_trans plain (by decide))

/-- The character of a number has that number, unless the number is that of no character. -/
theorem toNat_ofNat (number : Nat) :
    (Char.ofNat number).toNat = number ∨ (Char.ofNat number).toNat = 0 := by
  unfold Char.ofNat
  by_cases valid : number.isValidChar
  · rw [dif_pos valid]
    exact .inl rfl
  · rw [dif_neg valid]
    exact .inr rfl

namespace Utf8

/-- A text of characters below 128 reads back as itself. -/
theorem decode?_ofText {text : List Char} (plain : ∀ char ∈ text, char.toNat < 128) :
    decode? (Bytes.ofText text) = some text := by
  -- Such a character is one byte, and that byte stands for itself.
  rw [Bytes.ofText_eq_map plain]
  unfold decode?
  induction text with
  | nil => simp [scalars]
  | cons char rest ih =>
    have small := plain char (by simp)
    have lead : char.toUInt8 < 0x80 := by
      rw [UInt8.lt_iff_toNat_lt, toNat_toUInt8 small]
      exact small
    have tail := ih fun other member => plain other (by simp [member])
    rw [List.map_cons, scalars]
    simp [scalarAfter, lead, toNat_toUInt8 small, tail]

/-- Continuation bytes only add to a value. -/
theorem le_of_continued {more value scalar : Nat} {bytes : Bytes}
    (taken : (continued more value bytes).1 = some scalar) : value ≤ scalar := by
  induction more generalizing value bytes with
  | zero => exact Nat.le_of_eq (by simpa [continued] using taken)
  | succ more ih =>
    cases bytes with
    | nil => simp [continued] at taken
    | cons byte rest =>
      simp only [continued] at taken
      split at taken
      · have := ih taken
        omega
      · cases taken

/-- The first continuation byte moves a value up by six bits. -/
theorem mul_le_of_continued {more value scalar : Nat} {bytes : Bytes}
    (taken : (continued (more + 1) value bytes).1 = some scalar) : value * 64 ≤ scalar := by
  cases bytes with
  | nil => simp [continued] at taken
  | cons byte rest =>
    simp only [continued] at taken
    split at taken
    · have := le_of_continued taken
      omega
    · cases taken

/-- A second byte within its limits and the byte after it move a value up by six bits each. -/
theorem mul_le_of_bounded {low high : UInt8} {more value scalar : Nat} {bytes : Bytes}
    (taken : (bounded low high (more + 1) value bytes).1 = some scalar) :
    ∃ second, low.toNat ≤ second ∧ second ≤ high.toNat ∧
      (value * 64 + second % 64) * 64 ≤ scalar := by
  cases bytes with
  | nil => cases taken
  | cons byte rest =>
    simp only [bounded] at taken
    split at taken
    · rename_i within
      simp only [Bool.and_eq_true, decide_eq_true_eq, UInt8.le_iff_toNat_le] at within
      exact ⟨byte.toNat, within.1, within.2, mul_le_of_continued taken⟩
    · cases taken

/-- What a byte from 128 on begins is no character below 128. -/
theorem le_of_scalarAfter {lead : UInt8} {rest : Bytes} {scalar : Nat} (high : ¬lead < 0x80)
    (taken : (scalarAfter lead rest).1 = some scalar) : 128 ≤ scalar := by
  simp only [scalarAfter, high, if_false, UInt8.lt_iff_toNat_lt, ← UInt8.toNat_inj,
    UInt8.reduceToNat] at taken
  -- A leading byte has bits enough for its kind of sequence, or else the limits of the byte after it
  -- exclude overlong forms.
  split at taken
  · cases taken
  split at taken
  · have := mul_le_of_continued taken
    omega
  repeat' split at taken
  · -- After 0xE0 comes at least 0xA0.
    obtain ⟨second, (low : 160 ≤ second), (_ : second ≤ 191), large⟩ := mul_le_of_bounded taken
    omega
  · obtain ⟨second, -, -, large⟩ := mul_le_of_bounded taken
    omega
  · obtain ⟨second, -, -, large⟩ := mul_le_of_bounded taken
    omega
  · -- After 0xF0 comes at least 0x90.
    obtain ⟨second, (low : 144 ≤ second), (_ : second ≤ 191), large⟩ := mul_le_of_bounded taken
    omega
  · obtain ⟨second, -, -, large⟩ := mul_le_of_bounded taken
    omega
  · obtain ⟨second, -, -, large⟩ := mul_le_of_bounded taken
    omega
  · cases taken

/-- Only its own bytes read as a text of characters below 128 other than zero. -/
theorem eq_ofText_of_decode? {bytes : Bytes} {text : List Char} (read : decode? bytes = some text)
    (plain : ∀ char ∈ text, 0 < char.toNat ∧ char.toNat < 128) : bytes = Bytes.ofText text := by
  rw [Bytes.ofText_eq_map fun char member => (plain char member).2]
  unfold decode? at read
  -- The bytes are read scalar by scalar.
  induction bytes using scalars.induct generalizing text with
  | case1 =>
    obtain rfl : text = [] := by simpa [scalars] using read.symm
    rfl
  | case2 lead rest ih =>
    rw [scalars, List.mapM_cons] at read
    cases first : (scalarAfter lead rest).1 with
    | none => simp [first] at read
    | some scalar =>
      cases more : (scalars (scalarAfter lead rest).2).mapM id with
      | none => simp [first, more] at read
      | some later =>
        obtain rfl : text = Char.ofNat scalar :: later := by simpa [first, more] using read.symm
        have here := plain (Char.ofNat scalar) (by simp)
        have number := (toNat_ofNat scalar).resolve_right (by omega)
        have tail := ih more fun char member => plain char (by simp [member])
        by_cases small : lead < 0x80
        · -- A byte below 128 stands for itself.
          simp only [scalarAfter, small, if_true] at first tail
          obtain rfl := Option.some.inj first
          rw [List.map_cons, ← tail]
          congr 1
          rw [← UInt8.toNat_inj, toNat_toUInt8 here.2, number]
        · have := le_of_scalarAfter small first
          omega

end Utf8

namespace Decimal

/-- Every character of a numeral is a digit. -/
theorem isDigit_of_mem_write {value : Nat} {char : Char} (member : char ∈ write value) :
    char.isDigit = true :=
  Nat.isDigit_of_mem_toDigits (by decide) (by decide) member

/-- The numbers of digits lie between 48 and 57. -/
theorem toNat_of_isDigit {char : Char} (digit : char.isDigit = true) :
    48 ≤ char.toNat ∧ char.toNat ≤ 57 := by
  simp only [Char.isDigit, Bool.and_eq_true, decide_eq_true_eq, ge_iff_le,
    UInt32.le_iff_toNat_le] at digit
  exact digit

/-- Digits, leading zeros among them, denote a number. -/
def Denotes (digits : List Char) (value : Nat) : Prop :=
  digits ≠ [] ∧ (∀ char ∈ digits, char.isDigit = true) ∧ Nat.ofDigitChars 10 digits 0 = value

/-- The digits of a number denote it. -/
theorem denotes_write (value : Nat) : Denotes (write value) value :=
  ⟨Nat.toDigits_ne_nil, fun _ member => isDigit_of_mem_write member,
    Nat.ofDigitChars_ten_toDigits⟩

/-- Digits are read as the number that they denote. -/
theorem readDigits?_eq_some_iff {digits : List Char} {value : Nat} :
    readDigits? digits = some value ↔ Denotes digits value := by
  simp [readDigits?, Denotes, and_assoc]

/-- A numeral is read exactly if its digits, after a plus sign or without one, denote a number below
the bound. -/
theorem read?_eq_some_iff {bound value : Nat} {chars : List Char} :
    read? bound chars = some value ↔
      value < bound ∧ ∃ digits, (chars = digits ∨ chars = '+' :: digits) ∧ Denotes digits value := by
  have bounded (number : Option Nat) :
      (do let value ← number; if value < bound then return value else none) = some value ↔
        value < bound ∧ number = some value := by
    cases number with
    | none => simp
    | some number =>
      by_cases within : number < bound
      · simp only [Option.bind_eq_bind, Option.bind_some, if_pos within, Option.pure_def,
          Option.some.injEq]
        exact ⟨fun same => ⟨same ▸ within, same⟩, And.right⟩
      · simp only [Option.bind_eq_bind, Option.bind_some, if_neg within, Option.some.injEq]
        exact ⟨nofun, fun ⟨small, same⟩ => absurd (same ▸ small) within⟩
  unfold read?
  dsimp only
  split
  · rename_i digits
    rw [bounded, readDigits?_eq_some_iff]
    refine and_congr_right fun _ => ⟨fun denotes => ⟨digits, .inr rfl, denotes⟩, ?_⟩
    rintro ⟨other, rfl | same, denotes⟩
    · -- A plus sign is no digit.
      have sign := denotes.2.1 '+' (by simp)
      simp at sign
    · exact (List.cons.inj same).2 ▸ denotes
  · rename_i unsigned
    rw [bounded, readDigits?_eq_some_iff]
    refine and_congr_right fun _ => ⟨fun denotes => ⟨chars, .inl rfl, denotes⟩, ?_⟩
    rintro ⟨digits, rfl | signed, denotes⟩
    · exact denotes
    · exact absurd signed (unsigned digits)

end Decimal

end Progeny
