import Mathlib.Data.Nat.Digits.Lemmas
import Mathlib.Tactic.Ring
import Progeny.Text.Base64

/-! Bytes written in base64 are read back, and no other text is read as them: what is read is
exactly the standard with padding. -/

namespace Progeny.Base64

/-- Every one of the sixty-four digits is read as its value. -/
theorem digitValue?_digit {value : Nat} (small : value < 64) :
    digitValue? (digit value) = some value := by
  -- The alphabet is finite, and each of its digits is looked up.
  have all : ∀ value : Fin 64, digitValue? (digit value) = some value.val := by decide
  exact all ⟨value, small⟩

/-- No digit is the character that pads a group. -/
theorem digit_ne_padding {value : Nat} (small : value < 64) : digit value ≠ '=' := by
  intro same
  have read := digitValue?_digit small
  rw [same] at read
  exact absurd read (by simp [digitValue?])

/-- A byte is read from the number that it is. -/
theorem ofNat_of_eq {byte : UInt8} {number : Nat} (same : number = byte.toNat) :
    UInt8.ofNat number = byte := by
  rw [same]
  exact UInt8.ofNat_toNat

/-- Bytes are read back from their text. -/
theorem decode?_encode (bytes : Bytes) : decode? (encode bytes) = some bytes := by
  -- Each group of three bytes is rebuilt from its four digits, and the last one may be short.
  induction bytes using encode.induct with
  | case1 => rfl
  | case2 a =>
    have bound := a.toNat_lt
    have first : a.toNat / 4 < 64 := by omega
    have second : a.toNat % 4 * 16 < 64 := by omega
    have whole : a.toNat / 4 * 4 + a.toNat % 4 * 16 / 16 = a.toNat := by omega
    have rest : a.toNat % 4 * 16 % 16 = 0 := by omega
    simp only [encode, decode?, digitValue?_digit first, digitValue?_digit second, rest,
      ofNat_of_eq whole, Option.bind_eq_bind, Option.bind_some, and_self, if_true]
    rfl
  | case3 a b =>
    have bound := a.toNat_lt
    have boundToo := b.toNat_lt
    have first : a.toNat / 4 < 64 := by omega
    have second : a.toNat % 4 * 16 + b.toNat / 16 < 64 := by omega
    have third : b.toNat % 16 * 4 < 64 := by omega
    have whole : a.toNat / 4 * 4 + (a.toNat % 4 * 16 + b.toNat / 16) / 16 = a.toNat := by omega
    have wholeToo : (a.toNat % 4 * 16 + b.toNat / 16) % 16 * 16 + b.toNat % 16 * 4 / 4 =
        b.toNat := by omega
    have rest : b.toNat % 16 * 4 % 4 = 0 := by omega
    simp only [encode, decode?, digitValue?_digit first, digitValue?_digit second,
      digitValue?_digit third, digit_ne_padding third, rest, ofNat_of_eq whole,
      ofNat_of_eq wholeToo, Option.bind_eq_bind, Option.bind_some, false_and, and_self, if_false,
      if_true]
    rfl
  | case4 a b c rest ih =>
    have bound := a.toNat_lt
    have boundToo := b.toNat_lt
    have boundThree := c.toNat_lt
    have first : a.toNat / 4 < 64 := by omega
    have second : a.toNat % 4 * 16 + b.toNat / 16 < 64 := by omega
    have third : b.toNat % 16 * 4 + c.toNat / 64 < 64 := by omega
    have fourth : c.toNat % 64 < 64 := by omega
    have whole : a.toNat / 4 * 4 + (a.toNat % 4 * 16 + b.toNat / 16) / 16 = a.toNat := by omega
    have wholeToo : (a.toNat % 4 * 16 + b.toNat / 16) % 16 * 16 +
        (b.toNat % 16 * 4 + c.toNat / 64) / 4 = b.toNat := by omega
    have wholeThree : (b.toNat % 16 * 4 + c.toNat / 64) % 4 * 64 + c.toNat % 64 =
        c.toNat := by omega
    simp only [encode, decode?, digitValue?_digit first, digitValue?_digit second,
      digitValue?_digit third, digitValue?_digit fourth, digit_ne_padding third,
      digit_ne_padding fourth, ih, ofNat_of_eq whole, ofNat_of_eq wholeToo,
      ofNat_of_eq wholeThree, Option.bind_eq_bind, Option.bind_some, false_and, if_false]
    rfl

/-- A character is the one of its number. -/
theorem ofNat_of_eq_toNat {char : Char} {number : Nat} (same : number = char.toNat) :
    Char.ofNat number = char := by
  rw [same, Char.ofNat_toNat]

/-- What is read as a value is the digit of this value. -/
theorem digit_of_digitValue? {char : Char} {value : Nat} (read : digitValue? char = some value) :
    value < 64 ∧ digit value = char := by
  -- Each branch of the reader is a stretch of the alphabet, or one of its last two digits.
  simp only [digitValue?, Char.le_def, UInt32.le_iff_toNat_le, Char.toNat_val,
    Char.reduceToNat] at read
  simp only [digit, Char.reduceToNat]
  split at read
  next upper =>
    obtain rfl := Option.some.inj read
    refine ⟨by omega, ?_⟩
    rw [if_pos (by omega)]
    exact ofNat_of_eq_toNat (by omega)
  split at read
  next lower =>
    obtain rfl := Option.some.inj read
    refine ⟨by omega, ?_⟩
    rw [if_neg (by omega), if_pos (by omega)]
    exact ofNat_of_eq_toNat (by omega)
  split at read
  next numeral =>
    obtain rfl := Option.some.inj read
    refine ⟨by omega, ?_⟩
    rw [if_neg (by omega), if_neg (by omega), if_pos (by omega)]
    exact ofNat_of_eq_toNat (by omega)
  split at read
  next plus =>
    obtain rfl := Option.some.inj read
    exact ⟨by omega, plus.symm⟩
  split at read
  next slash =>
    obtain rfl := Option.some.inj read
    exact ⟨by omega, slash.symm⟩
  next => contradiction

/-- A text that is read is the one that is written for its bytes. -/
theorem encode_of_decode? {text : List Char} {bytes : Bytes} (read : decode? text = some bytes) :
    encode bytes = text := by
  -- Each group of four digits is rebuilt from its bytes, and none of its bits is lost with padding.
  induction text using decode?.induct generalizing bytes with
  | case1 =>
    cases read
    rfl
  | case2 a b c d rest ih =>
    simp only [decode?, Option.bind_eq_bind, Option.bind_eq_some_iff] at read
    obtain ⟨first, firstRead, second, secondRead, read⟩ := read
    obtain ⟨firstSmall, rfl⟩ := digit_of_digitValue? firstRead
    obtain ⟨secondSmall, rfl⟩ := digit_of_digitValue? secondRead
    have byte : first * 4 + second / 16 < 256 := by omega
    split at read
    next lone =>
      obtain ⟨rfl, rfl, rfl⟩ := lone
      split at read
      next unused =>
        obtain rfl := Option.some.inj read
        have high : (first * 4 + second / 16) / 4 = first := by omega
        have low : (first * 4 + second / 16) % 4 * 16 = second := by omega
        rw [encode, UInt8.toNat_ofNat_of_lt' byte, high, low]
      next => contradiction
    next =>
      simp only [Option.bind_eq_some_iff] at read
      obtain ⟨third, thirdRead, read⟩ := read
      obtain ⟨thirdSmall, rfl⟩ := digit_of_digitValue? thirdRead
      have byteToo : second % 16 * 16 + third / 4 < 256 := by omega
      have high : (first * 4 + second / 16) / 4 = first := by omega
      have middle : (first * 4 + second / 16) % 4 * 16 + (second % 16 * 16 + third / 4) / 16 =
          second := by omega
      split at read
      next pair =>
        obtain ⟨rfl, rfl⟩ := pair
        split at read
        next unused =>
          obtain rfl := Option.some.inj read
          have low : (second % 16 * 16 + third / 4) % 16 * 4 = third := by omega
          rw [encode, UInt8.toNat_ofNat_of_lt' byte, UInt8.toNat_ofNat_of_lt' byteToo, high, middle,
            low]
        next => contradiction
      next =>
        simp only [Option.bind_eq_some_iff] at read
        obtain ⟨fourth, fourthRead, others, othersRead, read⟩ := read
        obtain ⟨fourthSmall, rfl⟩ := digit_of_digitValue? fourthRead
        obtain rfl := Option.some.inj read
        have byteThree : third % 4 * 64 + fourth < 256 := by omega
        have next : (second % 16 * 16 + third / 4) % 16 * 4 + (third % 4 * 64 + fourth) / 64 =
            third := by omega
        have low : (third % 4 * 64 + fourth) % 64 = fourth := by omega
        rw [encode, UInt8.toNat_ofNat_of_lt' byte, UInt8.toNat_ofNat_of_lt' byteToo,
          UInt8.toNat_ofNat_of_lt' byteThree, high, middle, next, low, ih othersRead]
  | case3 text nonempty short =>
    rw [decode?] at read
    · contradiction
    · exact nonempty
    · exact short

/-- A text is read as some bytes if it is the one that is written for them, and only then. -/
theorem decode?_eq_some_iff {text : List Char} {bytes : Bytes} :
    decode? text = some bytes ↔ text = encode bytes := by
  refine ⟨fun read => (encode_of_decode? read).symm, ?_⟩
  rintro rfl
  exact decode?_encode bytes

/-- The number of signs that fill the last group. -/
def padding (bytes : Bytes) : Nat :=
  (3 - bytes.length % 3) % 3

/-- Standard base64 of some bytes: digits that spell, in base 64, the number that the bytes spell
in base 256 with two zero bits for each sign of padding, in whole groups of four characters for
every three bytes or fewer. -/
def IsStandard (text : List Char) (bytes : Bytes) : Prop :=
  ∃ values : List Nat, (∀ value ∈ values, value < 64) ∧
    text = values.map digit ++ List.replicate (padding bytes) '=' ∧
    values.length + padding bytes = 4 * ((bytes.length + 2) / 3) ∧
    Nat.ofDigits 64 values.reverse =
      Nat.ofDigits 256 (bytes.map UInt8.toNat).reverse * 4 ^ padding bytes

/-- The digits of the standard, in order. -/
example : (List.range 64).map digit =
    "ABCDEFGHIJKLMNOPQRSTUVWXYZabcdefghijklmnopqrstuvwxyz0123456789+/".toList := by
  decide

/-- There is only one standard text for some bytes. -/
theorem IsStandard.unique {one other : List Char} {bytes : Bytes} (this : IsStandard one bytes)
    (that : IsStandard other bytes) : one = other := by
  obtain ⟨values, small, rfl, length, number⟩ := this
  obtain ⟨others, smallToo, rfl, lengthToo, numberToo⟩ := that
  -- Digits of one length and one number are the same.
  have same : values.reverse = others.reverse := by
    apply Nat.ofDigits_inj_of_len_eq (b := 64) (by decide)
    · simp only [List.length_reverse]
      omega
    · intro value member
      exact small value (List.mem_reverse.mp member)
    · intro value member
      exact smallToo value (List.mem_reverse.mp member)
    · rw [number, numberToo]
  rw [List.reverse_inj.mp same]

/-- A whole group asks for no padding of its own. -/
theorem padding_group (a b c : UInt8) (rest : Bytes) :
    padding (a :: b :: c :: rest) = padding rest := by
  simp only [padding, List.length_cons]
  omega

/-- Digits and padding stand for as many bits as the bytes have. -/
theorem pow_length_digits {values : List Nat} {bytes : Bytes}
    (whole : values.length + padding bytes = 4 * ((bytes.length + 2) / 3)) :
    64 ^ values.length = 256 ^ bytes.length * 4 ^ padding bytes := by
  have bits : 6 * values.length = 8 * bytes.length + 2 * padding bytes := by
    unfold padding at whole ⊢
    omega
  calc 64 ^ values.length
    _ = 2 ^ (6 * values.length) := by rw [Nat.pow_mul]
    _ = 2 ^ (8 * bytes.length + 2 * padding bytes) := by rw [bits]
    _ = 256 ^ bytes.length * 4 ^ padding bytes := by rw [Nat.pow_add, Nat.pow_mul, Nat.pow_mul]

/-- Digits that stand in front are worth one power of the base more for each that follows. -/
theorem ofDigits_reverse_append (base : Nat) (front back : List Nat) :
    Nat.ofDigits base (front ++ back).reverse =
      Nat.ofDigits base back.reverse + base ^ back.length * Nat.ofDigits base front.reverse := by
  rw [List.reverse_append, Nat.ofDigits_append, List.length_reverse]

/-- What is written is standard base64. -/
theorem isStandard_encode (bytes : Bytes) : IsStandard (encode bytes) bytes := by
  induction bytes using encode.induct with
  | case1 => exact ⟨[], by simp, rfl, rfl, rfl⟩
  | case2 a =>
    have bound := a.toNat_lt
    refine ⟨[a.toNat / 4, a.toNat % 4 * 16], ?_, rfl, by simp [padding], ?_⟩
    · simp only [List.forall_mem_cons]
      exact ⟨by omega, by omega, by simp⟩
    · simp [Nat.ofDigits, padding]
      omega
  | case3 a b =>
    have bound := a.toNat_lt
    have boundToo := b.toNat_lt
    refine ⟨[a.toNat / 4, a.toNat % 4 * 16 + b.toNat / 16, b.toNat % 16 * 4], ?_, rfl,
      by simp [padding], ?_⟩
    · simp only [List.forall_mem_cons]
      exact ⟨by omega, by omega, by omega, by simp⟩
    · simp [Nat.ofDigits, padding]
      omega
  | case4 a b c rest ih =>
    obtain ⟨values, small, written, length, number⟩ := ih
    have bound := a.toNat_lt
    have boundToo := b.toNat_lt
    have boundThree := c.toNat_lt
    have group : Nat.ofDigits 64 [a.toNat / 4, a.toNat % 4 * 16 + b.toNat / 16,
        b.toNat % 16 * 4 + c.toNat / 64, c.toNat % 64].reverse =
          Nat.ofDigits 256 [a.toNat, b.toNat, c.toNat].reverse := by
      simp [Nat.ofDigits]
      omega
    refine ⟨[a.toNat / 4, a.toNat % 4 * 16 + b.toNat / 16, b.toNat % 16 * 4 + c.toNat / 64,
      c.toNat % 64] ++ values, ?_, ?_, ?_, ?_⟩
    · simp only [List.forall_mem_append, List.forall_mem_cons]
      exact ⟨⟨by omega, by omega, by omega, by omega, by simp⟩, small⟩
    · rw [encode, written, padding_group, List.map_append, List.append_assoc]
      rfl
    · rw [padding_group, List.length_append]
      simp only [List.length_cons, List.length_nil]
      omega
    · calc Nat.ofDigits 64 (_ ++ values).reverse
        _ = Nat.ofDigits 256 (rest.map UInt8.toNat).reverse * 4 ^ padding rest +
            256 ^ rest.length * 4 ^ padding rest *
              Nat.ofDigits 256 [a.toNat, b.toNat, c.toNat].reverse := by
          rw [ofDigits_reverse_append, number, pow_length_digits length, group]
        _ = (Nat.ofDigits 256 (rest.map UInt8.toNat).reverse + 256 ^ (rest.map UInt8.toNat).length *
              Nat.ofDigits 256 [a.toNat, b.toNat, c.toNat].reverse) * 4 ^ padding rest := by
          rw [List.length_map]
          ring
        _ = Nat.ofDigits 256 ((a :: b :: c :: rest).map UInt8.toNat).reverse *
              4 ^ padding (a :: b :: c :: rest) := by
          rw [← ofDigits_reverse_append, padding_group]
          rfl

/-- Exactly the standard texts are read, each as its bytes: none that lacks padding, has bits that
belong to no byte or holds any other character. -/
theorem decode?_iff_isStandard {text : List Char} {bytes : Bytes} :
    decode? text = some bytes ↔ IsStandard text bytes := by
  rw [decode?_eq_some_iff]
  constructor
  · rintro rfl
    exact isStandard_encode bytes
  · intro standard
    exact standard.unique (isStandard_encode bytes)

end Progeny.Base64
