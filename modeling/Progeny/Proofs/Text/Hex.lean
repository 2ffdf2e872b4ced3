import Progeny.Proofs.Text.Plain
import Progeny.Text.Hex

/-! Hexadecimal digits are read back, those of bytes and those of numbers. -/

namespace Progeny.Hex

/-- Each of the sixteen digits is read as its value. -/
theorem digitValue?_digit {value : Nat} (small : value < 16) :
    digitValue? (digit value) = some value := by
  have all : ∀ value : Fin 16, digitValue? (digit value) = some value.val := by decide
  exact all ⟨value, small⟩

/-- Bytes are read back from their digits. -/
theorem decode?_encode (bytes : Bytes) : decode? (encode bytes) = some bytes := by
  induction bytes with
  | nil => rfl
  | cons byte bytes ih =>
    have bound := byte.toNat_lt
    have high : byte.toNat / 16 < 16 := by omega
    have low : byte.toNat % 16 < 16 := by omega
    have whole : byte.toNat / 16 * 16 + byte.toNat % 16 = byte.toNat := by omega
    unfold encode at ih ⊢
    simp only [List.flatMap_cons, List.cons_append, List.nil_append, decode?,
      digitValue?_digit high, digitValue?_digit low, ih, whole, UInt8.ofNat_toNat,
      Option.bind_eq_bind, Option.bind_some]
    rfl

/-- Different bytes have different digits. -/
theorem encode_inj {one other : Bytes} : encode one = encode other ↔ one = other :=
  inj_of_inverse decode?_encode

/-- One more digit makes sixteen times the value, and its own. -/
theorem value?_concat {digits : List Char} {value last : Nat} (read : value? digits = some value)
    (small : last < 16) : value? (digits ++ [digit last]) = some (value * 16 + last) := by
  unfold value? at read ⊢
  simp [List.foldlM_append, read, digitValue?_digit small]

/-- The digits of a number denote it. -/
theorem value?_toDigits (value : Nat) : value? (Nat.toDigits 16 value) = some value := by
  -- The last digit is the remainder, and those before it are of the quotient.
  induction value using Nat.strongRecOn with
  | _ value ih =>
    by_cases small : value < 16
    · rw [Nat.toDigits_of_lt_base small]
      have read : value? ([] ++ [digit value]) = some (0 * 16 + value) := value?_concat rfl small
      rwa [Nat.zero_mul, Nat.zero_add] at read
    · have read := ih (value / 16) (by omega)
      rw [Nat.toDigits_of_base_le (by decide) (Nat.le_of_not_lt small)]
      have more := value?_concat read (Nat.mod_lt value (by decide))
      rwa [Nat.div_add_mod'] at more

/-- The digits of a number are those of values below sixteen. -/
theorem digit_of_mem_toDigits {value : Nat} {char : Char} (member : char ∈ Nat.toDigits 16 value) :
    ∃ half < 16, char = digit half := by
  induction value using Nat.strongRecOn with
  | _ value ih =>
    by_cases small : value < 16
    · rw [Nat.toDigits_of_lt_base small, List.mem_singleton] at member
      exact ⟨value, small, member⟩
    · rw [Nat.toDigits_of_base_le (by decide) (Nat.le_of_not_lt small), List.mem_append,
        List.mem_singleton] at member
      rcases member with front | last
      · exact ih (value / 16) (by omega) front
      · exact ⟨value % 16, Nat.mod_lt value (by decide), last⟩

/-- Zeros in front do not change the value. -/
theorem value?_padded (zeros : Nat) (digits : List Char) :
    value? (List.replicate zeros '0' ++ digits) = value? digits := by
  induction zeros with
  | zero => rfl
  | succ zeros ih => exact ih

end Progeny.Hex
