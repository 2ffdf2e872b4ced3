import Mathlib.Algebra.Ring.Nat
import Progeny.Proofs.Text.Hex
import Progeny.Uuid

/-! The text of an identifier is read back. -/

namespace Progeny.Uuid

/-- An identifier has 32 digits. -/
theorem length_digits (uuid : Uuid) : uuid.digits.length = 32 := by
  have short : (Nat.toDigits 16 uuid.bits.toNat).length ≤ 32 :=
    (Nat.length_toDigits_le_iff (by decide) (by decide)).mpr uuid.bits.isLt
  rw [digits, List.length_append, List.length_replicate]
  exact Nat.sub_add_cancel short

/-- The digits of an identifier denote it. -/
theorem ofDigits?_digits (uuid : Uuid) : ofDigits? uuid.digits = some uuid := by
  have value : Hex.value? uuid.digits = some uuid.bits.toNat := by
    rw [digits, Hex.value?_padded, Hex.value?_toDigits]
  rw [ofDigits?, if_pos uuid.length_digits, value, Option.map_some, BitVec.ofNat_toNat,
    BitVec.setWidth_eq]

/-- The digits that were cut into groups are joined again. -/
theorem joinGroups?_hyphenate {lengths : List Nat} (filled : lengths ≠ []) {digits : List Char}
    (all : digits.length = lengths.sum) :
    joinGroups? lengths (hyphenate lengths digits) = some digits := by
  -- Each group is taken off by its length, and a hyphen stands behind it unless it is the last.
  induction lengths, digits using hyphenate.induct with
  | case1 => exact absurd rfl filled
  | case2 length digits => simp_all [hyphenate, joinGroups?]
  | case3 length rest digits more ih =>
    rw [List.sum_cons] at all
    have taken : (digits.take length).length = length := by
      rw [List.length_take]
      omega
    have read := ih more (by rw [List.length_drop]; omega)
    rw [hyphenate.eq_3 _ _ _ more, joinGroups?.eq_3 _ _ _ more, List.drop_left' taken,
      List.take_left' taken]
    simp only [read, Option.map_some, List.take_append_drop]

/-- Cut digits take as many more characters as there are hyphens between groups. -/
theorem length_hyphenate {lengths : List Nat} (filled : lengths ≠ []) {digits : List Char}
    (all : digits.length = lengths.sum) :
    (hyphenate lengths digits).length + 1 = digits.length + lengths.length := by
  induction lengths, digits using hyphenate.induct with
  | case1 => exact absurd rfl filled
  | case2 length digits => rfl
  | case3 length rest digits more ih =>
    rw [List.sum_cons] at all
    have cut := ih more (by rw [List.length_drop]; omega)
    rw [hyphenate.eq_3 _ _ _ more, List.length_append, List.length_cons, List.length_cons,
      List.length_take]
    rw [List.length_drop] at cut
    omega

/-- The groups of an identifier begin with a digit. -/
theorem hyphenate_begins (uuid : Uuid) : ∃ half more, half < 16 ∧
    hyphenate groups uuid.digits = Hex.digit half :: more := by
  have all := uuid.length_digits
  cases same : uuid.digits with
  | nil => simp [same] at all
  | cons char rest =>
    have member : char ∈ uuid.digits := same ▸ List.mem_cons_self
    have digit : ∃ half < 16, char = Hex.digit half := by
      rcases List.mem_append.mp member with zero | own
      · exact ⟨0, by decide, (List.mem_replicate.mp zero).2⟩
      · exact Hex.digit_of_mem_toDigits own
    obtain ⟨half, small, rfl⟩ := digit
    exact ⟨half, _, small, rfl⟩

/-- An identifier is read back from its text. -/
theorem parse?_text (uuid : Uuid) : parse? uuid.text.toList = some uuid := by
  have filled : groups ≠ [] := by decide
  have length := length_hyphenate filled uuid.length_digits
  have read : ofGroups? (hyphenate groups uuid.digits) = some uuid := by
    rw [ofGroups?, joinGroups?_hyphenate filled uuid.length_digits, Option.bind_some,
      ofDigits?_digits]
  obtain ⟨half, more, small, begins⟩ := uuid.hyphenate_begins
  -- No digit begins the name of a scheme or a pair of braces.
  have first : ∀ half : Fin 16,
      (Hex.digit half).toLower ≠ 'u' ∧ Hex.digit half ≠ '\x7b' := by decide
  obtain ⟨scheme, brace⟩ := first ⟨half, small⟩
  have longer : (hyphenate groups uuid.digits).length ≠ 32 := by
    rw [uuid.length_digits] at length
    simp only [groups, List.length_cons, List.length_nil] at length ⊢
    omega
  have bare : ¬((hyphenate groups uuid.digits).take Uuid.scheme.length).map Char.toLower =
      Uuid.scheme := by
    rw [begins]
    exact fun same => scheme (List.cons.inj same).1
  rw [text, String.toList_ofList, parse?, if_neg longer, if_neg bare, read]
  intro rest same
  exact brace (List.cons.inj (begins.symm.trans same)).1

end Progeny.Uuid
