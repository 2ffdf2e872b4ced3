import Progeny.Bytes

/-! Reading UTF-8, strictly or with a replacement character for each maximal invalid sequence. -/

namespace Progeny.Utf8

/-- Whether a byte continues a sequence. -/
def isContinuation (byte : UInt8) : Bool :=
  0x80 ≤ byte && byte ≤ 0xBF

/-- Takes the given number of continuation bytes, adding six bits for each. A foreign byte stays
in the rest, and a sequence cut short yields no scalar. -/
def continued : Nat → Nat → Bytes → Option Nat × Bytes
  | 0, value, rest => (some value, rest)
  | _ + 1, _, [] => (none, [])
  | more + 1, value, byte :: rest =>
    if isContinuation byte then continued more (value * 64 + byte.toNat % 64) rest
    else (none, byte :: rest)

/-- Takes a second byte within limits that exclude overlong forms, surrogates and values beyond
the last scalar, and then the given number of continuation bytes. -/
def bounded (low high : UInt8) (more value : Nat) : Bytes → Option Nat × Bytes
  | [] => (none, [])
  | byte :: rest =>
    if low ≤ byte && byte ≤ high then continued more (value * 64 + byte.toNat % 64) rest
    else (none, byte :: rest)

/-- Reads one scalar after its leading byte, or skips one maximal invalid sequence. -/
def scalarAfter (lead : UInt8) (rest : Bytes) : Option Nat × Bytes :=
  if lead < 0x80 then (some lead.toNat, rest)
  else if lead < 0xC2 then (none, rest)
  else if lead < 0xE0 then continued 1 (lead.toNat % 32) rest
  else if lead = 0xE0 then bounded 0xA0 0xBF 1 0 rest
  else if lead = 0xED then bounded 0x80 0x9F 1 13 rest
  else if lead < 0xF0 then bounded 0x80 0xBF 1 (lead.toNat % 16) rest
  else if lead = 0xF0 then bounded 0x90 0xBF 2 0 rest
  else if lead < 0xF4 then bounded 0x80 0xBF 2 (lead.toNat % 8) rest
  else if lead = 0xF4 then bounded 0x80 0x8F 2 4 rest
  else (none, rest)

/-- Continuation bytes are taken from what is left to read. -/
theorem continued_length_le (more value : Nat) (bytes : Bytes) :
    (continued more value bytes).2.length ≤ bytes.length := by
  -- Each continuation byte shortens the rest, and stopping leaves it as it is.
  induction bytes generalizing more value with
  | nil => cases more <;> simp [continued]
  | cons byte rest ih =>
    cases more with
    | zero => simp [continued]
    | succ more =>
      simp only [continued]
      split
      · exact Nat.le_succ_of_le (ih more _)
      · simp

/-- A second byte is taken from what is left to read. -/
theorem bounded_length_le (low high : UInt8) (more value : Nat) (bytes : Bytes) :
    (bounded low high more value bytes).2.length ≤ bytes.length := by
  cases bytes with
  | nil => simp [bounded]
  | cons byte rest =>
    simp only [bounded]
    split
    · exact Nat.le_succ_of_le (continued_length_le more _ rest)
    · simp

/-- Reading never lengthens what is left to read. -/
theorem scalarAfter_length_le (lead : UInt8) (rest : Bytes) :
    (scalarAfter lead rest).2.length ≤ rest.length := by
  unfold scalarAfter
  repeat' split
  all_goals first
    | exact Nat.le_refl _
    | exact continued_length_le _ _ _
    | exact bounded_length_le _ _ _ _ _

/-- The scalars of a byte string in order, with `none` for each maximal invalid sequence. -/
def scalars : Bytes → List (Option Char)
  | [] => []
  | lead :: rest =>
    ((scalarAfter lead rest).1.map Char.ofNat) :: scalars (scalarAfter lead rest).2
termination_by bytes => bytes.length
decreasing_by exact Nat.lt_succ_of_le (scalarAfter_length_le lead rest)

/-- The text that valid bytes encode. -/
def decode? (bytes : Bytes) : Option (List Char) :=
  (scalars bytes).mapM id

/-- The text of any bytes, where an invalid sequence reads as the replacement character. -/
def decodeLossy (bytes : Bytes) : List Char :=
  (scalars bytes).map (·.getD '\uFFFD')

end Progeny.Utf8
