import Progeny.Random.Draw

/-! What holds of a number that was drawn, whatever the random stream. -/

namespace Progeny.Draw

variable {α β : Type}

/-- Whatever is drawn has a property. -/
def Ensures (draw : Draw α) (holds : α → Prop) : Prop :=
  ∀ stream value rest, draw stream = some (value, rest) → holds value

/-- What is given without a draw has the properties it has. -/
theorem Ensures.pure {holds : α → Prop} {value : α} (given : holds value) :
    Ensures (pure value : Draw α) holds := by
  intro stream result rest drawn
  obtain ⟨rfl, -⟩ := Prod.mk.inj (Option.some.inj drawn)
  exact given

/-- A draw that depends on another may rely on what that one ensures. -/
theorem Ensures.bind {draw : Draw α} {next : α → Draw β} {holds : α → Prop}
    {after : β → Prop} (first : Ensures draw holds)
    (second : ∀ value, holds value → Ensures (next value) after) :
    Ensures (draw >>= next) after := by
  -- The second draw goes on where the first one stopped.
  intro stream result rest drawn
  change (draw stream).bind (fun drawn => next drawn.1 drawn.2) = some (result, rest) at drawn
  obtain ⟨⟨value, middle⟩, here, there⟩ := Option.bind_eq_some_iff.mp drawn
  exact second value (first stream value middle here) middle result rest there

/-- Nothing is ensured by a draw that is not relied on. -/
theorem ensures_true (draw : Draw α) : Ensures draw fun _ => True :=
  fun _ _ _ _ => trivial

/-- What is never drawn has every property. -/
theorem ensures_failure (holds : α → Prop) : Ensures (failure : Draw α) holds :=
  fun _ _ _ drawn => by cases drawn

/-- A word of 64 bits is below that power of two. -/
theorem ensures_doubleWord : Ensures doubleWord fun value => value < UInt64.size := by
  -- Each half fits a word of 32 bits.
  unfold doubleWord
  refine (ensures_true word).bind fun low _ => (ensures_true word).bind fun high _ => .pure ?_
  have := low.toNat_lt
  have := high.toNat_lt
  simp only [UInt32.size, UInt64.size]
  omega

/-- A number is drawn below its bound. -/
theorem ensures_below {bound : Nat} (positive : 0 < bound) (fuel : Nat) :
    Ensures (below bound fuel) fun value => value < bound := by
  induction fuel with
  | zero => exact ensures_failure _
  | succ fuel ih =>
    unfold below
    refine ensures_doubleWord.bind fun wide small => ?_
    dsimp only
    split
    · -- The high half of a product with the bound is below the bound.
      refine .pure ?_
      rw [Nat.div_lt_iff_lt_mul (by decide), Nat.mul_comm]
      exact Nat.mul_lt_mul_of_pos_left small positive
    · exact ih

/-- A number is drawn below its bound and differs from the one that is excluded. -/
theorem ensures_belowExcept {bound : Nat} (positive : 0 < bound) (excluded fuel rounds : Nat) :
    Ensures (belowExcept bound excluded fuel rounds) fun value =>
      value < bound ∧ value ≠ excluded := by
  -- A draw that hits the excluded value is followed by another.
  induction rounds with
  | zero => exact ensures_failure _
  | succ rounds ih =>
    unfold belowExcept
    refine (ensures_below positive fuel).bind fun value small => ?_
    split
    · exact ih
    · exact .pure ⟨small, ‹_›⟩

/-- Every word has four bytes. -/
theorem ensures_wordBytes (count : Nat) :
    Ensures (wordBytes count) fun bytes => bytes.length = 4 * count := by
  induction count with
  | zero => exact .pure rfl
  | succ count ih =>
    unfold wordBytes
    refine (ensures_true word).bind fun word _ => ih.bind fun rest size => .pure ?_
    simp only [littleEndian, List.length_append, List.length_cons, List.length_nil, size]
    omega

/-- As many bytes are drawn as were asked for. -/
theorem ensures_bytes (count : Nat) : Ensures (bytes count) fun bytes => bytes.length = count := by
  -- The words that are drawn have no fewer bytes, and the others are dropped.
  unfold bytes
  refine (ensures_wordBytes ((count + 3) / 4)).bind fun drawn size => .pure ?_
  rw [List.length_take, size]
  omega

end Progeny.Draw
