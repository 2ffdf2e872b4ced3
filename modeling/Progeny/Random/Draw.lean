import Progeny.Bytes
import Progeny.Random.Stream

/-! Drawing numbers and bytes from a random stream. -/

namespace Progeny

/-- A value that depends on a random stream. There is none if a loop that rejects what it draws
would take more rounds than it was given. -/
abbrev Draw := StateT RandomStream Option

namespace Draw

/-- Draws a word of 32 bits. -/
def word : Draw UInt32 :=
  fun stream => some stream.nextWord

/-- Draws a number of 64 bits from two words, the low one first. -/
def doubleWord : Draw Nat := do
  let low ← word
  let high ← word
  return high.toNat * UInt32.size + low.toNat

/-- Draws a number below a positive bound. The high half of a product with the bound is uniform
once products in the incomplete last share are rejected. -/
def below (bound : Nat) : Nat → Draw Nat
  | 0 => failure
  | fuel + 1 => do
    let product := (← doubleWord) * bound
    -- The greatest multiple of the bound by a power of two that fits, less one.
    let zone := bound <<< (63 - bound.log2) - 1
    if product % UInt64.size ≤ zone then return product / UInt64.size
    else below bound fuel

/-- Draws a number below a bound other than a given one. -/
def belowExcept (bound excluded fuel : Nat) : Nat → Draw Nat
  | 0 => failure
  | rounds + 1 => do
    let value ← below bound fuel
    if value = excluded then belowExcept bound excluded fuel rounds else return value

/-- The bytes of a word, the lowest first. -/
def littleEndian (word : UInt32) : Bytes :=
  [word.toUInt8, (word >>> 8).toUInt8, (word >>> 16).toUInt8, (word >>> 24).toUInt8]

/-- Draws words and lists their bytes. -/
def wordBytes : Nat → Draw Bytes
  | 0 => return []
  | count + 1 => do
    let word ← word
    let rest ← wordBytes count
    return littleEndian word ++ rest

/-- Draws a number of bytes. What is left of the last word is thrown away. -/
def bytes (count : Nat) : Draw Bytes := do
  let drawn ← wordBytes ((count + 3) / 4)
  return drawn.take count

end Draw

end Progeny
