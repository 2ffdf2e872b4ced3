import Progeny.Text.Hex

/-! The SHA-256 digest. -/

namespace Progeny.Sha256

/-- The words that each round adds: fractional bits of the cube roots of the first 64 primes. -/
def roundWords : List UInt32 := [
  0x428a2f98, 0x71374491, 0xb5c0fbcf, 0xe9b5dba5, 0x3956c25b, 0x59f111f1, 0x923f82a4, 0xab1c5ed5,
  0xd807aa98, 0x12835b01, 0x243185be, 0x550c7dc3, 0x72be5d74, 0x80deb1fe, 0x9bdc06a7, 0xc19bf174,
  0xe49b69c1, 0xefbe4786, 0x0fc19dc6, 0x240ca1cc, 0x2de92c6f, 0x4a7484aa, 0x5cb0a9dc, 0x76f988da,
  0x983e5152, 0xa831c66d, 0xb00327c8, 0xbf597fc7, 0xc6e00bf3, 0xd5a79147, 0x06ca6351, 0x14292967,
  0x27b70a85, 0x2e1b2138, 0x4d2c6dfc, 0x53380d13, 0x650a7354, 0x766a0abb, 0x81c2c92e, 0x92722c85,
  0xa2bfe8a1, 0xa81a664b, 0xc24b8b70, 0xc76c51a3, 0xd192e819, 0xd6990624, 0xf40e3585, 0x106aa070,
  0x19a4c116, 0x1e376c08, 0x2748774c, 0x34b0bcb5, 0x391c0cb3, 0x4ed8aa4a, 0x5b9cca4f, 0x682e6ff3,
  0x748f82ee, 0x78a5636f, 0x84c87814, 0x8cc70208, 0x90befffa, 0xa4506ceb, 0xbef9a3f7, 0xc67178f2]

/-- The eight words that a block transforms. -/
structure State where
  a : UInt32
  b : UInt32
  c : UInt32
  d : UInt32
  e : UInt32
  f : UInt32
  g : UInt32
  h : UInt32
  deriving DecidableEq

/-- The state before the first block: fractional bits of the square roots of the first primes. -/
def initial : State :=
  ⟨0x6a09e667, 0xbb67ae85, 0x3c6ef372, 0xa54ff53a, 0x510e527f, 0x9b05688c, 0x1f83d9ab, 0x5be0cd19⟩

/-- A word turned right by a number of bits. -/
def rotate (word bits : UInt32) : UInt32 :=
  word >>> bits ||| word <<< (32 - bits)

/-- The words of a message in big-endian order; a last word without four bytes is dropped. -/
def words : Bytes → List UInt32
  | a :: b :: c :: d :: rest =>
    (a.toUInt32 <<< 24 ||| b.toUInt32 <<< 16 ||| c.toUInt32 <<< 8 ||| d.toUInt32) :: words rest
  | _ => []

/-- Extends a schedule, held with its latest word first. -/
def extend : Nat → List UInt32 → List UInt32
  | 0, schedule => schedule
  | more + 1, schedule =>
    let early := schedule.getD 14 0
    let late := schedule.getD 1 0
    let spreadEarly := rotate early 7 ^^^ rotate early 18 ^^^ early >>> 3
    let spreadLate := rotate late 17 ^^^ rotate late 19 ^^^ late >>> 10
    let next := schedule.getD 15 0 + spreadEarly + schedule.getD 6 0 + spreadLate
    extend more (next :: schedule)

/-- One round with its word of the schedule and its own word. -/
def round (state : State) (word own : UInt32) : State :=
  let spreadE := rotate state.e 6 ^^^ rotate state.e 11 ^^^ rotate state.e 25
  let choice := state.e &&& state.f ^^^ ~~~state.e &&& state.g
  let first := state.h + spreadE + choice + own + word
  let spreadA := rotate state.a 2 ^^^ rotate state.a 13 ^^^ rotate state.a 22
  let majority := state.a &&& state.b ^^^ state.a &&& state.c ^^^ state.b &&& state.c
  ⟨first + (spreadA + majority), state.a, state.b, state.c, state.d + first, state.e, state.f,
    state.g⟩

/-- Adds two states word by word. -/
def State.add (x y : State) : State :=
  ⟨x.a + y.a, x.b + y.b, x.c + y.c, x.d + y.d, x.e + y.e, x.f + y.f, x.g + y.g, x.h + y.h⟩

/-- Takes in a block of sixteen words. -/
def compress (state : State) (block : List UInt32) : State :=
  let schedule := (extend 48 block.reverse).reverse
  ((schedule.zip roundWords).foldl (fun state (word, own) => round state word own) state).add
    state

/-- Takes in all blocks. -/
def absorb (state : State) (message : List UInt32) : State :=
  if message.length < 16 then state
  else absorb (compress state (message.take 16)) (message.drop 16)
termination_by message.length
decreasing_by simp only [List.length_drop]; omega

/-- The bytes of a number in big-endian order. -/
def bigEndian : Nat → Nat → Bytes
  | 0, _ => []
  | width + 1, value => UInt8.ofNat (value / 256 ^ width) :: bigEndian width value

/-- A message with a one bit, zeros up to a whole block, and its length in bits at the end. -/
def pad (message : Bytes) : Bytes :=
  let zeros := (119 - message.length % 64) % 64
  message ++ (0x80 :: (List.replicate zeros 0 ++ bigEndian 8 (8 * message.length)))

/-- The digest of a message. -/
def digest (message : Bytes) : Bytes :=
  let state := absorb initial (words (pad message))
  [state.a, state.b, state.c, state.d, state.e, state.f, state.g, state.h].flatMap
    fun word => bigEndian 4 word.toNat

end Progeny.Sha256
