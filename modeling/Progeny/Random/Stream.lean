/-! A stream of random words that a seed determines: the ChaCha cipher with twelve rounds. -/

namespace Progeny

/-- The sixteen words that a block is made from. -/
abbrev ChaChaState := Vector UInt32 16

namespace ChaChaState

/-- A word turned left by a number of bits. -/
def rotate (word bits : UInt32) : UInt32 :=
  word <<< bits ||| word >>> (32 - bits)

/-- Mixes four words. -/
def quarterRound (state : ChaChaState) (a b c d : Fin 16) : ChaChaState :=
  let state := state.set a (state[a] + state[b])
  let state := state.set d (rotate (state[d] ^^^ state[a]) 16)
  let state := state.set c (state[c] + state[d])
  let state := state.set b (rotate (state[b] ^^^ state[c]) 12)
  let state := state.set a (state[a] + state[b])
  let state := state.set d (rotate (state[d] ^^^ state[a]) 8)
  let state := state.set c (state[c] + state[d])
  state.set b (rotate (state[b] ^^^ state[c]) 7)

/-- Mixes every column and then every diagonal. -/
def doubleRound (state : ChaChaState) : ChaChaState :=
  let columns := (((state.quarterRound 0 4 8 12).quarterRound 1 5 9 13).quarterRound
    2 6 10 14).quarterRound 3 7 11 15
  (((columns.quarterRound 0 5 10 15).quarterRound 1 6 11 12).quarterRound
    2 7 8 13).quarterRound 3 4 9 14

/-- Mixes a number of times. -/
def mix : Nat → ChaChaState → ChaChaState
  | 0, state => state
  | rounds + 1, state => mix rounds state.doubleRound

/-- The block that a state stands for. -/
def block (state : ChaChaState) : List UInt32 :=
  (state.zipWith (· + ·) (state.mix 6)).toList

end ChaChaState

/-- A random stream: its key, the number of its next block, and words left of the last block. -/
structure RandomStream where
  key : Vector UInt32 8
  block : UInt64 := 0
  left : List UInt32 := []

namespace RandomStream

/-- The state of a small generator that expands a seed into a key. -/
def expandSeed (seed : UInt64) : UInt64 :=
  seed * 6364136223846793005 + 11634580027462260723

/-- The word that a state of the small generator yields. -/
def seedWord (state : UInt64) : UInt32 :=
  let mixed := (((state >>> 18) ^^^ state) >>> 27).toUInt32
  -- The five highest bits say how far the others are turned.
  let turn := (state >>> 59).toUInt32
  mixed >>> turn ||| mixed <<< ((32 - turn) % 32)

/-- The words that the small generator yields one after another. -/
def seedWords : Nat → UInt64 → List UInt32
  | 0, _ => []
  | count + 1, seed => seedWord (expandSeed seed) :: seedWords count (expandSeed seed)

/-- The stream of a seed. -/
def ofSeed (seed : UInt64) : RandomStream where
  key := Vector.ofFn fun index => (seedWords 8 seed).getD index 0

/-- The state of the next block: four fixed words, the key, and the number of the block. -/
def blockState (stream : RandomStream) : ChaChaState :=
  let fixed : Vector UInt32 4 := #v[0x61707865, 0x3320646e, 0x79622d32, 0x6b206574]
  let position : Vector UInt32 4 :=
    #v[stream.block.toUInt32, (stream.block >>> 32).toUInt32, 0, 0]
  (fixed ++ stream.key ++ position).cast (by decide)

/-- The next word of a stream. -/
def nextWord (stream : RandomStream) : UInt32 × RandomStream :=
  match stream.left with
  | word :: left => (word, { stream with left := left })
  | [] =>
    -- A block is made only when the last one is used up.
    let words := stream.blockState.block
    (words.headD 0, { stream with block := stream.block + 1, left := words.tail })

end RandomStream

end Progeny
