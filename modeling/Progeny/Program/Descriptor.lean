import Progeny.Error

/-! How a program is named, and which part of its image is meant. -/

namespace Progeny

/-- A window into the image of a program. A length of zero reaches to the end of the image. -/
structure Bounds where
  offset : UInt32
  length : UInt32
  deriving DecidableEq, Inhabited

namespace Bounds

/-- The whole image. -/
def full : Bounds := ⟨0, 0⟩

/-- A window packed into one word, the offset in its high half. -/
def toWord (bounds : Bounds) : UInt64 :=
  bounds.offset.toUInt64 <<< 32 ||| bounds.length.toUInt64

/-- The window that a packed word stands for. -/
def ofWord (word : UInt64) : Bounds :=
  ⟨(word >>> 32).toUInt32, word.toUInt32⟩

/-- The first byte of a window and the one after its last, or why it does not fit its image. -/
def within (bounds : Bounds) (imageSize : UInt64) : Except String (Nat × Nat) :=
  let start := bounds.offset.toNat
  let stop := if bounds.length = 0 then imageSize.toNat else start + bounds.length.toNat
  if start > imageSize.toNat ∨ stop > imageSize.toNat then
    .error ("bounds " ++ Decimal.text start ++ ".." ++ Decimal.text stop ++
      " exceed image size " ++ Decimal.text imageSize.toNat)
  else .ok (start, stop)

/-- Bounds are written as offset and length. -/
def toJson (bounds : Bounds) : Json :=
  .object [("offset", .ofNat bounds.offset.toNat), ("length", .ofNat bounds.length.toNat)]

/-- Reads bounds, of which neither part may be missing. -/
def ofJson? (value : Json) : Option Bounds := do
  let fields ← value.fields? ["offset", "length"]
  return {
    offset := ← fields.required? "offset" Json.toHalfWord?
    length := ← fields.required? "length" Json.toHalfWord? }

end Bounds

/-- Names the program that an instance is to run. -/
structure Descriptor where
  /-- The position of the program within its source. -/
  index : UInt64
  /-- The collection that holds the program. -/
  source : UInt64
  /-- The part of the image that is meant. -/
  bounds : Bounds := .full
  deriving DecidableEq, Inhabited

namespace Descriptor

/-- The text of a descriptor in messages. -/
def display (descriptor : Descriptor) : String :=
  "program(index=" ++ Decimal.text descriptor.index.toNat ++ ", source=" ++
    Decimal.hexText descriptor.source.toNat ++ ", bounds=" ++
    Decimal.hexText descriptor.bounds.toWord.toNat ++ ")"

/-- A descriptor is written with its bounds, also where they are the whole image. -/
def toJson (descriptor : Descriptor) : Json :=
  .object [("index", .ofWord descriptor.index), ("source", .ofWord descriptor.source),
    ("bounds", descriptor.bounds.toJson)]

/-- Reads a descriptor; bounds that are not given are the whole image. -/
def ofJson? (value : Json) : Option Descriptor := do
  let fields ← value.fields? ["index", "source", "bounds"]
  return {
    index := ← fields.required? "index" Json.toWord?
    source := ← fields.required? "source" Json.toWord?
    bounds := ← fields.defaulted? "bounds" .full Bounds.ofJson? }

end Descriptor

end Progeny
