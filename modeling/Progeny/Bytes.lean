/-! Byte strings: what pipes carry, arguments hold and digests read. -/

namespace Progeny

/-- A byte string. -/
abbrev Bytes := List UInt8

/-- The UTF-8 form of a text. -/
def Bytes.ofText (text : List Char) : Bytes :=
  text.flatMap String.utf8EncodeChar

end Progeny
