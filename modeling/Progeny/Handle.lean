import Progeny.Text.Decimal
import Progeny.Json.Decode

/-! The two kinds of handle: identities of instances and endpoints of pipes. -/

namespace Progeny

/-- The identity of an instance within its session. -/
structure InstanceId where
  word : UInt64
  deriving DecidableEq, Inhabited

namespace InstanceId

/-- The first instance of a session. -/
def root : InstanceId := ⟨0⟩

/-- Whether an identity names the first instance. -/
def isRoot (id : InstanceId) : Bool :=
  id = root

/-- The text of an identity in messages. -/
def display (id : InstanceId) : String :=
  "vm#" ++ Decimal.text id.word.toNat

/-- An identity is written as its number. -/
def toJson (id : InstanceId) : Json :=
  .ofWord id.word

/-- Every word is an identity. -/
def ofJson? (value : Json) : Option InstanceId :=
  value.toWord?.map InstanceId.mk

end InstanceId

/-- One end of a pipe, as its holders name it. Zero names no endpoint. -/
structure Endpoint where
  word : UInt64
  word_ne_zero : word ≠ 0
  deriving DecidableEq

namespace Endpoint

/-- The first endpoint that a session hands out. -/
def first : Endpoint := ⟨1, by decide⟩

/-- There is an endpoint. -/
instance : Inhabited Endpoint := ⟨first⟩

/-- The endpoint of a word, if the word is not zero. -/
def ofWord? (word : UInt64) : Option Endpoint :=
  if nonzero : word ≠ 0 then some ⟨word, nonzero⟩ else none

/-- The endpoints of a list of words up to the first zero. -/
def listOfWords (words : List UInt64) : List Endpoint :=
  (words.takeWhile (· ≠ 0)).filterMap ofWord?

/-- The endpoint after this one, if a word can name it. -/
def succ? (endpoint : Endpoint) : Option Endpoint :=
  ofWord? (endpoint.word + 1)

/-- The text of an endpoint in messages. -/
def display (endpoint : Endpoint) : String :=
  "fd#" ++ Decimal.text endpoint.word.toNat

/-- An endpoint is written as its number. -/
def toJson (endpoint : Endpoint) : Json :=
  .ofWord endpoint.word

/-- Every word but zero is an endpoint. -/
def ofJson? (value : Json) : Option Endpoint :=
  value.toWord?.bind ofWord?

end Endpoint

end Progeny
