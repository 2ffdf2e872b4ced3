import Progeny.Handle
import Progeny.Text.Quoted
import Progeny.Text.Utf8

/-! How an instance of a workload is told which instance it is and which pipes it holds. -/

namespace Progeny

/-- The endpoints that an instance holds, by the numbers of its pipes. -/
structure Holdings where
  entries : List (UInt64 × Endpoint) := []
  deriving DecidableEq

namespace Holdings

/-- The endpoint of a pipe. -/
def find? (held : Holdings) (pipe : UInt64) : Option Endpoint :=
  held.entries.lookup pipe

/-- Forgets a pipe. -/
def erase (held : Holdings) (pipe : UInt64) : Holdings :=
  ⟨held.entries.filter (·.1 ≠ pipe)⟩

/-- Holds an endpoint for a pipe in place of any other. -/
def insert (held : Holdings) (pipe : UInt64) (endpoint : Endpoint) : Holdings :=
  ⟨(pipe, endpoint) :: (held.erase pipe).entries⟩

end Holdings

namespace Arguments

/-- The bytes of a decimal numeral. -/
def writeWord (word : UInt64) : Bytes :=
  Bytes.ofText (Decimal.write word.toNat)

/-- The argument that tells about one pipe: its number, an equals sign, and the endpoint. -/
def writePair (pipe : UInt64) (endpoint : Endpoint) : Bytes :=
  Bytes.ofText (Decimal.write pipe.toNat ++ '=' :: Decimal.write endpoint.word.toNat)

/-- The arguments of an instance: its number and then its pipes. -/
def write (index : UInt64) (pairs : List (UInt64 × Endpoint)) : List Bytes :=
  writeWord index :: pairs.map fun (pipe, endpoint) => writePair pipe endpoint

/-- Reads a numeral. The message of a failure shows the argument as a text. -/
def readWord (argument : Bytes) : Except String UInt64 :=
  match (Utf8.decode? argument).bind (Decimal.read? UInt64.size) with
  | some value => .ok (UInt64.ofNat value)
  | none =>
    .error ("malformed argument " ++
      String.ofList (Quoted.write (Utf8.decodeLossy argument)))

/-- Reads the number of a pipe and its endpoint on both sides of the first equals sign. -/
def readPair (argument : Bytes) : Except String (UInt64 × Endpoint) :=
  let equals := '='.toUInt8
  match argument.dropWhile (· ≠ equals) with
  | [] => .error "expected pipe_index=endpoint"
  | _ :: after => do
    let pipe ← readWord (argument.takeWhile (· ≠ equals))
    let word ← readWord after
    match Endpoint.ofWord? word with
    | none => .error "endpoint 0 is not a valid endpoint"
    | some endpoint => return (pipe, endpoint)

/-- Reads pairs in order, where a later one for the same pipe counts. -/
def readPairs : Holdings → List Bytes → Except String Holdings
  | held, [] => return held
  | held, argument :: rest => do
    let (pipe, endpoint) ← readPair argument
    readPairs (held.insert pipe endpoint) rest

/-- Reads the arguments of an instance. -/
def read : List Bytes → Except String (UInt64 × Holdings)
  | [] => .error "missing instance index"
  | index :: pairs => do
    let index ← readWord index
    let held ← readPairs {} pairs
    return (index, held)

end Arguments

end Progeny
