import Progeny.Text.Decimal
import Progeny.Json.Decode

/-! The two stages in the life of an instance. -/

namespace Progeny

/-- An instance runs until it exits, and an exit code exists only then. -/
inductive Lifecycle where
  | running
  | exited (code : Int8)
  deriving DecidableEq, Inhabited

namespace Lifecycle

/-- The exit code of an instance that has exited. -/
def exitCode : Lifecycle → Option Int8
  | .running => none
  | .exited code => some code

/-- Whether an instance has exited. -/
def isExited : Lifecycle → Bool
  | .running => false
  | .exited _ => true

/-- The text of a stage. -/
def display : Lifecycle → String
  | .running => "running"
  | .exited code => "exited(" ++ Decimal.signedText code.toInt ++ ")"

/-- The members that stand for a stage in an object. -/
def members : Lifecycle → List (String × Json)
  | .running => [("state", .text "running")]
  | .exited code => [("state", .text "exited"), ("exit_code", .integer code.toInt)]

/-- A stage is written as an object that names it. -/
def toJson (state : Lifecycle) : Json :=
  .object state.members

/-- Reads the stage of a name from the fields beside the name. -/
def ofNamed? (name : String) (fields : List String → Option Json.Fields) : Option Lifecycle :=
  match name with
  | "running" => (fields []).map fun _ => .running
  | "exited" => do
    let fields ← fields ["exit_code"]
    let code ← fields.required? "exit_code" Json.toSignedByte?
    return .exited code
  | _ => none

/-- Reads a stage from an object that names it, or from an array that begins with the name. -/
def ofJson? : Json → Option Lifecycle
  | .object members => do
    let (name, others) ← Json.tagged? "state" (Json.nestingLimit - 1) members
    ofNamed? (← name.toText?) fun names => Json.knownMembers? names others
  | .array (.text name :: items) => ofNamed? name fun names => Json.fields? names (.array items)
  | _ => none

/-- Reads a stage from members that stand among those of a larger object. There a stage may also
be named by its number. -/
def ofMembers? (levels : Nat) (members : List (String × Json)) : Option Lifecycle := do
  let (name, others) ← Json.tagged? "state" levels members
  let fields (names : List String) := Json.knownMembers? names others
  match name with
  | .integer 0 => ofNamed? "running" fields
  | .integer 1 => ofNamed? "exited" fields
  | .text name => ofNamed? name fields
  | _ => none

end Lifecycle

end Progeny
