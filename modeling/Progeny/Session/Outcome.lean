import Progeny.Json.Decode

/-! How long a run of a session may go on, and how it ended. -/

namespace Progeny

/-- How long one run may go on. -/
inductive RunMode where
  /-- Until the first instance exits. -/
  | unlimited
  /-- For a number of polls at most. -/
  | limitSteps (limit : Nat)
  deriving DecidableEq, Inhabited

namespace RunMode

/-- The number of polls that a run may make. -/
def limit? : RunMode → Option Nat
  | .unlimited => none
  | .limitSteps limit => some limit

/-- A mode is written as its name, with the limit as its only member where it has one. -/
def toJson : RunMode → Json
  | .unlimited => .text "unlimited"
  | .limitSteps limit => .object [("limit_steps", .ofNat limit)]

/-- Reads a mode; the one without a limit may be written as a name or as a member of nothing. -/
def ofJson? : Json → Option RunMode
  | .text "unlimited" | .object [("unlimited", .null)] => some .unlimited
  | .object [("limit_steps", limit)] => (limit.toNat? UInt64.size).map .limitSteps
  | _ => none

end RunMode

/-- How a run ended. Polls are counted without a bound, where they are read as words of 64 bits:
2 ^ 64 of them are out of reach. -/
inductive RunOutcome where
  /-- The first instance exited, and the session is over. -/
  | exited (code : Int8) (consumedSteps : Nat)
  /-- The limit was reached. -/
  | paused (consumedSteps : Nat)
  deriving DecidableEq

namespace RunOutcome

/-- The number of polls up to the end of the run. -/
def consumedSteps : RunOutcome → Nat
  | .exited _ steps => steps
  | .paused steps => steps

/-- The exit code of the first instance, if the session is over. -/
def exitCode : RunOutcome → Option Int8
  | .exited code _ => some code
  | .paused _ => none

/-- An outcome is written as an object that names it. -/
def toJson : RunOutcome → Json
  | .exited code steps =>
    .object [("outcome", .text "exited"), ("exit_code", .integer code.toInt),
      ("consumed_steps", .ofNat steps)]
  | .paused steps => .object [("outcome", .text "paused"), ("consumed_steps", .ofNat steps)]

/-- Reads the outcome of a name from the fields beside the name. -/
def ofNamed? (name : String) (fields : List String → Option Json.Fields) : Option RunOutcome :=
  match name with
  | "exited" => do
    let fields ← fields ["exit_code", "consumed_steps"]
    let code ← fields.required? "exit_code" Json.toSignedByte?
    let steps ← fields.required? "consumed_steps" (Json.toNat? UInt64.size)
    return .exited code steps
  | "paused" => do
    let fields ← fields ["consumed_steps"]
    let steps ← fields.required? "consumed_steps" (Json.toNat? UInt64.size)
    return .paused steps
  | _ => none

/-- Reads an outcome from an object that names it, or from an array that begins with the name. -/
def ofJson? : Json → Option RunOutcome
  | .object members => do
    let (name, others) ← Json.tagged? "outcome" (Json.nestingLimit - 1) members
    ofNamed? (← name.toText?) fun names => Json.knownMembers? names others
  | .array (.text name :: items) => ofNamed? name fun names => Json.fields? names (.array items)
  | _ => none

end RunOutcome

end Progeny
