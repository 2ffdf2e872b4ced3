import Progeny.Cli.Outcome

/-! The program: it reads its arguments, carries them out, and prints what they led to. -/

open Progeny

/-- More rounds than any session can take in practice. -/
def roundLimit : Nat := Nat.pow 10 18

/-- The failure that the system reports. -/
def failureOf : IO.Error → Cli.WriteFailure
  | .noFileOrDirectory _ code reason | .interrupted _ code reason
  | .alreadyExists _ code reason | .invalidArgument _ code reason
  | .permissionDenied _ code reason | .resourceExhausted _ code reason
  | .inappropriateType _ code reason | .noSuchThing _ code reason
  | .otherError code reason | .resourceBusy code reason | .resourceVanished code reason
  | .unsupportedOperation code reason | .hardwareFault code reason
  | .unsatisfiedConstraints code reason | .illegalOperation code reason
  | .protocolError code reason | .timeExpired code reason => .other reason code.toNat
  | .unexpectedEof => .other "unexpected end of file" 0
  | .userError reason => .other reason 0

/-- Writes the workload, if it is to be written, and tells what is left to be printed. -/
def writeGraph (result : Cli.Result) : IO Cli.Result := do
  match result.graph with
  | none => return result
  | some file =>
    try
      IO.FS.writeFile file.path file.text
      return result
    catch error => return result.unwritten file (failureOf error)

/-- Carries out the command of the arguments and yields its exit code. -/
def main (arguments : List String) : IO UInt32 := do
  let command := Cli.parse arguments
  let seed := UInt64.ofNat (← IO.monoNanosNow)
  match Cli.perform roundLimit seed command with
  | none => return 1
  | some result =>
    IO.print result.heading
    let result ← writeGraph result
    IO.print result.report
    IO.eprint result.errors
    return UInt32.ofNat result.exitCode
