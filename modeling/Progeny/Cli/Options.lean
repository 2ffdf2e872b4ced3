import Progeny.Config

/-! The arguments of the command line. -/

namespace Progeny.Cli

/-- The settings of one invocation. -/
structure Options where
  /-- What the workload is drawn from; the clock decides where it is not given. -/
  seed : Option UInt64 := none
  spawns : UInt32 := 5
  writes : UInt32 := 5
  /-- Attempts for each write to find an edge that closes no cycle. -/
  attempts : UInt32 := 2
  /-- The steps of one run, where the session is not to run at once. -/
  stepsPerRun : Option UInt64 := none
  maxSteps : UInt64 := 100000000
  /-- Where to write the workload. -/
  graphPath : Option String := none
  /-- Whether the report is written as JSON. -/
  isJson : Bool := false
  config : Config := {}

/-- What the arguments ask for. -/
inductive Command where
  | run (options : Options)
  | version
  | help
  /-- The arguments make no sense. -/
  | refused

/-- A 64-bit word in decimal. -/
def word? (value : String) : Option UInt64 :=
  (Decimal.read? UInt64.size value.toList).map UInt64.ofNat

/-- A 32-bit word in decimal; zero may have a minus sign. -/
def halfWord? (value : String) : Option UInt32 :=
  (Decimal.readSigned? UInt32.size value.toList).map UInt32.ofNat

/-- Sets the option of a name to a value. -/
def Options.set? (options : Options) (name value : String) : Option Options :=
  match name with
  | "seed" => (word? value).map fun seed => { options with seed := some seed }
  | "spawns" => (halfWord? value).map fun spawns => { options with spawns := spawns }
  | "writes" => (halfWord? value).map fun writes => { options with writes := writes }
  | "converging-threshold" =>
    (halfWord? value).map fun attempts => { options with attempts := attempts }
  | "steps-per-iteration" =>
    (word? value).map fun steps => { options with stepsPerRun := some steps }
  | "max-steps" => (word? value).map fun steps => { options with maxSteps := steps }
  | "output-graph" =>
    if value = "" then none else some { options with graphPath := some value }
  | "max-instances" => (word? value).map fun most =>
    { options with config := { options.config with maxInstances := most } }
  | "max-endpoints" => (word? value).map fun most =>
    { options with config := { options.config with maxEndpoints := most } }
  | "max-depth" => (halfWord? value).map fun most =>
    { options with config := { options.config with maxDepth := most } }
  | "pipe-capacity" => (word? value).map fun capacity =>
    { options with config := { options.config with pipeCapacity := capacity } }
  | _ => none

/-- The name and the attached value, if there is one, of an argument that begins with two
hyphens. -/
def splitLong? (argument : String) : Option (String × Option String) :=
  match argument.toList with
  | '-' :: '-' :: rest =>
    let name := String.ofList (rest.takeWhile (· ≠ '='))
    match rest.dropWhile (· ≠ '=') with
    | [] => some (name, none)
    | _ :: value => some (name, some (String.ofList value))
  | _ => none

/-- Whether an argument can be the value of the option before it: a single hyphen can, any other
argument with a hyphen at its start is an option. -/
def isValue (argument : String) : Bool :=
  argument = "-" || argument.toList.head? ≠ some '-'

/-- What an argument that is no long option asks for. Both short options end the reading, so that
only the first letter counts. -/
def shortCommand (argument : String) : Command :=
  match argument.toList with
  | '-' :: 'V' :: _ => .version
  | '-' :: 'h' :: _ => .help
  | _ => .refused

/-- Reads arguments from left to right; no option may be given twice. What asks for a text takes
effect at once, unless something before it makes no sense. -/
def readArguments (options : Options) (given : List String) : List String → Command
  | [] => .run options
  | argument :: rest =>
    match splitLong? argument with
    | none => shortCommand argument
    | some ("version", none) => .version
    | some ("help", none) => .help
    -- Nothing may follow the end of the options.
    | some ("", none) => if rest = [] then .run options else .refused
    | some (name, attached) =>
      if name ∈ given then .refused
      else
        match name, attached, rest with
        | "json", none, rest => readArguments { options with isJson := true } (name :: given) rest
        | "json", some _, _ => .refused
        | name, some value, rest =>
          match options.set? name value with
          | some options => readArguments options (name :: given) rest
          | none => .refused
        | name, none, value :: rest =>
          if isValue value then
            match options.set? name value with
            | some options => readArguments options (name :: given) rest
            | none => .refused
          else .refused
        | _, none, [] => .refused

/-- What arguments ask for. -/
def parse (arguments : List String) : Command :=
  readArguments {} [] arguments

end Progeny.Cli
