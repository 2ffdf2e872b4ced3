import Progeny.Script.Statement
import Progeny.Session.Behaviour
import Progeny.Text.Hex
import Progeny.Text.Utf8

/-! The state of an instance that runs a script, and what scripts share with each other and with the
host of their session. -/

namespace Progeny

/-- A line of the trace: which statement of which instance led to what. -/
structure TraceEntry where
  id : InstanceId
  keyword : String
  result : Except CallError Json

/-- What scripts share with each other and with the host of their session. -/
structure Board where
  trace : List TraceEntry := []
  /-- Instances for which the host may act. -/
  published : List InstanceId := []
  /-- How the host lets instances end. -/
  releases : List (InstanceId × Except String Int8) := []
  /-- Instances that wait for their release. -/
  waiting : List InstanceId := []

/-- The result of a call as a value of the trace. -/
def Value.toJson : Value → Json
  | .done => .null
  | .endpoints first second => .array [first.toJson, second.toJson]
  | .instance id => id.toJson
  | .code exitCode => .integer exitCode.toInt
  | .bytes content => .text (String.ofList (Hex.encode content))
  | .count amount => .ofNat amount

/-- The result of a call as a number. -/
def Value.toInt : Value → Int
  | .done | .endpoints .. => 0
  | .instance id => id.word.toNat
  | .code exitCode => exitCode.toInt
  | .bytes content => content.length
  | .count amount => amount

/-- The result of a call as a word for a variable, if it is a number that is not negative. -/
def Value.toWord? : Value → Option UInt64
  | .instance id => some id.word
  | .code exitCode =>
    if 0 ≤ exitCode.toInt then some (UInt64.ofNat exitCode.toInt.toNat) else none
  | .count amount => some (UInt64.ofNat amount)
  | _ => none

/-- What follows when the statements of a frame have run. -/
inductive Again where
  | never
  | times (count : Nat) (body : List Statement)
  | untilZero (body : List Statement)

/-- Statements that are still to run, and what follows them. -/
structure Frame where
  rest : List Statement
  again : Again

/-- What a script is in the middle of. -/
inductive Phase where
  | free
  | calling (call : ScriptCall) (use : ResultUse)
  | inspecting
  /-- It is ready to go on as soon as it has given up control. -/
  | yielding
  | hanging
  | awaiting

/-- An instance that runs a script. -/
structure ScriptState where
  invocation : Invocation
  bindings : List (String × UInt64) := []
  /-- The result of the last call, or the code of its error. -/
  last : Int := 0
  /-- The innermost frame comes first. -/
  frames : List Frame
  phase : Phase := .free

namespace ScriptState

/-- The state before the first statement. -/
def start (script : List Statement) (invocation : Invocation) : ScriptState :=
  { invocation := invocation, frames := [⟨script, .never⟩] }

/-- The number that a reference stands for. -/
def resolve? (state : ScriptState) : ReferenceTarget → Option UInt64
  | .number value => some value
  | .self => some state.invocation.id.word
  | .inherited position => state.invocation.inherited[position]?.map Endpoint.word
  | .argument position => do
    let text ← Utf8.decode? (← state.invocation.argv[position]?)
    return UInt64.ofNat (← Decimal.read? UInt64.size text)
  | .variable name => state.bindings.lookup name
  | .nothing => none

/-- The number that a reference stands for, or the message of a fault. -/
def resolve (state : ScriptState) (reference : Reference) : Except String UInt64 :=
  match state.resolve? reference.target with
  | some value => .ok value
  | none => .error ("driver: bad reference " ++ reference.text)

/-- The endpoint that a reference stands for. -/
def resolveEndpoint (state : ScriptState) (reference : Reference) : Except String Endpoint := do
  match Endpoint.ofWord? (← state.resolve reference) with
  | some endpoint => return endpoint
  | none => throw "driver: endpoint 0"

/-- The bytes of an argument for a child. -/
def resolveArgument (state : ScriptState) : ScriptArgument → Except String Bytes
  | .bytes bytes => .ok bytes
  | .numeral reference => do
    return Bytes.ofText (Decimal.write (← state.resolve reference).toNat)

/-- The call with handles in place of references. Endpoints are resolved before arguments. -/
def request (state : ScriptState) : ScriptCall → Except String Request
  | .pipe => .ok .pipe
  | .spawn index source bounds argv endpoints => do
    let endpoints ← endpoints.mapM state.resolveEndpoint
    let argv ← argv.mapM state.resolveArgument
    return .spawn ⟨index, source, .ofWord bounds⟩ argv endpoints
  | .join target => do return .join ⟨← state.resolve target⟩
  | .read endpoint limit => do return .read (← state.resolveEndpoint endpoint) limit
  | .readExact endpoint count => do return .readExact (← state.resolveEndpoint endpoint) count
  | .readToEnd endpoint => do return .readToEnd (← state.resolveEndpoint endpoint)
  | .write endpoint data => do return .write (← state.resolveEndpoint endpoint) data
  | .writeAll endpoint data => do return .writeAll (← state.resolveEndpoint endpoint) data
  | .close endpoint => do return .close (← state.resolveEndpoint endpoint)

/-- Sets the variable of a name, if there is both a name and a value for it. -/
def assign (state : ScriptState) : Option String → Option UInt64 → ScriptState
  | some name, some value => { state with bindings := (name, value) :: state.bindings }
  | _, _ => state

/-- Puts the result of a call into the variables that are to hold it. The second of two endpoints
comes last, so that it counts where both have one name. -/
def store (state : ScriptState) (use : ResultUse) : Value → ScriptState
  | .endpoints first second =>
    (state.assign use.firstName (some first.word)).assign use.secondName (some second.word)
  | value => state.assign use.name value.toWord?

/-- Runs statements in a frame of their own. -/
def push (state : ScriptState) (body : List Statement) (again : Again) : ScriptState :=
  { state with frames := ⟨body, again⟩ :: state.frames }

/-- An entry of the trace for this instance. -/
def entry (state : ScriptState) (keyword : String) (result : Except CallError Json) :
    TraceEntry :=
  ⟨state.invocation.id, keyword, result⟩

end ScriptState

/-- Adds a line to the trace. -/
def Board.log (board : Board) (entry : TraceEntry) : Board :=
  { board with trace := board.trace ++ [entry] }

end Progeny
