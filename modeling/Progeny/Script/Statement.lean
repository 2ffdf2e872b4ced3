import Progeny.Bytes
import Progeny.Handle

/-! The statements of scripts: programs that are lists of calls and of a few forms of control. -/

namespace Progeny

/-- What a reference in a script stands for. -/
inductive ReferenceTarget where
  | number (value : UInt64)
  /-- The instance that runs the script. -/
  | self
  /-- One of the endpoints that it inherited. -/
  | inherited (position : Nat)
  /-- One of its arguments, read as a number. -/
  | argument (position : Nat)
  | variable (name : String)
  /-- Nothing at all. -/
  | nothing
  deriving DecidableEq

/-- A reference to an endpoint or an instance, with its text for messages. -/
structure Reference where
  text : String
  target : ReferenceTarget
  deriving DecidableEq

/-- An argument for a child. -/
inductive ScriptArgument where
  | bytes (bytes : Bytes)
  /-- The decimal text of what a reference stands for. -/
  | numeral (reference : Reference)
  deriving DecidableEq

/-- A call with references in place of handles. -/
inductive ScriptCall where
  | pipe
  | spawn (index source bounds : UInt64) (argv : List ScriptArgument) (endpoints : List Reference)
  | join (target : Reference)
  | read (endpoint : Reference) (limit : Nat)
  | readExact (endpoint : Reference) (count : Nat)
  | readToEnd (endpoint : Reference)
  | write (endpoint : Reference) (data : Bytes)
  | writeAll (endpoint : Reference) (data : Bytes)
  | close (endpoint : Reference)
  deriving DecidableEq

/-- The word that begins a call in a script. -/
def ScriptCall.keyword : ScriptCall → String
  | .pipe => "pipe"
  | .spawn .. => "spawn"
  | .join _ => "join"
  | .read .. => "read"
  | .readExact .. => "read_exact"
  | .readToEnd _ => "read_to_end"
  | .write .. => "write"
  | .writeAll .. => "write_all"
  | .close _ => "close"

/-- What is done with the result of a call. -/
structure ResultUse where
  /-- The variable for the first of two endpoints. -/
  firstName : Option String := none
  /-- The variable for the second of two endpoints. -/
  secondName : Option String := none
  /-- The variable for a number that is not negative. -/
  name : Option String := none
  /-- Whether a failure ends the instance. -/
  quits : Bool := false
  deriving DecidableEq

/-- A statement of a script. -/
inductive Statement where
  | call (call : ScriptCall) (use : ResultUse)
  /-- Notes who the instance is and what the tables hold. -/
  | info
  | note (text : Json)
  /-- Gives up control once. -/
  | yield
  /-- Gives up control for good. -/
  | hang
  /-- Lets the host act on behalf of the instance. -/
  | publish
  /-- Ends as the host decides. -/
  | awaitRelease
  /-- Ends with a code, or with the result of the last call. -/
  | ret (code : Option Int)
  | fault (message : String)
  | repeat (count : Nat) (body : List Statement)
  /-- Runs its body until the last call in it has the result zero. -/
  | loop (body : List Statement)
  /-- Runs its first body if the last call had the result `value`, and else, or without a value, its
  second. -/
  | ifLast (value : Option Int) (thenBody elseBody : List Statement)
  /-- Something that makes no sense. -/
  | unknown
  deriving Inhabited

end Progeny
