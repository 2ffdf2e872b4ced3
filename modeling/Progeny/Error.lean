import Progeny.Handle

/-! What can go wrong, for an instance, within the tables, and for the holder of a session. -/

namespace Progeny

/-- Something of which a session has a bounded amount. -/
inductive Resource where
  | instances
  | depth
  | endpoints
  | identities
  deriving DecidableEq

/-- The name of a resource in messages. -/
def Resource.display : Resource → String
  | .instances => "instances"
  | .depth => "depth"
  | .endpoints => "endpoints"
  | .identities => "identities"

/-- Why a call of an instance failed. -/
inductive CallError where
  /-- The handle is unknown, held by another instance, or closed. -/
  | invalidHandle (handle : UInt64)
  /-- No program can be started from the descriptor. -/
  | invalidProgram (index source : UInt64) (reason : String)
  /-- The call makes no sense whatever the tables hold. -/
  | invalidArgument (reason : String)
  /-- A budget of the session is used up. -/
  | exhausted (resource : Resource) (limit : UInt64)
  /-- Nothing written can be read, since the other end of the pipe is closed. -/
  | brokenChannel (endpoint : Endpoint)
  deriving DecidableEq

namespace CallError

/-- An endpoint that the caller cannot use. -/
def invalidEndpoint (endpoint : Endpoint) : CallError :=
  .invalidHandle endpoint.word

/-- An instance that does not exist. -/
def invalidInstance (id : InstanceId) : CallError :=
  .invalidHandle id.word

/-- The text of an error. -/
def message : CallError → String
  | .invalidHandle handle => "Invalid handle: " ++ Decimal.text handle.toNat
  | .invalidProgram index source reason =>
    "Invalid program (index " ++ Decimal.text index.toNat ++ ", source " ++
      Decimal.text source.toNat ++ "): " ++ reason
  | .invalidArgument reason => "Invalid argument: " ++ reason
  | .exhausted resource limit =>
    "Resource exhausted: " ++ resource.display ++ " (limit " ++ Decimal.text limit.toNat ++ ")"
  | .brokenChannel endpoint => "Broken channel: peer of " ++ endpoint.display ++ " is closed"

/-- The short name of the kind of an error. -/
def kind : CallError → String
  | .invalidHandle _ => "invalid_handle"
  | .invalidProgram .. => "invalid_program"
  | .invalidArgument _ => "invalid_argument"
  | .exhausted .. => "resource_exhausted"
  | .brokenChannel _ => "broken_channel"

/-- The result code by which an instance tells errors apart. -/
def code : CallError → Nat
  | .invalidProgram .. => 2
  | .invalidArgument _ => 5
  | .invalidHandle _ => 6
  | .brokenChannel _ => 7
  | .exhausted .endpoints _ => 9
  | .exhausted _ _ => 8

/-- An error as a record of its kind, code and text. -/
def toJson (error : CallError) : Json :=
  .object [("type", .text error.kind), ("code", .ofNat error.code),
    ("message", .text error.message)]

/-- The fault message of an instance that ends because a call failed. -/
def faultMessage (error : CallError) : String :=
  "unhandled syscall error: " ++ error.message

end CallError

/-- An inconsistency of the tables, which ends a session. -/
inductive Violation where
  | doubleExit (id : InstanceId)
  | unknownInstance (id : InstanceId)
  | identityCollision (id : InstanceId)
  | duplicateRoot
  deriving DecidableEq

namespace Violation

/-- The text of an inconsistency. -/
def message : Violation → String
  | .doubleExit id => "Instance " ++ id.display ++ " was marked exited twice"
  | .unknownInstance id => "Instance " ++ id.display ++ " is not in the instance table"
  | .identityCollision id => "Identity collision on " ++ id.display
  | .duplicateRoot => "Root instance already booted"

end Violation

/-- Why a session was not set up, or stopped before its first instance exited. -/
inductive SessionError where
  | call (error : CallError)
  | inconsistent (violation : Violation)
  /-- The listed instances wait, and nothing is left that could release them. -/
  | deadlock (blocked : List InstanceId)
  | stepsExceeded (consumed limit : Nat)
  | config (reason : String)
  deriving DecidableEq

namespace SessionError

/-- The text of an error. -/
def message : SessionError → String
  | .call error => error.message
  | .inconsistent violation => "Invariant violation: " ++ violation.message
  | .deadlock blocked =>
    "Deadlock: " ++ Decimal.text blocked.length ++
      " instance(s) blocked with nothing left to run"
  | .stepsExceeded consumed limit =>
    "Step budget exceeded: " ++ Decimal.text consumed ++ " steps consumed (limit " ++
      Decimal.text limit ++ ")"
  | .config reason => "Configuration error: " ++ reason

end SessionError

end Progeny
