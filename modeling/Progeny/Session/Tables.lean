import Progeny.Config
import Progeny.Event
import Progeny.Instance.Table
import Progeny.Journal
import Progeny.Pipe.Registry
import Progeny.Program.Registry
import Progeny.Session.Signals

/-! What the instances of a session share: pipes, records, children to be started, and events. -/

namespace Progeny

/-- An instance that was created and not yet started. -/
structure Launch (π : Type) where
  id : InstanceId
  program : π
  argv : List Bytes
  /-- Endpoints handed over by the parent, in the order given. -/
  endpoints : List Endpoint

/-- The shared tables of a session. -/
structure Tables (π : Type) where
  config : Config
  /-- Finds the program of a descriptor. -/
  load : Descriptor → Except CallError π
  pipes : PipeRegistry
  instances : InstanceTable
  /-- Instances to be started, oldest first. -/
  launches : List (Launch π) := []
  journal : Journal Event := {}
  signals : SignalCounts := {}
  /-- The first inconsistency that was found. -/
  violation : Option Violation := none

namespace Tables

variable {π : Type}

/-- Empty tables under valid budgets. -/
def new (config : Config) (load : Descriptor → Except CallError π) (keepsEvents : Bool) :
    Except SessionError (Tables π) := do
  config.validate
  return {
    config := config
    load := load
    pipes := { capacity := config.pipeCapacity, maxEndpoints := config.maxEndpoints }
    instances := { maxInstances := config.maxInstances, maxDepth := config.maxDepth }
    journal := { isKept := keepsEvents } }

/-- Reports an event. -/
def report (tables : Tables π) (event : Event) : Tables π :=
  { tables with journal := tables.journal.add event }

/-- Takes over the pipes after an operation and counts its signals. -/
def settle {α : Type} (tables : Tables π) (served : Served α) : Tables π :=
  { tables with
    pipes := served.registry
    signals := tables.signals.addAll served.signals }

/-- Remembers an inconsistency unless an earlier one is known. -/
def recordViolation (tables : Tables π) (violation : Violation) : Tables π :=
  { tables with violation := tables.violation <|> some violation }

/-- Creates the first instance. It inherits nothing. -/
def boot (tables : Tables π) (descriptor : Descriptor) (argv : List Bytes) :
    Except SessionError InstanceId × Tables π :=
  match tables.load descriptor with
  | .error error => (.error (.call error), tables)
  | .ok program =>
    match tables.instances.allocateRoot with
    | .error violation => (.error (.inconsistent violation), tables)
    | .ok (id, instances) =>
      let booted : Tables π := { tables with
        instances := instances
        launches := tables.launches ++ [⟨id, program, argv, []⟩] }
      (.ok id, booted.report (.spawned id none []))

/-- Creates a child of the caller and hands it endpoints. Every check comes before any change. -/
def spawn (tables : Tables π) (caller : InstanceId) (descriptor : Descriptor)
    (argv : List Bytes) (endpoints : List Endpoint) : Except CallError InstanceId × Tables π :=
  match tables.load descriptor with
  | .error error => (.error error, tables)
  | .ok program =>
    match tables.pipes.checkTransfer caller endpoints with
    | .error error => (.error error, tables)
    | .ok () =>
      match tables.instances.allocate caller with
      | .error (.denied error) => (.error error, tables)
      -- The caller is refused, and the run ends when its next round begins.
      | .error (.fatal violation) =>
        (.error (.invalidArgument violation.message), tables.recordViolation violation)
      | .ok (id, instances) =>
        -- The endpoints change hands before the child is started.
        let spawned : Tables π := { tables with
          pipes := tables.pipes.transfer endpoints id
          instances := instances
          launches := tables.launches ++ [⟨id, program, argv, endpoints⟩] }
        (.ok id, spawned.report (.spawned id (some caller) endpoints))

/-- Reports closed endpoints of an owner one by one. -/
def reportClosed (tables : Tables π) (owner : InstanceId) (endpoints : List Endpoint) :
    Tables π :=
  endpoints.foldl (fun tables endpoint => tables.report (.pipeClosed owner endpoint)) tables

/-- Closes the endpoints of an instance that ended without exiting. Its record stays running. -/
def teardown (tables : Tables π) (id : InstanceId) : Tables π :=
  let served := tables.pipes.closeOwnedBy id
  (tables.settle served).reportClosed id served.result

/-- The exit code of an instance whose program ended with a fault. -/
def faultCode : Int8 := -1

/-- Records the end of an instance, with a code or with the message of a fault, and closes the
endpoints that it still holds. -/
def exit (tables : Tables π) (id : InstanceId) (result : Except String Int8) : Tables π :=
  let (code, fault) := match result with
    | .ok code => (code, none)
    | .error message => (faultCode, some message)
  match tables.instances.markExited id code fault with
  -- An instance that is unknown, or has exited before, keeps its endpoints.
  | .error violation => tables.recordViolation violation
  | .ok instances =>
    let served := tables.pipes.closeOwnedBy id
    let exited := ({ tables with instances := instances } : Tables π).settle served
    (exited.report (.exited id code fault)).reportClosed id served.result

/-- Creates a pipe held by the caller. -/
def createPipe (tables : Tables π) (caller : InstanceId) :
    Except CallError (Endpoint × Endpoint) × Tables π :=
  let served := tables.pipes.create caller
  let settled := tables.settle served
  match served.result with
  | .error error => (.error error, settled)
  | .ok (first, second) =>
    (.ok (first, second), settled.report (.pipeCreated caller first second))

/-- Closes an endpoint of the caller. Closing it again does nothing. -/
def closeEndpoint (tables : Tables π) (caller : InstanceId) (endpoint : Endpoint) :
    Except CallError Unit × Tables π :=
  let served := tables.pipes.close caller endpoint
  let settled := tables.settle served
  match served.result with
  | .error error => (.error error, settled)
  | .ok true => (.ok (), settled.report (.pipeClosed caller endpoint))
  | .ok false => (.ok (), settled)

end Tables

end Progeny
