import Progeny.Script.Interpreter
import Progeny.Session.Run
import Progeny.Workload.Actor

/-! The host of a session: it runs the session, and makes calls of its own on behalf of instances
that let it, whether or not they still run. -/

namespace Progeny

/-- What an instance runs: a script or its part in a workload. -/
abbrev HostedProgram := List Statement ⊕ Workload

/-- The state of an instance that runs either. -/
abbrev HostedState := ScriptState ⊕ Except String Actor

/-- A session that runs scripts and workloads. -/
abbrev HostedSession := Session HostedProgram HostedState Board

/-- A call of the host that waits. -/
structure HostCall where
  name : String
  /-- The instance on whose behalf it is made. -/
  caller : InstanceId
  blocked : Blocked
  deriving DecidableEq

/-- A session and the calls that its host has under way. -/
structure Host where
  session : HostedSession
  calls : List HostCall := []

/-- What the host learns from a call. -/
inductive HostReply where
  | ended (reply : Reply)
  | pending
  /-- The instance does not let the host act for it. -/
  | noContext
  /-- There is no call of the name. -/
  | noCall

namespace Host

/-- How the instances of a hosted session act. -/
def behaviour : Behaviour HostedProgram HostedState Board :=
  Script.behaviour.or (Workload.behaviour Board)

/-- A host of a new session. -/
def new (config : Config) (programs : ProgramRegistry HostedProgram) (keepsEvents : Bool) :
    Except SessionError Host := do
  let tables ← Tables.new config programs.resolve keepsEvents
  return { session := Session.ofTables tables {} }

/-- Boots the session. -/
def boot (host : Host) (descriptor : Descriptor) (argv : List Bytes) :
    Except SessionError InstanceId × Host :=
  let (result, session) := host.session.boot descriptor argv
  (result, { host with session := session })

/-- Runs the session. -/
def run (fuel : Nat) (host : Host) (mode : RunMode) :
    Option (Except SessionError RunOutcome × Host) :=
  (host.session.run behaviour fuel mode).map fun (result, session) =>
    (result, { host with session := session })

/-- Goes on with the same tables in a session of no started instances. -/
def renew (host : Host) : Host :=
  { host with session := Session.ofTables host.session.tables host.session.shared }

/-- The call under a name. -/
def call? (host : Host) (name : String) : Option HostCall :=
  host.calls.find? (·.name = name)

/-- Gives up a call, and tells whether it was under way. -/
def drop (host : Host) (name : String) : Bool × Host :=
  ((host.call? name).isSome,
    { host with calls := host.calls.filter (·.name ≠ name) })

/-- Keeps a call under its name in place of any other. -/
def keep (host : Host) (call : HostCall) : Host :=
  { host with calls := call :: host.calls.filter (·.name ≠ call.name) }

/-- Whether an instance lets the host act for it: it has published itself. -/
def actsFor (host : Host) (id : InstanceId) : Bool :=
  id ∈ host.session.shared.published

/-- Makes a call on behalf of an instance that lets the host act for it. A call that has to wait
is kept under a name. -/
def call (host : Host) (name : String) (caller : InstanceId) (request : Request) :
    HostReply × Host :=
  if host.actsFor caller then
    match host.session.tables.perform caller request with
    | (.finished reply, tables) =>
      (.ended reply, { host with session := { host.session with tables := tables } })
    | (.blocked blocked, tables) =>
      (.pending,
        { host with session := { host.session with tables := tables } }.keep
          ⟨name, caller, blocked⟩)
  else (.noContext, host)

/-- Goes on with a call. One that ends is forgotten. -/
def poll (host : Host) (name : String) : HostReply × Host :=
  match host.call? name with
  | none => (.noCall, host)
  | some call =>
    match host.session.tables.retry call.caller call.blocked with
    | (.finished reply, tables) =>
      (.ended reply,
        ({ host with session := { host.session with tables := tables } }.drop name).2)
    | (.blocked blocked, tables) =>
      (.pending,
        { host with session := { host.session with tables := tables } }.keep
          { call with blocked := blocked })

/-- The calls whose wait is over. -/
def woken (host : Host) : List String :=
  (host.calls.filter fun call => host.session.tables.isOver call.blocked.wait).map HostCall.name

/-- Lets an instance end, now if it waits for that and else once it does. -/
def release (host : Host) (id : InstanceId) (result : Except String Int8) : Host :=
  let board := host.session.shared
  let released : HostedSession := { host.session with shared := { board with
    releases := (id, result) :: board.releases.filter (·.1 ≠ id)
    waiting := board.waiting.filter (· ≠ id) } }
  { host with session := if id ∈ board.waiting then released.wake id else released }

/-- Takes the trace since the last time. -/
def takeTrace (host : Host) : List TraceEntry × Host :=
  let board := host.session.shared
  (board.trace,
    { host with session := { host.session with shared := { board with trace := [] } } })

/-- Forgets the events of the session. -/
def clearEvents (host : Host) : Host :=
  let tables := host.session.tables
  { host with session := { host.session with
    tables := { tables with journal := tables.journal.clear } } }

end Host

end Progeny
