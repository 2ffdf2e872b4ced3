import Progeny.Session.Behaviour
import Progeny.Workload.Arguments
import Progeny.Workload.Basic

/-! How every instance of a workload plays its part: it creates its pipes, spawns its children,
writes and reads in order, and then joins its children. -/

namespace Progeny

/-- One part of a write that an instance performs. -/
inductive Transfer where
  | send (pipe : UInt64) (data : Bytes)
  | receive (pipe : UInt64) (expected : Bytes)
  deriving DecidableEq

/-- The parts of a write that fall to an instance, the sending one first. -/
def WritePlan.transfersOf (plan : WritePlan) (index : UInt64) : List Transfer :=
  (if plan.writer = index then [.send plan.writerPipe plan.data] else []) ++
    (if plan.reader = index then [.receive plan.readerPipe plan.data] else [])

/-- What the call of an actor that has not ended is for. -/
inductive Errand where
  | create (plan : PipePlan)
  | spawn (plan : SpawnPlan)
  | send (endpoint : Endpoint)
  | receive (endpoint : Endpoint) (expected : Bytes)
  /-- The endpoint of a transfer that is over. -/
  | close
  | join
  deriving DecidableEq

/-- An instance of a workload with what it has yet to do. -/
structure Actor where
  held : Holdings
  pipes : List PipePlan
  spawns : List SpawnPlan
  transfers : List Transfer
  /-- Children to join, in the order of their spawns. -/
  children : List InstanceId := []
  /-- The exit code as far as it is known. -/
  code : Int8 := 0
  errand : Option Errand := none
  /-- An endpoint to be closed before anything else. -/
  closing : Option Endpoint := none
  deriving DecidableEq

namespace Actor

/-- The exit code of an instance that read other bytes than were written. -/
def mismatchCode : Int8 := 1

/-- The program that every instance of a workload runs. -/
def descriptor : Descriptor := { index := 0, source := 0 }

/-- The arguments of the first instance. -/
def rootArgv : List Bytes := Arguments.write 0 []

/-- The part of an instance in a workload, from its arguments. -/
def start (workload : Workload) (argv : List Bytes) : Except String Actor := do
  let (index, held) ← Arguments.read argv
  return {
    held := held
    pipes := workload.pipes.filter (·.creator = index)
    spawns := workload.spawns.filter (·.parent = index)
    transfers := workload.writes.flatMap (·.transfersOf index) }

/-- The endpoint of a pipe that an instance is expected to hold. -/
def endpointOf (actor : Actor) (pipe : UInt64) : Except String Endpoint :=
  match actor.held.find? pipe with
  | some endpoint => .ok endpoint
  | none => .error ("pipe " ++ Decimal.text pipe.toNat ++ " is not held by this instance")

/-- Takes in what a call returned. A child with a code other than zero sets the exit code unless
it is set already, and so do bytes that differ from those that were written. -/
def absorb (actor : Actor) : Errand → Value → Actor
  | .create plan, .endpoints first second =>
    { actor with held := (actor.held.insert plan.readPipe first).insert plan.writePipe second }
  | .spawn plan, .instance id =>
    { actor with
      held := plan.pipes.foldl Holdings.erase actor.held
      children := actor.children ++ [id] }
  -- Either end of a transfer is closed as soon as its bytes are through.
  | .send endpoint, _ => { actor with closing := some endpoint }
  | .receive endpoint expected, .bytes received =>
    { actor with
      closing := some endpoint
      code := if received = expected then actor.code else mismatchCode }
  | .join, .code code =>
    { actor with code := if code ≠ 0 ∧ actor.code = 0 then code else actor.code }
  | _, _ => actor

/-- Makes a call for an errand. -/
def send (actor : Actor) (errand : Errand) (request : Request) : Action × Actor :=
  (.call request, { actor with errand := some errand })

/-- Chooses what to do next. -/
def choose (actor : Actor) : Except String (Action × Actor) :=
  match actor.closing, actor.pipes, actor.spawns, actor.transfers, actor.children with
  -- What comes first in this list is done before anything that comes later.
  | some endpoint, _, _, _, _ =>
    .ok ({ actor with closing := none }.send .close (.close endpoint))
  | none, plan :: pipes, _, _, _ =>
    .ok ({ actor with pipes := pipes }.send (.create plan) .pipe)
  | none, [], plan :: spawns, _, _ => do
    let endpoints ← plan.pipes.mapM actor.endpointOf
    let argv := Arguments.write plan.child (plan.pipes.zip endpoints)
    return { actor with spawns := spawns }.send (.spawn plan) (.spawn descriptor argv endpoints)
  | none, [], [], .send pipe data :: transfers, _ => do
    let endpoint ← actor.endpointOf pipe
    return { actor with transfers := transfers }.send (.send endpoint) (.writeAll endpoint data)
  | none, [], [], .receive pipe expected :: transfers, _ => do
    let endpoint ← actor.endpointOf pipe
    return { actor with transfers := transfers }.send (.receive endpoint expected)
      (.readExact endpoint expected.length)
  | none, [], [], [], child :: children =>
    .ok ({ actor with children := children }.send .join (.join child))
  | none, [], [], [], [] => .ok (.exit actor.code, actor)

/-- Goes on after a notice. A call that failed ends the instance. -/
def next (actor : Actor) (notice : Notice) : Except String (Action × Actor) :=
  match actor.errand, notice with
  | some errand, .reply (.ok value) => (actor.absorb errand value).choose
  -- No call of a workload is expected to fail.
  | some _, .reply (.error error) => .error error.faultMessage
  | _, _ => actor.choose

end Actor

namespace Workload

/-- How instances of a workload act. One whose arguments make no sense ends at once. -/
def behaviour (σ : Type) : Behaviour Workload (Except String Actor) σ where
  start workload invocation := Actor.start workload invocation.argv
  next state shared notice :=
    match state.bind (·.next notice) with
    | .ok (action, actor) => (action, .ok actor, shared)
    | .error message => (.fault message, .error message, shared)

end Workload

end Progeny
