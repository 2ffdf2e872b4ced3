import Progeny.Pipe.Basic
import Progeny.Error

/-! The pipes of a session and who holds their ends. -/

namespace Progeny

/-- Every pipe ever created, with the budget of open endpoints. -/
structure PipeRegistry where
  /-- Bytes that each direction of a pipe holds. -/
  capacity : UInt64
  maxEndpoints : UInt64
  /-- The endpoint that the next pipe begins with. -/
  nextEndpoint : Endpoint := .first
  /-- How many ends are open. -/
  openEndpoints : Nat := 0
  /-- All pipes in the order of their creation. There is no index of endpoints beside them: which
  pipe and which side an endpoint names is told by `locate?`. -/
  pipes : List Pipe := []
  deriving DecidableEq

/-- The outcome of an operation on pipes: its result, the pipes after it, and the endpoints on
which it signalled a change to those that wait. -/
structure Served (α : Type) where
  result : α
  registry : PipeRegistry
  signals : List Endpoint := []

namespace PipeRegistry

/-- The pipe and the side that an endpoint names. No two ends have the same endpoint, so it does not
matter which is found first. -/
def locate? (registry : PipeRegistry) (endpoint : Endpoint) : Option (Pipe × Side) :=
  registry.pipes.findSome? fun pipe => (pipe.sideOf? endpoint).map (pipe, ·)

/-- The registry with the pipe of an endpoint changed. -/
def modify (registry : PipeRegistry) (endpoint : Endpoint) (change : Pipe → Side → Pipe) :
    PipeRegistry :=
  { registry with pipes := registry.pipes.map fun pipe =>
      match pipe.sideOf? endpoint with
      | some side => change pipe side
      | none => pipe }

/-- Creates a pipe with both ends held by `owner`. -/
def create (registry : PipeRegistry) (owner : InstanceId) :
    Served (Except CallError (Endpoint × Endpoint)) :=
  let refused := ⟨.error (.exhausted .endpoints registry.maxEndpoints), registry, []⟩
  if registry.openEndpoints + 2 > registry.maxEndpoints.toNat then refused
  else
    -- The endpoint after the pair has to exist as well, so the last pair is never given out.
    let first := registry.nextEndpoint
    match first.succ? with
    | none => refused
    | some second =>
      match second.succ? with
      | none => refused
      | some next =>
        { result := .ok (first, second)
          registry := { registry with
            nextEndpoint := next
            openEndpoints := registry.openEndpoints + 2
            pipes := registry.pipes ++ [⟨⟨first, owner, true, []⟩, ⟨second, owner, true, []⟩⟩] } }

/-- The pipe and the side of an open endpoint that the caller holds. -/
def held (registry : PipeRegistry) (caller : InstanceId) (endpoint : Endpoint) :
    Except CallError (Pipe × Side) :=
  match registry.locate? endpoint with
  | none => .error (.invalidEndpoint endpoint)
  | some (pipe, side) =>
    if (pipe.on side).owner = caller ∧ (pipe.on side).isOpen then .ok (pipe, side)
    else .error (.invalidEndpoint endpoint)

/-- The endpoint whose signals release a reader: the one it reads on. -/
def readerWaitsOn (registry : PipeRegistry) (caller : InstanceId) (endpoint : Endpoint) :
    Except CallError Endpoint :=
  (registry.held caller endpoint).map fun (pipe, side) => (pipe.on side).endpoint

/-- The endpoint whose signals release a writer: the one that its bytes go to. -/
def writerWaitsOn (registry : PipeRegistry) (caller : InstanceId) (endpoint : Endpoint) :
    Except CallError Endpoint :=
  (registry.held caller endpoint).map fun (pipe, side) => (pipe.on side.peer).endpoint

/-- Reads without waiting. No bytes at all mean the end of the stream, and no answer means that
the caller has to wait. -/
def read (registry : PipeRegistry) (caller : InstanceId) (endpoint : Endpoint) (limit : Nat) :
    Served (Except CallError (Option Bytes)) :=
  match registry.held caller endpoint with
  | .error error => ⟨.error error, registry, []⟩
  | .ok (pipe, side) =>
    match (pipe.read side limit).1 with
    | none => ⟨.ok none, registry, []⟩
    | some [] => ⟨.ok (some []), registry, []⟩
    -- Room in the queue is news for those that write into it.
    | some bytes =>
      ⟨.ok (some bytes), registry.modify endpoint fun pipe side => (pipe.read side limit).2,
        [(pipe.on side).endpoint]⟩

/-- Writes without waiting and tells how many bytes were taken. No answer means that the caller
has to wait. -/
def write (registry : PipeRegistry) (caller : InstanceId) (endpoint : Endpoint) (data : Bytes) :
    Served (Except CallError (Option Nat)) :=
  match registry.held caller endpoint with
  | .error error => ⟨.error error, registry, []⟩
  | .ok (pipe, side) =>
    match (pipe.write registry.capacity.toNat side data).1 with
    | .peerClosed => ⟨.error (.brokenChannel endpoint), registry, []⟩
    | .full => ⟨.ok none, registry, []⟩
    | .accepted 0 => ⟨.ok (some 0), registry, []⟩
    -- Bytes in the queue are news for those that read from it.
    | .accepted count =>
      ⟨.ok (some count),
        registry.modify endpoint fun pipe side =>
          (pipe.write registry.capacity.toNat side data).2,
        [(pipe.on side.peer).endpoint]⟩

/-- Closes an open endpoint, whoever holds it. Either direction of its pipe may have ended, so
both ends are signalled. -/
def closeOpen (registry : PipeRegistry) (endpoint : Endpoint) : PipeRegistry × List Endpoint :=
  match registry.locate? endpoint with
  | none => (registry, [])
  | some (pipe, side) =>
    if (pipe.on side).isOpen then
      -- The signals are in the order of the ends, whichever of them is closed.
      let closed := registry.modify endpoint Pipe.close
      ({ closed with openEndpoints := registry.openEndpoints - 1 },
        [pipe.first.endpoint, pipe.second.endpoint])
    else (registry, [])

/-- Closes an endpoint of the caller and tells whether it was open. -/
def close (registry : PipeRegistry) (caller : InstanceId) (endpoint : Endpoint) :
    Served (Except CallError Bool) :=
  match registry.locate? endpoint with
  | none => ⟨.error (.invalidEndpoint endpoint), registry, []⟩
  | some (pipe, side) =>
    if (pipe.on side).owner = caller then
      let (closed, signals) := registry.closeOpen endpoint
      ⟨.ok (pipe.on side).isOpen, closed, signals⟩
    else ⟨.error (.invalidEndpoint endpoint), registry, []⟩

/-- The open endpoints of an owner, in the order of their creation. -/
def ownedBy (registry : PipeRegistry) (owner : InstanceId) : List Endpoint :=
  ((registry.pipes.flatMap Pipe.ends).filter fun held =>
    held.isOpen && held.owner = owner).map PipeEnd.endpoint

/-- Closes open endpoints one after another. -/
def closeAll (registry : PipeRegistry) : List Endpoint → PipeRegistry × List Endpoint
  | [] => (registry, [])
  | endpoint :: rest =>
    let (closed, signals) := registry.closeOpen endpoint
    let (closed, further) := closed.closeAll rest
    (closed, signals ++ further)

/-- Closes every open endpoint of an owner and lists them. -/
def closeOwnedBy (registry : PipeRegistry) (owner : InstanceId) : Served (List Endpoint) :=
  let owned := registry.ownedBy owner
  let (closed, signals) := registry.closeAll owned
  ⟨owned, closed, signals⟩

/-- Checks from left to right that the caller can give each endpoint away, and gives none twice.
The endpoints already `given` are those to the left. -/
def checkTransfer (registry : PipeRegistry) (caller : InstanceId) (endpoints : List Endpoint)
    (given : List Endpoint := []) : Except CallError Unit :=
  match endpoints with
  | [] => .ok ()
  | endpoint :: rest =>
    match registry.held caller endpoint with
    | .error error => .error error
    | .ok _ =>
      -- The first mention already moves the endpoint away from the caller.
      if endpoint ∈ given then .error (.invalidEndpoint endpoint)
      else registry.checkTransfer caller rest (endpoint :: given)

/-- Makes an instance the owner of endpoints, whoever held them. -/
def transfer (registry : PipeRegistry) (endpoints : List Endpoint) (owner : InstanceId) :
    PipeRegistry :=
  endpoints.foldl (fun registry endpoint =>
    registry.modify endpoint fun pipe side =>
      pipe.modify side fun held => { held with owner := owner }) registry

/-- The pipes with an open end, in the order of their creation. -/
def livePipes (registry : PipeRegistry) : List Pipe :=
  registry.pipes.filter Pipe.isLive

end PipeRegistry

end Progeny
