import Progeny.Bytes
import Progeny.Handle

/-! One pipe: two ends, each with the bytes that wait to be read on it. -/

namespace Progeny

/-- One end of a pipe. -/
structure PipeEnd where
  endpoint : Endpoint
  owner : InstanceId
  isOpen : Bool := true
  /-- Bytes written on the other end and not yet read here. -/
  inbound : Bytes := []
  deriving DecidableEq

/-- The two ends of a pipe, told apart. -/
inductive Side where
  | first
  | second
  deriving DecidableEq

/-- The end across the pipe. -/
def Side.peer : Side → Side
  | .first => .second
  | .second => .first

/-- A pipe carries bytes in both directions. -/
structure Pipe where
  first : PipeEnd
  second : PipeEnd
  deriving DecidableEq

/-- What became of an attempt to write. -/
inductive WriteAttempt where
  | accepted (count : Nat)
  | full
  | peerClosed
  deriving DecidableEq

namespace Pipe

/-- The end on a side. -/
def on (pipe : Pipe) : Side → PipeEnd
  | .first => pipe.first
  | .second => pipe.second

/-- The pipe with the end on a side changed. -/
def modify (pipe : Pipe) (side : Side) (change : PipeEnd → PipeEnd) : Pipe :=
  match side with
  | .first => { pipe with first := change pipe.first }
  | .second => { pipe with second := change pipe.second }

/-- The side that an endpoint names. -/
def sideOf? (pipe : Pipe) (endpoint : Endpoint) : Option Side :=
  if pipe.first.endpoint = endpoint then some .first
  else if pipe.second.endpoint = endpoint then some .second
  else none

/-- Both ends, in the order of their endpoints. -/
def ends (pipe : Pipe) : List PipeEnd :=
  [pipe.first, pipe.second]

/-- Whether an end is open. -/
def isLive (pipe : Pipe) : Bool :=
  pipe.first.isOpen || pipe.second.isOpen

/-- Takes at most `limit` bytes from the queue of a side. There is no answer while the queue is
empty and the peer may still write, and no bytes mean the end of the stream. -/
def read (pipe : Pipe) (side : Side) (limit : Nat) : Option Bytes × Pipe :=
  if limit = 0 then (some [], pipe)
  -- An empty queue is the end of the stream only once nobody can fill it.
  else if (pipe.on side).inbound = [] then
    (if (pipe.on side.peer).isOpen then none else some [], pipe)
  else
    (some ((pipe.on side).inbound.take limit),
      pipe.modify side fun held => { held with inbound := held.inbound.drop limit })

/-- Puts as many bytes into the queue of the peer as it has room for. -/
def write (pipe : Pipe) (capacity : Nat) (side : Side) (data : Bytes) : WriteAttempt × Pipe :=
  let peer := pipe.on side.peer
  let room := capacity - peer.inbound.length
  -- A closed peer is noticed even where there is nothing to write.
  if !peer.isOpen then (.peerClosed, pipe)
  else if data = [] then (.accepted 0, pipe)
  else if room = 0 then (.full, pipe)
  else
    (.accepted (data.take room).length,
      pipe.modify side.peer fun held => { held with inbound := held.inbound ++ data.take room })

/-- Closes a side. Nobody can read its queue from then on, nor any queue once both sides are
closed. -/
def close (pipe : Pipe) (side : Side) : Pipe :=
  let closed := pipe.modify side fun held => { held with isOpen := false, inbound := [] }
  if closed.isLive then closed
  else closed.modify side.peer fun held => { held with inbound := [] }

end Pipe

end Progeny
