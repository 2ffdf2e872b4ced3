import Progeny.Digest.Sha256
import Progeny.Json.Printer
import Progeny.Lifecycle
import Progeny.Session.Basic
import Progeny.Text.Base64

/-! Captures of a session: its records and live pipes at one moment, with a fingerprint. -/

namespace Progeny

/-- The record of an instance in a capture. -/
structure InstanceCapture where
  id : InstanceId
  parent : Option InstanceId
  depth : UInt32
  state : Lifecycle
  fault : Option String
  deriving DecidableEq

/-- One end of a pipe in a capture. -/
structure EndCapture where
  endpoint : Endpoint
  owner : InstanceId
  isOpen : Bool
  /-- The bytes that wait to be read, in base64. -/
  buffered : String
  deriving DecidableEq

/-- A live pipe in a capture, its ends in the order of their creation. -/
structure PipeCapture where
  first : EndCapture
  second : EndCapture
  deriving DecidableEq

/-- What a session holds at one moment. -/
structure Capture where
  consumedSteps : UInt64
  openEndpoints : UInt64
  /-- All records, in the order of their identities. -/
  instances : List InstanceCapture
  /-- The pipes with an open end, in the order of their creation. -/
  pipes : List PipeCapture
  deriving DecidableEq

namespace InstanceCapture

/-- Captures a record. -/
def ofRecord (record : InstanceRecord) : InstanceCapture :=
  ⟨record.id, record.parent, record.depth, record.state, record.fault⟩

/-- A parent and a fault are written only where there is one. -/
def toJson (record : InstanceCapture) : Json :=
  .object (("id", record.id.toJson) ::
    ((record.parent.toList.map fun parent => ("parent", parent.toJson)) ++
      (("depth", .ofNat record.depth.toNat) :: (record.state.members ++
        record.fault.toList.map fun fault => ("fault", .text fault)))))

/-- The nesting levels that remain within an instance of a snapshot. -/
def levels : Nat := Json.nestingLimit - 3

/-- Reads the record of an instance. Its stage stands among its other members. -/
def ofJson? : Json → Option InstanceCapture
  | .object members => do
    let names := ["id", "parent", "depth", "fault"]
    let fields ← Json.knownMembers? names members
    return {
      id := ← fields.required? "id" InstanceId.ofJson?
      parent := ← fields.optional? "parent" InstanceId.ofJson?
      depth := ← fields.required? "depth" Json.toHalfWord?
      state := ← Lifecycle.ofMembers? levels
        (members.filter fun (name, _) => !names.contains name)
      fault := ← fields.optional? "fault" Json.toText? }
  | _ => none

end InstanceCapture

namespace EndCapture

/-- Captures an end. -/
def ofEnd (held : PipeEnd) : EndCapture :=
  ⟨held.endpoint, held.owner, held.isOpen, String.ofList (Base64.encode held.inbound)⟩

/-- The bytes that wait to be read, if their text is proper base64. -/
def bufferedBytes? (held : EndCapture) : Option Bytes :=
  Base64.decode? held.buffered.toList

/-- An end is written with its queue in base64. -/
def toJson (held : EndCapture) : Json :=
  .object [("endpoint", held.endpoint.toJson), ("owner", held.owner.toJson),
    ("open", .bool held.isOpen), ("buffered", .text held.buffered)]

/-- Reads an end. The text of its queue is not looked into. -/
def ofJson? (value : Json) : Option EndCapture := do
  let fields ← value.fields? ["endpoint", "owner", "open", "buffered"]
  return {
    endpoint := ← fields.required? "endpoint" Endpoint.ofJson?
    owner := ← fields.required? "owner" InstanceId.ofJson?
    isOpen := ← fields.required? "open" Json.toBool?
    buffered := ← fields.required? "buffered" Json.toText? }

end EndCapture

namespace PipeCapture

/-- Captures a pipe. -/
def ofPipe (pipe : Pipe) : PipeCapture :=
  ⟨.ofEnd pipe.first, .ofEnd pipe.second⟩

/-- Both ends, in the order of their creation. -/
def ends (pipe : PipeCapture) : List EndCapture :=
  [pipe.first, pipe.second]

/-- A pipe is written as its two ends. -/
def toJson (pipe : PipeCapture) : Json :=
  .object [("ends", .array [pipe.first.toJson, pipe.second.toJson])]

/-- Reads the two ends of a pipe. -/
def ofJson? (value : Json) : Option PipeCapture := do
  let fields ← value.fields? ["ends"]
  match ← fields.required? "ends" (Json.toList? EndCapture.ofJson?) with
  | [first, second] => return ⟨first, second⟩
  | _ => none

end PipeCapture

namespace Capture

/-- The members that stand for a capture in an object. -/
def members (capture : Capture) : List (String × Json) :=
  [("consumed_steps", .ofWord capture.consumedSteps),
    ("open_endpoints", .ofWord capture.openEndpoints),
    ("instances", .ofList InstanceCapture.toJson capture.instances),
    ("channels", .ofList PipeCapture.toJson capture.pipes)]

/-- A capture is written as an object of its members. -/
def toJson (capture : Capture) : Json :=
  .object capture.members

/-- The bytes that the fingerprint is a digest of. -/
def fingerprintInput (capture : Capture) : Bytes :=
  Bytes.ofText (Json.write capture.toJson)

/-- A digest that tells captures apart. -/
def fingerprint (capture : Capture) : String :=
  String.ofList (Hex.encode (Sha256.digest capture.fingerprintInput))

/-- The first record of an instance. -/
def find? (capture : Capture) (id : InstanceId) : Option InstanceCapture :=
  capture.instances.find? (·.id = id)

end Capture

/-- Captures the tables after a number of steps. -/
def Tables.capture {π : Type} (tables : Tables π) (consumedSteps : Nat) : Capture where
  consumedSteps := UInt64.ofNat consumedSteps
  openEndpoints := UInt64.ofNat tables.pipes.openEndpoints
  instances := tables.instances.records.map .ofRecord
  pipes := tables.pipes.livePipes.map .ofPipe

/-- Captures a session. -/
def Session.capture {π β σ : Type} (session : Session π β σ) : Capture :=
  session.tables.capture session.consumedSteps

end Progeny
