import Progeny.Json.Reader
import Progeny.Snapshot.Capture
import Progeny.Timestamp.Text
import Progeny.Uuid

/-! Snapshots: captures that tell which session they show and when, with a text form. The
fingerprint depends on neither. -/

namespace Progeny

/-- A capture with the name of its session and the time at which it was taken. -/
structure Snapshot where
  sessionId : Uuid
  capturedAt : Timestamp
  capture : Capture
  deriving DecidableEq

namespace Snapshot

/-- The names of the parts of a snapshot, in written order. -/
def fieldNames : List String :=
  ["session_id", "captured_at", "consumed_steps", "open_endpoints", "instances", "channels"]

/-- A snapshot is written as its identity and time before the members of its capture. -/
def toJson (snapshot : Snapshot) : Json :=
  .object (("session_id", .text snapshot.sessionId.text) ::
    ("captured_at", .text snapshot.capturedAt.text) :: snapshot.capture.members)

/-- The text of a snapshot. -/
def text (snapshot : Snapshot) : String :=
  snapshot.toJson.pretty

/-- Reads a snapshot, in which nothing may be missing. -/
def ofJson? (value : Json) : Option Snapshot := do
  let fields ← value.fields? fieldNames
  let textOf (name : String) := fields.required? name Json.toText?
  return {
    sessionId := ← Uuid.parse? (← textOf "session_id").toList
    capturedAt := ← Timestamp.parse? (← textOf "captured_at").toList
    capture := {
      consumedSteps := ← fields.required? "consumed_steps" Json.toWord?
      openEndpoints := ← fields.required? "open_endpoints" Json.toWord?
      instances := ← fields.required? "instances" (Json.toList? InstanceCapture.ofJson?)
      pipes := ← fields.required? "channels" (Json.toList? PipeCapture.ofJson?) } }

/-- Reads the text of a snapshot. -/
def parse? (text : List Char) : Option Snapshot :=
  (Json.parse? text).bind ofJson?

/-- The bytes that the fingerprint is a digest of. -/
def fingerprintInput (snapshot : Snapshot) : Bytes :=
  snapshot.capture.fingerprintInput

/-- The fingerprint of what a snapshot captures. -/
def fingerprint (snapshot : Snapshot) : String :=
  snapshot.capture.fingerprint

end Snapshot

end Progeny
