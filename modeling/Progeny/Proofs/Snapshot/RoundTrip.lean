import Progeny.Proofs.Snapshot.Records
import Progeny.Proofs.Text.Base64

/-! The text of a snapshot loses nothing: it is read back as the snapshot that was written. -/

namespace Progeny.Snapshot

/-- If the text of its time is read back, a snapshot is read back from its text, whatever it holds,
and the bytes that wait at an end are read back from what the runtime writes for them. -/
theorem text_lossless (snapshot : Snapshot) (time :
    Timestamp.parse? snapshot.capturedAt.text.toList = some snapshot.capturedAt) :
    parse? snapshot.text.toList = some snapshot ∧
      ∀ (held : EndCapture) (bytes : Bytes),
        held.buffered = String.ofList (Base64.encode bytes) → held.bufferedBytes? = some bytes := by
  constructor
  · -- The text is that of a value, and this value tells every part of the snapshot.
    calc parse? snapshot.text.toList
      _ = (Json.parse? (Json.writeIndented 0 snapshot.toJson)).bind ofJson? := by
        rw [parse?, text, Json.pretty, String.toList_ofList]
      _ = ofJson? snapshot.toJson := by
        rw [Json.parse?_writeIndented snapshot.isExact_toJson, Option.bind_some]
      _ = some snapshot := ofJson?_toJson snapshot time
  · -- Decoding undoes the encoder of the runtime, for bytes of any number.
    intro held bytes written
    rw [EndCapture.bufferedBytes?, written, String.toList_ofList, Base64.decode?_encode]

/-- A snapshot with all that a text must keep: numbers at their limits, a missing parent and a
missing fault beside present ones, a fault with quotes, controls and other scripts, and queues in
base64 and not. -/
def motley : Snapshot where
  sessionId := ⟨0x0123456789abcdef0123456789abcdef#128⟩
  capturedAt := ⟨19782, 86399, 1234567890⟩
  capture := {
    consumedSteps := 18446744073709551615
    openEndpoints := 3
    instances := [⟨.root, none, 0, .running, none⟩,
      ⟨⟨1⟩, some .root, 4294967295, .exited (-128), some "\"a\\b\"\x00\n\t,é😀"⟩,
      ⟨⟨18446744073709551615⟩, some ⟨1⟩, 2, .exited 127, some ""⟩]
    pipes := [⟨⟨.first, .root, true, "b2s="⟩,
      ⟨⟨18446744073709551615, by decide⟩, ⟨1⟩, false, "=?"⟩⟩] }

/-- Such a snapshot is read back, and so are the two bytes that wait at one of its ends. -/
theorem text_lossless_of_motley :
    Timestamp.parse? motley.capturedAt.text.toList = some motley.capturedAt ∧
      parse? motley.text.toList = some motley ∧
      (EndCapture.mk .first .root true "b2s=").bufferedBytes? = some [111, 107] :=
  have time : Timestamp.parse? motley.capturedAt.text.toList = some motley.capturedAt := by decide
  have ⟨read, decoded⟩ := text_lossless motley time
  ⟨time, read, decoded _ [111, 107] (by decide)⟩

end Progeny.Snapshot
