import Progeny.Proofs.Snapshot.Records
import Progeny.Proofs.Text.Plain

/-! The fingerprint of a snapshot tells its content, up to collisions of the digest. -/

namespace Progeny

/-- Two messages collide if they differ and have the same digest. -/
def Sha256.Collide (one other : Bytes) : Prop :=
  one ≠ other ∧ digest one = digest other

/-- Captures stand for the same value exactly if they agree in all four parts. -/
theorem Capture.toJson_inj {one other : Capture} : one.toJson = other.toJson ↔
    one.consumedSteps = other.consumedSteps ∧ one.openEndpoints = other.openEndpoints ∧
      one.instances = other.instances ∧ one.pipes = other.pipes := by
  simp [toJson, members, Json.ofWord_inj, Json.ofList_inj InstanceCapture.ofJson?_toJson,
    Json.ofList_inj PipeCapture.ofJson?_toJson]

namespace Snapshot

/-- Two snapshots have the same content: all that does not tell the session and the time. -/
def SameContent (one other : Snapshot) : Prop :=
  one.capture.consumedSteps = other.capture.consumedSteps ∧
    one.capture.openEndpoints = other.capture.openEndpoints ∧
    one.capture.instances = other.capture.instances ∧
    one.capture.pipes = other.capture.pipes

/-- The bytes that are digested are the same exactly if the contents are. -/
theorem fingerprintInput_inj {one other : Snapshot} :
    one.fingerprintInput = other.fingerprintInput ↔ one.SameContent other := by
  calc one.fingerprintInput = other.fingerprintInput
    _ ↔ Json.write one.capture.toJson = Json.write other.capture.toJson := Bytes.ofText_inj
    _ ↔ one.capture.toJson = other.capture.toJson :=
      Json.write_inj one.capture.isExact_toJson other.capture.isExact_toJson
    _ ↔ one.SameContent other := Capture.toJson_inj

/-- The same fingerprint is the same digest. -/
theorem fingerprint_inj {one other : Snapshot} : one.fingerprint = other.fingerprint ↔
    Sha256.digest one.fingerprintInput = Sha256.digest other.fingerprintInput :=
  String.ofList_inj.trans Hex.encode_inj

/-- The bytes that are digested are the same exactly if the contents are. So the same content has
the same fingerprint, and different contents share one only if their bytes collide. -/
theorem fingerprint_identifies (one other : Snapshot) :
    (one.fingerprintInput = other.fingerprintInput ↔ one.SameContent other) ∧
      (one.fingerprint = other.fingerprint ↔ one.SameContent other ∨
        Sha256.Collide one.fingerprintInput other.fingerprintInput) := by
  refine ⟨fingerprintInput_inj, ?_⟩
  rw [fingerprint_inj, ← fingerprintInput_inj, Sha256.Collide]
  constructor
  · intro digests
    by_cases same : one.fingerprintInput = other.fingerprintInput
    · exact .inl same
    · exact .inr ⟨same, digests⟩
  · rintro (same | ⟨-, digests⟩)
    · exact congrArg Sha256.digest same
    · exact digests

end Snapshot

end Progeny
