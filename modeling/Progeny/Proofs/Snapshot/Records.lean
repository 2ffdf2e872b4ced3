import Progeny.Proofs.Json.Words
import Progeny.Proofs.Text.Uuid
import Progeny.Snapshot.Basic

/-! The records of a snapshot are read back from the values that stand for them, and these are told
by their texts. -/

namespace Progeny

open Json

/-- The stage of an instance is read back from its members. -/
theorem Lifecycle.ofMembers?_members (state : Lifecycle) (levels : Nat) :
    ofMembers? levels state.members = some state := by
  cases state with
  | running =>
    simp [ofMembers?, members, tagged?, areMembersReadable, ofNamed?, knownMembers?]
  | exited code =>
    simp [ofMembers?, members, tagged?, areMembersReadable, isReadable, ofNamed?, knownMembers?,
      Fields.required?, toSignedByte?_toInt]

namespace InstanceCapture

/-- The fields of a record of its own, beside the members of its stage. -/
def fields (record : InstanceCapture) : Fields :=
  ("id", record.id.toJson) :: ((record.parent.toList.map fun parent => ("parent", parent.toJson)) ++
    (("depth", .ofNat record.depth.toNat) ::
      record.fault.toList.map fun fault => ("fault", .text fault)))

/-- The fields of a record are found by their names. -/
theorem lookup_fields (record : InstanceCapture) :
    record.fields.lookup "id" = some record.id.toJson ∧
      record.fields.lookup "parent" = record.parent.map InstanceId.toJson ∧
      record.fields.lookup "depth" = some (.ofNat record.depth.toNat) ∧
      record.fields.lookup "fault" = record.fault.map .text := by
  rcases record with ⟨id, _ | parent, depth, state, _ | fault⟩ <;> simp [fields, List.lookup_cons]

/-- The members of a record are its own fields and, between them, those of its stage. -/
theorem toJson_eq_object (record : InstanceCapture) : ∃ members, record.toJson = .object members ∧
    knownMembers? ["id", "parent", "depth", "fault"] members = some record.fields ∧
    (members.filter fun member => !(["id", "parent", "depth", "fault"].contains member.1)) =
      record.state.members := by
  refine ⟨_, rfl, ?_, ?_⟩ <;>
    rcases record with ⟨id, _ | parent, depth, _ | code, _ | fault⟩ <;>
    simp [knownMembers?, fields, Lifecycle.members]

/-- The record of an instance is read back, whether it has a parent and a fault or not. -/
theorem ofJson?_toJson (record : InstanceCapture) : ofJson? record.toJson = some record := by
  -- Each field is found where it was written, and the stage among the members that are left.
  obtain ⟨members, written, own, stage⟩ := record.toJson_eq_object
  obtain ⟨idFound, parentFound, depthFound, faultFound⟩ := record.lookup_fields
  have id := Fields.required?_of_lookup idFound record.id.ofJson?_toJson
  have parent := Fields.optional?_of_lookup parentFound (fun _ same => nomatch same)
    InstanceId.ofJson?_toJson
  have depth := Fields.required?_of_lookup depthFound (toHalfWord?_ofNat record.depth)
  have fault : record.fields.optional? "fault" toText? = some record.fault :=
    Fields.optional?_of_lookup faultFound (fun _ same => nomatch same) fun _ => rfl
  simp only [written, ofJson?, own, stage, id, parent, depth, fault,
    Lifecycle.ofMembers?_members, Option.bind_eq_bind, Option.bind_some]
  rfl

/-- The record of an instance is told by its text. -/
theorem isExact_toJson (record : InstanceCapture) : IsExact record.toJson := by
  have stage : ∀ member ∈ record.state.members, IsExact member.2 := by
    cases record.state <;> simp [Lifecycle.members, isExact_text, isExact_toInt]
  apply isExact_object
  simp only [List.forall_mem_cons, List.forall_mem_append, List.forall_mem_map]
  exact ⟨isExact_ofWord _, fun _ _ => isExact_ofWord _, isExact_ofNat _, stage,
    fun _ _ => isExact_text _⟩

end InstanceCapture

namespace EndCapture

/-- An end is read back. -/
theorem ofJson?_toJson (held : EndCapture) : ofJson? held.toJson = some held := by
  simp [toJson, ofJson?, fields?, knownMembers?, Fields.required?, List.lookup_cons,
    Endpoint.ofJson?_toJson, InstanceId.ofJson?_toJson, toBool?, toText?]

/-- An end is told by its text. -/
theorem isExact_toJson (held : EndCapture) : IsExact held.toJson := by
  apply isExact_object
  simp only [List.forall_mem_cons]
  exact ⟨isExact_ofWord _, isExact_ofWord _, isExact_bool _, isExact_text _, by simp⟩

end EndCapture

namespace PipeCapture

/-- A pipe is written as the list of its ends. -/
theorem toJson_eq (pipe : PipeCapture) :
    pipe.toJson = .object [("ends", .ofList EndCapture.toJson pipe.ends)] :=
  rfl

/-- The two ends of a pipe are read back. -/
theorem ofJson?_toJson (pipe : PipeCapture) : ofJson? pipe.toJson = some pipe := by
  have ends : (ofList EndCapture.toJson pipe.ends).toList? EndCapture.ofJson? = some pipe.ends :=
    toList?_ofList fun held _ => held.ofJson?_toJson
  have fields : pipe.toJson.fields? ["ends"] =
      some [("ends", ofList EndCapture.toJson pipe.ends)] := by
    simp [toJson_eq, fields?, knownMembers?]
  rw [ofJson?, fields]
  simp only [Option.bind_eq_bind, Option.bind_some,
    Fields.required?_of_lookup List.lookup_cons_self ends]
  rfl

/-- A pipe is told by its text. -/
theorem isExact_toJson (pipe : PipeCapture) : IsExact pipe.toJson := by
  have ends : IsExact (ofList EndCapture.toJson pipe.ends) :=
    isExact_ofList fun held _ => held.isExact_toJson
  rw [toJson_eq]
  apply isExact_object
  simpa using ends

end PipeCapture

namespace Capture

/-- All parts of a capture are told by their texts. -/
theorem isExact_members (capture : Capture) : ∀ member ∈ capture.members, IsExact member.2 := by
  simp only [members, List.forall_mem_cons]
  exact ⟨isExact_ofWord _, isExact_ofWord _,
    isExact_ofList fun record _ => record.isExact_toJson,
    isExact_ofList fun pipe _ => pipe.isExact_toJson, by simp⟩

/-- A capture is told by its text. -/
theorem isExact_toJson (capture : Capture) : IsExact capture.toJson :=
  isExact_object capture.isExact_members

end Capture

namespace Snapshot

/-- A snapshot is told by its text. -/
theorem isExact_toJson (snapshot : Snapshot) : IsExact snapshot.toJson := by
  apply isExact_object
  simp only [List.forall_mem_cons]
  exact ⟨isExact_text _, isExact_text _, snapshot.capture.isExact_members⟩

/-- A snapshot is read back from the value that stands for it, if its time is read back. -/
theorem ofJson?_toJson (snapshot : Snapshot) (time :
    Timestamp.parse? snapshot.capturedAt.text.toList = some snapshot.capturedAt) :
    ofJson? snapshot.toJson = some snapshot := by
  obtain ⟨session, taken, steps, endpoints, records, channels⟩ := snapshot
  -- The lists are read item by item, and every other field is found by its name.
  have instances : (ofList InstanceCapture.toJson records).toList? InstanceCapture.ofJson? =
      some records :=
    toList?_ofList fun record _ => record.ofJson?_toJson
  have pipes : (ofList PipeCapture.toJson channels).toList? PipeCapture.ofJson? = some channels :=
    toList?_ofList fun pipe _ => pipe.ofJson?_toJson
  simp [toJson, ofJson?, fields?, fieldNames, Capture.members, knownMembers?, Fields.required?,
    List.lookup_cons, toText?, toWord?_ofWord, Uuid.parse?_text, time, instances, pipes]

end Snapshot

end Progeny
