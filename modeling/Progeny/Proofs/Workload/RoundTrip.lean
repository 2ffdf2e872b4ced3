import Progeny.Json.Printer
import Progeny.Proofs.Json.Words
import Progeny.Proofs.Text.Base64
import Progeny.Workload.Run

/-! The text of a workload loses nothing, and the payloads in it have no other form than the one
in which they are written. -/

namespace Progeny

open Json

namespace SpawnPlan

/-- A spawn is read back. -/
theorem ofJson?_toJson (plan : SpawnPlan) : ofJson? plan.toJson = some plan := by
  have pipes : (ofList ofWord plan.pipes).toList? toWord? = some plan.pipes :=
    toList?_ofList fun pipe _ => toWord?_ofWord pipe
  simp [toJson, ofJson?, fields?, knownMembers?, Fields.required?, List.lookup_cons,
    toWord?_ofWord, pipes]

/-- A spawn is told by its text. -/
theorem isExact_toJson (plan : SpawnPlan) : IsExact plan.toJson := by
  apply isExact_object
  simp only [List.forall_mem_cons]
  exact ⟨isExact_ofWord _, isExact_ofWord _, isExact_ofList fun pipe _ => isExact_ofWord pipe,
    by simp⟩

end SpawnPlan

namespace PipePlan

/-- The creation of a pipe is read back. -/
theorem ofJson?_toJson (plan : PipePlan) : ofJson? plan.toJson = some plan := by
  simp [toJson, ofJson?, fields?, knownMembers?, Fields.required?, List.lookup_cons,
    toWord?_ofWord]

/-- The creation of a pipe is told by its text. -/
theorem isExact_toJson (plan : PipePlan) : IsExact plan.toJson := by
  apply isExact_object
  simp only [List.forall_mem_cons]
  exact ⟨isExact_ofWord _, isExact_ofWord _, isExact_ofWord _, by simp⟩

end PipePlan

namespace WritePlan

/-- The text that stands for the bytes of a transfer. -/
def payload (plan : WritePlan) : String :=
  String.ofList (Base64.encode plan.data)

/-- The text that a value gives for the bytes of a transfer. -/
def payload? (value : Json) : Option String := do
  let fields ← value.fields? ["from", "from_pipe", "to", "to_pipe", "data"]
  fields.required? "data" Json.toText?

/-- Exactly the texts that are standard base64 are accepted for bytes. -/
theorem dataOfJson?_iff {value : Json} {bytes : Bytes} : dataOfJson? value = some bytes ↔
    ∃ text, value = .text text ∧ Base64.IsStandard text.toList bytes := by
  cases value <;> simp [dataOfJson?, toText?, Base64.decode?_iff_isStandard]

/-- Bytes are accepted from no other text than the one that is written for them. -/
theorem text_of_dataOfJson? {value : Json} {bytes : Bytes} (read : dataOfJson? value = some bytes) :
    value.toText? = some (String.ofList (Base64.encode bytes)) := by
  obtain ⟨text, given, decoded⟩ := Option.bind_eq_some_iff.mp read
  rw [given, ← Base64.decode?_eq_some_iff.mp decoded, String.ofList_toList]

/-- A transfer is read back. -/
theorem ofJson?_toJson (plan : WritePlan) : ofJson? plan.toJson = some plan := by
  simp [toJson, ofJson?, fields?, knownMembers?, Fields.required?, List.lookup_cons,
    toWord?_ofWord, dataOfJson?, toText?, Base64.decode?_encode]

/-- A transfer is told by its text. -/
theorem isExact_toJson (plan : WritePlan) : IsExact plan.toJson := by
  apply isExact_object
  simp only [List.forall_mem_cons]
  exact ⟨isExact_ofWord _, isExact_ofWord _, isExact_ofWord _, isExact_ofWord _, isExact_text _,
    by simp⟩

/-- The value of a transfer gives the text that is written for its bytes. -/
theorem payload?_of_ofJson? {value : Json} {plan : WritePlan} (read : ofJson? value = some plan) :
    payload? value = some plan.payload := by
  simp only [ofJson?, Option.bind_eq_bind, Option.bind_eq_some_iff] at read
  obtain ⟨fields, named, _, _, _, _, _, _, _, _, data, dataRead, same⟩ := read
  obtain ⟨written, found, decoded⟩ := Option.bind_eq_some_iff.mp dataRead
  cases same
  simp only [payload?, named, Option.bind_eq_bind, Option.bind_some]
  exact Fields.required?_of_lookup found (text_of_dataOfJson? decoded)

end WritePlan

namespace Workload

/-- A workload is read back. -/
theorem ofJson?_toJson (workload : Workload) : ofJson? workload.toJson = some workload := by
  have spawns : (ofList SpawnPlan.toJson workload.spawns).toList? SpawnPlan.ofJson? =
      some workload.spawns :=
    toList?_ofList fun plan _ => plan.ofJson?_toJson
  have pipes : (ofList PipePlan.toJson workload.pipes).toList? PipePlan.ofJson? =
      some workload.pipes :=
    toList?_ofList fun plan _ => plan.ofJson?_toJson
  have writes : (ofList WritePlan.toJson workload.writes).toList? WritePlan.ofJson? =
      some workload.writes :=
    toList?_ofList fun plan _ => plan.ofJson?_toJson
  simp [toJson, ofJson?, fields?, knownMembers?, Fields.required?, List.lookup_cons, spawns, pipes,
    writes]

/-- A workload is told by its text. -/
theorem isExact_toJson (workload : Workload) : IsExact workload.toJson := by
  apply isExact_object
  simp only [List.forall_mem_cons]
  exact ⟨isExact_ofList fun plan _ => plan.isExact_toJson,
    isExact_ofList fun plan _ => plan.isExact_toJson,
    isExact_ofList fun plan _ => plan.isExact_toJson, by simp⟩

/-- Either text of a workload is read as the workload. -/
theorem parse?_text {workload : Workload} {text : String}
    (written : text = workload.toJson.compact ∨ text = workload.toJson.pretty) :
    parse? text.toList = some workload := by
  have exact := workload.isExact_toJson
  obtain rfl | rfl := written
  · rw [parse?, compact, String.toList_ofList, parse?_write exact, Option.bind_some,
      ofJson?_toJson]
  · rw [parse?, pretty, String.toList_ofList, parse?_writeIndented exact, Option.bind_some,
      ofJson?_toJson]

/-- The texts that a value gives for the bytes of the transfers of a workload, in order. -/
def payloads? (value : Json) : Option (List String) := do
  let fields ← value.fields? ["spawns", "pipes", "writes"]
  fields.required? "writes" (Json.toList? WritePlan.payload?)

/-- The value of a workload gives the texts that are written for its bytes. -/
theorem payloads?_of_ofJson? {value : Json} {workload : Workload}
    (read : ofJson? value = some workload) :
    payloads? value = some (workload.writes.map WritePlan.payload) := by
  simp only [ofJson?, Option.bind_eq_bind, Option.bind_eq_some_iff] at read
  obtain ⟨fields, named, _, _, _, _, writes, writesRead, same⟩ := read
  obtain ⟨written, found, decoded⟩ := Option.bind_eq_some_iff.mp writesRead
  cases same
  simp only [payloads?, named, Option.bind_eq_bind, Option.bind_some]
  exact Fields.required?_of_lookup found
    (toList?_map (fun _ _ => WritePlan.payload?_of_ofJson?) decoded)

/-- Every workload is read back from its text, compact or indented, and so runs as it did before.
Whatever a workload is read from, it is read back from its own text. A payload is read from exactly
the text that is its standard base64, and the payloads of a text that is read are those texts. -/
theorem text_canonical :
    (∀ (workload : Workload) (text : String),
      text = workload.toJson.compact ∨ text = workload.toJson.pretty →
        parse? text.toList = some workload ∧
          ∀ fuel config stepsPerRun maxSteps,
            (parse? text.toList).map (·.run fuel config stepsPerRun maxSteps) =
              some (workload.run fuel config stepsPerRun maxSteps)) ∧
    (∀ (text : List Char) (workload : Workload), parse? text = some workload →
      parse? workload.toJson.compact.toList = some workload ∧
        parse? workload.toJson.pretty.toList = some workload ∧
        (Json.parse? text).bind payloads? = some (workload.writes.map WritePlan.payload) ∧
        ∀ plan ∈ workload.writes, Base64.IsStandard plan.payload.toList plan.data) ∧
    ∀ (value : Json) (bytes : Bytes), WritePlan.dataOfJson? value = some bytes ↔
      ∃ payload, value = .text payload ∧ Base64.IsStandard payload.toList bytes := by
  refine ⟨?_, ?_, fun _ _ => WritePlan.dataOfJson?_iff⟩
  · intro workload text written
    have read := parse?_text written
    refine ⟨read, fun fuel config stepsPerRun maxSteps => ?_⟩
    rw [read, Option.map_some]
  · intro text workload read
    obtain ⟨value, valueRead, decoded⟩ := Option.bind_eq_some_iff.mp read
    refine ⟨parse?_text (.inl rfl), parse?_text (.inr rfl), ?_, fun plan _ => ?_⟩
    · rw [valueRead, Option.bind_some, payloads?_of_ofJson? decoded]
    · rw [WritePlan.payload, String.toList_ofList]
      exact Base64.isStandard_encode plan.data

/-- A workload with payloads of every length up to a whole group, and a number at its limit. -/
def parcels : Workload where
  spawns := [⟨0, 1, [3, 18446744073709551615]⟩]
  pipes := [⟨0, 3, 2⟩]
  writes := [⟨0, 2, 1, 3, []⟩, ⟨0, 2, 1, 3, [255]⟩, ⟨0, 2, 1, 3, [251, 240]⟩,
    ⟨0, 2, 1, 3, [111, 107, 33]⟩]

/-- Such a workload is read from a text that is not its own, with fields by position, blanks and an
escape in a payload. -/
theorem text_canonical_of_parcels :
    let text := "[ [[0,1,[3, 18446744073709551615]]], [[0,3,2]],
      [[0,2,1,3,\"\"],[0,2,1,3,\"/w==\"],[0,2,1,3,\"\\u002b/A=\"],[0,2,1,3,\"b2sh\"]] ]"
    parse? text.toList = some parcels ∧
      parse? parcels.toJson.compact.toList = some parcels ∧
      parse? parcels.toJson.pretty.toList = some parcels ∧
      (Json.parse? text.toList).bind payloads? = some ["", "/w==", "+/A=", "b2sh"] := by
  intro text
  have read : parse? text.toList = some parcels := by decide +kernel
  have ⟨lossless, canonical, _⟩ := text_canonical
  obtain ⟨_, _, payloads, _⟩ := canonical text.toList parcels read
  exact ⟨read, (lossless parcels _ (.inl rfl)).1, (lossless parcels _ (.inr rfl)).1, payloads⟩

end Workload

end Progeny
