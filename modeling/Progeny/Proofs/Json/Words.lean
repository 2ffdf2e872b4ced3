import Progeny.Json.Decode
import Progeny.Handle
import Progeny.Proofs.Json.Printed

/-! Words, lists and fields of records are read back from the values that stand for them, and these
are told by their texts. -/

namespace Progeny

namespace Json

/-- A number below the bound is read back. -/
theorem toNat?_ofNat {bound value : Nat} (small : value < bound) :
    (ofNat value).toNat? bound = some value :=
  if_pos small

/-- A word is read back. -/
theorem toWord?_ofWord (word : UInt64) : (ofWord word).toWord? = some word := by
  show ((ofNat word.toNat).toNat? UInt64.size).map UInt64.ofNat = some word
  rw [toNat?_ofNat word.toNat_lt, Option.map_some, UInt64.ofNat_toNat]

/-- Half a word is read back. -/
theorem toHalfWord?_ofNat (word : UInt32) : (ofNat word.toNat).toHalfWord? = some word := by
  rw [toHalfWord?, toNat?_ofNat word.toNat_lt, Option.map_some, UInt32.ofNat_toNat]

/-- A signed byte is read back. -/
theorem toSignedByte?_toInt (byte : Int8) : (integer byte.toInt).toSignedByte? = some byte := by
  have least := byte.le_toInt
  have greatest := byte.toInt_lt
  rw [toSignedByte?, if_pos (by omega), Int8.ofInt_toInt]

/-- A list is read back item by item. -/
theorem toList?_ofList {α : Type} {encode : α → Json} {decode : Json → Option α} {items : List α}
    (inverse : ∀ item ∈ items, decode (encode item) = some item) :
    (ofList encode items).toList? decode = some items :=
  mapM_map_of_inverse inverse

/-- What is told of each item of a list is told of the list. -/
theorem toList?_map {α β : Type} {decode : Json → Option α} {tell : Json → Option β} {image : α → β}
    (agree : ∀ value item, decode value = some item → tell value = some (image item)) {value : Json}
    {items : List α} (read : value.toList? decode = some items) :
    value.toList? tell = some (items.map image) := by
  cases value with
  | array values =>
    replace read : values.mapM decode = some items := read
    show values.mapM tell = some (items.map image)
    induction values generalizing items with
    | nil =>
      cases read
      rfl
    | cons first rest ih =>
      simp only [List.mapM_cons, Option.bind_eq_bind, Option.bind_eq_some_iff] at read
      obtain ⟨item, firstRead, others, restRead, same⟩ := read
      cases same
      rw [List.mapM_cons, agree first item firstRead, ih restRead]
      rfl
  | _ => contradiction

/-- Different words are different values. -/
theorem ofWord_inj {one other : UInt64} : ofWord one = ofWord other ↔ one = other :=
  inj_of_inverse toWord?_ofWord

/-- Lists of items that are read back are told apart by their values. -/
theorem ofList_inj {α : Type} {encode : α → Json} {decode : Json → Option α}
    (inverse : ∀ item, decode (encode item) = some item) {one other : List α} :
    ofList encode one = ofList encode other ↔ one = other :=
  inj_of_inverse fun _ => toList?_ofList fun item _ => inverse item

/-- A field that was written is read back. -/
theorem Fields.required?_of_lookup {α : Type} {fields : Fields} {name : String} {written : Json}
    {value : α} {decode : Json → Option α} (found : fields.lookup name = some written)
    (inverse : decode written = some value) : fields.required? name decode = some value := by
  rw [required?, found, Option.bind_some, inverse]

/-- A field that is written where there is a value is read back whether there is one or not. -/
theorem Fields.optional?_of_lookup {α : Type} {fields : Fields} {name : String}
    {encode : α → Json} {value : Option α} {decode : Json → Option α}
    (found : fields.lookup name = value.map encode) (filled : ∀ value, encode value ≠ .null)
    (inverse : ∀ value, decode (encode value) = some value) :
    fields.optional? name decode = some value := by
  rw [optional?.eq_def, found]
  cases value with
  | none => rfl
  | some value =>
    rw [Option.map_some]
    split
    · contradiction
    · rename_i null
      exact absurd (Option.some.inj null) (filled value)
    · rename_i same
      rw [← Option.some.inj same, inverse, Option.map_some]

/-- A word is told by its numeral. -/
theorem isExact_ofWord (word : UInt64) : IsExact (ofWord word) := by
  have bound := word.toNat_lt
  exact .scalar ⟨by omega, by omega⟩

/-- Half a word is told by its numeral. -/
theorem isExact_ofNat (word : UInt32) : IsExact (ofNat word.toNat) := by
  have bound := word.toNat_lt
  exact .scalar ⟨by omega, by omega⟩

/-- A signed byte is told by its numeral. -/
theorem isExact_toInt (byte : Int8) : IsExact (integer byte.toInt) := by
  have least := byte.le_toInt
  have greatest := byte.toInt_lt
  exact .scalar ⟨by omega, by omega⟩

/-- A text is told by its string. -/
theorem isExact_text (text : String) : IsExact (.text text) :=
  .scalar trivial

/-- A truth value is told by its name. -/
theorem isExact_bool (value : Bool) : IsExact (.bool value) :=
  .scalar trivial

/-- A list of exact items is exact. -/
theorem isExact_ofList {α : Type} {encode : α → Json} {items : List α}
    (exact : ∀ item ∈ items, IsExact (encode item)) : IsExact (ofList encode items) :=
  isExact_array (List.forall_mem_map.mpr exact)

end Json

/-- The identity of an instance is read back. -/
theorem InstanceId.ofJson?_toJson (id : InstanceId) : ofJson? id.toJson = some id := by
  rw [ofJson?, toJson, Json.toWord?_ofWord, Option.map_some]

/-- An endpoint is read back, since its word is not zero. -/
theorem Endpoint.ofJson?_toJson (endpoint : Endpoint) :
    ofJson? endpoint.toJson = some endpoint := by
  rw [ofJson?, toJson, Json.toWord?_ofWord, Option.bind_some, ofWord?,
    dif_pos endpoint.word_ne_zero]

end Progeny
