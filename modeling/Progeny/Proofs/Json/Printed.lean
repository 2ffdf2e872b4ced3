import Progeny.Proofs.Json.Spelling

/-! What either printer writes is read back as the value that it was written from. -/

namespace Progeny.Json

/-- A text that spells a value is read as that value. -/
theorem parse?_of_spells {value : Json} {chars : List Char} (spells : Spells (.value value) chars) :
    parse? chars = some value := by
  have read : readValue (2 * chars.length + 2) (chars ++ []) = some (value, []) :=
    spells.reads [] _ (fun _ none => nomatch none) (by omega)
  rw [List.append_nil] at read
  simp only [parse?, read, Option.bind_eq_bind, Option.bind_some]
  -- Nothing is left behind the value.
  exact if_pos rfl

namespace Phrase

/-- All parts of a phrase are told by their text. -/
inductive IsExact : Phrase → Prop where
  | scalar {value : Json} (plain : value.IsPlain) : IsExact (.value value)
  | emptyArray : IsExact (.value (.array []))
  | array {first : Json} {rest : List Json} (items : IsExact (.items first rest)) :
    IsExact (.value (.array (first :: rest)))
  | emptyObject : IsExact (.value (.object []))
  | object {name : String} {value : Json} {rest : List (String × Json)}
      (members : IsExact (.members name value rest)) :
    IsExact (.value (.object ((name, value) :: rest)))
  | lastItem {item : Json} (value : IsExact (.value item)) : IsExact (.items item [])
  | item {item next : Json} {rest : List Json} (value : IsExact (.value item))
      (items : IsExact (.items next rest)) :
    IsExact (.items item (next :: rest))
  | lastMember {name : String} {value : Json} (exact : IsExact (.value value)) :
    IsExact (.members name value [])
  | member {name other : String} {value next : Json} {rest : List (String × Json)}
      (exact : IsExact (.value value)) (members : IsExact (.members other next rest)) :
    IsExact (.members name value ((other, next) :: rest))

/-- The text of a phrase without blanks. -/
def compact : Phrase → List Char
  | .value written => write written
  | .items first rest => write first ++ (writeFurtherItems rest ++ [']'])
  | .members name written rest =>
    writeText name ++ ':' :: (write written ++ (writeFurtherMembers rest ++ ['\x7d']))

/-- The text of a phrase within a value at an indentation level. -/
def indented (level : Nat) : Phrase → List Char
  | .value written => writeIndented level written
  | .items first rest =>
    newLine (level + 1) ++ (writeIndented (level + 1) first ++
      (indentedItems (level + 1) rest ++ (newLine level ++ [']'])))
  | .members name written rest =>
    newLine (level + 1) ++ (writeText name ++ ':' :: ([' '] ++
      (writeIndented (level + 1) written ++
        (indentedMembers (level + 1) rest ++ (newLine level ++ ['\x7d'])))))

end Phrase

/-- A value is told by its text: its integers fit a word, and it has neither other numerals nor
parts without a value. -/
abbrev IsExact (value : Json) : Prop :=
  Phrase.IsExact (.value value)

/-- An array of exact items is exact. -/
theorem isExact_array {items : List Json} (exact : ∀ item ∈ items, IsExact item) :
    IsExact (.array items) := by
  -- Items are a phrase if there is a first one.
  have phrase : ∀ (first : Json) (rest : List Json), (∀ item ∈ first :: rest, IsExact item) →
      Phrase.IsExact (.items first rest) := by
    intro first rest
    induction rest generalizing first with
    | nil => exact fun exact => .lastItem (exact first (.head _))
    | cons next rest ih =>
      exact fun exact => .item (exact first (.head _)) (ih next fun item member =>
        exact item (.tail _ member))
  cases items with
  | nil => exact .emptyArray
  | cons first rest => exact .array (phrase first rest exact)

/-- An object of exact members is exact. -/
theorem isExact_object {members : List (String × Json)}
    (exact : ∀ member ∈ members, IsExact member.2) : IsExact (.object members) := by
  -- Members are a phrase if there is a first one.
  have phrase : ∀ (first : String × Json) (rest : List (String × Json)),
      (∀ member ∈ first :: rest, IsExact member.2) →
      Phrase.IsExact (.members first.1 first.2 rest) := by
    intro first rest
    induction rest generalizing first with
    | nil => exact fun exact => .lastMember (exact first (.head _))
    | cons next rest ih =>
      exact fun exact => .member (exact first (.head _)) (ih next fun member among =>
        exact member (.tail _ among))
  cases members with
  | nil => exact .emptyObject
  | cons first rest => exact .object (phrase first rest exact)

/-- No characters are blanks. -/
theorem areBlanks_nil : AreBlanks [] :=
  fun _ none => nomatch none

/-- A new line and its indentation are blanks. -/
theorem areBlanks_newLine (level : Nat) : AreBlanks (newLine level) := by
  intro char member
  rcases List.mem_cons.mp member with rfl | indent
  · decide
  · obtain ⟨-, rfl⟩ := List.mem_replicate.mp indent
    decide

/-- Both printers write a plain value alike. -/
theorem write_of_isPlain {value : Json} (plain : value.IsPlain) (level : Nat) :
    write value = writeScalar value ∧ writeIndented level value = writeScalar value := by
  cases value <;> first | exact plain.elim | exact ⟨rfl, rfl⟩

/-- The compact text of an exact phrase spells it. -/
theorem Phrase.IsExact.spells_compact {phrase : Phrase} (exact : phrase.IsExact) :
    Spells phrase phrase.compact := by
  -- The printer goes through a phrase part by part, and each part is one way to spell.
  induction exact with
  | scalar plain =>
    rw [compact, (write_of_isPlain plain 0).1]
    exact .scalar plain
  | emptyArray => exact .emptyArray areBlanks_nil
  | array items ih =>
    rw [compact, write, writeItems, List.append_assoc]
    exact .array ih
  | emptyObject => exact .emptyObject areBlanks_nil
  | object members ih =>
    rw [compact, write, writeMembers]
    simp only [List.append_assoc, List.cons_append]
    exact .object ih
  | lastItem value ih => exact .lastItem areBlanks_nil areBlanks_nil ih
  | item value items ih further =>
    rw [compact, writeFurtherItems, List.cons_append, List.append_assoc]
    exact .item areBlanks_nil areBlanks_nil ih further
  | lastMember exact ih =>
    exact .lastMember areBlanks_nil areBlanks_nil areBlanks_nil areBlanks_nil ih
  | member exact members ih further =>
    rw [compact, writeFurtherMembers]
    simp only [List.append_assoc, List.cons_append]
    exact .member areBlanks_nil areBlanks_nil areBlanks_nil areBlanks_nil ih further

/-- The indented text of an exact phrase spells it. -/
theorem Phrase.IsExact.spells_indented {phrase : Phrase} (exact : phrase.IsExact) (level : Nat) :
    Spells phrase (phrase.indented level) := by
  -- As for the compact text, with a new line before each part and a blank behind each colon.
  have space : AreBlanks [' '] := by simp [AreBlanks, isBlank]
  induction exact generalizing level with
  | scalar plain =>
    rw [indented, (write_of_isPlain plain level).2]
    exact .scalar plain
  | emptyArray => exact .emptyArray areBlanks_nil
  | array items ih => exact .array (ih level)
  | emptyObject => exact .emptyObject areBlanks_nil
  | object members ih => exact .object (ih level)
  | lastItem value ih =>
    exact .lastItem (areBlanks_newLine _) (areBlanks_newLine level) (ih (level + 1))
  | item value items ih further =>
    rw [indented, indentedItems, List.cons_append, List.append_assoc, List.append_assoc]
    exact .item (areBlanks_newLine _) areBlanks_nil (ih (level + 1)) (further level)
  | lastMember exact ih =>
    exact .lastMember (areBlanks_newLine _) areBlanks_nil space (areBlanks_newLine level)
      (ih (level + 1))
  | member exact members ih further =>
    rw [indented, indentedMembers]
    simp only [List.append_assoc, List.cons_append]
    exact .member (areBlanks_newLine _) areBlanks_nil space areBlanks_nil (ih (level + 1))
      (further level)

/-- The compact text of an exact value is read back. -/
theorem parse?_write {value : Json} (exact : IsExact value) : parse? (write value) = some value :=
  parse?_of_spells exact.spells_compact

/-- The indented text of an exact value is read back. -/
theorem parse?_writeIndented {value : Json} (exact : IsExact value) (level : Nat) :
    parse? (writeIndented level value) = some value :=
  parse?_of_spells (exact.spells_indented level)

/-- Exact values with the same compact text are the same. -/
theorem write_inj {one other : Json} (oneExact : IsExact one) (otherExact : IsExact other) :
    write one = write other ↔ one = other := by
  refine ⟨fun same => ?_, congrArg write⟩
  -- The text that they share is read as either of them.
  have read := parse?_write oneExact
  rw [same, parse?_write otherExact] at read
  exact (Option.some.inj read).symm

end Progeny.Json
