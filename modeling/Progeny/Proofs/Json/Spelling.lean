import Progeny.Proofs.Json.Tokens

/-! The texts that spell a value, with any blanks between tokens, are read as that value. -/

namespace Progeny.Json

/-- A value that is neither array nor object and is told by its text: integers fit a word. -/
def IsPlain : Json → Prop
  | .integer value => FitsWord value
  | .null | .bool _ | .text _ => True
  | .real _ | .array _ | .object _ | .unreadable => False

/-- What is read at once: a value, or the items or members that are left of one, of which there is
at least one. -/
inductive Phrase where
  | value (value : Json)
  | items (first : Json) (rest : List Json)
  | members (name : String) (value : Json) (rest : List (String × Json))

/-- All characters are blanks. -/
def AreBlanks (blanks : List Char) : Prop :=
  ∀ char ∈ blanks, isBlank char = true

/-- A text spells a phrase. Items and members end with the closing bracket. -/
inductive Spells : Phrase → List Char → Prop where
  | scalar {value : Json} (plain : value.IsPlain) : Spells (.value value) (writeScalar value)
  | emptyArray {within : List Char} (blank : AreBlanks within) :
    Spells (.value (.array [])) ('[' :: (within ++ [']']))
  | array {first : Json} {rest : List Json} {chars : List Char}
      (items : Spells (.items first rest) chars) :
    Spells (.value (.array (first :: rest))) ('[' :: chars)
  | emptyObject {within : List Char} (blank : AreBlanks within) :
    Spells (.value (.object [])) ('\x7b' :: (within ++ ['\x7d']))
  | object {name : String} {value : Json} {rest : List (String × Json)} {chars : List Char}
      (members : Spells (.members name value rest) chars) :
    Spells (.value (.object ((name, value) :: rest))) ('\x7b' :: chars)
  | lastItem {item : Json} {chars before after : List Char} (front : AreBlanks before)
      (back : AreBlanks after) (value : Spells (.value item) chars) :
    Spells (.items item []) (before ++ (chars ++ (after ++ [']'])))
  | item {item next : Json} {rest : List Json} {chars further before after : List Char}
      (front : AreBlanks before) (back : AreBlanks after) (value : Spells (.value item) chars)
      (items : Spells (.items next rest) further) :
    Spells (.items item (next :: rest)) (before ++ (chars ++ (after ++ ',' :: further)))
  | lastMember {name : String} {value : Json} {chars before beside between after : List Char}
      (front : AreBlanks before) (left : AreBlanks beside) (right : AreBlanks between)
      (back : AreBlanks after) (spelled : Spells (.value value) chars) :
    Spells (.members name value [])
      (before ++ (writeText name ++ (beside ++ ':' :: (between ++ (chars ++ (after ++ ['\x7d']))))))
  | member {name other : String} {value next : Json} {rest : List (String × Json)}
      {chars further before beside between after : List Char}
      (front : AreBlanks before) (left : AreBlanks beside) (right : AreBlanks between)
      (back : AreBlanks after) (spelled : Spells (.value value) chars)
      (members : Spells (.members other next rest) further) :
    Spells (.members name value ((other, next) :: rest))
      (before ++ (writeText name ++
        (beside ++ ':' :: (between ++ (chars ++ (after ++ ',' :: further))))))

/-! Reading. -/

/-- A numeral begins with a digit or a sign. -/
def StartsNumeral (char : Char) : Prop :=
  char.isDigit = true ∨ char = '-'

/-- The beginning of a numeral is no blank, and it closes no array. -/
theorem StartsNumeral.not_blank {char : Char} (starts : StartsNumeral char) :
    isBlank char = false ∧ char ≠ ']' := by
  rcases starts with digit | rfl
  · have range := Decimal.toNat_of_isDigit digit
    refine ⟨?_, by rintro rfl; simp at range⟩
    simp only [isBlank, Bool.or_eq_false_iff, decide_eq_false_iff_not]
    refine ⟨⟨⟨?_, ?_⟩, ?_⟩, ?_⟩ <;> rintro rfl <;> simp at range
  · decide

/-- An integer is written as a numeral. -/
theorem writeScalar_integer (value : Int) : ∃ char more,
    writeScalar (.integer value) = char :: more ∧ StartsNumeral char := by
  cases value with
  | ofNat value =>
    cases digits : Decimal.write value with
    | nil => exact absurd digits Nat.toDigits_ne_nil
    | cons char more =>
      have digit := Decimal.isDigit_of_mem_write (digits ▸ List.mem_cons_self : char ∈ _)
      exact ⟨char, more, digits, .inl digit⟩
  | negSucc value => exact ⟨'-', _, rfl, .inr rfl⟩

/-- A token in front is not skipped. -/
theorem skipBlanks_cons {char : Char} (token : isBlank char = false) (rest : List Char) :
    skipBlanks (char :: rest) = char :: rest :=
  List.dropWhile_cons_of_neg (by simp [token])

/-- Blanks in front are skipped. -/
theorem skipBlanks_append {blanks : List Char} (blank : AreBlanks blanks) (input : List Char) :
    skipBlanks (blanks ++ input) = skipBlanks input :=
  List.dropWhile_append_of_pos blank

/-- Blanks are skipped up to the next token. -/
theorem skipBlanks_token {blanks : List Char} (blank : AreBlanks blanks) {char : Char}
    (token : isBlank char = false) (rest : List Char) :
    skipBlanks (blanks ++ char :: rest) = char :: rest := by
  rw [skipBlanks_append blank, skipBlanks_cons token]

/-- Blanks in front of a value are skipped. -/
theorem readValue_append {blanks : List Char} (blank : AreBlanks blanks) (fuel : Nat)
    (input : List Char) : readValue fuel (blanks ++ input) = readValue fuel input := by
  cases fuel with
  | zero => rfl
  | succ fuel => rw [readValue, readValue, skipBlanks_append blank]

/-- Blanks do not continue a numeral, nor do the tokens behind a value. -/
theorem stops_append {blanks : List Char} (blank : AreBlanks blanks) {char : Char}
    (token : char = ',' ∨ char = ']' ∨ char = '\x7d') (rest : List Char) :
    Stops (blanks ++ char :: rest) := by
  intro next first
  -- What comes next is the token or, if there are blanks, the first of these.
  cases blanks with
  | nil =>
    obtain rfl := Option.some.inj first
    rcases token with rfl | rfl | rfl <;> decide
  | cons other blanks =>
    obtain rfl := Option.some.inj first
    have known := blank other List.mem_cons_self
    simp only [isBlank, Bool.or_eq_true, decide_eq_true_eq] at known
    rcases known with ((rfl | rfl) | rfl) | rfl <;> decide

/-- What is read from a text that spells a phrase, whatever follows it. -/
def Reads : Phrase → List Char → Prop
  | .value value, chars => ∀ rest fuel, Stops rest → 2 * chars.length ≤ fuel + 1 →
    readValue fuel (chars ++ rest) = some (value, rest)
  | .items first others, chars => ∀ rest fuel, 2 * chars.length ≤ fuel →
    readItems fuel (chars ++ rest) = some (first :: others, rest)
  | .members name value others, chars => ∀ rest fuel, 2 * chars.length ≤ fuel →
    readMembers fuel (chars ++ rest) =
      some (((name, value) :: others).map fun member => (some member.1, member.2), rest)

/-- A value begins with a token that closes no array. -/
theorem Spells.begins {value : Json} {chars : List Char} (spells : Spells (.value value) chars) :
    ∃ char more, chars = char :: more ∧ isBlank char = false ∧ char ≠ ']' := by
  cases spells with
  | scalar plain =>
    cases value with
    | null => exact ⟨_, _, rfl, by decide⟩
    | bool value => cases value <;> exact ⟨_, _, rfl, by decide⟩
    | integer value =>
      obtain ⟨char, more, same, starts⟩ := writeScalar_integer value
      exact ⟨char, more, same, starts.not_blank⟩
    | text value => exact ⟨_, _, rfl, by decide⟩
    | real _ | array _ | object _ | unreadable => exact plain.elim
  | emptyArray => exact ⟨_, _, rfl, by decide⟩
  | array => exact ⟨_, _, rfl, by decide⟩
  | emptyObject => exact ⟨_, _, rfl, by decide⟩
  | object => exact ⟨_, _, rfl, by decide⟩

/-- Items begin with a token that closes no array. -/
theorem Spells.items_begin {first : Json} {others : List Json} {chars : List Char}
    (spells : Spells (.items first others) chars) (rest : List Char) :
    ∃ char more, skipBlanks (chars ++ rest) = char :: more ∧ char ≠ ']' := by
  cases spells with
  | lastItem front back value =>
    obtain ⟨char, more, rfl, token, other⟩ := value.begins
    exact ⟨char, _, by rw [List.append_assoc]; exact skipBlanks_token front token _, other⟩
  | item front back value items =>
    obtain ⟨char, more, rfl, token, other⟩ := value.begins
    exact ⟨char, _, by rw [List.append_assoc]; exact skipBlanks_token front token _, other⟩

/-- Members begin with the quote of a name. -/
theorem Spells.members_begin {name : String} {value : Json} {others : List (String × Json)}
    {chars : List Char} (spells : Spells (.members name value others) chars) (rest : List Char) :
    ∃ more, skipBlanks (chars ++ rest) = '"' :: more := by
  cases spells with
  | lastMember front =>
    exact ⟨_, by rw [List.append_assoc]; exact skipBlanks_token front (by decide) _⟩
  | member front =>
    exact ⟨_, by rw [List.append_assoc]; exact skipBlanks_token front (by decide) _⟩

/-- A value that begins like a numeral is read as one. -/
theorem readValue_numeral {char : Char} (starts : StartsNumeral char) (fuel : Nat)
    (rest : List Char) : readValue (fuel + 1) (char :: rest) = readNumber (char :: rest) := by
  rw [readValue, skipBlanks_cons starts.not_blank.1]
  -- No other value begins with a digit or a sign.
  split <;> first | rfl | (rename_i same; cases same; simp [StartsNumeral] at starts)

/-- A scalar is read back. -/
theorem readValue_scalar {value : Json} (plain : value.IsPlain) (fuel : Nat) {rest : List Char}
    (stops : Stops rest) :
    readValue (fuel + 1) (writeScalar value ++ rest) = some (value, rest) := by
  cases value with
  | null => rfl
  | bool value => cases value <;> rfl
  | integer value =>
    obtain ⟨char, more, same, starts⟩ := writeScalar_integer value
    have read := readNumber_writeScalar plain stops
    rw [same] at read ⊢
    exact (readValue_numeral starts fuel _).trans read
  | text value =>
    -- The quote in front tells a string, and the string ends at its other quote.
    rw [writeScalar, writeText, List.cons_append, List.append_assoc, readValue,
      skipBlanks_cons (by decide)]
    simp only [List.singleton_append, readText_escape]
    rfl
  | real _ | array _ | object _ | unreadable => exact plain.elim

/-- Items are read up to the end of an array. -/
theorem readValue_array {rest after : List Char} {fuel : Nat} {items : List Json} {char : Char}
    {more : List Char} (begins : skipBlanks rest = char :: more) (other : char ≠ ']')
    (read : readItems fuel rest = some (items, after)) :
    readValue (fuel + 1) ('[' :: rest) = some (.array items, after) := by
  rw [readValue, skipBlanks_cons (by decide)]
  simp only [begins]
  -- The array is not empty, since its bracket is not closed at once.
  split
  · rename_i same
    exact absurd (List.cons.inj same).1 other
  · simp [read]

/-- Members whose names have texts make an object. -/
theorem objectOf_map (members : List (String × Json)) :
    objectOf (members.map fun member => (some member.1, member.2)) = .object members := by
  have named : (members.map fun member => (some member.1, member.2)).mapM
      (fun (member : Option String × Json) => member.1.map (·, member.2)) = some members :=
    mapM_map_of_inverse fun _ _ => rfl
  rw [objectOf, named]

/-- Members are read up to the end of an object. -/
theorem readValue_object {rest after : List Char} {fuel : Nat} {members : List (String × Json)}
    {more : List Char} (begins : skipBlanks rest = '"' :: more)
    (read : readMembers fuel rest =
      some (members.map fun member => (some member.1, member.2), after)) :
    readValue (fuel + 1) ('\x7b' :: rest) = some (.object members, after) := by
  rw [readValue, skipBlanks_cons (by decide)]
  simp only [begins, read]
  exact congrArg (fun value => some (value, after)) (objectOf_map members)

/-- A member is read up to its value. -/
theorem readMembers_value {name : String} {value : Json} {before beside between chars : List Char}
    {fuel : Nat} {after : List Char} (front : AreBlanks before) (left : AreBlanks beside)
    (right : AreBlanks between)
    (read : readValue fuel chars = some (value, after)) :
    readMembers (fuel + 1)
      (before ++ (writeText name ++ (beside ++ ':' :: (between ++ chars)))) =
      match skipBlanks after with
        | '\x7d' :: rest => some ([(some name, value)], rest)
        | ',' :: rest => (readMembers fuel rest).bind fun (members, rest) =>
          some ((some name, value) :: members, rest)
        | _ => none := by
  -- The name is read up to its closing quote, and blanks may stand beside the colon.
  have text := readText_escape name (beside ++ ':' :: (between ++ chars))
  rw [writeText, List.cons_append, List.append_assoc, List.singleton_append, readMembers,
    skipBlanks_token front (by decide)]
  have colon : isBlank ':' = false := by decide
  simp only [text, Option.bind_eq_bind, Option.bind_some, skipBlanks_token left colon,
    readValue_append right, read]
  rfl

/-- An item is read up to the end of the array. -/
theorem readItems_last {item : Json} {before after chars rest : List Char} {fuel : Nat}
    (front : AreBlanks before) (back : AreBlanks after)
    (read : readValue fuel chars = some (item, after ++ ']' :: rest)) :
    readItems (fuel + 1) (before ++ chars) = some ([item], rest) := by
  have bracket : isBlank ']' = false := by decide
  rw [readItems, readValue_append front, read]
  simp only [Option.bind_eq_bind, Option.bind_some, skipBlanks_token back bracket]
  rfl

/-- An item is read up to the next one. -/
theorem readItems_next {item : Json} {items : List Json} {fuel : Nat}
    {before after chars further rest : List Char} (front : AreBlanks before)
    (back : AreBlanks after)
    (read : readValue fuel chars = some (item, after ++ ',' :: further))
    (readFurther : readItems fuel further = some (items, rest)) :
    readItems (fuel + 1) (before ++ chars) = some (item :: items, rest) := by
  have comma : isBlank ',' = false := by decide
  rw [readItems, readValue_append front, read]
  simp only [Option.bind_eq_bind, Option.bind_some, skipBlanks_token back comma, readFurther]
  rfl

/-- Every text that spells a phrase is read as that phrase. -/
theorem Spells.reads {phrase : Phrase} {chars : List Char} (spells : Spells phrase chars) :
    Reads phrase chars := by
  -- Each constructor is one way through the reader, and shorter texts need less fuel.
  induction spells with
  | scalar plain =>
    unfold Reads
    intro rest fuel stops enough
    -- A scalar takes at least one character, and so there is fuel for it.
    obtain ⟨char, more, same, -⟩ := (Spells.scalar plain).begins
    rw [same, List.length_cons] at enough
    obtain ⟨fuel, rfl⟩ : ∃ less, fuel = less + 1 := ⟨fuel - 1, by omega⟩
    exact readValue_scalar plain fuel stops
  | emptyArray blank =>
    unfold Reads
    intro rest fuel stops enough
    simp only [List.length_cons] at enough
    obtain ⟨fuel, rfl⟩ : ∃ less, fuel = less + 1 := ⟨fuel - 1, by omega⟩
    have bracket : isBlank ']' = false := by decide
    rw [List.cons_append, List.append_assoc, readValue, skipBlanks_cons (by decide)]
    simp only [List.singleton_append, skipBlanks_token blank bracket]
  | array items ih =>
    unfold Reads at ih ⊢
    intro rest fuel stops enough
    simp only [List.length_cons] at enough
    obtain ⟨fuel, rfl⟩ : ∃ less, fuel = less + 1 := ⟨fuel - 1, by omega⟩
    obtain ⟨char, more, begins, other⟩ := items.items_begin rest
    exact readValue_array begins other (ih rest fuel (by omega))
  | emptyObject blank =>
    unfold Reads
    intro rest fuel stops enough
    simp only [List.length_cons] at enough
    obtain ⟨fuel, rfl⟩ : ∃ less, fuel = less + 1 := ⟨fuel - 1, by omega⟩
    have brace : isBlank '\x7d' = false := by decide
    rw [List.cons_append, List.append_assoc, readValue, skipBlanks_cons (by decide)]
    simp only [List.singleton_append, skipBlanks_token blank brace]
  | object members ih =>
    unfold Reads at ih ⊢
    intro rest fuel stops enough
    simp only [List.length_cons] at enough
    obtain ⟨fuel, rfl⟩ : ∃ less, fuel = less + 1 := ⟨fuel - 1, by omega⟩
    obtain ⟨more, begins⟩ := members.members_begin rest
    exact readValue_object begins (ih rest fuel (by omega))
  | lastItem front back value ih =>
    unfold Reads at ih ⊢
    intro rest fuel enough
    simp only [List.length_append, List.length_singleton] at enough
    obtain ⟨fuel, rfl⟩ : ∃ less, fuel = less + 1 := ⟨fuel - 1, by omega⟩
    simp only [List.append_assoc, List.singleton_append]
    exact readItems_last front back
      (ih _ fuel (stops_append back (.inr (.inl rfl)) rest) (by omega))
  | item front back value items ih tail =>
    unfold Reads at ih tail ⊢
    intro rest fuel enough
    simp only [List.length_append, List.length_cons] at enough
    obtain ⟨fuel, rfl⟩ : ∃ less, fuel = less + 1 := ⟨fuel - 1, by omega⟩
    simp only [List.append_assoc, List.cons_append]
    exact readItems_next front back (ih _ fuel (stops_append back (.inl rfl) _) (by omega))
      (tail rest fuel (by omega))
  | lastMember front left right back value ih =>
    unfold Reads at ih ⊢
    intro rest fuel enough
    simp only [List.length_append, List.length_cons] at enough
    obtain ⟨fuel, rfl⟩ : ∃ less, fuel = less + 1 := ⟨fuel - 1, by omega⟩
    simp only [List.append_assoc, List.cons_append, List.nil_append]
    rw [readMembers_value front left right
      (ih _ fuel (stops_append back (.inr (.inr rfl)) rest) (by omega)),
      skipBlanks_token back (by decide)]
    rfl
  | member front left right back value members ih tail =>
    unfold Reads at ih tail ⊢
    intro rest fuel enough
    simp only [List.length_append, List.length_cons] at enough
    obtain ⟨fuel, rfl⟩ : ∃ less, fuel = less + 1 := ⟨fuel - 1, by omega⟩
    simp only [List.append_assoc, List.cons_append]
    rw [readMembers_value front left right
      (ih _ fuel (stops_append back (.inl rfl) _) (by omega)), skipBlanks_token back (by decide)]
    simp only [tail rest fuel (by omega)]
    rfl

end Progeny.Json
