import Mathlib.Data.List.Forall2
import Mathlib.Data.List.TakeWhile
import Progeny.Proofs.Text.Plain
import Progeny.Workload.Arguments

/-! Arguments tell an instance its index and the endpoints of its pipes. Exactly those that tell
something are understood, a zero in place of an endpoint apart, and what is written for an instance
tells it just that. -/

namespace Progeny

/-- Among some pairs, the last one for a pipe has the given item. -/
def LastFor {α : Type} (pairs : List (UInt64 × α)) (pipe : UInt64) (item : α) : Prop :=
  ∃ before after, pairs = before ++ (pipe, item) :: after ∧ pipe ∉ after.map Prod.fst

section LastFor

variable {α : Type} {pairs : List (UInt64 × α)} {pipe : UInt64} {item : α}

/-- The first of some pairs is the last one for its pipe if no other is for that pipe. -/
theorem lastFor_cons {head : UInt64 × α} : LastFor (head :: pairs) pipe item ↔
    LastFor pairs pipe item ∨ pipe ∉ pairs.map Prod.fst ∧ head = (pipe, item) := by
  constructor
  · rintro ⟨before, after, same, missing⟩
    cases before with
    | nil =>
      obtain ⟨rfl, rfl⟩ := List.cons.inj same
      exact .inr ⟨missing, rfl⟩
    | cons _ before => exact .inl ⟨before, after, (List.cons.inj same).2, missing⟩
  · rintro (⟨before, after, rfl, missing⟩ | ⟨missing, rfl⟩)
    · exact ⟨head :: before, after, rfl, missing⟩
    · exact ⟨[], pairs, rfl, missing⟩

/-- A pipe that is named has a last pair. -/
theorem exists_lastFor (named : pipe ∈ pairs.map Prod.fst) : ∃ item, LastFor pairs pipe item := by
  induction pairs with
  | nil => simp at named
  | cons head rest ih =>
    by_cases later : pipe ∈ rest.map Prod.fst
    · obtain ⟨item, last⟩ := ih later
      exact ⟨item, lastFor_cons.mpr (.inl last)⟩
    · obtain rfl : pipe = head.1 := by simpa [later] using named
      exact ⟨head.2, lastFor_cons.mpr (.inr ⟨later, rfl⟩)⟩

/-- The last pair for a pipe is one of the pairs. -/
theorem LastFor.mem (last : LastFor pairs pipe item) : (pipe, item) ∈ pairs := by
  obtain ⟨before, after, rfl, -⟩ := last
  simp

/-- If every pipe is named once, each pair is the last one for its pipe. -/
theorem lastFor_of_nodup (once : (pairs.map Prod.fst).Nodup) (member : (pipe, item) ∈ pairs) :
    LastFor pairs pipe item := by
  obtain ⟨before, after, rfl⟩ := List.append_of_mem member
  rw [List.map_append, List.map_cons] at once
  exact ⟨before, after, rfl, (List.nodup_cons.mp (List.nodup_append.mp once).2.1).1⟩

end LastFor

namespace Holdings

/-- Forgetting a pipe changes nothing for other pipes. -/
theorem find?_erase (held : Holdings) {pipe other : UInt64} (differ : other ≠ pipe) :
    (held.erase pipe).find? other = held.find? other := by
  -- The entries that go are those of the erased pipe.
  obtain ⟨entries⟩ := held
  simp only [erase, find?]
  induction entries with
  | nil => rfl
  | cons head rest ih =>
    obtain ⟨key, value⟩ := head
    rw [List.filter_cons]
    by_cases same : key = pipe
    · subst same
      simpa [List.lookup_cons, beq_false_of_ne differ] using ih
    · by_cases here : other = key
      · subst here
        simp [differ]
      · simpa [same, List.lookup_cons, beq_false_of_ne here] using ih

/-- Holding an endpoint for a pipe changes nothing for other pipes. -/
theorem find?_insert (held : Holdings) (pipe other : UInt64) (endpoint : Endpoint) :
    (held.insert pipe endpoint).find? other =
      if other = pipe then some endpoint else held.find? other := by
  -- The new entry comes first, and older ones of the same pipe are erased.
  split
  · rename_i same
    simp [insert, find?, same]
  · rename_i differ
    have kept := held.find?_erase differ
    simpa [insert, find?, List.lookup_cons, beq_false_of_ne differ] using kept

/-- Forgetting some pipes changes nothing for other pipes. -/
theorem find?_foldl_erase {pipes : List UInt64} (held : Holdings) {other : UInt64}
    (missing : other ∉ pipes) : (pipes.foldl erase held).find? other = held.find? other := by
  -- One erased pipe after another differs from the one looked for.
  induction pipes generalizing held with
  | nil => rfl
  | cons pipe rest ih =>
    rw [List.mem_cons, not_or] at missing
    rw [List.foldl_cons, ih (held.erase pipe) missing.2, find?_erase held missing.1]

/-- The endpoints of a list of pairs, where a later pair counts. -/
def ofPairs (pairs : List (UInt64 × Endpoint)) : Holdings :=
  pairs.foldl (fun held pair => held.insert pair.1 pair.2) {}

/-- Once some pairs are held, a pipe has the endpoint of its last pair, or what it had before if it
has none. -/
theorem find?_foldl_insert {pairs : List (UInt64 × Endpoint)} {held : Holdings} {pipe : UInt64}
    {endpoint : Endpoint} :
    (pairs.foldl (fun held pair => held.insert pair.1 pair.2) held).find? pipe = some endpoint ↔
      LastFor pairs pipe endpoint ∨
        pipe ∉ pairs.map Prod.fst ∧ held.find? pipe = some endpoint := by
  induction pairs generalizing held with
  | nil => simp [LastFor]
  | cons head rest ih =>
    obtain ⟨other, item⟩ := head
    rw [List.foldl_cons, ih, lastFor_cons, find?_insert]
    by_cases same : pipe = other
    · simp [same]
    · simp [same, Ne.symm same]

/-- A pipe has the endpoint of the last pair that names it. -/
theorem find?_ofPairs_iff {pairs : List (UInt64 × Endpoint)} {pipe : UInt64}
    {endpoint : Endpoint} :
    (ofPairs pairs).find? pipe = some endpoint ↔ LastFor pairs pipe endpoint := by
  have nothing : ({} : Holdings).find? pipe = none := rfl
  simp [ofPairs, find?_foldl_insert, nothing]

/-- A pipe that is named once has the endpoint of its pair. -/
theorem find?_ofPairs {pairs : List (UInt64 × Endpoint)} (once : (pairs.map Prod.fst).Nodup)
    {pipe : UInt64} {endpoint : Endpoint} (member : (pipe, endpoint) ∈ pairs) :
    (ofPairs pairs).find? pipe = some endpoint :=
  find?_ofPairs_iff.mpr (lastFor_of_nodup once member)

end Holdings

namespace Arguments

/-- Bytes spell a word: its digits, leading zeros among them, after a plus sign or without one. -/
def Spells (bytes : Bytes) (word : UInt64) : Prop :=
  ∃ digits, (bytes = Bytes.ofText digits ∨ bytes = Bytes.ofText ('+' :: digits)) ∧
    Decimal.Denotes digits word.toNat

/-- An argument names a pipe and a word: it spells them with an equals sign between. -/
def Names (argument : Bytes) (pair : UInt64 × UInt64) : Prop :=
  ∃ before after, argument = before ++ '='.toUInt8 :: after ∧ Spells before pair.1 ∧
    Spells after pair.2

/-- Arguments tell the index of an instance and then, one by one, words for pipes. -/
def Tells (arguments : List Bytes) (index : UInt64) (pairs : List (UInt64 × UInt64)) : Prop :=
  ∃ first rest, arguments = first :: rest ∧ Spells first index ∧ List.Forall₂ Names rest pairs

/-- The words of endpoints for pipes. -/
def words (pairs : List (UInt64 × Endpoint)) : List (UInt64 × UInt64) :=
  pairs.map fun pair => (pair.1, pair.2.word)

/-- The message of a failure where a zero stands in place of an endpoint. -/
def zeroMessage : String := "endpoint 0 is not a valid endpoint"

section Numerals

variable {bytes : Bytes} {word : UInt64}

/-- A plus sign and the digits have numbers from 43 to 57. -/
theorem toNat_of_mem_signed {digits : List Char} {char : Char}
    (all : ∀ digit ∈ digits, digit.isDigit = true) (member : char ∈ '+' :: digits) :
    43 ≤ char.toNat ∧ char.toNat ≤ 57 := by
  rcases List.mem_cons.mp member with rfl | digit
  · decide
  · have := Decimal.toNat_of_isDigit (all char digit)
    omega

/-- What spells a word is the text of plus signs and digits that is read as the word. -/
theorem spells_iff : Spells bytes word ↔ ∃ text, bytes = Bytes.ofText text ∧
    (∀ char ∈ text, 43 ≤ char.toNat ∧ char.toNat ≤ 57) ∧
    Decimal.read? UInt64.size text = some word.toNat := by
  simp only [Decimal.read?_eq_some_iff]
  constructor
  · rintro ⟨digits, rfl | rfl, denotes⟩
    · exact ⟨digits, rfl, fun char member => toNat_of_mem_signed denotes.2.1 (.tail _ member),
        word.toNat_lt, digits, .inl rfl, denotes⟩
    · exact ⟨'+' :: digits, rfl, fun char member => toNat_of_mem_signed denotes.2.1 member,
        word.toNat_lt, digits, .inr rfl, denotes⟩
  · rintro ⟨text, rfl, -, -, digits, form, denotes⟩
    exact ⟨digits, form.imp (congrArg _) (congrArg _), denotes⟩

/-- No equals sign is part of a numeral. -/
theorem Spells.equals_notMem (spelt : Spells bytes word) : '='.toUInt8 ∉ bytes := by
  obtain ⟨text, rfl, range, -⟩ := spells_iff.mp spelt
  have plain (char : Char) (member : char ∈ text) : char.toNat < 128 := by
    have := (range char member).2
    omega
  rw [Bytes.ofText_eq_map plain, List.mem_map]
  rintro ⟨char, member, same⟩
  have number := toNat_toUInt8 (plain char member)
  rw [same] at number
  have equals : '='.toUInt8.toNat = 61 := rfl
  have := range char member
  omega

/-- A word is read exactly from the bytes that spell it. -/
theorem readWord_eq_ok_iff : readWord bytes = .ok word ↔ Spells bytes word := by
  rw [spells_iff]
  unfold readWord
  constructor
  · intro read
    split at read
    · rename_i value found
      obtain rfl := Except.ok.inj read
      obtain ⟨text, decoded, numeral⟩ := Option.bind_eq_some_iff.mp found
      obtain ⟨small, digits, form, denotes⟩ := Decimal.read?_eq_some_iff.mp numeral
      have range (char : Char) (member : char ∈ text) : 43 ≤ char.toNat ∧ char.toNat ≤ 57 := by
        refine toNat_of_mem_signed denotes.2.1 ?_
        rcases form with rfl | rfl
        · exact .tail _ member
        · exact member
      have own := Utf8.eq_ofText_of_decode? decoded fun char member => by
        have := range char member
        omega
      exact ⟨text, own, range, by rw [UInt64.toNat_ofNat_of_lt' small, numeral]⟩
    · cases read
  · rintro ⟨text, rfl, range, numeral⟩
    have decoded := Utf8.decode?_ofText fun char member => by
      have := (range char member).2
      omega
    simp [decoded, numeral]

end Numerals

section Pairs

variable {argument before after : Bytes} {pipe word : UInt64} {endpoint : Endpoint}

/-- An argument is split at its first equals sign. -/
theorem readPair_append (apart : '='.toUInt8 ∉ before) :
    readPair (before ++ '='.toUInt8 :: after) = (do
      let pipe ← readWord before
      let word ← readWord after
      match Endpoint.ofWord? word with
      | none => .error zeroMessage
      | some endpoint => return (pipe, endpoint)) := by
  have passed : ∀ byte ∈ before, decide (byte ≠ '='.toUInt8) = true := by
    intro byte member
    exact decide_eq_true fun same => apart (same ▸ member)
  have first : (before ++ '='.toUInt8 :: after).takeWhile (· ≠ '='.toUInt8) = before := by
    rw [List.takeWhile_append_of_pos passed]
    simp
  have rest : (before ++ '='.toUInt8 :: after).dropWhile (· ≠ '='.toUInt8) =
      '='.toUInt8 :: after := by
    rw [List.dropWhile_append_of_pos passed]
    simp
  simp only [readPair, first, rest]
  rfl

/-- An argument that names a pipe and an endpoint is read as these. -/
theorem readPair_of_names (named : Names argument (pipe, endpoint.word)) :
    readPair argument = .ok (pipe, endpoint) := by
  obtain ⟨before, after, rfl, pipeSpelt, wordSpelt⟩ := named
  have valid : Endpoint.ofWord? endpoint.word = some endpoint := by
    simp [Endpoint.ofWord?, endpoint.word_ne_zero]
  rw [readPair_append pipeSpelt.equals_notMem, readWord_eq_ok_iff.mpr pipeSpelt,
    readWord_eq_ok_iff.mpr wordSpelt]
  simp only [bind, Except.bind, valid]
  rfl

/-- An argument that names a zero in place of an endpoint is refused for that. -/
theorem readPair_zero (named : Names argument (pipe, 0)) :
    readPair argument = .error zeroMessage := by
  obtain ⟨before, after, rfl, pipeSpelt, wordSpelt⟩ := named
  rw [readPair_append pipeSpelt.equals_notMem, readWord_eq_ok_iff.mpr pipeSpelt,
    readWord_eq_ok_iff.mpr wordSpelt]
  rfl

/-- A pipe and an endpoint are read exactly from the arguments that name them. -/
theorem readPair_eq_ok_iff :
    readPair argument = .ok (pipe, endpoint) ↔ Names argument (pipe, endpoint.word) := by
  refine ⟨fun read => ?_, readPair_of_names⟩
  by_cases found : '='.toUInt8 ∈ argument
  · obtain ⟨before, after, rfl, apart⟩ := List.eq_append_cons_of_mem found
    rw [readPair_append apart] at read
    cases pipeRead : readWord before with
    | error message => simp [pipeRead, bind, Except.bind] at read
    | ok first =>
      cases wordRead : readWord after with
      | error message => simp [pipeRead, wordRead, bind, Except.bind] at read
      | ok second =>
        simp only [pipeRead, wordRead, bind, Except.bind, Endpoint.ofWord?] at read
        split at read
        · cases read
        · rename_i valid
          split at valid
          · cases valid
            cases read
            exact ⟨before, after, rfl, readWord_eq_ok_iff.mp pipeRead,
              readWord_eq_ok_iff.mp wordRead⟩
          · cases valid
  · -- Without an equals sign there is nothing to split.
    have passed : argument.dropWhile (· ≠ '='.toUInt8) = [] := by
      rw [List.dropWhile_eq_nil_iff]
      exact fun byte member => decide_eq_true fun same => found (same ▸ member)
    simp only [readPair, passed] at read
    cases read

end Pairs

section Lists

variable {arguments : List Bytes} {index : UInt64}

/-- Holdings are read exactly from the arguments that name their pairs one by one. -/
theorem readPairs_eq_ok_iff {held result : Holdings} : readPairs held arguments = .ok result ↔
    ∃ pairs, List.Forall₂ Names arguments (words pairs) ∧
      result = pairs.foldl (fun held pair => held.insert pair.1 pair.2) held := by
  induction arguments generalizing held with
  | nil =>
    constructor
    · intro read
      exact ⟨[], .nil, (Except.ok.inj read).symm⟩
    · rintro ⟨pairs, named, rfl⟩
      cases pairs with
      | nil => rfl
      | cons pair rest => cases named
  | cons argument rest ih =>
    constructor
    · intro read
      cases first : readPair argument with
      | error message => simp [readPairs, first, bind, Except.bind] at read
      | ok pair =>
        obtain ⟨pipe, endpoint⟩ := pair
        simp only [readPairs, first, bind, Except.bind] at read
        obtain ⟨pairs, named, rfl⟩ := ih.mp read
        exact ⟨(pipe, endpoint) :: pairs, .cons (readPair_eq_ok_iff.mp first) named, rfl⟩
    · rintro ⟨pairs, named, rfl⟩
      cases pairs with
      | nil => cases named
      | cons pair pairs =>
        obtain ⟨pipe, endpoint⟩ := pair
        obtain ⟨here, later⟩ := List.forall₂_cons.mp named
        simp only [readPairs, readPair_of_names here, bind, Except.bind]
        exact ih.mpr ⟨pairs, later, rfl⟩

/-- Arguments are refused for a zero among the words that they name. -/
theorem readPairs_zero {held : Holdings} {pairs : List (UInt64 × UInt64)}
    (named : List.Forall₂ Names arguments pairs) (zero : ∃ pair ∈ pairs, pair.2 = 0) :
    readPairs held arguments = .error zeroMessage := by
  -- Up to the first zero the pairs are read one by one.
  induction named generalizing held with
  | nil => simp at zero
  | @cons argument pair rest pairs here _ ih =>
    obtain ⟨pipe, word⟩ := pair
    by_cases blank : word = 0
    · subst blank
      simp only [readPairs, readPair_zero here, bind, Except.bind]
    · have first : readPair argument = .ok (pipe, ⟨word, blank⟩) := readPair_of_names here
      simp only [readPairs, first, bind, Except.bind]
      exact ih (by simpa [blank] using zero)

/-- An instance reads exactly the index and the endpoints that its arguments tell. -/
theorem read_eq_ok_iff {held : Holdings} : read arguments = .ok (index, held) ↔
    ∃ pairs, Tells arguments index (words pairs) ∧ held = Holdings.ofPairs pairs := by
  cases arguments with
  | nil =>
    constructor
    · intro read
      cases read
    · rintro ⟨_, ⟨_, _, given, _⟩, _⟩
      cases given
  | cons first rest =>
    constructor
    · intro read
      cases indexRead : readWord first with
      | error message => simp [Arguments.read, indexRead, bind, Except.bind] at read
      | ok word =>
        cases pairsRead : readPairs {} rest with
        | error message =>
          simp [Arguments.read, indexRead, pairsRead, bind, Except.bind] at read
        | ok result =>
          simp only [Arguments.read, indexRead, pairsRead, bind, Except.bind] at read
          cases read
          obtain ⟨pairs, named, rfl⟩ := readPairs_eq_ok_iff.mp pairsRead
          exact ⟨pairs, ⟨first, rest, rfl, readWord_eq_ok_iff.mp indexRead, named⟩, rfl⟩
    · rintro ⟨pairs, ⟨_, _, given, spelt, named⟩, rfl⟩
      cases given
      have pairsRead : readPairs {} rest = .ok (Holdings.ofPairs pairs) :=
        readPairs_eq_ok_iff.mpr ⟨pairs, named, rfl⟩
      simp only [Arguments.read, readWord_eq_ok_iff.mpr spelt, pairsRead, bind, Except.bind]
      rfl

/-- An instance refuses arguments for a zero among the words that they tell. -/
theorem read_zero {pairs : List (UInt64 × UInt64)} (told : Tells arguments index pairs)
    (zero : ∃ pair ∈ pairs, pair.2 = 0) : read arguments = .error zeroMessage := by
  obtain ⟨first, rest, rfl, spelt, named⟩ := told
  simp only [read, readWord_eq_ok_iff.mpr spelt, readPairs_zero named zero, bind, Except.bind]

/-- Words without a zero among them are those of endpoints. -/
theorem exists_words {pairs : List (UInt64 × UInt64)} (valid : ∀ pair ∈ pairs, pair.2 ≠ 0) :
    ∃ endpoints, pairs = words endpoints := by
  induction pairs with
  | nil => exact ⟨[], rfl⟩
  | cons pair rest ih =>
    obtain ⟨endpoints, rfl⟩ := ih fun other member => valid other (.tail _ member)
    exact ⟨(pair.1, ⟨pair.2, valid pair (.head _)⟩) :: endpoints, rfl⟩

/-- No word of an endpoint is zero. -/
theorem words_ne_zero (pairs : List (UInt64 × Endpoint)) : ∀ pair ∈ words pairs, pair.2 ≠ 0 := by
  intro pair member
  obtain ⟨⟨_, endpoint⟩, -, rfl⟩ := List.mem_map.mp member
  exact endpoint.word_ne_zero

/-- The last word for a pipe is that of the last endpoint for it. -/
theorem lastFor_words {pairs : List (UInt64 × Endpoint)} {pipe word : UInt64} :
    LastFor (words pairs) pipe word ↔ ∃ endpoint, LastFor pairs pipe endpoint ∧
      endpoint.word = word := by
  have named (pairs : List (UInt64 × Endpoint)) :
      (words pairs).map Prod.fst = pairs.map Prod.fst := by
    simp [words]
  induction pairs with
  | nil => simp [words, LastFor]
  | cons head rest ih =>
    obtain ⟨other, endpoint⟩ := head
    have split : words ((other, endpoint) :: rest) = (other, endpoint.word) :: words rest := rfl
    rw [split, lastFor_cons, named]
    refine (or_congr_left ih).trans ?_
    simp only [lastFor_cons, Prod.mk.injEq]
    constructor
    · rintro (⟨item, last, rfl⟩ | ⟨missing, rfl, rfl⟩)
      · exact ⟨item, .inl last, rfl⟩
      · exact ⟨endpoint, .inr ⟨missing, rfl, rfl⟩, rfl⟩
    · rintro ⟨item, last | ⟨missing, rfl, rfl⟩, rfl⟩
      · exact .inl ⟨item, last, rfl⟩
      · exact .inr ⟨missing, rfl, rfl⟩

/-- A pipe has the word that is the last one for it. -/
theorem find?_ofPairs_words {pairs : List (UInt64 × Endpoint)} {pipe word : UInt64} :
    ((Holdings.ofPairs pairs).find? pipe).map Endpoint.word = some word ↔
      LastFor (words pairs) pipe word := by
  simp only [Option.map_eq_some_iff, Holdings.find?_ofPairs_iff, lastFor_words]

end Lists

/-- The numeral of a word spells it. -/
theorem spells_writeWord (word : UInt64) : Spells (writeWord word) word :=
  ⟨Decimal.write word.toNat, .inl rfl, Decimal.denotes_write _⟩

/-- The argument about a pipe names its number and its endpoint. -/
theorem names_writePair (pipe : UInt64) (endpoint : Endpoint) :
    Names (writePair pipe endpoint) (pipe, endpoint.word) := by
  refine ⟨writeWord pipe, writeWord endpoint.word, ?_, spells_writeWord _, spells_writeWord _⟩
  unfold writePair writeWord Bytes.ofText
  rw [List.flatMap_append, List.flatMap_cons]
  rfl

/-- What is written for an instance tells its index and the endpoints of its pipes. -/
theorem tells_write (index : UInt64) (pairs : List (UInt64 × Endpoint)) :
    Tells (write index pairs) index (words pairs) := by
  refine ⟨_, _, rfl, spells_writeWord index, ?_⟩
  induction pairs with
  | nil => exact .nil
  | cons pair rest ih => exact .cons (names_writePair _ _) ih

/-- An instance reads the number and the pipes that its parent wrote. -/
theorem read_write (index : UInt64) (pairs : List (UInt64 × Endpoint)) :
    read (write index pairs) = .ok (index, Holdings.ofPairs pairs) :=
  read_eq_ok_iff.mpr ⟨pairs, tells_write index pairs, rfl⟩

end Arguments

end Progeny
