import Progeny.Proofs.Instance.Genealogy

/-! The number of generations above an instance is a word, and a child has the word after that of
its parent. That word is never beyond the budget, so it can wrap around only where the budget is the
greatest word of all; and there it does. -/

namespace Progeny.InstanceTable

variable {table : InstanceTable}

/-- Who has no parent is in the first generation, and a child is in the word after the generation of
its parent. No generation is beyond the budget, and none has a number above the identity. -/
structure Graded (table : InstanceTable) : Prop where
  indexed : table.Indexed
  first : ∀ {id : InstanceId} {record : InstanceRecord}, table.find? id = some record →
    record.parent = none → record.depth = 0
  below : ∀ {id parent : InstanceId} {record : InstanceRecord}, table.find? id = some record →
    record.parent = some parent →
      ∃ above, table.find? parent = some above ∧ record.depth = above.depth + 1
  shallow : ∀ {id : InstanceId} {record : InstanceRecord}, table.find? id = some record →
    record.depth ≤ table.maxDepth
  numbered : ∀ {id : InstanceId} {record : InstanceRecord}, table.find? id = some record →
    record.depth.toNat ≤ id.word.toNat

namespace Graded

/-- Without instances there is no generation. -/
theorem vacant (maxInstances : UInt64) (maxDepth : UInt32) :
    (vacant maxInstances maxDepth).Graded where
  indexed := indexed_of_empty rfl rfl
  first := by simp [InstanceTable.vacant, find?]
  below := by simp [InstanceTable.vacant, find?]
  shallow := by simp [InstanceTable.vacant, find?]
  numbered := by simp [InstanceTable.vacant, find?]

variable (graded : table.Graded)
include graded

/-- The first instance is in the first generation. -/
theorem founds (empty : table.records = []) : (table.enlist none 0).Graded := by
  have named : table.nextId + 1 ≠ 0 := by
    rw [graded.indexed.next_eq_zero empty]
    decide
  -- There is no other record than the new one.
  have only {id : InstanceId} {record : InstanceRecord}
      (found : (table.enlist none 0).find? id = some record) :
      record = ⟨id, none, 0, .running, none⟩ := by
    rw [graded.indexed.find?_enlist named] at found
    split at found
    · exact (Option.some.inj found).symm
    · simp [find?, empty] at found
  refine ⟨graded.indexed.enlist named none 0, ?_, ?_, ?_, ?_⟩
  · intro id record found _
    rw [only found]
  · intro id parent record found own
    rw [only found] at own
    cases own
  · intro id record found
    rw [only found]
    exact UInt32.zero_le
  · intro id record found
    rw [only found]
    exact Nat.zero_le _

/-- A child is in the word after the generation of its parent, wherever that is. -/
theorem creates {parent : InstanceId} {above : InstanceRecord}
    (found : table.find? parent = some above) (shallow : above.depth + 1 ≤ table.maxDepth)
    (named : table.nextId + 1 ≠ 0) : (table.enlist (some parent) (above.depth + 1)).Graded := by
  have indexed := graded.indexed
  have lookup := indexed.find?_enlist named (some parent) (above.depth + 1)
  have older {id : InstanceId} {record : InstanceRecord} (held : table.find? id = some record) :=
    indexed.find?_enlist_of_some named (some parent) (above.depth + 1) held
  have inside : parent.word.toNat < table.records.length := by
    have there := found
    rw [indexed.find?_eq] at there
    exact (List.getElem?_eq_some_iff.mp there).1
  refine ⟨indexed.enlist named _ _, ?_, ?_, ?_, ?_⟩
  · intro id record held orphan
    rw [lookup] at held
    split at held
    · obtain rfl := Option.some.inj held
      cases orphan
    · exact graded.first held orphan
  · intro id elder record held own
    rw [lookup] at held
    split at held
    · obtain rfl := Option.some.inj held
      obtain rfl := Option.some.inj own
      exact ⟨above, older found, rfl⟩
    · obtain ⟨before, there, depth⟩ := graded.below held own
      exact ⟨before, older there, depth⟩
  · intro id record held
    rw [lookup] at held
    split at held
    · obtain rfl := Option.some.inj held
      exact shallow
    · exact graded.shallow held
  · intro id record held
    rw [lookup] at held
    split at held
    · rename_i new
      obtain rfl := Option.some.inj held
      -- The parent is older, and a word that wraps around is the least of all.
      have lower := graded.numbered found
      have next := indexed.next
      rw [new]
      simp only [UInt32.toNat_add, UInt32.reduceToNat]
      omega
    · exact graded.numbered held

/-- The end of an instance changes no generation. -/
theorem retires (id : InstanceId) (code : Int8) (fault : Option String) :
    (table.retire id code fault).Graded := by
  have indexed := graded.indexed
  have lookup := indexed.find?_retire id code fault
  -- A record keeps its parent and its generation, whether it is the one that is changed or not.
  have before {other : InstanceId} {record : InstanceRecord}
      (found : (table.retire id code fault).find? other = some record) :
      ∃ held, table.find? other = some held ∧ record.parent = held.parent ∧
        record.depth = held.depth := by
    rw [lookup] at found
    obtain ⟨held, there, rfl⟩ := Option.map_eq_some_iff.mp found
    refine ⟨held, there, ?_⟩
    split <;> exact ⟨rfl, rfl⟩
  refine ⟨indexed.retire id code fault, ?_, ?_, ?_, ?_⟩
  · intro other record found orphan
    obtain ⟨held, there, parent, depth⟩ := before found
    rw [depth]
    exact graded.first there (parent.symm.trans orphan)
  · intro other elder record found own
    obtain ⟨held, there, parent, depth⟩ := before found
    obtain ⟨above, listed, deeper⟩ := graded.below there (parent.symm.trans own)
    have still := lookup elder
    rw [listed, Option.map_some] at still
    refine ⟨_, still, ?_⟩
    rw [depth, deeper]
    split <;> rfl
  · intro other record found
    obtain ⟨held, there, -, depth⟩ := before found
    rw [depth]
    exact graded.shallow there
  · intro other record found
    obtain ⟨held, there, -, depth⟩ := before found
    rw [depth]
    exact graded.numbered there

/-- Every call keeps the generations in order. -/
theorem run (call : TableCall) : (call.run table).Graded := by
  have outcome := graded.indexed.call_case call
  generalize call.run table = changed, call.allocated table = ids at outcome ⊢
  cases outcome with
  | refused => exact graded
  | founds empty => exact graded.founds empty
  | creates found _ shallow named => exact graded.creates found shallow named
  | retires code fault _ _ => exact graded.retires _ code fault

/-- Every history keeps the generations in order, and it changes no budget. -/
theorem after (calls : List TableCall) :
    (table.after calls).Graded ∧ (table.after calls).maxInstances = table.maxInstances ∧
      (table.after calls).maxDepth = table.maxDepth := by
  induction calls generalizing table with
  | nil => exact ⟨graded, rfl, rfl⟩
  | cons call rest ih =>
    have budgets := (graded.indexed.call_case call).budgets
    have later := ih (graded.run call)
    rw [budgets.1, budgets.2] at later
    exact later

/-- The word after a generation is one more, or the generation is the greatest word of all, which
takes the greatest budget and as many instances as there are words. -/
theorem deeper {id : InstanceId} {record : InstanceRecord} (found : table.find? id = some record) :
    (record.depth + 1).toNat = record.depth.toNat + 1 ∨
    record.depth + 1 = 0 ∧ record.depth.toNat = 2 ^ 32 - 1 ∧ table.maxDepth.toNat = 2 ^ 32 - 1 ∧
      2 ^ 32 ≤ table.records.length := by
  by_cases wraps : record.depth + 1 = 0
  · have last : record.depth.toNat = 2 ^ 32 - 1 := by
      have bound := record.depth.toNat_lt
      rw [← UInt32.toNat_inj] at wraps
      simp only [UInt32.toNat_add, UInt32.reduceToNat, UInt32.toNat_zero] at wraps
      omega
    have shallow := UInt32.le_iff_toNat_le.mp (graded.shallow found)
    have limit := table.maxDepth.toNat_lt
    -- The number of the generation is at most the position of the record.
    have numbered := graded.numbered found
    rw [graded.indexed.find?_eq] at found
    have inside := (List.getElem?_eq_some_iff.mp found).1
    exact .inr ⟨wraps, last, by omega, by omega⟩
  · exact .inl (InstanceRecord.toNat_deeper wraps)

end Graded

/-- The generations are in order after any history, under the budgets that were given. -/
theorem graded_after (maxInstances : UInt64) (maxDepth : UInt32) (calls : List TableCall) :
    let table := (vacant maxInstances maxDepth).after calls
    table.Graded ∧ table.maxInstances = maxInstances ∧ table.maxDepth = maxDepth :=
  (Graded.vacant maxInstances maxDepth).after calls

/-- The last word is the one before zero. -/
theorem spent_iff : table.nextId + 1 = 0 ↔ table.nextId = 18446744073709551615 := by
  have bound := table.nextId.toNat_lt
  rw [← UInt64.toNat_inj, ← UInt64.toNat_inj]
  simp only [UInt64.toNat_add, UInt64.reduceToNat, UInt64.toNat_zero]
  omega

/-- A child is refused for want of identities exactly if the next identity is the last word and
nothing else speaks against the parent. -/
theorem allocate_spent_iff {parent : InstanceId} {limit : UInt64} :
    table.allocate parent = .error (.denied (.exhausted .identities limit)) ↔
      limit = 18446744073709551615 ∧ table.nextId = 18446744073709551615 ∧
      table.runningCount < table.maxInstances.toNat ∧
      ∃ record, table.find? parent = some record ∧ record.depth + 1 ≤ table.maxDepth := by
  constructor
  · intro refused
    unfold allocate at refused
    cases found : table.find? parent with
    | none => simp [found, CallError.invalidInstance] at refused
    | some record =>
      simp only [found] at refused
      -- One reason after the other, and only the third is the want of identities.
      split at refused
      · simp at refused
      rename_i vacancy
      split at refused
      · simp at refused
      rename_i shallow
      split at refused
      · rename_i spent
        obtain rfl : table.nextId = limit := by simpa using refused
        exact ⟨spent_iff.mp spent, spent_iff.mp spent, Nat.lt_of_not_le vacancy, record, rfl,
          UInt32.not_lt.mp shallow⟩
      · split at refused <;> simp at refused
  · rintro ⟨rfl, last, vacancy, record, found, shallow⟩
    simp [allocate, found, Nat.not_le.mpr vacancy, UInt32.not_lt.mpr shallow, last]

/-- With the last word as the next identity no instance is created. -/
theorem Indexed.run_of_spent (indexed : table.Indexed) (spent : table.nextId + 1 = 0)
    (parent : InstanceId) : (TableCall.allocate parent).run table = table := by
  have outcome := indexed.allocate_case parent
  simp only [TableCall.run]
  generalize table.allocate parent = result at outcome ⊢
  cases outcome with
  | denied => rfl
  | creates _ _ _ named => exact absurd spent named

/-- A history in which every instance has exited before the next one is created. -/
def succession (parent : Nat → InstanceId) : Nat → List TableCall
  | 0 => [.allocateRoot, .markExited .root 0 none]
  | number + 1 => succession parent number ++
      [.allocate (parent number), .markExited ⟨UInt64.ofNat (number + 1)⟩ 0 none]

/-- A table with a number of instances after the first, all of which have exited. -/
structure Deserted (table : InstanceTable) (number : Nat) : Prop where
  graded : table.Graded
  nobody : table.running = []
  count : table.records.length = number + 1

namespace Deserted

variable {number : Nat} (deserted : table.Deserted number)
include deserted

/-- The next instance in a deserted table. -/
theorem next : (⟨table.nextId⟩ : InstanceId) = ⟨UInt64.ofNat (number + 1)⟩ := by
  have next := deserted.graded.indexed.next
  rw [deserted.count] at next
  rw [← next, UInt64.ofNat_toNat]

/-- As nobody runs, there is room within any limit. -/
theorem vacancy {limit : UInt64} (room : limit ≠ 0) : table.runningCount < limit.toNat := by
  rw [runningCount_eq, deserted.nobody, List.length_nil, Nat.pos_iff_ne_zero]
  exact fun none => room (UInt64.toNat_inj.mp none)

/-- One more instance is created and exits, which leaves all others as they are. -/
theorem succeeds (room : table.maxInstances ≠ 0) (few : number + 2 < 2 ^ 64) {parent : InstanceId}
    {above : InstanceRecord} (found : table.find? parent = some above)
    (shallow : above.depth + 1 ≤ table.maxDepth) :
    let id : InstanceId := ⟨UInt64.ofNat (number + 1)⟩
    let later := table.after [.allocate parent, .markExited id 0 none]
    later.Deserted (number + 1) ∧
      later.find? id = some ⟨id, some parent, above.depth + 1, .exited 0, none⟩ ∧
      ∀ {other : InstanceId} {record : InstanceRecord}, table.find? other = some record →
        later.find? other = some record := by
  intro id later
  have indexed := deserted.graded.indexed
  have next : ⟨table.nextId⟩ = id := deserted.next
  have vacancy := deserted.vacancy room
  rw [runningCount_eq] at vacancy
  have named : table.nextId + 1 ≠ 0 := by
    have count := indexed.next
    rw [deserted.count] at count
    rw [Ne, ← UInt64.toNat_inj]
    simp only [UInt64.toNat_add, UInt64.reduceToNat, UInt64.toNat_zero]
    omega
  have still := indexed.enlist named (some parent) (above.depth + 1)
  have born := indexed.find?_enlist named (some parent) (above.depth + 1) id
  rw [if_pos next.symm] at born
  have same : later = (table.enlist (some parent) (above.depth + 1)).retire id 0 none := by
    simp only [later, after, List.foldl_cons, List.foldl_nil, TableCall.run,
      indexed.allocate_ok found vacancy shallow named,
      markExited_of_running born rfl]
  rw [same]
  refine ⟨⟨(deserted.graded.creates found shallow named).retires id 0 none, ?_, ?_⟩, ?_, ?_⟩
  · rw [running_retire, running_enlist, deserted.nobody, next]
    simp
  · simp [retire, enlist, deserted.count]
  · rw [still.find?_retire, born, Option.map_some, if_pos rfl]
  · intro other record held
    have older : other ≠ id := by
      -- Nothing was recorded yet under the next identity.
      rintro rfl
      rw [← next, indexed.find?_eq, indexed.next] at held
      simp at held
    rw [still.find?_retire, indexed.find?_enlist_of_some named _ _ held, Option.map_some,
      if_neg older]

end Deserted

/-- A succession begins with the first instance, which exits at once. -/
theorem deserted_zero (parent : Nat → InstanceId) (maxInstances : UInt64) (maxDepth : UInt32) :
    let table := (vacant maxInstances maxDepth).after (succession parent 0)
    table.Deserted 0 ∧ table.find? .root = some ⟨.root, none, 0, .exited 0, none⟩ := by
  intro table
  exact ⟨⟨(graded_after maxInstances maxDepth _).1, rfl, rfl⟩, rfl⟩

/-- One history after another. -/
theorem after_append (table : InstanceTable) (calls more : List TableCall) :
    table.after (calls ++ more) = (table.after calls).after more :=
  List.foldl_append

/-- The succession in which each instance is the only child of the one before. -/
def dynasty : Nat → List TableCall :=
  succession fun number => ⟨UInt64.ofNat number⟩

/-- With the greatest budget a dynasty goes on past the greatest word. -/
theorem dynasty_deserted {maxInstances : UInt64} (room : maxInstances ≠ 0) (number : Nat)
    (few : number + 1 < 2 ^ 64) :
    let table := (vacant maxInstances 4294967295).after (dynasty number)
    table.Deserted number ∧ ∃ record, table.find? ⟨UInt64.ofNat number⟩ = some record ∧
      record.depth = UInt32.ofNat number ∧
      record.parent = if number = 0 then none else some ⟨UInt64.ofNat (number - 1)⟩ := by
  induction number with
  | zero =>
    obtain ⟨deserted, found⟩ := deserted_zero (fun number => ⟨UInt64.ofNat number⟩) maxInstances
      4294967295
    exact ⟨deserted, _, found, rfl, rfl⟩
  | succ number ih =>
    obtain ⟨deserted, record, found, depth, -⟩ := ih (by omega)
    obtain ⟨-, sameCrowd, sameDepth⟩ := graded_after maxInstances 4294967295 (dynasty number)
    -- No word is beyond the greatest one, whether it has wrapped around or not.
    have shallow : record.depth + 1 ≤
        ((vacant maxInstances 4294967295).after (dynasty number)).maxDepth := by
      have bound := (record.depth + 1).toNat_lt
      rw [sameDepth, UInt32.le_iff_toNat_le]
      simp only [UInt32.reduceToNat]
      omega
    obtain ⟨later, born, -⟩ :=
      deserted.succeeds (by rw [sameCrowd]; exact room) (by omega) found shallow
    simp only [dynasty, succession, after_append]
    refine ⟨later, _, born, ?_, rfl⟩
    rw [depth, UInt32.ofNat_add]
    rfl

/-- With the greatest budget, and any room for an instance, a dynasty ends with a parent below which
the addition wraps around. -/
theorem wraps_reached {maxInstances : UInt64} (room : maxInstances ≠ 0) :
    ∃ calls parent record,
      ((vacant maxInstances 4294967295).after calls).find? parent = some record ∧
      ((vacant maxInstances 4294967295).after calls).runningCount < maxInstances.toNat ∧
      record.depth + 1 = 0 := by
  obtain ⟨number, last⟩ : ∃ number, number = 2 ^ 32 - 1 := ⟨_, rfl⟩
  obtain ⟨deserted, record, found, depth, -⟩ := dynasty_deserted room number (by omega)
  exact ⟨dynasty number, _, record, found, deserted.vacancy room, by rw [depth, last]; decide⟩

/-- A limit that allows for any child at all allows for the second generation. -/
theorem second_le {limit : UInt32} (deep : limit ≠ 0) : 0 + 1 ≤ limit := by
  rw [UInt32.le_iff_toNat_le]
  exact Nat.pos_iff_ne_zero.mpr fun none => deep (UInt32.toNat_inj.mp none)

/-- As long as there are identities, the first instance can have one child after the other. -/
theorem siblings_deserted {maxInstances : UInt64} {maxDepth : UInt32} (room : maxInstances ≠ 0)
    (deep : maxDepth ≠ 0) (number : Nat) (few : number + 1 < 2 ^ 64) :
    let table := (vacant maxInstances maxDepth).after (succession (fun _ => .root) number)
    table.Deserted number ∧ table.find? .root = some ⟨.root, none, 0, .exited 0, none⟩ := by
  induction number with
  | zero => exact deserted_zero _ maxInstances maxDepth
  | succ number ih =>
    obtain ⟨deserted, found⟩ := ih (by omega)
    obtain ⟨-, sameCrowd, sameDepth⟩ :=
      graded_after maxInstances maxDepth (succession (fun _ => .root) number)
    have shallow : (0 : UInt32) + 1 ≤
        ((vacant maxInstances maxDepth).after (succession (fun _ => .root) number)).maxDepth := by
      rw [sameDepth]
      exact second_le deep
    obtain ⟨later, -, others⟩ :=
      deserted.succeeds (by rw [sameCrowd]; exact room) (by omega) found shallow
    simp only [succession, after_append]
    exact ⟨later, others found⟩

/-- With any room for a child, the first instance can have children until nothing else but the
identities is used up. -/
theorem spent_reached {maxInstances : UInt64} {maxDepth : UInt32} (room : maxInstances ≠ 0)
    (deep : maxDepth ≠ 0) : ∃ calls,
      ((vacant maxInstances maxDepth).after calls).nextId = 18446744073709551615 ∧
      ((vacant maxInstances maxDepth).after calls).runningCount < maxInstances.toNat ∧
      ∃ record, ((vacant maxInstances maxDepth).after calls).find? .root = some record ∧
        record.depth + 1 ≤ maxDepth := by
  obtain ⟨number, last⟩ : ∃ number, number = 2 ^ 64 - 2 := ⟨_, rfl⟩
  obtain ⟨deserted, found⟩ := siblings_deserted room deep number (by omega)
  have next := congrArg InstanceId.word deserted.next
  refine ⟨_, ?_, deserted.vacancy room, _, found, second_le deep⟩
  simp only at next
  rw [next, last]
  decide

/-- Whatever the budgets are and whatever has happened, no generation is beyond the budget, an
instance without a parent is in the first one, and a child is one generation below its parent,
unless the addition wraps around and the child is counted in the first generation again. That takes
a parent in the generation of the greatest word, and with it the greatest budget and as many
instances as there are words. Once the next identity is the last word, nothing changes any more when
a child is asked for, and a parent is refused for want of identities exactly if nothing else speaks
against it. Under the greatest budget, if instances may run at all, some history comes to an
addition that wraps around, and under every other budget none does; and the identities can be used
up under every budget that allows for a child at all. -/
theorem depths_exact (maxInstances : UInt64) (maxDepth : UInt32) (calls : List TableCall) :
    let start := vacant maxInstances maxDepth
    let table := start.after calls
    (∀ id record, table.find? id = some record →
      record.depth ≤ maxDepth ∧ (record.parent = none → record.depth = 0) ∧
      ∀ parent, record.parent = some parent → ∃ above, table.find? parent = some above ∧
        (record.depth.toNat = above.depth.toNat + 1 ∨ above.depth + 1 = 0 ∧ record.depth = 0)) ∧
    (∀ id record, table.find? id = some record → record.depth + 1 = 0 →
      record.depth.toNat = 2 ^ 32 - 1 ∧ maxDepth.toNat = 2 ^ 32 - 1 ∧
        2 ^ 32 ≤ table.records.length) ∧
    (table.nextId + 1 = 0 → ∀ parent, (TableCall.allocate parent).run table = table) ∧
    (∀ parent limit, table.allocate parent = .error (.denied (.exhausted .identities limit)) ↔
      limit = 18446744073709551615 ∧ table.nextId = 18446744073709551615 ∧
      table.runningCount < maxInstances.toNat ∧
      ∃ record, table.find? parent = some record ∧ record.depth + 1 ≤ maxDepth) ∧
    ((∃ history parent record, (start.after history).find? parent = some record ∧
        (start.after history).runningCount < maxInstances.toNat ∧ record.depth + 1 = 0) ↔
      maxInstances ≠ 0 ∧ maxDepth.toNat = 2 ^ 32 - 1) ∧
    (maxInstances ≠ 0 → maxDepth ≠ 0 → ∃ history, (start.after history).allocate .root =
      .error (.denied (.exhausted .identities 18446744073709551615))) := by
  intro start table
  have kept := graded_after maxInstances maxDepth
  have wraps {history : List TableCall} {id : InstanceId} {record : InstanceRecord}
      (found : (start.after history).find? id = some record) (wrapped : record.depth + 1 = 0) :
      record.depth.toNat = 2 ^ 32 - 1 ∧ maxDepth.toNat = 2 ^ 32 - 1 ∧
        2 ^ 32 ≤ (start.after history).records.length := by
    obtain ⟨graded, -, sameDepth⟩ := kept history
    rcases graded.deeper found with one | ⟨-, last, limit, many⟩
    · simp [wrapped] at one
    · exact ⟨last, sameDepth ▸ limit, many⟩
  have spent (history : List TableCall) (parent : InstanceId) (limit : UInt64) :
      (start.after history).allocate parent = .error (.denied (.exhausted .identities limit)) ↔
        limit = 18446744073709551615 ∧ (start.after history).nextId = 18446744073709551615 ∧
        (start.after history).runningCount < maxInstances.toNat ∧
        ∃ record, (start.after history).find? parent = some record ∧
          record.depth + 1 ≤ maxDepth := by
    obtain ⟨-, sameCrowd, sameDepth⟩ := kept history
    rw [allocate_spent_iff, sameCrowd, sameDepth]
  obtain ⟨graded, -, sameDepth⟩ := kept calls
  refine ⟨fun id record found => ?_, fun id record found => wraps found,
    fun last parent => graded.indexed.run_of_spent last parent, spent calls, ⟨?_, ?_⟩,
    fun room deep => ?_⟩
  · refine ⟨sameDepth ▸ graded.shallow found, graded.first found, fun parent own => ?_⟩
    obtain ⟨above, held, depth⟩ := graded.below found own
    refine ⟨above, held, ?_⟩
    rcases graded.deeper held with one | ⟨wrapped, -⟩
    · exact .inl (by rw [depth, one])
    · exact .inr ⟨wrapped, by rw [depth, wrapped]⟩
  · rintro ⟨history, parent, record, found, vacancy, wrapped⟩
    refine ⟨?_, (wraps found wrapped).2.1⟩
    rintro rfl
    exact Nat.not_lt_zero _ vacancy
  · rintro ⟨room, limit⟩
    obtain rfl : maxDepth = 4294967295 := UInt32.toNat_inj.mp limit
    exact wraps_reached room
  · obtain ⟨history, last, vacancy, record, found, shallow⟩ := spent_reached room deep
    exact ⟨history, (spent history .root _).mpr ⟨rfl, last, vacancy, record, found, shallow⟩⟩

/-- Three generations under a budget of two: the third is one below the second, no history of calls
comes to an addition that wraps around, and some history uses up the identities. -/
theorem depths_exact_of_three :
    let calls : List TableCall := [.allocateRoot, .allocate .root, .markExited ⟨1⟩ 7 none,
      .allocate ⟨1⟩]
    let table := (vacant 2 2).after calls
    (∃ above child, table.find? ⟨1⟩ = some above ∧ table.find? ⟨2⟩ = some child ∧
      child.depth.toNat = above.depth.toNat + 1) ∧
    (¬∃ more parent record, ((vacant 2 2).after more).find? parent = some record ∧
      ((vacant 2 2).after more).runningCount < (2 : UInt64).toNat ∧ record.depth + 1 = 0) ∧
    ∃ more, ((vacant 2 2).after more).allocate .root =
      .error (.denied (.exhausted .identities 18446744073709551615)) := by
  intro calls table
  obtain ⟨generations, -, -, -, wraps, spent⟩ := depths_exact 2 2 calls
  refine ⟨?_, fun wrapped => absurd (wraps.mp wrapped).2 (by decide), spent (by decide) (by decide)⟩
  have born : table.find? ⟨2⟩ = some ⟨⟨2⟩, some ⟨1⟩, 2, .running, none⟩ := by decide
  obtain ⟨above, found, one | ⟨wrapped, -⟩⟩ := (generations ⟨2⟩ _ born).2.2 ⟨1⟩ rfl
  · exact ⟨above, _, found, born, one⟩
  · -- The second generation is not that of the greatest word.
    have second : table.find? ⟨1⟩ = some ⟨⟨1⟩, some .root, 1, .exited 7, none⟩ := by decide
    obtain rfl := Option.some.inj (second.symm.trans found)
    exact absurd wrapped (by decide)

/-- The heir of the greatest generation is in the first one. -/
theorem dynasty_wraps {number : Nat} (last : number = 4294967296) :
    let table := (vacant 1 4294967295).after (dynasty number)
    ∃ above child, table.find? ⟨4294967295⟩ = some above ∧ table.find? ⟨4294967296⟩ = some child ∧
      child.parent = some ⟨4294967295⟩ ∧ above.depth = 4294967295 ∧ child.depth = 0 := by
  intro table
  have room : (1 : UInt64) ≠ 0 := by decide
  obtain ⟨deserted, child, born, depth, own⟩ := dynasty_deserted room number (by omega)
  rw [if_neg (by omega)] at own
  obtain ⟨above, found, deeper⟩ := deserted.graded.below born own
  have parent : (⟨UInt64.ofNat (number - 1)⟩ : InstanceId) = ⟨4294967295⟩ := by rw [last]; rfl
  have heir : (⟨UInt64.ofNat number⟩ : InstanceId) = ⟨4294967296⟩ := by rw [last]; rfl
  have first : child.depth = 0 := by rw [depth, last]; decide
  rw [parent] at found own
  rw [heir] at born
  refine ⟨above, child, found, born, own, ?_, first⟩
  rcases deserted.graded.deeper found with one | ⟨-, greatest, -⟩
  · -- One more than a number is not zero.
    rw [← deeper, first] at one
    simp at one
  · exact UInt32.toNat_inj.mp greatest

/-- A child of the deepest generation under the greatest budget is in the first generation again. -/
theorem depth_wraps :
    let table := (vacant 1 4294967295).after (dynasty 4294967296)
    ∃ above child, table.find? ⟨4294967295⟩ = some above ∧ table.find? ⟨4294967296⟩ = some child ∧
      child.parent = some ⟨4294967295⟩ ∧ above.depth = 4294967295 ∧ child.depth = 0 :=
  dynasty_wraps rfl

end Progeny.InstanceTable
