import Mathlib.Algebra.Ring.Nat
import Mathlib.Data.List.Basic
import Progeny.Proofs.Instance.Records

/-! Instances form a tree: after any history of calls each was created by an older one, a
generation below it, and only the first by none. -/

namespace Progeny

/-- A call that may change the table of instances. -/
inductive TableCall where
  | allocateRoot
  | allocate (parent : InstanceId)
  | markExited (id : InstanceId) (code : Int8) (fault : Option String)
  deriving DecidableEq

namespace TableCall

/-- The table after a call, which is the same if the call failed. -/
def run (table : InstanceTable) : TableCall → InstanceTable
  | .allocateRoot =>
    match table.allocateRoot with
    | .ok (_, after) => after
    | .error _ => table
  | .allocate parent =>
    match table.allocate parent with
    | .ok (_, after) => after
    | .error _ => table
  | .markExited id code fault =>
    match table.markExited id code fault with
    | .ok after => after
    | .error _ => table

/-- The identity that a call gives to a new instance, if it creates one. -/
def allocated (table : InstanceTable) : TableCall → List InstanceId
  | .allocateRoot =>
    match table.allocateRoot with
    | .ok (id, _) => [id]
    | .error _ => []
  | .allocate parent =>
    match table.allocate parent with
    | .ok (id, _) => [id]
    | .error _ => []
  | .markExited _ _ _ => []

end TableCall

namespace InstanceTable

/-- A table in which no instance was created yet. -/
def vacant (maxInstances : UInt64) (maxDepth : UInt32) : InstanceTable :=
  { maxInstances := maxInstances, maxDepth := maxDepth }

/-- The table after a history of calls. -/
def after (table : InstanceTable) (calls : List TableCall) : InstanceTable :=
  calls.foldl TableCall.run table

/-- All identities that a history has given out, in order. -/
def allocatedBy (table : InstanceTable) : List TableCall → List InstanceId
  | [] => []
  | call :: rest => call.allocated table ++ (call.run table).allocatedBy rest

/-- Who stands a number of generations above an instance. -/
def ancestor? (table : InstanceTable) : Nat → InstanceId → Option InstanceId
  | 0, id => some id
  | generations + 1, id =>
    ((table.find? id).bind InstanceRecord.parent).bind (table.ancestor? generations)

/-- What a call can come to: the table after it and the identities that it gave out. -/
inductive CallCase (table : InstanceTable) :
    TableCall → InstanceTable → List InstanceId → Prop where
  | refused (call : TableCall) : CallCase table call table []
  | founds (empty : table.records = []) :
    CallCase table .allocateRoot (table.enlist none 0) [⟨table.nextId⟩]
  | creates {parent : InstanceId} {record : InstanceRecord}
      (found : table.find? parent = some record)
      (vacancy : table.running.length < table.maxInstances.toNat)
      (shallow : record.depth + 1 ≤ table.maxDepth) (named : table.nextId + 1 ≠ 0) :
    CallCase table (.allocate parent) (table.enlist (some parent) (record.depth + 1))
      [⟨table.nextId⟩]
  | retires {id : InstanceId} {record : InstanceRecord} (code : Int8) (fault : Option String)
      (found : table.find? id = some record) (state : record.state = .running) :
    CallCase table (.markExited id code fault) (table.retire id code fault) []

variable {table : InstanceTable}

/-- Every call is refused, creates an instance or retires one. -/
theorem Indexed.call_case (indexed : table.Indexed) (call : TableCall) :
    table.CallCase call (call.run table) (call.allocated table) := by
  cases call with
  | allocateRoot =>
    simp only [TableCall.run, TableCall.allocated]
    by_cases empty : table.records = []
    · rw [indexed.allocateRoot_ok empty]
      -- The first record has the identity that comes next.
      have founded := CallCase.founds empty
      rw [indexed.next_eq_zero empty] at founded
      exact founded
    · simp only [allocateRoot, if_neg empty]
      exact .refused _
  | allocate parent =>
    have outcome := indexed.allocate_case parent
    simp only [TableCall.run, TableCall.allocated]
    generalize table.allocate parent = result at outcome ⊢
    cases outcome with
    | denied => exact .refused _
    | creates found vacancy shallow named => exact .creates found vacancy shallow named
  | markExited id code fault =>
    simp only [TableCall.run, TableCall.allocated]
    cases found : table.find? id with
    | none =>
      simp only [markExited, found]
      exact .refused _
    | some record =>
      cases state : record.state with
      | running =>
        rw [markExited_of_running found state]
        exact .retires code fault found state
      | exited earlier =>
        simp only [markExited, found, state, Lifecycle.isExited, if_true]
        exact .refused _

/-- Calls change no budget. -/
theorem CallCase.budgets {call : TableCall} {after : InstanceTable} {ids : List InstanceId}
    (outcome : table.CallCase call after ids) :
    after.maxInstances = table.maxInstances ∧ after.maxDepth = table.maxDepth := by
  cases outcome <;> exact ⟨rfl, rfl⟩

/-- The identities that a call gives out are those of the records that it adds. -/
theorem CallCase.ids {call : TableCall} {after : InstanceTable} {ids : List InstanceId}
    (outcome : table.CallCase call after ids) :
    after.records.map InstanceRecord.id = table.records.map InstanceRecord.id ++ ids := by
  cases outcome with
  | refused => rw [List.append_nil]
  | founds => rw [enlist, List.map_append]; rfl
  | creates => rw [enlist, List.map_append]; rfl
  | retires code fault _ _ =>
    -- To retire an instance leaves the identity of every record.
    rw [retire, List.map_map, List.append_nil]
    refine List.map_congr_left fun held _ => ?_
    simp only [Function.comp_apply]
    split <;> rfl

/-- No call changes the record of an instance that has exited. -/
theorem CallCase.exited {call : TableCall} {after : InstanceTable} {ids : List InstanceId}
    (outcome : table.CallCase call after ids) (indexed : table.Indexed) {id : InstanceId}
    {record : InstanceRecord} (found : table.find? id = some record)
    (exited : record.state.isExited = true) : after.find? id = some record := by
  cases outcome with
  | refused => exact found
  | founds empty => simp [find?, empty] at found
  | creates _ _ _ named => exact indexed.find?_enlist_of_some named _ _ found
  | @retires other running code fault held state =>
    rw [indexed.find?_retire, found, Option.map_some, if_neg]
    -- The instance that retires was running.
    rintro rfl
    obtain rfl := Option.some.inj (found.symm.trans held)
    simp [state, Lifecycle.isExited] at exited

/-- Only the first instance has no parent; every other has an older one, which stands a generation
above it. No generation and no crowd is beyond the budgets, to which the first instance is not
subject. -/
structure Lineal (table : InstanceTable) : Prop where
  indexed : table.Indexed
  first : ∀ {record : InstanceRecord}, table.records[0]? = some record →
    record.parent = none ∧ record.depth = 0
  born : ∀ {position : Nat} {record : InstanceRecord},
    table.records[position + 1]? = some record → ∃ parent above, record.parent = some parent ∧
      table.find? parent = some above ∧ parent.word.toNat ≤ position ∧
      record.depth.toNat = above.depth.toNat + 1 ∧ record.depth ≤ table.maxDepth
  uncrowded : table.running.length ≤ max 1 table.maxInstances.toNat

namespace Lineal

/-- Without instances there is no descent. -/
theorem vacant (maxInstances : UInt64) (maxDepth : UInt32) :
    (vacant maxInstances maxDepth).Lineal where
  indexed := indexed_of_empty rfl rfl
  first := by simp [InstanceTable.vacant]
  born := by simp [InstanceTable.vacant]
  uncrowded := Nat.zero_le _

variable (lineal : table.Lineal)
include lineal

/-- The first instance begins a line. -/
theorem founds (empty : table.records = []) : (table.enlist none 0).Lineal := by
  have named : table.nextId + 1 ≠ 0 := by
    rw [lineal.indexed.next_eq_zero empty]
    decide
  refine ⟨lineal.indexed.enlist named none 0, ?_, ?_, ?_⟩
  · intro record found
    simp only [enlist, empty, List.nil_append, List.getElem?_cons_zero,
      Option.some.injEq] at found
    subst found
    exact ⟨rfl, rfl⟩
  · intro position record found
    simp [enlist, empty] at found
  · have alone : table.running = [] := by simp [running, empty]
    rw [running_enlist, alone]
    exact Nat.le_max_left 1 _

/-- An instance is the first of all, or an older one is its parent. -/
theorem descent {id : InstanceId} {record : InstanceRecord} (found : table.find? id = some record) :
    (id = .root ∧ record.parent = none ∧ record.depth = 0) ∨
    id ≠ .root ∧ ∃ parent above, record.parent = some parent ∧ table.find? parent = some above ∧
      parent.word < id.word ∧ record.depth.toNat = above.depth.toNat + 1 ∧
      record.depth ≤ table.maxDepth := by
  rw [lineal.indexed.find?_eq] at found
  cases number : id.word.toNat with
  | zero =>
    rw [number] at found
    exact .inl ⟨InstanceId.eq_of_toNat number, lineal.first found⟩
  | succ position =>
    rw [number] at found
    obtain ⟨parent, above, own, held, order, rest⟩ := lineal.born found
    refine .inr ⟨?_, parent, above, own, held, ?_, rest⟩
    · rintro rfl
      simp [InstanceId.root] at number
    · rw [UInt64.lt_iff_toNat_lt]
      omega

/-- No generation is beyond the budget. -/
theorem depth_le {id : InstanceId} {record : InstanceRecord}
    (found : table.find? id = some record) : record.depth ≤ table.maxDepth := by
  rcases lineal.descent found with ⟨-, -, first⟩ | ⟨-, _, _, -, -, -, -, shallow⟩
  · rw [first]
    exact UInt32.zero_le
  · exact shallow

/-- The budget keeps the generations from wrapping around. -/
theorem deepens (bounded : table.maxDepth.toNat < 2 ^ 32 - 1) {id : InstanceId}
    {record : InstanceRecord} (found : table.find? id = some record) : record.depth + 1 ≠ 0 := by
  have below := UInt32.le_iff_toNat_le.mp (lineal.depth_le found)
  rw [Ne, ← UInt32.toNat_inj]
  simp only [UInt32.toNat_add, UInt32.reduceToNat, UInt32.toNat_zero]
  omega

/-- A child continues the line of its parent. -/
theorem creates (bounded : table.maxDepth.toNat < 2 ^ 32 - 1) {parent : InstanceId}
    {above : InstanceRecord} (found : table.find? parent = some above)
    (vacancy : table.running.length < table.maxInstances.toNat)
    (shallow : above.depth + 1 ≤ table.maxDepth) (named : table.nextId + 1 ≠ 0) :
    (table.enlist (some parent) (above.depth + 1)).Lineal := by
  have indexed := lineal.indexed
  have older {id : InstanceId} {record : InstanceRecord} (held : table.find? id = some record) :=
    indexed.find?_enlist_of_some named (some parent) (above.depth + 1) held
  have inside : parent.word.toNat < table.records.length := by
    rw [indexed.find?_eq] at found
    exact (List.getElem?_eq_some_iff.mp found).1
  refine ⟨indexed.enlist named _ _, ?_, ?_, ?_⟩
  · intro record first
    simp only [enlist] at first
    rw [List.getElem?_append_left (by omega)] at first
    exact lineal.first first
  · intro position record there
    simp only [enlist] at there
    by_cases before : position + 1 < table.records.length
    · rw [List.getElem?_append_left before] at there
      obtain ⟨elder, held, own, still, rest⟩ := lineal.born there
      exact ⟨elder, held, own, older still, rest⟩
    · -- The only record beyond the older ones is that of the child.
      have last : position + 1 = table.records.length := by
        have := (List.getElem?_eq_some_iff.mp there).1
        simp only [List.length_append, List.length_singleton] at this
        omega
      rw [last, List.getElem?_concat_length] at there
      obtain rfl := Option.some.inj there
      have depth := InstanceRecord.toNat_deeper (lineal.deepens bounded found)
      exact ⟨parent, above, rfl, older found, by omega, depth, shallow⟩
  · rw [running_enlist, List.length_append, List.length_singleton]
    have room : table.maxInstances.toNat ≤ max 1 table.maxInstances.toNat := Nat.le_max_right ..
    show table.running.length + 1 ≤ max 1 table.maxInstances.toNat
    omega

/-- The end of an instance changes no line. -/
theorem retires (id : InstanceId) (code : Int8) (fault : Option String) :
    (table.retire id code fault).Lineal := by
  have indexed := lineal.indexed
  -- A record keeps its parent and its depth, whether it is the one that is changed or not.
  have before {position : Nat} {record : InstanceRecord}
      (there : (table.retire id code fault).records[position]? = some record) :
      ∃ held, table.records[position]? = some held ∧ record.parent = held.parent ∧
        record.depth = held.depth := by
    simp only [retire, List.getElem?_map, Option.map_eq_some_iff] at there
    obtain ⟨held, earlier, rfl⟩ := there
    refine ⟨held, earlier, ?_⟩
    split <;> exact ⟨rfl, rfl⟩
  refine ⟨indexed.retire id code fault, ?_, ?_, ?_⟩
  · intro record there
    obtain ⟨held, earlier, parent, depth⟩ := before there
    rw [parent, depth]
    exact lineal.first earlier
  · intro position record there
    obtain ⟨held, earlier, parent, depth⟩ := before there
    obtain ⟨elder, above, own, found, order, depths, shallow⟩ := lineal.born earlier
    have still := indexed.find?_retire id code fault elder
    rw [found, Option.map_some] at still
    rw [parent, depth]
    refine ⟨elder, _, own, still, order, ?_, shallow⟩
    rw [depths]
    split <;> rfl
  · rw [running_retire]
    exact Nat.le_trans (List.length_filter_le _ _) lineal.uncrowded

/-- Every call keeps the lines. -/
theorem run (bounded : table.maxDepth.toNat < 2 ^ 32 - 1) (call : TableCall) :
    (call.run table).Lineal := by
  have outcome := lineal.indexed.call_case call
  generalize call.run table = changed, call.allocated table = ids at outcome ⊢
  cases outcome with
  | refused => exact lineal
  | founds empty => exact lineal.founds empty
  | creates found vacancy shallow named => exact lineal.creates bounded found vacancy shallow named
  | retires code fault _ _ => exact lineal.retires _ code fault

/-- Every history keeps the lines, and it changes no budget. -/
theorem after (bounded : table.maxDepth.toNat < 2 ^ 32 - 1) (calls : List TableCall) :
    (table.after calls).Lineal ∧ (table.after calls).maxInstances = table.maxInstances ∧
      (table.after calls).maxDepth = table.maxDepth := by
  induction calls generalizing table with
  | nil => exact ⟨lineal, rfl, rfl⟩
  | cons call rest ih =>
    have budgets := (lineal.indexed.call_case call).budgets
    have later := ih (lineal.run bounded call) (by rw [budgets.2]; exact bounded)
    rw [budgets.1, budgets.2] at later
    exact later

/-- Following parents upwards leads to the first instance in as many steps as the depth tells, and
in no other number of steps. -/
theorem ancestor?_eq_root {id : InstanceId} {record : InstanceRecord}
    (found : table.find? id = some record) (generations : Nat) :
    table.ancestor? generations id = some .root ↔ generations = record.depth.toNat := by
  -- The parent is older, so the induction is on the number of the instance.
  induction number : id.word.toNat using Nat.strongRecOn generalizing id record generations with
  | ind number ih =>
    rcases lineal.descent found with ⟨own, parent, depth⟩ | ⟨other, parent, above, own, held, older,
      depth, -⟩
    · -- The first instance has nobody above.
      rw [depth]
      cases generations with
      | zero => simp [ancestor?, own]
      | succ generations => simp [ancestor?, found, parent]
    · rw [depth]
      cases generations with
      | zero => simp [ancestor?, other]
      | succ generations =>
        rw [UInt64.lt_iff_toNat_lt, number] at older
        have upwards := ih parent.word.toNat older held generations rfl
        simp only [ancestor?, found, own, Option.bind_some, upwards]
        omega

/-- Over a history the records are those of the identities that it gave out. -/
theorem ids_after (bounded : table.maxDepth.toNat < 2 ^ 32 - 1) (calls : List TableCall) :
    (table.after calls).records.map InstanceRecord.id =
      table.records.map InstanceRecord.id ++ table.allocatedBy calls := by
  induction calls generalizing table with
  | nil => rw [allocatedBy, List.append_nil]; rfl
  | cons call rest ih =>
    have outcome := lineal.indexed.call_case call
    have later := ih (lineal.run bounded call) (by rw [outcome.budgets.2]; exact bounded)
    rw [outcome.ids, List.append_assoc] at later
    exact later

/-- Whoever has exited keeps the record of that over any history. -/
theorem exited_after (bounded : table.maxDepth.toNat < 2 ^ 32 - 1) {id : InstanceId}
    {record : InstanceRecord} (found : table.find? id = some record)
    (exited : record.state.isExited = true) (calls : List TableCall) :
    (table.after calls).find? id = some record := by
  induction calls generalizing table with
  | nil => exact found
  | cons call rest ih =>
    have outcome := lineal.indexed.call_case call
    exact ih (lineal.run bounded call) (by rw [outcome.budgets.2]; exact bounded)
      (outcome.exited lineal.indexed found exited)

/-- The first instance is no child, and every other is the child of one. -/
theorem child_iff {child : InstanceId} {record : InstanceRecord}
    (found : table.find? child = some record) :
    ((∃ parent, child ∈ table.childrenOf parent) ↔ child ≠ .root) ∧
      (child ≠ .root → ∃! parent, child ∈ table.childrenOf parent) := by
  -- Whoever lists the child is the parent that its record names.
  have listed (parent : InstanceId) :
      child ∈ table.childrenOf parent ↔ record.parent = some parent := by
    rw [lineal.indexed.mem_childrenOf, found]
    simp
  simp only [listed]
  rcases lineal.descent found with ⟨first, parent, -⟩ | ⟨other, parent, above, own, -⟩
  · simp [first, parent]
  · simp [other, own]

/-- As long as identities last, a child is created exactly if its parent is recorded and above the
deepest generation, and the budget allows for another running instance. -/
theorem allocate_iff (bounded : table.maxDepth.toNat < 2 ^ 32 - 1)
    (few : table.records.length < 2 ^ 64 - 1) (parent : InstanceId) :
    (∃ id after, table.allocate parent = .ok (id, after)) ↔
      (∃ record, table.find? parent = some record ∧ record.depth < table.maxDepth) ∧
        table.runningCount < table.maxInstances.toNat := by
  have indexed := lineal.indexed
  -- Neither the generations nor the identities wrap around.
  have deeper {record : InstanceRecord} (found : table.find? parent = some record) :=
    InstanceRecord.deeper_le_iff (lineal.deepens bounded found) table.maxDepth
  have named : table.nextId + 1 ≠ 0 := by
    have next := indexed.next
    rw [Ne, ← UInt64.toNat_inj]
    simp only [UInt64.toNat_add, UInt64.reduceToNat, UInt64.toNat_zero]
    omega
  rw [runningCount_eq]
  constructor
  · intro created
    have outcome := indexed.allocate_case parent
    obtain ⟨id, after, same⟩ := created
    rw [same] at outcome
    cases outcome with
    | creates found vacancy shallow _ => exact ⟨⟨_, found, (deeper found).mp shallow⟩, vacancy⟩
  · intro room
    obtain ⟨⟨record, found, above⟩, vacancy⟩ := room
    exact ⟨_, _, indexed.allocate_ok found vacancy ((deeper found).mpr above) named⟩

end Lineal

/-- Instances form a tree after any history of calls that gives out fewer than `2 ^ 64 - 1`
identities, with a budget of generations below `2 ^ 32 - 1`. Their identities are the numbers from
zero on in the order of creation, and a call that fails uses none. The first instance alone has no
parent. Every other has an older one, a generation above it, so that the first is reached from each
in as many steps as its depth tells, and the children of all instances together are all but the
first. No more instances run than the budget allows, or one if it allows for none. The record of an
instance that has exited is final. No identity comes up twice, and a child is created exactly if its
parent is recorded and above the deepest generation, and there is room for another running
instance. -/
theorem instances_form_tree (maxInstances : UInt64) (maxDepth : UInt32) (calls : List TableCall)
    (bounded : maxDepth.toNat < 2 ^ 32 - 1)
    (few : ((vacant maxInstances maxDepth).allocatedBy calls).length < 2 ^ 64 - 1) :
    let start := vacant maxInstances maxDepth
    let table := start.after calls
    (table.records.map InstanceRecord.id = start.allocatedBy calls ∧
      table.records.map (fun record => record.id.word.toNat) = List.range table.records.length ∧
      table.nextId.toNat = table.records.length) ∧
    (∀ record ∈ table.records, record.parent = none ↔ record.id = .root) ∧
    (∀ record ∈ table.records, record.id ≠ .root → ∃ parent above, record.parent = some parent ∧
      table.find? parent = some above ∧ parent.word < record.id.word ∧
      record.depth.toNat = above.depth.toNat + 1 ∧ record.depth ≤ maxDepth) ∧
    (∀ record ∈ table.records, ∀ generations,
      table.ancestor? generations record.id = some .root ↔ generations = record.depth.toNat) ∧
    ((∀ parent, (table.childrenOf parent).Pairwise fun one other => one.word < other.word) ∧
      (∀ parent, ∀ child ∈ table.childrenOf parent,
        child ≠ .root ∧ child.word.toNat < table.records.length) ∧
      ∀ child, child ≠ .root → child.word.toNat < table.records.length →
        ∃! parent, child ∈ table.childrenOf parent) ∧
    table.runningCount ≤ max 1 maxInstances.toNat ∧
    (∀ id record more, table.find? id = some record → record.state.isExited = true →
      (table.after more).find? id = some record) ∧
    (∀ parent id, table.allocate parent ≠ .error (.fatal (.identityCollision id))) ∧
    ∀ parent, (∃ id after, table.allocate parent = .ok (id, after)) ↔
      (∃ record, table.find? parent = some record ∧ record.depth < maxDepth) ∧
        table.runningCount < maxInstances.toNat := by
  intro start table
  have begun : start.Lineal := .vacant maxInstances maxDepth
  obtain ⟨lineal, sameCrowd, sameDepth⟩ : table.Lineal ∧ table.maxInstances = maxInstances ∧
      table.maxDepth = maxDepth := begun.after bounded calls
  have indexed := lineal.indexed
  have ids : table.records.map InstanceRecord.id = start.allocatedBy calls :=
    begun.ids_after bounded calls
  have still : table.maxDepth.toNat < 2 ^ 32 - 1 := by
    rw [sameDepth]
    exact bounded
  have few' : table.records.length < 2 ^ 64 - 1 := by
    rw [← List.length_map InstanceRecord.id, ids]
    exact few
  refine ⟨⟨ids, indexed.numbers, indexed.next⟩, fun record member => ?_,
    fun record member later => ?_,
    fun record member => lineal.ancestor?_eq_root (indexed.find?_of_mem member),
    ⟨indexed.childrenOf_sorted, fun parent child listed => ?_, fun child later inside => ?_⟩, ?_,
    fun id record more found exited => lineal.exited_after still found exited more,
    fun parent id => ?_, fun parent => ?_⟩
  · rcases lineal.descent (indexed.find?_of_mem member) with ⟨first, parent, -⟩ |
      ⟨other, parent, above, own, -⟩
    · simp [first, parent]
    · simp [other, own]
  · rcases lineal.descent (indexed.find?_of_mem member) with ⟨first, -⟩ | ⟨-, descent⟩
    · exact absurd first later
    · rw [sameDepth] at descent
      exact descent
  · obtain ⟨record, found, -⟩ := indexed.mem_childrenOf.mp listed
    refine ⟨(lineal.child_iff found).1.mp ⟨parent, listed⟩, ?_⟩
    rw [indexed.find?_eq] at found
    exact (List.getElem?_eq_some_iff.mp found).1
  · have found : table.find? child = some table.records[child.word.toNat] := by
      rw [indexed.find?_eq, List.getElem?_eq_getElem inside]
    exact (lineal.child_iff found).2 later
  · rw [runningCount_eq, ← sameCrowd]
    exact lineal.uncrowded
  · -- A table whose records are numbered never comes to that.
    intro collides
    have outcome := indexed.allocate_case parent
    rw [collides] at outcome
    cases outcome
  · rw [← sameCrowd, ← sameDepth]
    exact lineal.allocate_iff still few' parent

/-- An instance that has exited still becomes a parent, in the place that its own exit left: its
child is two generations below the first, and its own record does not change any more. -/
theorem instances_form_tree_after_exit :
    let calls : List TableCall := [.allocateRoot, .allocateRoot, .allocate .root, .allocate .root,
      .markExited ⟨1⟩ 7 none, .markExited ⟨1⟩ 0 none, .allocate ⟨1⟩, .allocate ⟨9⟩]
    let table := (vacant 2 2).after calls
    (2 : UInt32).toNat < 2 ^ 32 - 1 ∧ ((vacant 2 2).allocatedBy calls).length < 2 ^ 64 - 1 ∧
      table.records.map InstanceRecord.id = [.root, ⟨1⟩, ⟨2⟩] ∧
      table.ancestor? 2 ⟨2⟩ = some .root ∧
      (∀ more, (table.after more).find? ⟨1⟩ = some ⟨⟨1⟩, some .root, 1, .exited 7, none⟩) ∧
      ¬∃ id after, table.allocate ⟨2⟩ = .ok (id, after) := by
  intro calls table
  have bounded : (2 : UInt32).toNat < 2 ^ 32 - 1 := by decide
  have few : ((vacant 2 2).allocatedBy calls).length < 2 ^ 64 - 1 := by decide
  obtain ⟨⟨ids, -⟩, -, -, distance, -, -, final, -, room⟩ :=
    instances_form_tree 2 2 calls bounded few
  refine ⟨bounded, few, ids, ?_, fun more => ?_, ?_⟩
  · have child : (⟨⟨2⟩, some ⟨1⟩, 2, .running, none⟩ : InstanceRecord) ∈ table.records := by decide
    exact (distance _ child 2).mpr rfl
  · exact final ⟨1⟩ _ more (by decide) rfl
  · -- The child runs beside the first instance, and no third may.
    intro created
    have crowded := ((room ⟨2⟩).mp created).2
    exact absurd crowded (by decide)

end InstanceTable

end Progeny
