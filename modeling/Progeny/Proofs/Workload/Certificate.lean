import Progeny.Proofs.Workload.Chronicle
import Progeny.Proofs.Workload.Testimony

/-! An exit with zero is a certificate: then everybody has exited with zero and has read all that
was written for it. For an exit code tells about the reads of an instance and about the exit codes
of its children, and these tell about theirs. -/

namespace Progeny

namespace Dialogue

/-- Whoever was joined has exited with the code that was told. -/
theorem exitCode_of_joined {table : InstanceTable} {dialogue : Dialogue}
    (answered : ∀ exchange ∈ dialogue, exchange.1.Answered table exchange.2) :
    ∀ child ∈ dialogue.joined, table.exitCode child.1 = some child.2 := by
  intro child there
  obtain ⟨⟨request, reply⟩, said, told⟩ := List.mem_filterMap.mp there
  have truly := answered _ said
  cases truly with
  | join exited =>
    obtain rfl := Option.some.inj told
    exact exited
  | refused => cases request <;> simp at told
  | pipe | spawn | close | read | readExact | readToEnd | write | writeAll => simp at told

end Dialogue

/-- An instance exits with zero exactly if it has read what was written and all its children have
exited with zero. -/
theorem Actor.verdict_eq_zero {faithful : Bool} {codes : List Int8} :
    verdict faithful codes = 0 ↔ faithful = true ∧ ∀ code ∈ codes, code = 0 := by
  unfold verdict
  cases faithful with
  | false => simp [mismatchCode]
  | true =>
    cases found : codes.find? (· ≠ 0) with
    | none => simpa using found
    | some code =>
      have differs : code ≠ 0 := by simpa using List.find?_some found
      have there := List.mem_of_find?_eq_some found
      simp only [if_true, Option.getD_some, true_and]
      exact ⟨fun zero => absurd zero differs, fun all => all code there⟩

namespace Workload

open Session Actor

/-- How an instance has come to its exit code. It has made a read for every write that is for it.
The code is that of a mismatch if it has read anything else than was written; and else the first
code other than zero among those of its children, in the order in which it has spawned them, if
there is any. -/
structure Accounts (workload : Workload) (table : InstanceTable) (memoir : Memoir) (code : Int8) :
    Prop where
  whole : ∃ index held codes, Arguments.read memoir.invocation.argv = .ok (index, held) ∧
    memoir.dialogue.received.length = (workload.inbox index).length ∧
    memoir.dialogue.spawned.map table.exitCode = codes.map some ∧
    code = verdict (memoir.dialogue.received = workload.inbox index) codes

/-- The records of a session with diaries tell of everybody how it has ended. -/
structure Accounted (workload : Workload) (chronicle : Chronicle) : Prop where
  /-- Whoever has exited has left a memoir. -/
  complete : ∀ record ∈ chronicle.tables.instances.records, record.state ≠ .running →
    ∃ memoir ∈ chronicle.memoirs, memoir.invocation.id = record.id
  /-- A memoir tells the same end as the record, and the same children. -/
  recorded : ∀ memoir ∈ chronicle.memoirs, ∃ record ∈ chronicle.tables.instances.records,
    record.id = memoir.invocation.id ∧ record.state = .exited (Tables.ending memoir.result).1 ∧
      record.fault = (Tables.ending memoir.result).2
  spawned : ∀ memoir ∈ chronicle.memoirs,
    memoir.dialogue.spawned = chronicle.tables.instances.childrenOf memoir.invocation.id
  /-- Whoever has ended without a fault accounts for its exit code. -/
  accounts : ∀ memoir ∈ chronicle.memoirs, ∀ code, memoir.result = .ok code →
    workload.Accounts chronicle.tables.instances memoir code

/-- Everybody has exited with zero, nothing is open, and everybody has read what was written for
it. -/
structure Certified (workload : Workload) (chronicle : Chronicle) : Prop where
  exits : ∀ record ∈ chronicle.tables.instances.records,
    record.state = .exited 0 ∧ record.fault = none
  openEndpoints : chronicle.tables.pipes.openEndpoints = 0
  closed : ∀ pipe ∈ chronicle.tables.pipes.pipes, ∀ side, (pipe.on side).isOpen = false
  reads : ∀ record ∈ chronicle.tables.instances.records, ∃ memoir ∈ chronicle.memoirs,
    memoir.invocation.id = record.id
  faithful : ∀ memoir ∈ chronicle.memoirs, ∃ index held,
    Arguments.read memoir.invocation.argv = .ok (index, held) ∧
      memoir.dialogue.received = workload.inbox index

variable {workload : Workload} {result : Except SessionError Report} {chronicle : Chronicle}

/-- Where all diaries are true, everybody accounts for its end. -/
theorem Told.accounted (told : workload.Told result chronicle) : workload.Accounted chronicle := by
  have chronicled := told.chronicled
  have indexed := told.sound.indexed
  refine ⟨fun record member ended => ?_, fun memoir there => ?_,
    fun memoir there => (chronicled.memoirs memoir there).vouched.spawned,
    fun memoir there code ended => ?_⟩
  · cases state : record.state with
    | running => exact absurd state ended
    | exited code =>
      refine @chronicled.complete record.id code ?_
      simp [InstanceTable.exitCode, indexed.find?_of_mem member, state, Lifecycle.exitCode]
  · obtain ⟨record, found, state, fault⟩ := chronicled.ends memoir there
    exact ⟨record, List.mem_of_find?_eq_some found, indexed.id_of_find? found, state, fault⟩
  · -- The codes that were told at the joins are those of all children, in order.
    obtain ⟨kept, vouched⟩ := chronicled.memoirs memoir there
    rw [chronicled.load] at kept
    obtain ⟨⟨index, held, named, many, code⟩, joins⟩ :=
      testifies_of_kept (fun _ _ => eq_of_resolve) kept vouched.answered ended
    refine ⟨index, held, memoir.dialogue.joined.map Prod.snd, named, many, ?_, code⟩
    rw [joins, List.map_map, List.map_map]
    exact List.map_congr_left (Dialogue.exitCode_of_joined vouched.answered)

/-- Whoever accounts for an exit with zero has read what was written, and all its children have
exited with zero. -/
theorem Accounts.zero {table : InstanceTable} {memoir : Memoir}
    (accounts : workload.Accounts table memoir 0) :
    (∃ index held, Arguments.read memoir.invocation.argv = .ok (index, held) ∧
      memoir.dialogue.received = workload.inbox index) ∧
    ∀ child ∈ memoir.dialogue.spawned, table.exitCode child = some 0 := by
  obtain ⟨index, held, codes, named, -, joined, code⟩ := accounts.whole
  obtain ⟨faithful, zero⟩ := verdict_eq_zero.mp code.symm
  refine ⟨⟨index, held, named, by simpa using faithful⟩, fun child there => ?_⟩
  have listed : table.exitCode child ∈ codes.map some := joined ▸ List.mem_map_of_mem there
  obtain ⟨each, member, same⟩ := List.mem_map.mp listed
  rw [← same, zero each member]

/-- Where the first instance has exited with zero, so has everybody. -/
theorem Told.certified (told : workload.Told result chronicle) {report : Report}
    (exits : result = .ok report) (zero : report.exitCode = 0) : workload.Certified chronicle := by
  have accounted := told.accounted
  have indexed := told.sound.indexed
  -- A fault is recorded with another code than zero.
  have clean {memoir : Memoir} (there : memoir ∈ chronicle.memoirs)
      (exited : chronicle.tables.instances.exitCode memoir.invocation.id = some 0) :
      memoir.result = .ok 0 := by
    have code := Option.some.inj ((told.chronicled.exited there).symm.trans exited)
    cases ended : memoir.result with
    | error message =>
      have differs : Tables.faultCode ≠ 0 := by decide
      rw [ended] at code
      exact absurd code differs
    | ok result =>
      rw [ended] at code
      exact congrArg Except.ok code
  have root : chronicle.tables.instances.exitCode .root = some 0 := by
    rw [told.exits report exits, zero]
  -- From the first instance the zero goes down to all children.
  have passes (id : InstanceId) (exited : chronicle.tables.instances.exitCode id = some 0) :
      ∀ child ∈ chronicle.tables.instances.childrenOf id,
        chronicle.tables.instances.exitCode child = some 0 := by
    obtain ⟨memoir, there, rfl⟩ := told.chronicled.complete exited
    rw [← accounted.spawned memoir there]
    exact (accounted.accounts memoir there 0 (clean there exited)).zero.2
  have everybody := told.chronicled.peopled.lineage.inherited indexed root passes
  have left (memoir : Memoir) (there : memoir ∈ chronicle.memoirs) : memoir.result = .ok 0 := by
    obtain ⟨record, member, own, -⟩ := accounted.recorded memoir there
    exact clean there (own ▸ everybody record member)
  refine ⟨fun record member => ?_, (told.closed report exits).1, (told.closed report exits).2,
    fun record member => told.chronicled.complete (everybody record member),
    fun memoir there => (accounted.accounts memoir there 0 (left memoir there)).zero.1⟩
  obtain ⟨memoir, there, own⟩ := told.chronicled.complete (everybody record member)
  obtain ⟨same, found, state, fault⟩ := told.chronicled.ends memoir there
  rw [own, indexed.find?_of_mem member] at found
  obtain rfl := Option.some.inj found
  rw [left memoir there] at state fault
  exact ⟨state, fault⟩

/-- An exit with zero is a certificate. Running a workload, whatever it is and however it is
driven, comes to the same with diaries as without. However it ends, the diaries tell how everybody
has come to its exit code; and if it comes to an exit with zero, then everybody who was ever created
has exited with zero and without a fault, nothing is open, and everybody has read exactly what was
written for it, write by write. -/
theorem zero_exit_certifies (fuel : Nat) (workload : Workload) (config : Config)
    (stepsPerRun maxSteps : Option Nat) :
    workload.play fuel config stepsPerRun maxSteps =
      (workload.chronicle fuel config stepsPerRun maxSteps).map played ∧
    ∀ result chronicle, workload.chronicle fuel config stepsPerRun maxSteps =
        some (.ok (result, chronicle)) →
      workload.Accounted chronicle ∧
        ∀ report, result = .ok report → report.exitCode = 0 → workload.Certified chronicle := by
  refine ⟨play_eq_chronicle fuel workload config stepsPerRun maxSteps, ?_⟩
  intro result chronicle recorded
  have told := told_of_chronicle recorded
  exact ⟨told.accounted, fun report exits zero => told.certified exits zero⟩

/-- A workload whose first instance sends a letter to its child. -/
def letter : Workload where
  spawns := [⟨0, 1, [1]⟩]
  pipes := [⟨0, 1, 2⟩]
  writes := [⟨0, 2, 1, 1, [7]⟩]

/-- A workload whose first instance sends another letter to its child than the child is to get. -/
def mistaken : Workload where
  spawns := [⟨0, 1, [1]⟩]
  pipes := [⟨0, 1, 2⟩]
  writes := [⟨0, 2, 2, 1, [7]⟩, ⟨2, 2, 1, 1, [8]⟩]

/-- The letter arrives, as the exit with zero certifies; and where it is not the right one, the exit
code of the child comes up to the first instance. -/
theorem zero_exit_certifies_of_letter :
    (∃ report chronicle, letter.chronicle 9 {} (some 1) none = some (.ok (.ok report, chronicle)) ∧
      report.exitCode = 0 ∧ chronicle.memoirs.length = 2 ∧ letter.Certified chronicle) ∧
    ∃ report chronicle, mistaken.chronicle 9 {} none none = some (.ok (.ok report, chronicle)) ∧
      report.exitCode = 1 ∧ chronicle.memoirs.length = 2 ∧ mistaken.Accounted chronicle := by
  -- Both runs are evaluated, and the theorem tells about what they leave.
  have outcome (played : Option (Except SessionError (Except SessionError Report × Chronicle)))
      (code : Int8) (many : Nat) (evaluated : played.map (·.map (Prod.map
        (·.map Report.exitCode) (·.memoirs.length))) = some (.ok (.ok code, many))) :
      ∃ report chronicle, played = some (.ok (.ok report, chronicle)) ∧
        report.exitCode = code ∧ chronicle.memoirs.length = many := by
    obtain ⟨result, rfl, rest⟩ := Option.map_eq_some_iff.mp evaluated
    rcases result with error | ⟨error | report, chronicle⟩
    · simp [Except.map] at rest
    · simp [Except.map] at rest
    · obtain ⟨same, counted⟩ := Prod.mk.inj (Except.ok.inj rest)
      exact ⟨report, chronicle, rfl, Except.ok.inj same, counted⟩
  obtain ⟨report, chronicle, done, zero, both⟩ :=
    outcome (letter.chronicle 9 {} (some 1) none) 0 2 (by decide +kernel)
  obtain ⟨reportToo, chronicleToo, doneToo, mismatch, bothToo⟩ :=
    outcome (mistaken.chronicle 9 {} none none) 1 2 (by decide +kernel)
  obtain ⟨-, certifies⟩ := zero_exit_certifies 9 letter {} (some 1) none
  obtain ⟨-, accounts⟩ := zero_exit_certifies 9 mistaken {} none none
  exact ⟨⟨report, chronicle, done, zero, both, (certifies _ _ done).2 report rfl zero⟩,
    reportToo, chronicleToo, doneToo, mismatch, bothToo, (accounts _ _ doneToo).1⟩

end Workload

end Progeny
