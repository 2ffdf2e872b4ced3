import Progeny.Proofs.Workload.Draws
import Progeny.Proofs.Workload.Driving
import Progeny.Proofs.Workload.Opening
import Progeny.Proofs.Workload.Unjammed

/-! Every generated workload comes to a good end under any budgets that allow for it: all of its
instances exit with zero, and no end of a pipe stays open. -/

namespace Progeny

open Workload Session

/-- A number of instances were created, all of them have exited with zero, and every end of every
pipe is closed. -/
structure Tables.Completed {π : Type} (tables : Tables π) (count : Nat) : Prop where
  created : tables.instances.records.length = count
  exited : ∀ record ∈ tables.instances.records, record.state = .exited 0 ∧ record.fault = none
  closed : ∀ pipe ∈ tables.pipes.pipes, ∀ side, (pipe.on side).isOpen = false
  uncounted : tables.pipes.openEndpoints = 0

namespace Cast

variable {tree : SpawnTree} {sent : List Transmission} {cast : Cast} {σ : Type}
  {session : Session Workload (Except String Actor) σ}

/-- Where the root is over, all nodes are. -/
theorem Coherent.all_done (coherent : cast.Coherent tree sent) (grown : tree.IsGrown)
    (ended : 0 ∈ cast.done) {node : Nat} (inside : node < tree.size) : node ∈ cast.done := by
  induction node using SpawnTree.induction_on_parent grown with
  | top node none =>
    have zero : node = 0 := by
      by_contra positive
      obtain ⟨parent, under⟩ := SpawnTree.exists_parent? (Nat.pos_of_ne_zero positive) inside
      simp [none] at under
    exact zero ▸ ended
  | child node parent under ih =>
    -- A node is over only after all of its children.
    have less := grown node parent under
    exact (coherent.ended parent (ih (Nat.lt_trans less inside))).2.1 node under

/-- Where all nodes are over, the tables are completed. -/
theorem Fits.completed (suits : tree.Suits sent) {tables : Tables Workload}
    (fits : cast.Fits tree sent tables) (ended : 0 ∈ cast.done) :
    tables.Completed tree.size := by
  have done {node : Nat} (inside : node < tree.size) :=
    fits.coherent.all_done suits.grown ended inside
  have closed : ∀ pipe ∈ tables.pipes.pipes, ∀ side, (pipe.on side).isOpen = false := by
    intro pipe there side
    obtain ⟨position, found⟩ := List.mem_iff_getElem?.mp there
    have inside := (List.getElem?_eq_some_iff.mp found).1
    rw [fits.pipes.length] at inside
    have served := List.getElem?_eq_getElem inside
    generalize cast.edges[position] = number at served
    obtain ⟨transmission, sends, -⟩ := fits.coherent.created (List.mem_of_getElem? served)
    -- Who uses the end is over, and so the end is closed.
    have gone := done (suits.inside _ (List.mem_of_getElem? sends) side)
    have none := (fits.coherent.ended _ gone).2.2 (number, side)
      (mem_legsOf.mpr ⟨transmission, sends, rfl⟩)
    rw [(fits.pipes.pipe served sends found).isOpen, none]
    rfl
  refine ⟨?_, fun record there => ?_, closed, fits.sound.counted.eq_zero closed⟩
  · have atMost := length_le_of_lt fits.coherent.once fits.coherent.inside
    have present : List.range tree.size ⊆ cast.nodes := fun node member =>
      (fits.coherent.ended node (done (List.mem_range.mp member))).1
    have atLeast := (List.subperm_of_subset List.nodup_range present).length_le
    rw [List.length_range] at atLeast
    rw [fits.records.length]
    omega
  · obtain ⟨position, found⟩ := List.mem_iff_getElem?.mp there
    have inside := (List.getElem?_eq_some_iff.mp found).1
    rw [fits.records.length] at inside
    have placed := List.getElem?_eq_getElem inside
    have below := fits.coherent.inside _ (List.mem_of_getElem? placed)
    exact (fits.records.record placed found).exited (done below)

/-- A run without a limit ends with the exit of the first instance, with zero, and the tables are
completed then. -/
theorem Stages.runs (suits : tree.Suits sent) (stages : cast.Stages tree sent session)
    (reached : Reached (behaviour σ) session) (ongoing : session.finished = none)
    (booted : session.root = some .root) {run : Run Workload (Except String Actor) σ}
    (runs : Runs (behaviour σ) .root none session run) :
    ∃ steps final, run = (.ok (.exited 0 steps), final) ∧ final.tables.Completed tree.size := by
  generalize unlimited : (none : Option Nat) = left at runs
  induction runs generalizing cast with
  | further next goes ih =>
    subst unlimited
    obtain ⟨after, stages⟩ := stages.further suits next
    have frame := next.frame
    refine ih stages (.further reached ongoing booted next) (frame.1.trans ongoing)
      (frame.2.trans booted) ?_
    cases next <;> rfl
  | @ends _ session _ last =>
    subst unlimited
    cases last with
    | inconsistent found => simp [stages.fits.sound.consistent] at found
    | pauses _ spent => simp at spent
    | stalls underway _ idle =>
      exact absurd idle (stages.nextReady suits reached ongoing booted underway)
    | @exits code _ exited =>
      rw [stages.exitCode_root] at exited
      split at exited
      · rename_i ended
        obtain rfl := Option.some.inj exited
        have completed := stages.fits.completed suits ended
        -- All instances have exited, and so there is nothing to tear down.
        have running : session.tables.instances.running = [] := by
          refine List.eq_nil_iff_forall_not_mem.mpr fun id member => ?_
          obtain ⟨record, found, state⟩ := stages.fits.sound.indexed.mem_running.mp member
          have there := List.mem_of_find?_eq_some found
          simp [(completed.exited record there).1] at state
        have population := reached.orderly.population ongoing
        rw [running] at population
        refine ⟨_, _, rfl, ?_⟩
        unfold Session.finish
        rw [population]
        exact ⟨completed.created, completed.exited, completed.closed, completed.uncounted⟩
      · simp at exited

end Cast

namespace Workload

/-- No generation of a generated workload goes beyond its spawns, and there are no more pipes than
writes were asked for. -/
theorem bounds_of_generate {fuel : Nat} {seed : UInt64} {spawns writes attempts : UInt32}
    {workload : Workload}
    (generated : generate fuel seed spawns writes attempts = some workload) :
    workload.pipes.length ≤ writes.toNat ∧
      ∀ index depth, workload.Generation index depth → depth ≤ spawns.toNat := by
  -- No tree is deeper than it has nodes, and each node but the first is a spawn.
  obtain ⟨tree, sent, rfl, suits, size, few⟩ := suits_of_generate generated
  refine ⟨length_pipes tree sent ▸ few, fun index depth generation => ?_⟩
  obtain ⟨node, inside, -, rfl⟩ := (generation_iff suits).mp generation
  have shallow := SpawnTree.depth_le suits.grown node
  omega

/-- Every generated workload completes. Whatever its seed and its size, under budgets that have room
for its instances, its ends and its generations, and however small its pipes are, it is played to
the end in runs of any length: the first instance exits with zero, and in the end all instances have
exited with zero and without a fault, and no end of a pipe is open. -/
theorem generated_completes {fuel : Nat} {seed : UInt64} {spawns writes attempts : UInt32}
    {workload : Workload} {config : Config}
    (generated : generate fuel seed spawns writes attempts = some workload)
    (capacity : 1 ≤ config.pipeCapacity.toNat)
    (instances : spawns.toNat + 1 ≤ config.maxInstances.toNat)
    (endpoints : 2 * workload.pipes.length ≤ config.maxEndpoints.toNat)
    (generations : ∀ index depth, workload.Generation index depth →
      depth ≤ config.maxDepth.toNat)
    (stepsPerRun : Option Nat) :
    ∃ report session, report.exitCode = 0 ∧ session.tables.Completed (spawns.toNat + 1) ∧
      ∃ least, ∀ enough, least ≤ enough →
        workload.play enough config stepsPerRun none = some (.ok (report, session)) ∧
          workload.run enough config stepsPerRun none = some (.ok report) := by
  obtain ⟨tree, sent, rfl, suits, size, -⟩ := suits_of_generate generated
  have valid : config.validate = .ok () := by
    have roomy : config.maxInstances ≠ 0 := by
      intro zero
      simp [zero] at instances
    have wide : config.pipeCapacity ≠ 0 := by
      intro zero
      simp [zero] at capacity
    simp [Config.validate, roomy, wide]
  have ample : Ample tree sent ((ofTransmissions tree sent).opened config).tables :=
    ⟨rfl, capacity, length_pipes tree sent ▸ endpoints, size ▸ instances, fun node inside =>
      generations _ _ ((generation_iff suits).mpr ⟨node, inside, rfl, rfl⟩)⟩
  have reached := reached_opened (ofTransmissions tree sent) valid
  have stages : (Cast.first sent).Stages tree sent ((ofTransmissions tree sent).opened config) :=
    ⟨Cast.fits_first suits valid ample, rfl, fun _ started => absurd started List.not_mem_nil⟩
  -- The run ends, for there is less and less to do; and it ends well.
  obtain ⟨run, runs⟩ := exists_runs reached (measured_opened _ config) rfl rfl none
  obtain ⟨steps, final, rfl, completed⟩ := stages.runs suits reached rfl rfl runs
  obtain ⟨least, count, done⟩ := playOn_of_runs rfl rfl runs stepsPerRun 0
  refine ⟨⟨0, steps, count, final.capture.fingerprint⟩, final, rfl, size ▸ completed, least,
    fun enough more => ?_⟩
  have played : (ofTransmissions tree sent).play enough config stepsPerRun none =
      some (.ok (⟨0, steps, count, final.capture.fingerprint⟩, final)) := by
    simp [play, openSession_eq _ valid, done enough more, Except.map]
  exact ⟨played, by simp [run, played, Except.map]⟩

/-- A workload of three instances, one above the other, that send each other bytes through pipes of
a single byte, played three steps at a time. -/
theorem generated_completes_of_chain : ∃ workload, generate 9 262 2 2 3 = some workload ∧
    ∃ report session, report.exitCode = 0 ∧ session.tables.Completed 3 ∧
      ∃ least, ∀ enough, least ≤ enough →
        workload.play enough { pipeCapacity := 1 } (some 3) none = some (.ok (report, session)) ∧
          workload.run enough { pipeCapacity := 1 } (some 3) none = some (.ok report) := by
  -- The workload exists by evaluation, and its bounds are those of its budgets.
  obtain ⟨workload, generated⟩ : ∃ workload, generate 9 262 2 2 3 = some workload :=
    Option.isSome_iff_exists.mp (by decide +kernel)
  obtain ⟨pipes, generations⟩ := bounds_of_generate generated
  refine ⟨workload, generated, generated_completes generated (by decide) (by decide) ?_ ?_ _⟩
  · exact Nat.le_trans (Nat.mul_le_mul_left 2 pipes) (by decide)
  · exact fun index depth generation =>
      Nat.le_trans (generations index depth generation) (by decide)

end Workload

end Progeny
