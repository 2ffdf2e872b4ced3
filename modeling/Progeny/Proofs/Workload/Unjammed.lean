import Progeny.Proofs.Session.Deadlock
import Progeny.Proofs.Workload.Stages

/-! No deadlock: instances that move bytes cannot all be stuck, since all of them follow the order
of the transmissions, and then those that join their children cannot all be stuck either. -/

namespace Progeny.Cast

open Workload

variable {tree : SpawnTree} {sent : List Transmission} {cast : Cast} {node number : Nat}
  {side : Side} {tables : Tables Workload} {id : InstanceId} {actor : Actor}

/-- Whoever moves the bytes of a leg cannot go on: a reader finds the queue empty and a writer finds
it full, while the end across is open. -/
structure Hangs (cast : Cast) (tables : Tables Workload) (leg : Leg) (position : Nat)
    (pipe : Pipe) : Prop where
  served : cast.edges[position]? = some leg.1
  found : tables.pipes.pipes[position]? = some pipe
  expected : (pipe.on leg.2.peer).isOpen = true
  queue : match leg.2 with
    | .first => (pipe.on .first).inbound = []
    | .second => tables.pipes.capacity.toNat ≤ (pipe.on .first).inbound.length

/-- Not both ends of a transmission hang: a queue that is full is not empty. -/
theorem Hangs.not_both (fits : cast.Fits tree sent tables) {one other : Nat} {pipe held : Pipe}
    (reader : Hangs cast tables (number, .first) one pipe)
    (writer : Hangs cast tables (number, .second) other held) : False := by
  -- One pipe serves the transmission.
  obtain ⟨inside, same⟩ := List.getElem?_eq_some_iff.mp reader.served
  obtain ⟨insideToo, sameToo⟩ := List.getElem?_eq_some_iff.mp writer.served
  obtain rfl := fits.coherent.wired.getElem_inj_iff.mp (same.trans sameToo.symm)
  obtain rfl := Option.some.inj (reader.found.symm.trans writer.found)
  have empty : (pipe.on .first).inbound = [] := reader.queue
  have full : tables.pipes.capacity.toNat ≤ (pipe.on .first).inbound.length := writer.queue
  have room := fits.ample.capacity
  rw [empty, List.length_nil] at full
  omega

/-- Who is stuck in a call joins a child that has not exited, or has a leg on which it hangs. -/
theorem Engaged.stuck (fits : cast.Fits tree sent tables) {call : Pending} {wait : Wait}
    (engaged : cast.Engaged tree sent id node actor call) (stuck : tables.Stuck id call wait) :
    actor.pipes = [] ∧ actor.spawns = [] ∧
      ((∃ child record, cast.Plays tree sent id node (.join child) actor ∧ actor.transfers = [] ∧
          tables.instances.find? child = some record ∧ record.state = .running) ∨
        ∃ leg endpoint rest pipe, cast.Plays tree sent id node (.move leg endpoint rest) actor ∧
          Hangs cast tables leg endpoint.index pipe) := by
  -- The call of the stage is the one that is stuck, so the two agree on what it waits for.
  cases engaged with
  | joins errand free created spawned moved plays =>
    refine ⟨created, spawned, .inl ?_⟩
    cases stuck with
    | joins other found running => exact ⟨_, _, plays, moved, found, running⟩
    | reads reading => simp [Pending.reads] at reading
    | writes writing => simp [Pending.writes] at writing
  | sends errand created spawned plays =>
    refine ⟨created, spawned, .inr ?_⟩
    obtain ⟨-, served, same⟩ := plays.moves _ _ _ rfl
    cases stuck with
    | reads reading => simp [Pending.reads] at reading
    | writes writing held expected full =>
      obtain ⟨holds, rfl⟩ := fits.sound.numbered.held_iff.mp held
      simp only [Pending.writes, Option.ite_none_left_eq_some, Option.some.injEq] at writing
      obtain ⟨-, rfl⟩ := writing
      dsimp only at same
      rw [same] at expected full
      exact ⟨_, _, _, _, plays, served, holds.found, expected, full⟩
  | receives errand created spawned plays =>
    refine ⟨created, spawned, .inr ?_⟩
    obtain ⟨-, served, same⟩ := plays.moves _ _ _ rfl
    cases stuck with
    | reads reading held empty expected =>
      obtain ⟨holds, rfl⟩ := fits.sound.numbered.held_iff.mp held
      simp only [Pending.reads, Option.ite_none_left_eq_some, Option.some.injEq] at reading
      obtain ⟨-, rfl⟩ := reading
      dsimp only at same
      rw [same] at expected empty
      exact ⟨_, _, _, _, plays, served, holds.found, expected, empty⟩
    | writes writing => simp [Pending.writes] at writing

/-- Every node that is played and not over is stuck in a call. -/
structure Jammed (tree : SpawnTree) (sent : List Transmission) (cast : Cast)
    (tables : Tables Workload) : Prop where
  fits : cast.Fits tree sent tables
  rooted : 0 ∈ cast.nodes
  stuck : ∀ node ∈ cast.nodes, node ∉ cast.done → ∃ id actor call wait,
    cast.Engaged tree sent id node actor call ∧ tables.Stuck id call wait

namespace Jammed

variable (suits : tree.Suits sent) (jammed : cast.Jammed tree sent tables)
include suits jammed

/-- Where all are stuck, all have come: nobody waits before its children are spawned. -/
theorem present {node : Nat} (inside : node < tree.size) : node ∈ cast.nodes := by
  -- A parent that is stuck has spawned all its children, and one that is done has seen them exit.
  induction node using SpawnTree.induction_on_parent suits.grown with
  | top node none =>
    have zero : node = 0 := by
      by_contra positive
      obtain ⟨parent, under⟩ := SpawnTree.exists_parent? (Nat.pos_of_ne_zero positive) inside
      simp [none] at under
    exact zero ▸ jammed.rooted
  | child node parent under ih =>
    have less := suits.grown node parent under
    have there := ih (Nat.lt_trans less inside)
    by_cases ended : parent ∈ cast.done
    · have gone := (jammed.fits.coherent.ended parent ended).2.1 node under
      exact (jammed.fits.coherent.ended node gone).1
    · obtain ⟨id, actor, call, wait, engaged, stuck⟩ := jammed.stuck parent there ended
      obtain ⟨-, spawned, -⟩ := engaged.stuck jammed.fits stuck
      obtain ⟨pursuit, plays⟩ := engaged.plays
      by_contra absent
      have member := (plays.spawns _).mpr ⟨node, under, rfl, absent⟩
      simp [spawned] at member

/-- Nobody hangs on a leg: the one across would have to hang on the same transmission, which is
impossible, or on an earlier one. -/
theorem not_hangs (number : Nat) (side : Side) {position : Nat} {pipe : Pipe} :
    ¬Hangs cast tables (number, side) position pipe := by
  -- Induction on the number: whoever hangs has somebody across that hangs on a lesser one.
  induction number using Nat.strongRecOn generalizing side position pipe with
  | _ number earlier =>
    intro hangs
    obtain ⟨transmission, found, -⟩ :=
      jammed.fits.coherent.created (List.mem_of_getElem? hangs.served)
    have fit := jammed.fits.pipes.pipe hangs.served found hangs.found
    have opened : cast.left (number, side.peer) ≠ none := by
      rw [← Option.isSome_iff_ne_none, ← fit.isOpen]
      exact hangs.expected
    have own : (number, side.peer) ∈ legsOf sent (transmission.target side.peer) :=
      mem_legsOf.mpr ⟨transmission, found, rfl⟩
    have there := present suits jammed (suits.inside _ (List.mem_of_getElem? found) side.peer)
    have alive : transmission.target side.peer ∉ cast.done := fun ended =>
      opened ((jammed.fits.coherent.ended _ ended).2.2 _ own)
    obtain ⟨id, actor, call, wait, engaged, stuck⟩ := jammed.stuck _ there alive
    obtain ⟨-, -, ⟨child, _, plays, moved, -⟩ | ⟨⟨other, across⟩, _, _, _, plays, too⟩⟩ :=
      engaged.stuck jammed.fits stuck
    · -- It joins a child, but then its end is closed.
      obtain ⟨past, future, legs, transfers, closed, -⟩ := plays.transfers
      rw [moved] at transfers
      obtain rfl := List.map_eq_nil_iff.mp transfers.symm
      rw [legs] at own
      exact opened (closed _ (by simpa [Pursuit.legs] using own))
    · obtain ⟨past, future, legs, -, closed, -⟩ := plays.transfers
      have sorted := legsOf_sorted suits (transmission.target side.peer)
      rw [legs] at own sorted
      simp only [Pursuit.legs, List.mem_append, List.mem_singleton] at own
      rcases own with before | same | after
      · exact opened (closed _ before)
      · -- It hangs on the same transmission from the other side.
        obtain ⟨rfl, rfl⟩ := Prod.mk.inj same
        cases side with
        | first => exact hangs.not_both jammed.fits too
        | second => exact too.not_both jammed.fits hangs
      · have less : other < number := by
          have ordered := (List.pairwise_append.mp sorted).2.1
          exact (List.pairwise_append.mp ordered).2.2 (other, across) (by simp [Pursuit.legs]) _
            after
        exact earlier other less across too

/-- So all are over: the child that a stuck instance joins would have to join a child of its own,
and so on without an end. -/
theorem all_done {node : Nat} (inside : node < tree.size) : node ∈ cast.done := by
  -- A child is a later node, of which there are fewer.
  induction ahead : tree.size - node using Nat.strongRecOn generalizing node with
  | _ ahead later =>
    by_contra alive
    obtain ⟨id, actor, call, wait, engaged, stuck⟩ :=
      jammed.stuck node (present suits jammed inside) alive
    obtain ⟨-, -, ⟨child, record, plays, -, found, running⟩ |
      ⟨⟨number, side⟩, _, _, _, -, hangs⟩⟩ := engaged.stuck jammed.fits stuck
    · obtain ⟨other, under, place⟩ := plays.joined child (.inr rfl)
      have less := suits.grown other node under
      have range := (SpawnTree.range_of_parent? under).2
      obtain ⟨again, there, fit⟩ := jammed.fits.exists_record place
      obtain rfl := Option.some.inj (found.symm.trans there)
      have ended := later (tree.size - other) (by omega) range rfl
      simp [(fit.exited ended).1] at running
    · exact not_hangs suits jammed number side hangs

end Jammed

section Sessions

open Session

variable {σ : Type} {session : Session Workload (Except String Actor) σ}

/-- The instance of a node that is played and not over is among those that were started or are to be
started. -/
theorem Stages.mem_running (stages : cast.Stages tree sent session) (there : node ∈ cast.nodes)
    (alive : node ∉ cast.done) : ∃ id ∈ session.tables.instances.running,
      cast.nodes[id.word.toNat]? = some node := by
  -- A node and its record stand at the same position.
  obtain ⟨position, placed⟩ := List.mem_iff_getElem?.mp there
  have inside := (List.getElem?_eq_some_iff.mp placed).1
  rw [← stages.fits.records.length] at inside
  have found := List.getElem?_eq_getElem inside
  generalize session.tables.instances.records[position] = record at found
  have same := stages.fits.sound.indexed.ids found
  have fit := stages.fits.records.record placed found
  refine ⟨record.id, stages.fits.sound.indexed.mem_running.mpr ⟨record, ?_, fit.running alive⟩, ?_⟩
  · rw [stages.fits.sound.indexed.find?_eq, same, found]
  · rw [same, placed]

/-- A session in which every started instance is stuck and none is to be started is jammed. -/
theorem Stages.jammed (stages : cast.Stages tree sent session)
    (population : session.liveInstances = session.tables.instances.running)
    (stuck : ∀ task ∈ session.tasks, session.IsStuck task) :
    cast.Jammed tree sent session.tables where
  -- Every running instance is a task, and every task is stuck.
  fits := stages.fits
  rooted := List.mem_of_getElem? stages.rooted
  stuck := by
    intro node there alive
    obtain ⟨id, running, place⟩ := stages.mem_running there alive
    rw [← population] at running
    obtain ⟨task, started, rfl⟩ := List.mem_map.mp running
    obtain ⟨other, actor, -, stands⟩ := stages.tasks task started
    obtain ⟨blocked, wait, waits, stuck⟩ := stuck task started
    rw [waits] at stands
    cases stands with
    | waits engaged =>
      obtain ⟨pursuit, plays⟩ := engaged.plays
      obtain rfl := Option.some.inj (plays.place.symm.trans place)
      exact ⟨task.id, actor, blocked.call, wait, engaged, stuck⟩

/-- The first instance has exited exactly if its node is over, and it exited with zero. -/
theorem Stages.exitCode_root (stages : cast.Stages tree sent session) :
    session.tables.instances.exitCode .root = if 0 ∈ cast.done then some 0 else none := by
  -- The record of the root says whether it is done.
  have place : cast.nodes[InstanceId.root.word.toNat]? = some 0 := stages.rooted
  obtain ⟨record, found, fit⟩ := stages.fits.exists_record place
  by_cases ended : 0 ∈ cast.done
  · simp [InstanceTable.exitCode, found, (fit.exited ended).1, ended, Lifecycle.exitCode]
  · simp [InstanceTable.exitCode, found, fit.running ended, ended, Lifecycle.exitCode]

/-- As long as the first instance has not exited some instance is ready, or one is to be started. -/
theorem Stages.nextReady (suits : tree.Suits sent) (stages : cast.Stages tree sent session)
    (reached : Reached (behaviour σ) session) (ongoing : session.finished = none)
    (booted : session.root = some .root) (underway : Underway .root session) :
    (session.launch (behaviour σ)).nextReady ≠ none := by
  -- With nobody ready the session would be jammed, and then the root would be done.
  intro idle
  have launched := reached.launch ongoing booted underway
  have orderly := launched.orderly
  have population := orderly.population (launch_finished.trans ongoing)
  rw [launch_tables] at population
  simp only [List.map_nil, List.append_nil] at population
  have stages := stages.launch
  have jammed := stages.jammed (by rw [launch_tables]; exact population) fun task started =>
    (launched.attentive isSequential).isStuck orderly.sound started
      (by simp [nextReady_eq_none.mp idle])
  have ended := jammed.all_done suits (Nat.succ_pos _)
  have exited := stages.exitCode_root
  rw [if_pos ended] at exited
  exact absurd ((underway_launch.mpr underway).running.symm.trans exited) (by simp)

end Sessions

end Progeny.Cast
