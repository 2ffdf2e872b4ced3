import Progeny.Proofs.Workload.Births

/-! How instances of a workload join their children and exit. By then every end of theirs is closed,
and so is everything below them. -/

namespace Progeny

/-- An instance has nothing left to do. -/
structure Actor.IsIdle (actor : Actor) : Prop where
  pipes : actor.pipes = []
  spawns : actor.spawns = []
  transfers : actor.transfers = []
  children : actor.children = []

namespace Cast

open Workload

variable {tree : SpawnTree} {sent : List Transmission} {cast : Cast} {node : Nat}
  {tables : Tables Workload} {id : InstanceId} {actor : Actor}

/-- What an instance waits in its call for does not matter for what it has yet to do. -/
theorem Plays.errand {pursuit : Pursuit} (plays : cast.Plays tree sent id node pursuit actor)
    (errand : Option Errand) (closing : Option Endpoint) :
    cast.Plays tree sent id node pursuit { actor with errand := errand, closing := closing } :=
  ⟨plays.place, plays.alive, plays.code, plays.held, plays.pipesOnce, plays.pipes,
    plays.spawnsOnce, plays.spawns, plays.transfers, plays.moves, plays.children, plays.joined⟩

/-- The instance and the record of a node that is played. -/
theorem Fits.exists_record (fits : cast.Fits tree sent tables) {other : InstanceId}
    (place : cast.nodes[other.word.toNat]? = some node) :
    ∃ record, tables.instances.find? other = some record ∧ cast.RecordFits tree node record := by
  -- Records stand in the order of the nodes that they belong to.
  have inside := (List.getElem?_eq_some_iff.mp place).1
  rw [← fits.records.length] at inside
  have there := List.getElem?_eq_getElem inside
  exact ⟨_, (fits.sound.indexed.find?_eq other).trans there, fits.records.record place there⟩

/-- A node whose record says that it has exited is over, and it exited with zero. -/
theorem RecordFits.done_of_exited {record : InstanceRecord} {code : Int8}
    (fits : cast.RecordFits tree node record) (exited : record.state = .exited code) :
    node ∈ cast.done ∧ code = 0 := by
  by_cases ended : node ∈ cast.done
  · exact ⟨ended, Lifecycle.exited.inj (exited.symm.trans (fits.exited ended).1)⟩
  · simp [fits.running ended] at exited

/-- The events that are reported do not matter for the cast. -/
theorem Fits.report (fits : cast.Fits tree sent tables) (event : Event) :
    cast.Fits tree sent (tables.report event) :=
  ⟨⟨fits.sound.numbered, fits.sound.counted, fits.sound.indexed, fits.sound.consistent⟩,
    ⟨fits.ample.load, fits.ample.capacity, fits.ample.endpoints, fits.ample.instances,
      fits.ample.depth⟩,
    fits.coherent, fits.pipes, fits.records, fits.starts⟩

/-- An instance that has moved all bytes turns to its next child. -/
theorem Plays.join (plays : cast.Plays tree sent id node .choice actor) {child : InstanceId}
    {rest : List InstanceId} (waiting : actor.children = child :: rest)
    (errand : Option Errand) :
    cast.Plays tree sent id node (.join child)
      { actor with children := rest, errand := errand } := by
  refine ⟨plays.place, plays.alive, plays.code, plays.held, plays.pipesOnce, plays.pipes,
    plays.spawnsOnce, plays.spawns, plays.transfers, by simp, fun other under there => ?_,
    fun other listed => plays.joined other (.inl ?_)⟩
  · refine (plays.children other under there).imp_right fun ⟨heir, placed, listed⟩ => ?_
    refine ⟨heir, placed, ?_⟩
    -- The child that is joined leaves the list and is what the instance is about.
    rw [waiting] at listed
    rcases List.mem_cons.mp (listed.resolve_right (by simp)) with rfl | later
    · exact .inr rfl
    · exact .inl later
  · rw [waiting]
    rcases listed with later | same
    · exact List.mem_cons_of_mem _ later
    · obtain rfl := Pursuit.join.inj same
      exact List.mem_cons_self

/-- An instance that joins a child waits for it, or it learns that the child exited with zero and
chooses again. -/
theorem Fits.join (suits : tree.Suits sent) (fits : cast.Fits tree sent tables)
    (apart : ∀ launch ∈ tables.launches, launch.id ≠ id) {child : InstanceId}
    (plays : cast.Plays tree sent id node (.join child) actor) :
    Advances tree sent id node cast cast (tables.join id child).2 ∧
      ((tables.join id child).1 = .finished (.ok (.code 0)) ∧
          cast.Plays tree sent id node .choice actor ∨
        (tables.join id child).1 = .blocked ⟨.join child, .exitOf child⟩) := by
  obtain ⟨other, under, place⟩ := plays.joined child (.inr rfl)
  -- A child is a later node, and so it is not the instance itself.
  have differ : child ≠ id := by
    rintro rfl
    obtain rfl := Option.some.inj (place.symm.trans plays.place)
    exact Nat.lt_irrefl _ (suits.grown _ _ under)
  obtain ⟨record, found, fit⟩ := fits.exists_record place
  cases state : record.state with
  | running =>
    have asked : tables.join id child = (.blocked ⟨.join child, .exitOf child⟩, tables) := by
      simp [Tables.join, differ, found, state]
    rw [asked]
    exact ⟨⟨.refl tree sent node cast, fits, apart⟩, .inr rfl⟩
  | exited code =>
    obtain ⟨ended, rfl⟩ := fit.done_of_exited state
    have asked : tables.join id child =
        (.finished (.ok (.code 0)), tables.report (.joined id child 0)) := by
      simp [Tables.join, differ, found, state]
    rw [asked]
    refine ⟨⟨.refl tree sent node cast, fits.report _, apart⟩, .inl ⟨rfl, ?_⟩⟩
    refine ⟨plays.place, plays.alive, plays.code, plays.held, plays.pipesOnce, plays.pipes,
      plays.spawnsOnce, plays.spawns, plays.transfers, by simp, fun sibling below there => ?_,
      fun sibling listed => plays.joined sibling (.inl (listed.resolve_right (by simp)))⟩
    rcases plays.children sibling below there with gone | ⟨heir, placed, later | same⟩
    · exact .inl gone
    · exact .inr ⟨heir, placed, .inl later⟩
    · obtain rfl := Pursuit.join.inj same
      obtain rfl := Option.some.inj (place.symm.trans placed)
      exact .inl ended

/-- The cast with a node that is over. -/
def leave (cast : Cast) (node : Nat) : Cast :=
  { cast with done := cast.done ++ [node] }

/-- A node that is over spares everybody. -/
theorem Spares.leave : Spares tree sent node cast (cast.leave node) where
  -- Only the node itself is done now.
  nodes := ⟨[], by simp [Cast.leave], by simp⟩
  edges := ⟨[], by simp [Cast.leave], by simp⟩
  done other differ := by simp [Cast.leave, differ]
  still other ended := List.mem_append_left _ ended
  left _ _ := rfl
  closed _ := id

section Idle

variable (plays : cast.Plays tree sent id node .choice actor) (idle : actor.IsIdle)
include plays idle

/-- The children of an idle instance have come and gone. -/
theorem Plays.children_done {child : Nat} (under : tree.parent? child = some node) :
    child ∈ cast.nodes ∧ child ∈ cast.done := by
  -- There is nobody left to spawn and nobody left to join.
  have there : child ∈ cast.nodes := by
    by_contra absent
    have member := (plays.spawns _).mpr ⟨child, under, rfl, absent⟩
    simp [idle.spawns] at member
  refine ⟨there, (plays.children child under there).resolve_right ?_⟩
  rintro ⟨heir, -, listed | same⟩
  · simp [idle.children] at listed
  · simp at same

/-- The legs of an idle instance are closed. -/
theorem Plays.legs_closed : ∀ leg ∈ legsOf sent node, cast.left leg = none := by
  -- There is nothing left to move, so all legs are behind.
  obtain ⟨past, future, legs, transfers, closed, -⟩ := plays.transfers
  rw [idle.transfers] at transfers
  obtain rfl := List.map_eq_nil_iff.mp transfers.symm
  intro leg member
  rw [legs] at member
  exact closed leg (by simpa [Pursuit.legs] using member)

/-- An idle instance holds no end any more: it has closed its own, and handed on all others. -/
theorem Fits.ownedBy_eq_nil (suits : tree.Suits sent) (fits : cast.Fits tree sent tables) :
    tables.pipes.ownedBy id = [] := by
  refine List.eq_nil_iff_forall_not_mem.mpr fun endpoint member => ?_
  obtain ⟨pipe, holds⟩ := fits.sound.numbered.mem_ownedBy.mp member
  -- The pipe serves a transmission, and the holder of an open end is known.
  have inside := (List.getElem?_eq_some_iff.mp holds.found).1
  rw [fits.pipes.length] at inside
  have served := List.getElem?_eq_getElem inside
  generalize cast.edges[endpoint.index] = number at served
  obtain ⟨transmission, found, -⟩ := fits.coherent.created (List.mem_of_getElem? served)
  have fit := fits.pipes.pipe served found holds.found
  obtain ⟨holder, placed, keeps⟩ := fit.holder endpoint.side holds.opened
  rw [holds.owned] at placed
  obtain rfl := Option.some.inj (plays.place.symm.trans placed)
  have opened : cast.left (number, endpoint.side) ≠ none := by
    rw [← Option.isSome_iff_ne_none, ← fit.isOpen]
    exact holds.opened
  by_cases own : node = transmission.target endpoint.side
  · exact opened (plays.legs_closed idle _ (mem_legsOf.mpr ⟨transmission, found, own.symm⟩))
  · obtain ⟨child, passes, under⟩ := SpawnTree.child_mem_pathBelow suits.grown
      (meeting_mem suits (List.mem_of_getElem? found) endpoint.side) keeps.passed own
    exact keeps.last child passes under (plays.children_done idle under).1

/-- A node whose instance is idle may be over. -/
theorem Coherent.leave (coherent : cast.Coherent tree sent) :
    (cast.leave node).Coherent tree sent where
  -- The node that leaves has its children done and its legs closed.
  once := coherent.once
  inside := coherent.inside
  born := coherent.born
  wired := coherent.wired
  created := coherent.created
  needed := coherent.needed
  untouched := coherent.untouched
  ended := by
    intro other ended
    rcases List.mem_append.mp ended with before | last
    · obtain ⟨there, children, closed⟩ := coherent.ended other before
      exact ⟨there, fun child under => List.mem_append_left _ (children child under), closed⟩
    · rw [List.mem_singleton.mp last]
      exact ⟨List.mem_of_getElem? plays.place,
        fun child under => List.mem_append_left _ (plays.children_done idle under).2,
        plays.legs_closed idle⟩

omit idle in
/-- The record of an instance that exits tells so, and the other records stay as they are. -/
theorem RecordsFit.leave (coherent : cast.Coherent tree sent) {table : InstanceTable}
    (indexed : table.Indexed) (fits : cast.RecordsFit tree table) :
    (cast.leave node).RecordsFit tree (table.retire id 0 none) where
  length := by
    simp only [InstanceTable.retire, List.length_map]
    exact fits.length
  record := by
    intro position other record placed there
    simp only [InstanceTable.retire, List.getElem?_map, Option.map_eq_some_iff] at there
    obtain ⟨held, before, rfl⟩ := there
    have fit := fits.record placed before
    by_cases own : held.id = id
    · -- The position of the record is that of the instance.
      have same := indexed.ids before
      rw [own] at same
      subst same
      obtain rfl := Option.some.inj (plays.place.symm.trans placed)
      rw [if_pos own]
      exact ⟨fit.depth, fun alive => absurd (by simp [Cast.leave]) alive, fun _ => ⟨rfl, rfl⟩⟩
    · rw [if_neg own]
      have differ : other ≠ node := by
        rintro rfl
        have same := coherent.place_inj placed plays.place
        rw [← indexed.ids before] at same
        exact own (InstanceId.eq_of_toNat same)
      have still : other ∈ (cast.leave node).done ↔ other ∈ cast.done := by
        simp [Cast.leave, differ]
      exact ⟨fit.depth, fun alive => fit.running (mt still.mpr alive),
        fun ended => fit.exited (still.mp ended)⟩

/-- The exit of an idle instance with code zero leads to tables that fit a node less to wait for. -/
theorem Fits.exit (suits : tree.Suits sent) (fits : cast.Fits tree sent tables)
    (apart : ∀ launch ∈ tables.launches, launch.id ≠ id) :
    Advances tree sent id node cast (cast.leave node) (tables.exit id (.ok 0)) := by
  obtain ⟨record, found, fit⟩ := fits.exists_record plays.place
  have running : id ∈ tables.instances.running :=
    fits.sound.indexed.mem_running.mpr ⟨record, found, fit.running plays.alive⟩
  obtain ⟨sound, launches, -⟩ := fits.sound.exit running (.ok 0)
  have exited := Tables.exit_eq fits.sound running (.ok 0)
  have none := fits.ownedBy_eq_nil plays idle suits
  -- There is no end to close, and so the pipes are as they were.
  have pipes : (tables.pipes.closeOwnedBy id).registry = tables.pipes := by
    simp [PipeRegistry.closeOwnedBy, none, PipeRegistry.closeAll]
  refine ⟨.leave, ⟨sound, ?_, fits.coherent.leave plays idle, ?_, ?_, ?_⟩, ?_⟩
  · rw [exited, pipes]
    exact ⟨fits.ample.load, fits.ample.capacity, fits.ample.endpoints, fits.ample.instances,
      fits.ample.depth⟩
  · rw [exited, pipes]
    refine ⟨fits.pipes.length, fun served found there => ?_⟩
    have fit := fits.pipes.pipe served found there
    exact ⟨fit.isOpen, fun side opened => (fit.holder side opened).imp fun holder held =>
      ⟨held.1, held.2.of_nodes rfl⟩, fit.stream, fit.dry⟩
  · rw [exited]
    exact fits.records.leave plays fits.coherent fits.sound.indexed
  · rw [launches]
    exact fits.starts_spared apart plays.place .leave
  · rw [launches]
    exact apart

end Idle

end Cast

end Progeny
