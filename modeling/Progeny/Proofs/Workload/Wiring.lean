import Mathlib.Data.List.Perm.Subperm
import Progeny.Proofs.Workload.Arguments
import Progeny.Proofs.Workload.Transfers

/-! How instances of a workload create a pipe for every transmission that meets in their nodes. -/

namespace Progeny

/-- Different numbers below a bound are no more than the bound. -/
theorem length_le_of_lt {numbers : List Nat} {bound : Nat} (once : numbers.Nodup)
    (below : ∀ number ∈ numbers, number < bound) : numbers.length ≤ bound := by
  have within : numbers ⊆ List.range bound := fun number member =>
    List.mem_range.mpr (below number member)
  simpa using (List.subperm_of_subset once within).length_le

namespace Cast

open Workload

variable {tree : SpawnTree} {sent : List Transmission} {cast : Cast} {node : Nat}
  {tables : Tables Workload} {id : InstanceId} {actor : Actor}

/-- There are no more pipes than transmissions. -/
theorem Coherent.edges_lt (coherent : cast.Coherent tree sent) :
    ∀ number ∈ cast.edges, number < sent.length := by
  intro number served
  obtain ⟨transmission, found, -⟩ := coherent.created served
  exact (List.getElem?_eq_some_iff.mp found).1

/-- What was true of a record is true of it as long as no further node is over. -/
theorem RecordFits.of_done {record : InstanceRecord} {after : Cast}
    (fits : cast.RecordFits tree node record) (same : after.done = cast.done) :
    after.RecordFits tree node record :=
  ⟨fits.depth, same ▸ fits.running, same ▸ fits.exited⟩

/-- The cast with a pipe for another transmission. -/
def connect (cast : Cast) (number : Nat) : Cast :=
  { cast with edges := cast.edges ++ [number] }

section Connect

variable {number : Nat} {transmission : Transmission}

/-- A node may create the pipes of what meets in it. -/
theorem Coherent.connect (coherent : cast.Coherent tree sent)
    (found : sent[number]? = some transmission) (present : transmission.meeting tree ∈ cast.nodes)
    (new : number ∉ cast.edges) : (cast.connect number).Coherent tree sent where
  -- One more transmission has its pipe, at the node where it meets.
  once := coherent.once
  inside := coherent.inside
  born := coherent.born
  wired := List.nodup_append.mpr ⟨coherent.wired, by simp, fun one there other here same =>
    new (List.mem_singleton.mp here ▸ same ▸ there)⟩
  created := by
    intro other served
    rcases List.mem_append.mp served with older | last
    · exact coherent.created older
    · obtain rfl := List.mem_singleton.mp last
      exact ⟨transmission, found, present⟩
  needed there passing passes := List.mem_append_left _ (coherent.needed there passing passes)
  untouched side there untouched := by
    refine coherent.untouched side there (untouched.imp_left fun unserved served => unserved ?_)
    exact List.mem_append_left _ served
  ended := coherent.ended

/-- To create a pipe for what meets in a node spares all others. -/
theorem Spares.connect (found : sent[number]? = some transmission)
    (meets : transmission.meeting tree = node) :
    Spares tree sent node cast (cast.connect number) where
  -- What is new is one transmission that meets at the node.
  nodes := ⟨[], by simp [Cast.connect], by simp⟩
  edges := by
    refine ⟨[number], rfl, fun other member again foundToo => ?_⟩
    obtain rfl := List.mem_singleton.mp member
    obtain rfl := Option.some.inj (found.symm.trans foundToo)
    exact meets
  done _ _ := Iff.rfl
  still _ := id
  left _ _ := rfl
  closed _ := id

/-- A new pipe fits a transmission of which nothing was moved. -/
theorem PipesFit.connect {registry : PipeRegistry} (fits : cast.PipesFit tree sent registry)
    (coherent : cast.Coherent tree sent)
    (found : sent[number]? = some transmission) (new : number ∉ cast.edges)
    (place : cast.nodes[id.word.toNat]? = some (transmission.meeting tree))
    (first second next : Endpoint) :
    (cast.connect number).PipesFit tree sent (registry.extend first second next id) where
  length := by
    simp only [PipeRegistry.extend, Cast.connect, List.length_append, List.length_singleton,
      fits.length]
  pipe := by
    intro position other transmission' pipe served foundToo there
    simp only [PipeRegistry.extend, Cast.connect, List.getElem?_append, fits.length] at served there
    split at served
    · rename_i older
      rw [if_pos older] at there
      have fit := fits.pipe served foundToo there
      refine ⟨fit.isOpen, fun side opened => ?_, fit.stream, fit.dry⟩
      obtain ⟨holder, placed, keeps⟩ := fit.holder side opened
      exact ⟨holder, placed, keeps.of_nodes rfl⟩
    · rename_i beyond
      rw [if_neg beyond] at there
      -- The only position beyond the older pipes is the first one.
      have last : position - cast.edges.length = 0 := by
        have := (List.getElem?_eq_some_iff.mp served).1
        simp only [List.length_singleton] at this
        omega
      rw [last, List.getElem?_cons_zero, Option.some.injEq] at served there
      subst served there
      obtain rfl := Option.some.inj (found.symm.trans foundToo)
      have whole (side : Side) : (cast.connect number).left (number, side) =
          some (payload sent number) := coherent.untouched side found (.inl new)
      refine ⟨fun side => ?_, fun side _ => ?_, fun rest same => ?_, fun gone => ?_⟩
      · rw [whole]
        cases side <;> rfl
      · have owner : (Pipe.on ⟨⟨first, id, true, []⟩, ⟨second, id, true, []⟩⟩ side).owner = id := by
          cases side <;> rfl
        rw [owner]
        refine ⟨_, place, List.mem_of_getElem? place, .inl rfl, fun child passes _ here => ?_⟩
        exact new (coherent.needed found here passes)
      · rw [whole] at same ⊢
        exact (Option.some.inj same).symm
      · rw [whole] at gone
        simp at gone

/-- The ends of a new pipe are found under their numbers, and all others as before. -/
theorem find?_create (held : Holdings) {other : Nat} (small : number < 2 ^ 32)
    (otherSmall : other < 2 ^ 32) (first second : Endpoint) (side : Side) :
    ((held.insert (Transmission.readerPipe number) first).insert (Transmission.writerPipe number)
        second).find? (Transmission.pipeNumber other side) =
      if other = number then some (match side with | .first => first | .second => second)
      else held.find? (Transmission.pipeNumber other side) := by
  -- Handles are told apart by the number of their transmission and the side.
  have ends (across : Side) : Transmission.pipeNumber other side =
      Transmission.pipeNumber number across ↔ other = number ∧ side = across :=
    Transmission.pipeNumber_inj otherSmall small
  have firsts : Transmission.pipeNumber other side = Transmission.readerPipe number ↔
      other = number ∧ side = .first := ends .first
  have seconds : Transmission.pipeNumber other side = Transmission.writerPipe number ↔
      other = number ∧ side = .second := ends .second
  simp only [Holdings.find?_insert, firsts, seconds]
  cases side <;> simp

/-- An instance goes on with a pipe less to create and both ends of it in hand. -/
theorem Plays.connect (suits : tree.Suits sent)
    (plays : cast.Plays tree sent id node .choice actor)
    (found : sent[number]? = some transmission)
    {rest : List PipePlan} (waiting : actor.pipes = transmission.pipePlan tree number :: rest)
    {first second : Endpoint} (firstPlace : first.index = cast.edges.length ∧ first.side = .first)
    (secondPlace : second.index = cast.edges.length ∧ second.side = .second)
    (errand : Option Errand) :
    (cast.connect number).Plays tree sent id node .choice
      ({ actor with pipes := rest, errand := errand }.absorb
        (.create (transmission.pipePlan tree number)) (.endpoints first second)) := by
  -- The new handles are held, and the plan that made them is no longer waiting.
  have once := plays.pipesOnce
  rw [waiting, List.nodup_cons] at once
  have small := number_lt suits found
  have last : (cast.connect number).edges[cast.edges.length]? = some number := by
    simp [Cast.connect]
  refine ⟨plays.place, plays.alive, plays.code, ?_, once.2, fun plan => ?_, plays.spawnsOnce,
    plays.spawns, plays.transfers, by simp, plays.children, plays.joined⟩
  · intro other transmission' side foundToo served keeps opened
    have find := find?_create actor.held small (number_lt suits foundToo) first second side
    by_cases same : other = number
    · subst same
      rw [if_pos rfl] at find
      cases side with
      | first => exact ⟨first, find, firstPlace.1 ▸ last, firstPlace.2⟩
      | second => exact ⟨second, find, secondPlace.1 ▸ last, secondPlace.2⟩
    · have served : other ∈ cast.edges := by
        simpa [Cast.connect, same] using served
      obtain ⟨endpoint, known, serves, own⟩ :=
        plays.held foundToo served (keeps.of_nodes rfl) opened
      rw [if_neg same] at find
      refine ⟨endpoint, find.trans known, ?_, own⟩
      rw [Cast.connect, List.getElem?_append_left (List.getElem?_eq_some_iff.mp serves).1]
      exact serves
  · have before := plays.pipes plan
    rw [waiting, List.mem_cons] at before
    constructor
    · intro member
      obtain ⟨other, transmission', foundToo, meets, rfl, unserved⟩ := before.mp (.inr member)
      refine ⟨other, transmission', foundToo, meets, rfl, ?_⟩
      simp only [Cast.connect, List.mem_append, List.mem_singleton, not_or]
      refine ⟨unserved, ?_⟩
      rintro rfl
      obtain rfl := Option.some.inj (found.symm.trans foundToo)
      exact once.1 member
    · rintro ⟨other, transmission', foundToo, meets, rfl, unserved⟩
      simp only [Cast.connect, List.mem_append, List.mem_singleton, not_or] at unserved
      refine (before.mpr ⟨other, transmission', foundToo, meets, rfl, unserved.1⟩).resolve_left ?_
      intro same
      have numbers : Transmission.pipeNumber other .first = Transmission.pipeNumber number .first :=
        congrArg PipePlan.readPipe same
      exact unserved.2 ((Transmission.pipeNumber_inj (number_lt suits foundToo) small).mp numbers).1

end Connect

/-- An instance of a workload creates its next pipe. -/
theorem Fits.create (suits : tree.Suits sent) (fits : cast.Fits tree sent tables)
    (apart : ∀ launch ∈ tables.launches, launch.id ≠ id)
    (plays : cast.Plays tree sent id node .choice actor) {plan : PipePlan} {rest : List PipePlan}
    (waiting : actor.pipes = plan :: rest) (errand : Option Errand) :
    ∃ after first second, Advances tree sent id node cast after (tables.createPipe id).2 ∧
      (tables.createPipe id).1 = .ok (first, second) ∧
      after.Plays tree sent id node .choice
        ({ actor with pipes := rest, errand := errand }.absorb (.create plan)
          (.endpoints first second)) := by
  obtain ⟨number, transmission, found, rfl, rfl, new⟩ :=
    (plays.pipes plan).mp (by rw [waiting]; exact List.mem_cons_self)
  have present := List.mem_of_getElem? plays.place
  have coherent := fits.coherent.connect found present new
  have few := length_le_of_lt coherent.wired coherent.edges_lt
  simp only [Cast.connect, List.length_append, List.length_singleton] at few
  have spares : Spares tree sent _ cast (cast.connect number) := .connect found rfl
  have effects : Tables.Effects id tables (tables.createPipe id).2 := .single .creates
  have outcome := fits.sound.numbered.create_case id
  unfold Tables.createPipe at effects ⊢
  dsimp only at effects ⊢
  generalize tables.pipes.create id = served at outcome effects
  cases outcome with
  | refused spent =>
    -- There are budgets and numbers for one pipe for each transmission.
    have opened := fits.sound.counted.le
    have budget := fits.ample.endpoints
    have length := fits.pipes.length
    have small := suits.few
    omega
  | @creates first second next budget numbers =>
    rw [fits.pipes.length] at numbers
    refine ⟨cast.connect number, first, second, ⟨spares, ?_, apart⟩, rfl, ?_⟩
    · exact ⟨(effects.sound fits.sound).1, fits.ample.kept (effects.budgets fits.sound), coherent,
        fits.pipes.connect fits.coherent found new plays.place first second next,
        ⟨fits.records.length, fun placed there => (fits.records.record placed there).of_done rfl⟩,
        fits.starts_spared apart plays.place spares⟩
    · exact plays.connect suits found waiting (Endpoint.index_side_of_odd numbers.1)
        (Endpoint.index_side_of_even numbers.2.1) errand

end Cast

end Progeny
