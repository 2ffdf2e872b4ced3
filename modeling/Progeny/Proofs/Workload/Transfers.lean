import Progeny.Proofs.Session.Attempts
import Progeny.Proofs.Workload.Fits

/-! How instances of a workload write, read and close: no byte is lost or changed, and nobody gives
up before all bytes were moved. -/

namespace Progeny.Cast

open Workload

variable {tree : SpawnTree} {sent : List Transmission} {cast : Cast} {node number : Nat}
  {side : Side} {transmission : Transmission} {pipe : Pipe}

namespace PipeFits

variable (fits : cast.PipeFits tree number transmission pipe)
include fits

/-- Bytes that the writer has put into the queue are no longer left to it. -/
theorem write {rest : Bytes} (left : cast.left (number, .second) = some rest) (count : Nat) :
    (cast.put (number, .second) (some (rest.drop count))).PipeFits tree number transmission
      (pipe.modify .first fun held =>
        { held with inbound := held.inbound ++ rest.take count }) := by
  -- What the queue gains is what the writer has less.
  have across := left_put_peer cast number .second (some (rest.drop count))
  simp only [Side.peer] at across
  refine ⟨fun side => ?_, fun side opened => ?_, ?_, ?_⟩
  · cases side with
    | first =>
      rw [across]
      exact fits.isOpen .first
    | second =>
      rw [left_put_self]
      exact (fits.isOpen .second).trans (by simp [left])
  · cases side with
    | first => exact @holder_put _ _ _ .first _ _ fits _ _ opened
    | second => exact @holder_put _ _ _ .second _ _ fits _ _ opened
  · intro bytes same
    rw [across] at same
    rw [left_put_self, fits.stream bytes same, left]
    simp [Pipe.on, Pipe.modify]
  · intro gone
    rw [across] at gone
    have dry := fits.dry gone
    rw [left, Option.getD_some] at dry
    simp [dry]

/-- Bytes that the reader has taken off the queue are no longer left to it. -/
theorem read {rest : Bytes} (left : cast.left (number, .first) = some rest) (limit : Nat) :
    ∃ later, rest = (pipe.on .first).inbound.take limit ++ later ∧
      (cast.put (number, .first) (some later)).PipeFits tree number transmission
        (pipe.modify .first fun held => { held with inbound := held.inbound.drop limit }) := by
  -- The reader has the queue before it, and then what the writer still has.
  have stream := fits.stream rest left
  have across (later : Option Bytes) := left_put_peer cast number .first later
  simp only [Side.peer] at across
  refine ⟨(pipe.on .first).inbound.drop limit ++ (cast.left (number, .second)).getD [], ?_,
    fun side => ?_, fun side opened => ?_, ?_, ?_⟩
  · rw [← List.append_assoc, List.take_append_drop]
    exact stream
  · cases side with
    | first =>
      rw [left_put_self]
      exact (fits.isOpen .first).trans (by simp [left])
    | second =>
      rw [across]
      exact fits.isOpen .second
  · cases side with
    | first => exact @holder_put _ _ _ .first _ _ fits _ _ opened
    | second => exact @holder_put _ _ _ .second _ _ fits _ _ opened
  · intro bytes same
    rw [left_put_self, Option.some.injEq] at same
    rw [across, ← same]
    rfl
  · intro gone
    simp at gone

/-- An end that has nothing more to move may be closed. -/
theorem close (left : cast.left (number, side) = some []) :
    (cast.put (number, side) none).PipeFits tree number transmission (pipe.close side) := by
  -- A reader that is done has read everything, so there is nothing left to write either.
  have own := pipe.on_close_self side
  have across := pipe.on_close_peer side
  have peerLeft := left_put_peer cast number side none
  refine ⟨fun other => ?_, fun other opened => ?_, fun rest same => ?_, fun gone => ?_⟩
  · by_cases same : other = side
    · rw [same, left_put_self]
      exact own.1
    · rw [Side.eq_peer_of_ne same, peerLeft]
      exact across.1.trans (fits.isOpen side.peer)
  · by_cases same : other = side
    · subst same
      simp [own.1] at opened
    · rw [Side.eq_peer_of_ne same] at opened ⊢
      rw [(pipe.on_close side side.peer).2]
      exact fits.holder_put _ none (across.1 ▸ opened)
  · cases side with
    | first => simp at same
    | second =>
      simp only [Side.peer] at peerLeft across
      rw [peerLeft] at same
      have opened : (pipe.on .first).isOpen = true := by simp [fits.isOpen, same]
      rw [left_put_self, across.2 opened, fits.stream rest same, left]
      rfl
  · cases side with
    | first =>
      have stream := fits.stream [] left
      simp only [Side.peer] at peerLeft
      rw [peerLeft]
      exact (List.append_eq_nil_iff.mp stream.symm).2
    | second => rw [left_put_self, Option.getD_none]

end PipeFits

/-- Whoever uses an end and is played has it, once the pipe is there. -/
theorem keeps_target (suits : tree.Suits sent) (found : sent[number]? = some transmission)
    (present : transmission.target side ∈ cast.nodes) :
    cast.Keeps tree transmission side (transmission.target side) where
  present := present
  passed := SpawnTree.end_mem_pathBelow suits.grown
    (meeting_mem suits (List.mem_of_getElem? found) side)
  last := by
    intro child passes under
    -- The path ends there, and a child would come after.
    have less := suits.grown child _ under
    have atMost := (SpawnTree.ancestry_sorted suits.grown _).2 child
      (SpawnTree.ancestry_of_mem_pathBelow passes).1
    omega

variable {tables later : Tables Workload} {id : InstanceId}

/-- Who has an end that is not closed holds its endpoint. -/
theorem Fits.holds (suits : tree.Suits sent) (fits : cast.Fits tree sent tables)
    (place : cast.nodes[id.word.toNat]? = some node)
    (found : sent[number]? = some transmission) (keeps : cast.Keeps tree transmission side node)
    (opened : cast.left (number, side) ≠ none) {endpoint : Endpoint}
    (serves : cast.edges[endpoint.index]? = some number) (same : endpoint.side = side) :
    ∃ pipe, tables.pipes.Holds id endpoint pipe ∧
      cast.PipeFits tree number transmission pipe := by
  -- The leg is open, so somebody holds the end, and there is only one who can.
  subst same
  have inside := (List.getElem?_eq_some_iff.mp serves).1
  rw [← fits.pipes.length] at inside
  have there := List.getElem?_eq_getElem inside
  have fit := fits.pipes.pipe serves found there
  have isOpen : (tables.pipes.pipes[endpoint.index].on endpoint.side).isOpen = true := by
    rw [fit.isOpen]
    exact Option.isSome_iff_ne_none.mpr opened
  obtain ⟨holder, placed, has⟩ := fit.holder _ isOpen
  obtain rfl := Keeps.unique suits fits.coherent found keeps has
  exact ⟨_, ⟨there, InstanceId.eq_of_toNat (fits.coherent.place_inj placed place), isOpen⟩, fit⟩

/-- What one instance did led from one cast and its tables to others that fit as well. -/
structure Advances (tree : SpawnTree) (sent : List Transmission) (id : InstanceId) (node : Nat)
    (cast after : Cast) (later : Tables Workload) : Prop where
  spares : Spares tree sent node cast after
  fits : after.Fits tree sent later
  apart : ∀ launch ∈ later.launches, launch.id ≠ id

/-- What one instance did in two steps led to where the second led. -/
theorem Advances.trans {middle after : Cast} {between : Tables Workload}
    (first : Advances tree sent id node cast middle between)
    (second : Advances tree sent id node middle after later) :
    Advances tree sent id node cast after later :=
  ⟨first.spares.trans second.spares, second.fits, second.apart⟩

/-- Instances that are yet to be started are spared by all others. -/
theorem Fits.starts_spared (fits : cast.Fits tree sent tables)
    (apart : ∀ launch ∈ tables.launches, launch.id ≠ id)
    (place : cast.nodes[id.word.toNat]? = some node) {after : Cast}
    (spares : Spares tree sent node cast after) :
    ∀ launch ∈ tables.launches, after.Starts tree sent launch := by
  -- No launch is that of the node that moves.
  intro launch waiting
  obtain ⟨other, actor, started, errand, closing, plays⟩ := fits.starts launch waiting
  refine ⟨other, actor, started, errand, closing, plays.spared fits.coherent spares ?_⟩
  rintro rfl
  exact apart launch waiting (InstanceId.eq_of_toNat (fits.coherent.place_inj plays.place place))

/-- A step that replaces the pipe in which an instance moves bytes leads to tables that fit. -/
theorem Fits.put (fits : cast.Fits tree sent tables)
    (apart : ∀ launch ∈ tables.launches, launch.id ≠ id) {endpoint : Endpoint} {rest : Bytes}
    {actor : Actor}
    (plays : cast.Plays tree sent id node (.move (number, side) endpoint rest) actor)
    (found : sent[number]? = some transmission)
    (there : tables.pipes.pipes[endpoint.index]? = some pipe)
    {left : Option Bytes} {changed : Pipe}
    (fit : (cast.put (number, side) left).PipeFits tree number transmission changed)
    (effects : Tables.Effects id tables later)
    (pipes : later.pipes.pipes = (tables.pipes.setPipe endpoint.index changed).pipes)
    (instances : later.instances = tables.instances)
    (launches : later.launches = tables.launches) :
    Advances tree sent id node cast (cast.put (number, side) left) later := by
  -- One pipe and one leg change together; all else is as it was.
  obtain ⟨held, serves, -⟩ := plays.moves _ _ _ rfl
  obtain ⟨past, future, legs, -⟩ := plays.transfers
  have own : (number, side) ∈ legsOf sent node := by simp [legs, Pursuit.legs]
  obtain ⟨again, foundToo, target⟩ := mem_legsOf.mp own
  obtain rfl := Option.some.inj (found.symm.trans foundToo)
  have opened : cast.left (number, side) ≠ none := by simp [held]
  have spares : Spares tree sent node cast (cast.put (number, side) left) := .put own opened left
  refine ⟨spares, ⟨(effects.sound fits.sound).1, fits.ample.kept (effects.budgets fits.sound), ?_,
    ?_, instances ▸ fits.records.put _ _, ?_⟩, launches ▸ apart⟩
  · exact fits.coherent.put found (List.mem_of_getElem? serves)
      (target ▸ List.mem_of_getElem? plays.place) (target ▸ plays.alive) left
  · have put := fits.pipes.put fits.coherent serves found there fit
    exact ⟨by rw [pipes]; exact put.length, by rw [pipes]; exact put.pipe⟩
  · rw [launches]
    exact fits.starts_spared apart plays.place spares

/-- An instance that moves bytes holds the endpoint, and it is the one that the transmission is
meant for. -/
theorem Fits.moving (suits : tree.Suits sent) (fits : cast.Fits tree sent tables)
    {endpoint : Endpoint} {rest : Bytes} {actor : Actor}
    (plays : cast.Plays tree sent id node (.move (number, side) endpoint rest) actor) :
    ∃ transmission pipe, sent[number]? = some transmission ∧ transmission.target side = node ∧
      tables.pipes.Holds id endpoint pipe ∧ cast.PipeFits tree number transmission pipe := by
  -- What the node moves is one of its own legs, which it therefore holds.
  obtain ⟨held, serves, same⟩ := plays.moves _ _ _ rfl
  obtain ⟨past, future, legs, -⟩ := plays.transfers
  have own : (number, side) ∈ legsOf sent node := by simp [legs, Pursuit.legs]
  obtain ⟨transmission, found, rfl⟩ := mem_legsOf.mp own
  have keeps := keeps_target suits found (List.mem_of_getElem? plays.place)
  obtain ⟨pipe, holds, fit⟩ := fits.holds suits plays.place found keeps (by simp [held]) serves same
  exact ⟨transmission, pipe, found, rfl, holds, fit⟩

/-- A writer that has bytes left writes to an open end: the reader has yet to get them. -/
theorem Fits.writable (suits : tree.Suits sent) (fits : cast.Fits tree sent tables)
    {endpoint : Endpoint} {rest : Bytes} {actor : Actor}
    (plays : cast.Plays tree sent id node (.move (number, .second) endpoint rest) actor)
    (offered : rest ≠ []) :
    ∃ transmission pipe, sent[number]? = some transmission ∧
      tables.pipes.pipes[endpoint.index]? = some pipe ∧
      cast.PipeFits tree number transmission pipe ∧
      Tables.WriteOutcome tables endpoint pipe rest (tables.tryWrite id endpoint rest) := by
  -- Bytes are left to be read, so the reader is still there.
  obtain ⟨held, -, same⟩ := plays.moves _ _ _ rfl
  obtain ⟨transmission, pipe, found, -, holds, fit⟩ := fits.moving suits plays
  refine ⟨transmission, pipe, found, holds.found, fit,
    Tables.writeOutcome fits.sound.numbered holds ?_ offered⟩
  simp only [same, Side.peer, fit.isOpen, Option.isSome_iff_ne_none]
  intro gone
  have dry := fit.dry gone
  rw [held, Option.getD_some] at dry
  exact offered dry

/-- A writer gets all of its bytes into the pipe sooner or later: it is done, or it waits with the
rest of them. -/
theorem Fits.writeAll (suits : tree.Suits sent) (fits : cast.Fits tree sent tables)
    (apart : ∀ launch ∈ tables.launches, launch.id ≠ id) {endpoint : Endpoint} {rest : Bytes}
    {actor : Actor}
    (plays : cast.Plays tree sent id node (.move (number, .second) endpoint rest) actor) :
    ∃ after, Advances tree sent id node cast after (tables.writeAll id endpoint rest).2 ∧
      ((tables.writeAll id endpoint rest).1 = .finished (.ok .done) ∧
          after.Plays tree sent id node (.move (number, .second) endpoint []) actor ∨
        ∃ wait left, (tables.writeAll id endpoint rest).1 =
            .blocked ⟨.writeAll endpoint left, wait⟩ ∧
          after.Plays tree sent id node (.move (number, .second) endpoint left) actor) := by
  -- Each attempt that puts in some bytes leaves fewer to the writer and more to the queue.
  fun_induction Tables.writeAll tables id endpoint rest generalizing cast with
  | case1 => exact ⟨cast, ⟨.refl tree sent node cast, fits, apart⟩, .inl ⟨rfl, plays⟩⟩
  | case2 tables rest offered error reached attempt =>
    obtain ⟨_, _, -, -, -, outcome⟩ := fits.writable suits plays offered
    rw [attempt] at outcome
    cases outcome
  | case3 tables rest offered wait reached attempt =>
    obtain ⟨_, _, -, -, -, outcome⟩ := fits.writable suits plays offered
    rw [attempt] at outcome
    cases outcome
    exact ⟨cast, ⟨.refl tree sent node cast, fits, apart⟩, .inr ⟨_, _, rfl, plays⟩⟩
  | case4 tables rest offered count reached attempt ih =>
    obtain ⟨transmission, pipe, found, there, fit, outcome⟩ := fits.writable suits plays offered
    obtain ⟨held, -, same⟩ := plays.moves _ _ _ rfl
    have effects := (tables.exchanges_tryWrite id endpoint rest).effects
    rw [attempt] at outcome effects
    cases outcome
    have step := fits.put apart plays found there (fit.write held count) effects
      (by simp [Tables.settle, same, Side.peer]) rfl rfl
    obtain ⟨after, advances, ends⟩ :=
      ih step.fits step.apart (plays.put suits (some (rest.drop count)))
    exact ⟨after, step.trans advances, ends⟩

/-- A reader that has bytes left finds them in the queue or has to wait for them: the stream does
not end before. -/
theorem Fits.readable (suits : tree.Suits sent) (fits : cast.Fits tree sent tables)
    {endpoint : Endpoint} {rest : Bytes} {actor : Actor}
    (plays : cast.Plays tree sent id node (.move (number, .first) endpoint rest) actor)
    (asked : rest.length ≠ 0) :
    ∃ transmission pipe, sent[number]? = some transmission ∧
      tables.pipes.pipes[endpoint.index]? = some pipe ∧
      cast.PipeFits tree number transmission pipe ∧ endpoint.side = .first ∧
      ((∃ wait, tables.tryRead id endpoint rest.length = (.wait wait, tables)) ∨
        (pipe.on .first).inbound ≠ [] ∧ ∃ signals, tables.tryRead id endpoint rest.length =
          (.moved ((pipe.on .first).inbound.take rest.length), tables.settle
            ⟨(pipe.on .first).inbound.take rest.length, tables.pipes.setPipe endpoint.index
              (pipe.modify .first fun held =>
                { held with inbound := held.inbound.drop rest.length }), signals⟩)) := by
  obtain ⟨held, -, same⟩ := plays.moves _ _ _ rfl
  obtain ⟨transmission, pipe, found, -, holds, fit⟩ := fits.moving suits plays
  refine ⟨transmission, pipe, found, holds.found, fit, same, ?_⟩
  have outcome := Tables.readOutcome fits.sound.numbered holds asked
  generalize tables.tryRead id endpoint rest.length = result at outcome
  cases outcome with
  | waits wait => exact .inl ⟨wait, rfl⟩
  | takes filled signals =>
    simp only [same] at filled ⊢
    exact .inr ⟨filled, signals, rfl⟩
  | ends empty gone =>
    -- If the writer had closed its end, everything left would be in the queue.
    have stream := fit.stream rest held
    have silent : cast.left (number, .second) = none := by
      simpa [same, Side.peer, fit.isOpen] using gone
    rw [same] at empty
    simp [stream, empty, silent] at asked

/-- A reader gets all of its bytes sooner or later: it has them, just as they were sent, or it waits
for the rest of them. -/
theorem Fits.readExact (suits : tree.Suits sent) (fits : cast.Fits tree sent tables)
    (apart : ∀ launch ∈ tables.launches, launch.id ≠ id) {endpoint : Endpoint}
    {taken rest : Bytes} {missing : Nat} {actor : Actor} (count : missing = rest.length)
    (plays : cast.Plays tree sent id node (.move (number, .first) endpoint rest) actor) :
    ∃ after, Advances tree sent id node cast after
        (tables.readExact id endpoint taken missing).2 ∧
      ((tables.readExact id endpoint taken missing).1 = .finished (.ok (.bytes (taken ++ rest))) ∧
          after.Plays tree sent id node (.move (number, .first) endpoint []) actor ∨
        ∃ wait got left, taken ++ rest = got ++ left ∧
          (tables.readExact id endpoint taken missing).1 =
            .blocked ⟨.readExact endpoint got left.length, wait⟩ ∧
          after.Plays tree sent id node (.move (number, .first) endpoint left) actor) := by
  -- Each attempt that takes some bytes moves them from what is left to what was got.
  fun_induction Tables.readExact tables id endpoint taken missing generalizing cast rest with
  | case1 tables taken =>
    obtain rfl := List.eq_nil_of_length_eq_zero count.symm
    exact ⟨cast, ⟨.refl tree sent node cast, fits, apart⟩, .inl ⟨by simp, plays⟩⟩
  | case2 tables taken missing asked error reached attempt =>
    subst count
    obtain ⟨_, _, -, -, -, -, ⟨_, waits⟩ | ⟨-, _, takes⟩⟩ := fits.readable suits plays asked
    · simp [attempt] at waits
    · simp [attempt] at takes
  | case3 tables taken missing asked wait reached attempt =>
    subst count
    obtain ⟨_, _, -, -, -, -, ⟨_, waits⟩ | ⟨-, _, takes⟩⟩ := fits.readable suits plays asked
    · obtain ⟨-, rfl⟩ := Prod.mk.inj (attempt.symm.trans waits)
      exact ⟨cast, ⟨.refl tree sent node cast, fits, apart⟩, .inr ⟨_, taken, rest, rfl, rfl, plays⟩⟩
    · simp [attempt] at takes
  | case4 tables taken missing asked reached attempt =>
    subst count
    obtain ⟨_, pipe, -, -, -, -, ⟨_, waits⟩ | ⟨filled, _, takes⟩⟩ := fits.readable suits plays asked
    · simp [attempt] at waits
    · have none := Attempt.moved.inj (Prod.mk.inj (attempt.symm.trans takes)).1
      exact absurd none.symm (by simp [List.take_eq_nil_iff, asked, filled])
  | case5 tables taken missing asked byte bytes reached attempt ih =>
    subst count
    obtain ⟨_, pipe, found, there, fit, same, ⟨_, waits⟩ | ⟨filled, signals, takes⟩⟩ :=
      fits.readable suits plays asked
    · simp [attempt] at waits
    · obtain ⟨held, -, -⟩ := plays.moves _ _ _ rfl
      have effects := (tables.exchanges_tryRead id endpoint rest.length).effects
      rw [attempt] at effects
      obtain ⟨moved, rfl⟩ := Prod.mk.inj (attempt.symm.trans takes)
      replace moved := Attempt.moved.inj moved
      obtain ⟨left, split, fitToo⟩ := fit.read held rest.length
      have step := fits.put apart plays found there fitToo effects rfl rfl rfl
      rw [← moved] at split
      have fewer : rest.length - (bytes.length + 1) = left.length := by simp [split]
      obtain ⟨after, advances, ends⟩ :=
        ih step.fits step.apart fewer (plays.put suits (some left))
      have whole : taken ++ rest = taken ++ byte :: bytes ++ left := by
        rw [split, List.append_assoc]
      exact ⟨after, step.trans advances, whole ▸ ends⟩

/-- An end that has moved everything is closed on demand. -/
theorem Fits.close (suits : tree.Suits sent) (fits : cast.Fits tree sent tables)
    (apart : ∀ launch ∈ tables.launches, launch.id ≠ id) {leg : Leg} {endpoint : Endpoint}
    {actor : Actor} (plays : cast.Plays tree sent id node (.move leg endpoint []) actor) :
    ∃ after, Advances tree sent id node cast after (tables.closeEndpoint id endpoint).2 ∧
      (tables.closeEndpoint id endpoint).1 = .ok () ∧
      after.Plays tree sent id node .choice actor := by
  -- The end is the node's own and open, so closing it succeeds.
  obtain ⟨number, side⟩ := leg
  obtain ⟨held, -, same⟩ := plays.moves _ _ _ rfl
  obtain ⟨transmission, pipe, found, -, holds, fit⟩ := fits.moving suits plays
  have effects : Tables.Effects id tables (tables.closeEndpoint id endpoint).2 :=
    .single (.closes endpoint)
  have outcome := fits.sound.numbered.close_case id endpoint
  unfold Tables.closeEndpoint at effects ⊢
  dsimp only at same
  dsimp only at effects ⊢
  generalize tables.pipes.close id endpoint = served at outcome effects
  cases outcome with
  | refused foreign => exact absurd holds.owned (foreign pipe holds.found)
  | repeated found owned closed =>
    obtain rfl := Option.some.inj (found.symm.trans holds.found)
    simp [holds.opened] at closed
  | closes too =>
    obtain rfl := Option.some.inj (too.found.symm.trans holds.found)
    have step := fits.put apart plays found holds.found (fit.close held) effects
      (by rw [← same]; rfl) rfl rfl
    exact ⟨_, step, rfl, plays.put suits none⟩

end Progeny.Cast
