import Mathlib.Data.List.Forall2
import Progeny.Proofs.Session.Attempts
import Progeny.Proofs.Session.Parentage
import Progeny.Proofs.Text.Base64
import Progeny.Snapshot.Capture

/-! Captures are faithful: they show all records and all live pipes as these are, and tell states
apart that differ in any of them. -/

namespace Progeny

namespace Tables

variable {π : Type} {tables : Tables π} {caller : InstanceId} {endpoint : Endpoint} {pipe : Pipe}

/-- What an instance gets that reads from an endpoint again and again, at most so many bytes each
time, until it would have to wait or is refused. -/
def readsOn (tables : Tables π) (caller : InstanceId) (endpoint : Endpoint) : List Nat → Bytes
  | [] => []
  | limit :: limits =>
    match tables.perform caller (.read endpoint limit) with
    | (.finished (.ok (.bytes bytes)), after) => bytes ++ after.readsOn caller endpoint limits
    | _ => []

/-- To read no bytes is to do nothing. -/
theorem tryRead_zero (numbered : tables.pipes.Numbered)
    (holds : tables.pipes.Holds caller endpoint pipe) :
    tables.tryRead caller endpoint 0 = (.moved [], tables) := by
  have held := numbered.held_iff.mpr ⟨holds, rfl⟩
  simp [tryRead, PipeRegistry.readerWaitsOn, PipeRegistry.read, Pipe.read, held, Except.map,
    settle_self]

/-- Whoever holds an endpoint gets what is queued there, as far as it reads. -/
theorem readsOn_of_holds (numbered : tables.pipes.Numbered)
    (holds : tables.pipes.Holds caller endpoint pipe) (limits : List Nat) :
    tables.readsOn caller endpoint limits =
      (pipe.on endpoint.side).inbound.take limits.sum := by
  -- Each read takes its bytes from the front of what the reads before it have left.
  induction limits generalizing tables pipe with
  | nil => simp [readsOn]
  | cons limit limits ih =>
    by_cases asked : limit = 0
    · subst asked
      simp only [readsOn, perform, resume, tryRead_zero numbered holds, List.nil_append,
        List.sum_cons, Nat.zero_add]
      exact ih numbered holds
    have outcome := readOutcome numbered holds asked
    simp only [readsOn, perform, resume]
    generalize tables.tryRead caller endpoint limit = result at outcome
    cases outcome with
    | waits _ empty => simp [empty]
    | ends empty =>
      simp only [List.nil_append, ih numbered holds, empty, List.take_nil]
    | takes filled signals =>
      generalize shorter : (pipe.modify endpoint.side fun held =>
        { held with inbound := held.inbound.drop limit }) = changed
      have own : changed.on endpoint.side = { pipe.on endpoint.side with
          inbound := (pipe.on endpoint.side).inbound.drop limit } := by
        rw [← shorter, Pipe.on_modify]
      have kept : (tables.pipes.setPipe endpoint.index changed).Numbered := by
        apply numbered.setPipe holds.found
        intro side
        rw [← shorter]
        cases side <;> cases endpoint.side <;> rfl
      have still : (tables.pipes.setPipe endpoint.index changed).Holds caller endpoint changed := by
        refine ⟨?_, ?_, ?_⟩
        · rw [PipeRegistry.setPipe_found holds.found, if_pos rfl]
        · rw [own]
          exact holds.owned
        · rw [own]
          exact holds.opened
      have rest := @ih (tables.settle ⟨(pipe.on endpoint.side).inbound.take limit,
        tables.pipes.setPipe endpoint.index changed, signals⟩) changed kept still
      rw [own] at rest
      rw [List.sum_cons, List.take_add]
      exact congrArg _ rest

/-- Whoever does not hold an endpoint gets nothing. -/
theorem Sound.readsOn_of_unheld (sound : tables.Sound)
    (unheld : ⟨endpoint, caller, true⟩ ∉ tables.pipes.holdings) (limits : List Nat) :
    tables.readsOn caller endpoint limits = [] := by
  cases limits with
  | nil => rfl
  | cons limit limits =>
    -- The first read is refused, and there is no other.
    have refused := (sound.refuses unheld).begun (.read endpoint limit) _ rfl rfl
    simp [readsOn, refused]

end Tables

namespace PipeRegistry

variable {registry : PipeRegistry}

/-- The numbers of the pipes with an open end, where the pipes are numbered from one on in the order
of their creation. -/
def liveNumbers (registry : PipeRegistry) : List Nat :=
  ((registry.pipes.zipIdx 1).filter (·.1.isLive)).map Prod.snd

/-- A live pipe has the ends that its number tells. -/
theorem Numbered.ends_livePipes (numbered : registry.Numbered) :
    registry.livePipes.map (fun pipe =>
      (pipe.first.endpoint.word.toNat, pipe.second.endpoint.word.toNat)) =
        registry.liveNumbers.map fun number => (2 * number - 1, 2 * number) := by
  -- Both lists come from the pipes with their numbers.
  have live : registry.livePipes =
      ((registry.pipes.zipIdx 1).filter (·.1.isLive)).map Prod.fst := by
    rw [livePipes]
    conv_lhs => rw [← List.zipIdx_map_fst 1 registry.pipes]
    rw [List.filter_map]
    rfl
  rw [live, liveNumbers, List.map_map, List.map_map]
  apply List.map_congr_left
  rintro ⟨pipe, number⟩ listed
  obtain ⟨positive, found⟩ := List.mk_mem_zipIdx_iff_le_and_getElem?_sub.mp
    (List.mem_filter.mp listed).1
  have first := (pipe.on .first).endpoint.toNat_eq
  have second := (pipe.on .second).endpoint.toNat_eq
  rw [(numbered.ends found .first).1, (numbered.ends found .first).2] at first
  rw [(numbered.ends found .second).1, (numbered.ends found .second).2] at second
  simp only [Pipe.on] at first second
  simp only [Function.comp_apply, Prod.mk.injEq]
  omega

/-- The open ends of the live pipes are all open ends. -/
theorem Counted.eq_sum_livePipes (counted : registry.Counted) :
    registry.openEndpoints = (registry.livePipes.map Pipe.openEnds).sum := by
  rw [counted, livePipes]
  induction registry.pipes with
  | nil => rfl
  | cons pipe rest ih =>
    rw [List.map_cons, List.sum_cons, List.filter_cons, ih]
    split
    · rw [List.map_cons, List.sum_cons]
    · rename_i dead
      -- A pipe that is not live has no open end.
      have none : pipe.openEnds = 0 := by
        simp only [Pipe.isLive, Bool.or_eq_true, not_or, Bool.not_eq_true] at dead
        simp [Pipe.openEnds, dead.1, dead.2]
      rw [none, Nat.zero_add]

/-- Both ends of a pipe are among all ends. -/
theorem holding_mem {pipe : Pipe} (there : pipe ∈ registry.pipes) (side : Side) :
    (pipe.on side).holding ∈ registry.holdings := by
  apply List.mem_map_of_mem
  apply List.mem_flatMap.mpr
  refine ⟨pipe, there, ?_⟩
  cases side <;> simp [Pipe.ends, Pipe.on]

/-- The number of open ends fits into a word. -/
theorem Counted.lt (counted : registry.Counted) (numbered : registry.Numbered) :
    registry.openEndpoints < 2 ^ 64 := by
  have bound := counted.le
  have next := numbered.next
  have word := registry.nextEndpoint.word.toNat_lt
  omega

end PipeRegistry

namespace InstanceCapture

/-- Different records are captured differently. -/
theorem ofRecord_injective : Function.Injective ofRecord := by
  intro one other same
  cases one
  cases other
  simpa [ofRecord] using same

end InstanceCapture

namespace EndCapture

/-- The bytes that wait are read back from a capture. -/
theorem bufferedBytes?_ofEnd (held : PipeEnd) :
    (ofEnd held).bufferedBytes? = some held.inbound := by
  simp [ofEnd, bufferedBytes?, Base64.decode?_encode]

/-- Different ends are captured differently. -/
theorem ofEnd_injective : Function.Injective ofEnd := by
  intro one other same
  have bytes := bufferedBytes?_ofEnd one
  rw [same, bufferedBytes?_ofEnd] at bytes
  cases one
  cases other
  simp_all [ofEnd]

end EndCapture

/-- Different pipes are captured differently. -/
theorem PipeCapture.ofPipe_injective : Function.Injective ofPipe := by
  intro one other same
  obtain ⟨first, second⟩ := PipeCapture.mk.inj same
  cases one
  cases other
  simpa using ⟨EndCapture.ofEnd_injective first, EndCapture.ofEnd_injective second⟩

namespace Session

variable {π β σ : Type} {behaviour : Behaviour π β σ} {deeds : List (Deed π)}
  {session : Session π β σ}

/-- A capture shows a session with a history as it is. -/
structure Shows (deeds : List (Deed π)) (session : Session π β σ) (capture : Capture) : Prop where
  /-- Every instance that was ever created is listed once, with the identities from zero on. -/
  identities : capture.instances.map (fun captured => captured.id.word.toNat) =
    List.range (births deeds).length
  /-- It is listed with its record. -/
  records : capture.instances = session.tables.instances.records.map .ofRecord
  /-- It is listed with the instance that created it. -/
  parents : capture.instances.map (fun captured => (captured.id, captured.parent)) = births deeds
  /-- It is listed a generation below that one. -/
  depths : ∀ captured ∈ capture.instances,
    (captured.parent = none ∧ captured.depth = 0) ∨
      ∃ above ∈ capture.instances, captured.parent = some above.id ∧
        captured.depth = above.depth + 1
  /-- It is listed as running until it has ended, and then with its code and its fault. -/
  states : ∀ captured ∈ capture.instances,
    (captured.state = .running ∧ captured.fault = none ∧
        captured.id ∉ (endings deeds).map Prod.fst) ∨
      ∃ result, (captured.id, result) ∈ endings deeds ∧
        captured.state = .exited (Tables.ending result).1 ∧
        captured.fault = (Tables.ending result).2
  /-- Exactly the pipes with an open end are listed, in the order of their creation. -/
  pipes : capture.pipes = session.tables.pipes.livePipes.map .ofPipe
  /-- The ends of a pipe have the numbers that its own number tells. -/
  numbers : capture.pipes.map (fun pipe =>
    (pipe.first.endpoint.word.toNat, pipe.second.endpoint.word.toNat)) =
      session.tables.pipes.liveNumbers.map fun number => (2 * number - 1, 2 * number)
  /-- Pipes are numbered in the order in which they were asked for. -/
  creations : (origins deeds).map (fun (endpoint, _) => endpoint.word.toNat) =
    List.range' 1 (2 * session.tables.pipes.pipes.length)
  /-- As many ends are listed as open as are said to be. -/
  opened : (capture.pipes.flatMap PipeCapture.ends).countP EndCapture.isOpen =
    capture.openEndpoints.toNat
  /-- The bytes of an end are those that its owner gets by reading, and a closed end has none. -/
  buffers : ∀ pipe ∈ capture.pipes, ∀ held ∈ pipe.ends, ∃ bytes,
    held.bufferedBytes? = some bytes ∧ (held.isOpen = false → held.buffered = "") ∧
      ∀ limits, session.tables.readsOn held.owner held.endpoint limits = bytes.take limits.sum
  /-- Every owner is listed, and runs if its end is open. -/
  owners : ∀ pipe ∈ capture.pipes, ∀ held ∈ pipe.ends, ∃ owner ∈ capture.instances,
    owner.id = held.owner ∧ (held.isOpen = true → owner.state = .running)

/-- The ends that are captured are those of live pipes. -/
theorem exists_end_of_capture {pipe : PipeCapture} (there : pipe ∈ session.capture.pipes)
    {held : EndCapture} (listed : held ∈ pipe.ends) :
    ∃ source ∈ session.tables.pipes.pipes, ∃ side, held = .ofEnd (source.on side) := by
  obtain ⟨source, live, rfl⟩ := List.mem_map.mp there
  refine ⟨source, (List.mem_filter.mp live).1, ?_⟩
  simp only [PipeCapture.ends, PipeCapture.ofPipe, List.mem_cons, List.not_mem_nil,
    or_false] at listed
  rcases listed with rfl | rfl
  · exact ⟨.first, rfl⟩
  · exact ⟨.second, rfl⟩

/-- What an owner reads from an end is what is queued there, and a closed end has nothing. -/
theorem Orderly.readsOn (orderly : session.Orderly) (drained : session.tables.pipes.Drained)
    {pipe : Pipe} (there : pipe ∈ session.tables.pipes.pipes) (side : Side)
    (limits : List Nat) :
    session.tables.readsOn (pipe.on side).owner (pipe.on side).endpoint limits =
      (pipe.on side).inbound.take limits.sum := by
  have numbered := orderly.sound.numbered
  obtain ⟨position, found⟩ := List.mem_iff_getElem?.mp there
  obtain ⟨index, named⟩ := numbered.ends found side
  have place : session.tables.pipes.pipes[(pipe.on side).endpoint.index]? = some pipe := by
    rw [index]
    exact found
  cases opened : (pipe.on side).isOpen with
  | true =>
    have holds : session.tables.pipes.Holds (pipe.on side).owner (pipe.on side).endpoint pipe :=
      ⟨place, by rw [named], by rw [named]; exact opened⟩
    rw [Tables.readsOn_of_holds numbered holds, named]
  | false =>
    -- A closed end has nothing queued, and to read from it is refused.
    rw [drained pipe there side opened, List.take_nil]
    apply orderly.sound.readsOn_of_unheld
    intro held
    -- The end that the endpoint leads to is this one, and it is closed.
    obtain ⟨other, found, same⟩ := numbered.mem_holdings.mp held
    obtain rfl := Option.some.inj (place.symm.trans found)
    have closed := congrArg Holding.isOpen same
    simp [PipeEnd.holding, named, opened] at closed

/-- As many ends of live pipes are captured as open as there are open ends. -/
theorem countP_capture (counted : session.tables.pipes.Counted) :
    (session.capture.pipes.flatMap PipeCapture.ends).countP EndCapture.isOpen =
      session.tables.pipes.openEndpoints := by
  rw [counted.eq_sum_livePipes]
  show ((session.tables.pipes.livePipes.map PipeCapture.ofPipe).flatMap _).countP _ = _
  -- Each pipe contributes its own open ends on both sides.
  induction session.tables.pipes.livePipes with
  | nil => rfl
  | cons pipe rest ih =>
    rw [List.map_cons, List.flatMap_cons, List.countP_append, ih, List.map_cons, List.sum_cons]
    congr 1
    cases first : pipe.first.isOpen <;> cases second : pipe.second.isOpen <;>
      simp [Pipe.openEnds, PipeCapture.ends, PipeCapture.ofPipe, EndCapture.ofEnd, first, second]

/-- What is captured of an instance is captured of its record. -/
theorem exists_record_of_capture {captured : InstanceCapture}
    (there : captured ∈ session.capture.instances) :
    ∃ record ∈ session.tables.instances.records, captured = .ofRecord record := by
  obtain ⟨record, member, rfl⟩ := List.mem_map.mp there
  exact ⟨record, member, rfl⟩

/-- Every instance but the first is captured a generation below its parent. -/
theorem History.depth_shown (history : History behaviour .confined deeds session)
    {record : InstanceRecord} (member : record ∈ session.tables.instances.records) :
    (record.parent = none ∧ record.depth = 0) ∨
      ∃ above ∈ session.capture.instances, record.parent = some above.id ∧
        record.depth = above.depth + 1 := by
  have places := history.family.places record member
  generalize record.parent = parent, record.depth = depth at places
  cases places with
  | first => exact .inl ⟨rfl, rfl⟩
  | @below parent above found =>
    have own := history.steady.orderly.sound.indexed.id_of_find? found
    refine .inr ⟨.ofRecord above, List.mem_map_of_mem (List.mem_of_find?_eq_some found), ?_, rfl⟩
    rw [← own]
    rfl

/-- The owner of an end is captured, and it runs if the end is open. -/
theorem History.owner_shown (history : History behaviour .confined deeds session) {pipe : Pipe}
    (there : pipe ∈ session.tables.pipes.pipes) (side : Side) :
    ∃ owner ∈ session.capture.instances, owner.id = (pipe.on side).owner ∧
      ((pipe.on side).isOpen = true → owner.state = .running) := by
  have indexed := history.steady.orderly.sound.indexed
  have ours := PipeRegistry.holding_mem there side
  obtain ⟨record, recorded, own⟩ := List.mem_map.mp (history.owner_recorded _ ours)
  refine ⟨.ofRecord record, List.mem_map_of_mem recorded, own, fun opened => ?_⟩
  -- Under one identity there is one record.
  obtain ⟨other, found, state⟩ :=
    indexed.mem_running.mp (history.guarded.owners _ ours opened)
  rw [← own, indexed.find?_of_mem recorded] at found
  obtain rfl := Option.some.inj found
  exact state

/-- In every history the capture shows the session as it is. -/
theorem History.shows (history : History behaviour .confined deeds session) :
    Shows deeds session session.capture := by
  have orderly := history.steady.orderly
  have sound := orderly.sound
  have family := history.family
  have guarded := history.guarded
  have born : session.capture.instances.map (fun captured => (captured.id, captured.parent)) =
      births deeds := by
    rw [← family.born]
    exact List.map_map
  refine ⟨?_, rfl, born, ?_, ?_, rfl, ?_, ?_, ?_, ?_, ?_⟩
  · rw [← family.born, List.length_map]
    show List.map _ (List.map _ _) = _
    rw [List.map_map]
    exact sound.indexed.numbers
  · intro captured there
    obtain ⟨record, member, rfl⟩ := exists_record_of_capture there
    exact history.depth_shown member
  · intro captured there
    obtain ⟨record, member, rfl⟩ := exists_record_of_capture there
    cases history.accounted.told record member with
    | runs state fault unended => exact .inl ⟨state, fault, unended⟩
    | exited ended state fault => exact .inr ⟨_, ended, state, fault⟩
  · show List.map _ (List.map _ _) = _
    rw [List.map_map]
    exact sound.numbered.ends_livePipes
  · have created := congrArg (List.map fun endpoint : Endpoint => endpoint.word.toNat)
      history.originated.created
    rw [List.map_map, List.map_map] at created
    exact created.trans sound.numbered.numbers
  · rw [countP_capture sound.counted]
    exact (UInt64.toNat_ofNat_of_lt' (sound.counted.lt sound.numbered)).symm
  · intro pipe there held listed
    obtain ⟨source, member, side, rfl⟩ := exists_end_of_capture there listed
    refine ⟨(source.on side).inbound, EndCapture.bufferedBytes?_ofEnd _, ?_, ?_⟩
    · intro closed
      show String.ofList (Base64.encode (source.on side).inbound) = ""
      rw [guarded.drained source member side closed]
      rfl
    · exact orderly.readsOn guarded.drained member side
  · intro pipe there held listed
    obtain ⟨source, member, side, rfl⟩ := exists_end_of_capture there listed
    exact history.owner_shown member side

/-- Captures are faithful. Whatever instances have done in a session, the capture of it shows it as
it is: all instances with what they are, all live pipes with their ends and with the bytes that
would be read next, and every owner among the instances. So of two sessions after as many polls the
captures are equal, which are their snapshots but for name and time, exactly if their records are
equal and their live pipes are. -/
theorem captures_faithful (history : History behaviour .confined deeds session) :
    Shows deeds session session.capture ∧
    ∀ {π' β' σ' : Type} {other : Behaviour π' β' σ'} {more : List (Deed π')}
      {later : Session π' β' σ'}, History other .confined more later →
      later.consumedSteps = session.consumedSteps →
      (later.capture = session.capture ↔
        later.tables.instances.records = session.tables.instances.records ∧
          later.tables.pipes.livePipes = session.tables.pipes.livePipes) := by
  refine ⟨history.shows, ?_⟩
  intro π' β' σ' other more later historyToo steps
  constructor
  · intro same
    constructor
    · exact List.map_injective_iff.mpr InstanceCapture.ofRecord_injective
        (congrArg Capture.instances same)
    · exact List.map_injective_iff.mpr PipeCapture.ofPipe_injective
        (congrArg Capture.pipes same)
  · intro same
    obtain ⟨records, pipes⟩ := same
    -- The live pipes tell how many ends are open.
    have opened : later.tables.pipes.openEndpoints = session.tables.pipes.openEndpoints := by
      rw [historyToo.steady.orderly.sound.counted.eq_sum_livePipes, pipes]
      exact history.steady.orderly.sound.counted.eq_sum_livePipes.symm
    unfold Session.capture Tables.capture
    rw [steps, opened, records, pipes]

/-- The first instance creates a pipe, and then it puts a letter into it. -/
theorem exists_letter : ∃ (deeds more : List (Deed Unit)) (session later : Session Unit Unit Unit),
    History quiet .confined deeds session ∧ History quiet .confined more later ∧
    later.consumedSteps = session.consumedSteps ∧
    session.tables.pipes.livePipes =
      [⟨⟨.first, .root, true, []⟩, ⟨⟨2, by decide⟩, .root, true, []⟩⟩] ∧
    later.tables.pipes.livePipes =
      [⟨⟨.first, .root, true, [7]⟩, ⟨⟨2, by decide⟩, .root, true, []⟩⟩] := by
  have started := (history_solo quiet .confined).step (.starts rfl rfl rfl)
  have polled := started.step (.polls rfl rfl (.head _))
  have piped := polled.step (.calls ⟨by decide, by decide⟩
    (rfl : Tables.perform _ .root .pipe = _))
  have written := piped.step (.calls ⟨by decide, by decide⟩
    (rfl : Tables.perform _ .root (.write ⟨2, by decide⟩ [7]) = _))
  exact ⟨_, _, _, _, piped, written, rfl, rfl, rfl⟩

/-- The letter can be read from the capture, which tells the session from what it was before. -/
theorem captures_faithful_of_letter : ∃ (deeds more : List (Deed Unit))
    (session later : Session Unit Unit Unit),
    History quiet .confined deeds session ∧ History quiet .confined more later ∧
    later.consumedSteps = session.consumedSteps ∧ Shows more later later.capture ∧
    (∃ pipe ∈ later.capture.pipes, pipe.first.bufferedBytes? = some [7]) ∧
    later.capture ≠ session.capture := by
  obtain ⟨deeds, more, session, later, history, written, steps, before, after⟩ := exists_letter
  obtain ⟨-, differ⟩ := captures_faithful history
  obtain ⟨shows, -⟩ := captures_faithful written
  refine ⟨deeds, more, session, later, history, written, steps, shows, ?_, ?_⟩
  · rw [shows.pipes, after]
    exact ⟨_, .head _, EndCapture.bufferedBytes?_ofEnd _⟩
  · intro same
    have pipes := ((differ written steps).mp same).2
    rw [before, after] at pipes
    exact absurd pipes (by decide)

end Session

end Progeny
