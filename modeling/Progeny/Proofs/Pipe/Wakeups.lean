import Progeny.Proofs.Pipe.Directions

/-! Signals are complete and minimal: a call signals exactly the ends that it moves bytes for or
that lie on a pipe of which it closes an end, and so it releases everybody whose wait it has
ended. -/

namespace Progeny.PipeRegistry

variable {registry : PipeRegistry} {caller : InstanceId} {endpoint source : Endpoint}

namespace Numbered

variable (numbered : registry.Numbered)
include numbered

/-- The endpoints of a pipe are those of one end and of the end across. -/
theorem mem_both {pipe : Pipe} {closing : Endpoint}
    (found : registry.pipes[closing.index]? = some pipe) :
    endpoint ∈ [pipe.first.endpoint, pipe.second.endpoint] ↔
      endpoint = closing ∨ closing.peer? = some endpoint := by
  have own := numbered.endpoint_of_found found
  rw [numbered.peer?_of_found found, Option.some_inj]
  cases named : closing.side with
  | first =>
    simp only [named, Pipe.on, Side.peer] at own ⊢
    simp [own, eq_comm]
  | second =>
    simp only [named, Pipe.on, Side.peer] at own ⊢
    simp [own, eq_comm, or_comm]

/-- Closing ends in a row signals both ends of each pipe of which an end was closed. -/
theorem mem_closeAll_signals (endpoints : List Endpoint) :
    endpoint ∈ (registry.closeAll endpoints).2 ↔
      ∃ closed, registry.Closes (registry.closeAll endpoints).1 closed ∧
        (endpoint = closed ∨ closed.peer? = some endpoint) := by
  -- An end is closed by the first of the list or by the rest.
  induction endpoints generalizing registry with
  | nil => simp [closeAll, Closes]
  | cons closing rest ih =>
    simp only [closeAll]
    cases found : registry.pipes[closing.index]? with
    | none =>
      rw [numbered.closeOpen_of_none found]
      simpa using ih numbered
    | some pipe =>
      rw [numbered.closeOpen_eq found]
      split
      · rename_i opened
        have later := numbered.shut found
        have steps (closed : Endpoint) :
            registry.Closes ((registry.shut closing pipe).closeAll rest).1 closed ↔
              closed = closing ∨ (registry.shut closing pipe).Closes
                ((registry.shut closing pipe).closeAll rest).1 closed := by
          rw [← numbered.closes_shut found opened]
          exact closes_trans (fun shut => IsShut.announced shut (.shut found))
            fun shut => IsShut.announced shut (Announced.closeAll later rest).2
        simp only [List.mem_append, numbered.mem_both found, ih later, steps, or_and_right,
          exists_or, exists_eq_left]
      · simpa using ih numbered

/-- Gifts close no end. -/
theorem not_closes_transfer (endpoints : List Endpoint) (heir : InstanceId) :
    ¬registry.Closes (registry.transfer endpoints heir) endpoint := by
  rintro ⟨opened, shut⟩
  rw [(Announced.transfer numbered endpoints heir).1.isShut_iff,
    numbered.holdings_transfer] at shut
  obtain ⟨owner, listed⟩ := shut
  -- The end was as open before it was given away.
  obtain ⟨⟨named, holder, isOpen⟩, before, same⟩ := List.mem_map.mp listed
  simp only [Holding.give, Holding.mk.injEq] at same
  obtain ⟨rfl, -, rfl⟩ := same
  exact opened (numbered.isShut_iff.mpr ⟨holder, before⟩)

/-- A new pipe closes no end. -/
theorem not_closes_extend {first second next : Endpoint} {owner : InstanceId}
    (later : (registry.extend first second next owner).Numbered) :
    ¬registry.Closes (registry.extend first second next owner) endpoint := by
  rintro ⟨opened, shut⟩
  rw [later.isShut_iff, holdings_extend] at shut
  obtain ⟨holder, listed⟩ := shut
  -- The ends of the new pipe are open, and all others are as open as before.
  rcases List.mem_append.mp listed with older | newer
  · exact opened (numbered.isShut_iff.mpr ⟨holder, older⟩)
  · simp [Holding.both] at newer

/-- A read signals the end that it delivers bytes from. -/
theorem mem_read_signals (caller : InstanceId) (source : Endpoint) (limit : Nat) :
    endpoint ∈ (registry.read caller source limit).signals ↔
      (PipeCall.read caller source limit).delivered registry endpoint ≠ [] := by
  simp only [PipeCall.delivered]
  have outcome := numbered.read_case caller source limit
  generalize registry.read caller source limit = served at outcome ⊢
  cases outcome with
  | takes _ asked filled =>
    -- The bytes taken are some, since neither the queue nor the limit is empty.
    by_cases same : source = endpoint
    · simp [same, List.take_eq_nil_iff, asked, same ▸ filled]
    · simp [same, Ne.symm same]
  | _ => simp

/-- A write signals the end that it puts bytes into. -/
theorem mem_write_signals (caller : InstanceId) (target : Endpoint) (data : Bytes) :
    endpoint ∈ (registry.write caller target data).signals ↔
      ∃ source, source.peer? = some endpoint ∧
        (PipeCall.write caller target data).accepted registry source ≠ [] := by
  simp only [PipeCall.accepted]
  have outcome := numbered.write_case caller target data
  generalize registry.write caller target data = served at outcome ⊢
  cases outcome with
  | puts holds _ offered room =>
    -- Something fits, and it goes to the end across from the writer.
    have across := numbered.peer?_of_found holds.found
    have filled : data.length ≠ 0 := by simpa using offered
    constructor
    · intro signalled
      rw [List.mem_singleton] at signalled
      refine ⟨target, by rw [across, signalled], ?_⟩
      simp only [if_pos, ne_eq, List.take_eq_nil_iff, not_or]
      exact ⟨by omega, offered⟩
    · rintro ⟨source, faces, moved⟩
      by_cases same : target = source
      · subst same
        rw [across, Option.some_inj] at faces
        simp [faces]
      · exact absurd (if_neg same) moved
  | _ => simp

/-- A call signals the end that it delivers bytes from, the end that it puts bytes into, and both
ends of each pipe of which it closes an end. -/
theorem mem_signals (call : PipeCall) : endpoint ∈ call.signals registry ↔
    call.delivered registry endpoint ≠ [] ∨
      (∃ source, source.peer? = some endpoint ∧ call.accepted registry source ≠ []) ∨
      ∃ closed, registry.Closes (call.run registry) closed ∧
        (endpoint = closed ∨ closed.peer? = some endpoint) := by
  -- No call does two of these things, so for each the other two are excluded.
  have later := (numbered.run call).1
  cases call with
  | create owner =>
    simp only [PipeCall.signals, PipeCall.run, PipeCall.delivered, PipeCall.accepted] at later ⊢
    have outcome := numbered.create_case owner
    generalize registry.create owner = served at outcome later ⊢
    cases outcome with
    | refused => simp [Closes]
    | creates => simp [numbered.not_closes_extend later]
  | read caller source limit =>
    have still (closed : Endpoint) :
        ¬registry.Closes (registry.read caller source limit).registry closed :=
      numbered.not_closes later (numbered.read_case caller source limit).holdings
    simp [PipeCall.signals, PipeCall.run, PipeCall.accepted, still, numbered.mem_read_signals]
  | write caller target data =>
    have still (closed : Endpoint) :
        ¬registry.Closes (registry.write caller target data).registry closed :=
      numbered.not_closes later (numbered.write_case caller target data).holdings
    simp [PipeCall.signals, PipeCall.run, PipeCall.delivered, still, numbered.mem_write_signals]
  | close caller closing =>
    simp only [PipeCall.signals, PipeCall.run, PipeCall.delivered, PipeCall.accepted, ne_eq,
      not_true_eq_false, and_false, exists_false, false_or]
    have outcome := numbered.close_case caller closing
    generalize registry.close caller closing = served at outcome ⊢
    cases outcome with
    | closes holds =>
      simp only [numbered.closes_shut holds.found holds.opened, exists_eq_left,
        numbered.mem_both holds.found]
    | _ => simp [Closes]
  | closeOwnedBy owner =>
    simpa [PipeCall.signals, PipeCall.run, PipeCall.delivered, PipeCall.accepted, closeOwnedBy]
      using numbered.mem_closeAll_signals (registry.ownedBy owner)
  | checkTransfer =>
    simp [PipeCall.signals, PipeCall.run, PipeCall.delivered, PipeCall.accepted, Closes]
  | transfer endpoints heir =>
    simp [PipeCall.signals, PipeCall.run, PipeCall.delivered, PipeCall.accepted,
      numbered.not_closes_transfer]

/-- A history of calls signals the end that it delivers bytes from, the end that it puts bytes into,
and both ends of each pipe of which it closes an end. -/
theorem mem_signalled (calls : List PipeCall) : endpoint ∈ registry.signalled calls ↔
    registry.deliveredOn endpoint calls ≠ [] ∨
      (∃ source, source.peer? = some endpoint ∧ registry.acceptedOn source calls ≠ []) ∨
      ∃ closed, registry.Closes (registry.after calls) closed ∧
        (endpoint = closed ∨ closed.peer? = some endpoint) := by
  -- What a history does is done by its first call or by the others.
  induction calls generalizing registry with
  | nil => simp [signalled, deliveredOn, acceptedOn, after, Closes]
  | cons call rest ih =>
    obtain ⟨later, announced⟩ := numbered.run call
    have delivers : registry.deliveredOn endpoint (call :: rest) ≠ [] ↔
        call.delivered registry endpoint ≠ [] ∨
          (call.run registry).deliveredOn endpoint rest ≠ [] := by
      simp [deliveredOn, Classical.or_iff_not_imp_left]
    have accepts (source : Endpoint) : registry.acceptedOn source (call :: rest) ≠ [] ↔
        call.accepted registry source ≠ [] ∨ (call.run registry).acceptedOn source rest ≠ [] := by
      simp [acceptedOn, Classical.or_iff_not_imp_left]
    have closes (closed : Endpoint) : registry.Closes (registry.after (call :: rest)) closed ↔
        registry.Closes (call.run registry) closed ∨
          (call.run registry).Closes ((call.run registry).after rest) closed :=
      closes_trans (fun shut => shut.announced announced) fun shut => shut.after later rest
    rw [signalled, List.mem_append, numbered.mem_signals, ih later, delivers]
    simp only [accepts, closes, and_or_left (a := _ = some endpoint), or_and_right, exists_or]
    rw [or_or_or_comm, or_or_or_comm (b := ∃ closed, _)]

/-- A reader waits on the endpoint that it holds and reads. -/
theorem readerWaitsOn_iff : registry.readerWaitsOn caller endpoint = .ok source ↔
    (∃ pipe, registry.Holds caller endpoint pipe) ∧ source = endpoint := by
  unfold readerWaitsOn
  rcases numbered.held_cases caller endpoint with ⟨pipe, holds, outcome⟩ | ⟨unheld, outcome⟩
  · simp [outcome, Except.map, numbered.endpoint_of_found holds.found, eq_comm,
      show ∃ pipe, registry.Holds caller endpoint pipe from ⟨pipe, holds⟩]
  · simp [outcome, Except.map, unheld]

/-- A writer waits on the endpoint across from the one that it holds. -/
theorem writerWaitsOn_iff : registry.writerWaitsOn caller endpoint = .ok source ↔
    (∃ pipe, registry.Holds caller endpoint pipe) ∧ endpoint.peer? = some source := by
  unfold writerWaitsOn
  rcases numbered.held_cases caller endpoint with ⟨pipe, holds, outcome⟩ | ⟨unheld, outcome⟩
  · simp [outcome, Except.map, numbered.peer?_of_found holds.found,
      show ∃ pipe, registry.Holds caller endpoint pipe from ⟨pipe, holds⟩]
  · simp [outcome, Except.map, unheld]

/-- A read of some bytes waits exactly if nothing is queued for its caller yet. -/
theorem read_waits_iff {limit : Nat} (asked : limit ≠ 0) :
    (registry.read caller endpoint limit).result = .ok none ↔
      ∃ pipe, registry.Holds caller endpoint pipe ∧ (pipe.on endpoint.side).inbound = [] ∧
        (pipe.on endpoint.side.peer).isOpen = true := by
  -- Each of the other outcomes has a reason that excludes waiting.
  have outcome := numbered.read_case caller endpoint limit
  generalize registry.read caller endpoint limit = served at outcome ⊢
  cases outcome with
  | refused unheld => simp [unheld]
  | waits holds _ empty expected => simpa using ⟨_, holds, empty, expected⟩
  | ends holds reason =>
    obtain ⟨_, closed⟩ := reason.resolve_left asked
    simp only [Except.ok.injEq, reduceCtorEq, false_iff, not_exists, not_and]
    intro other holdsToo _ opened
    obtain rfl := Option.some.inj (holds.found.symm.trans holdsToo.found)
    simp [closed] at opened
  | takes holds _ filled =>
    simp only [Except.ok.injEq, reduceCtorEq, false_iff, not_exists, not_and]
    intro other holdsToo empty
    obtain rfl := Option.some.inj (holds.found.symm.trans holdsToo.found)
    exact absurd empty filled

/-- A write of some bytes waits exactly if there is no room for them yet. -/
theorem write_waits_iff {data : Bytes} (offered : data ≠ []) :
    (registry.write caller endpoint data).result = .ok none ↔
      ∃ pipe, registry.Holds caller endpoint pipe ∧
        (pipe.on endpoint.side.peer).isOpen = true ∧
        registry.capacity.toNat ≤ (pipe.on endpoint.side.peer).inbound.length := by
  -- As for reads, each of the other outcomes excludes waiting.
  have outcome := numbered.write_case caller endpoint data
  generalize registry.write caller endpoint data = served at outcome ⊢
  cases outcome with
  | refused unheld => simp [unheld]
  | broken holds gone =>
    simp only [reduceCtorEq, false_iff, not_exists, not_and]
    intro other holdsToo opened
    obtain rfl := Option.some.inj (holds.found.symm.trans holdsToo.found)
    simp [gone] at opened
  | nothing _ _ none => exact absurd none offered
  | waits holds expected _ full => simpa using ⟨_, holds, expected, full⟩
  | puts holds _ _ room =>
    simp only [Except.ok.injEq, reduceCtorEq, false_iff, not_exists, not_and]
    intro other holdsToo _ full
    obtain rfl := Option.some.inj (holds.found.symm.trans holdsToo.found)
    omega

/-- Whatever ends the wait of a reader, except for gifts, signals the end that is read. -/
theorem reader_released {call : PipeCall}
    (gift : ∀ endpoints heir, call ≠ .transfer endpoints heir) {limit : Nat} (asked : limit ≠ 0)
    (waits : (registry.read caller endpoint limit).result = .ok none)
    (released : ((call.run registry).read caller endpoint limit).result ≠ .ok none) :
    endpoint ∈ call.signals registry := by
  obtain ⟨pipe, holds, empty, expected⟩ := (numbered.read_waits_iff asked).mp waits
  obtain ⟨later, announced⟩ := numbered.run call
  obtain ⟨changed, there, keeps⟩ := announced.kept holds.found
  -- Without a signal the queue is as empty, and both ends are as open, as they were.
  by_contra silent
  obtain ⟨inbound, own, across⟩ := keeps.quiet endpoint.side (by
    rw [numbered.endpoint_of_found holds.found]
    exact silent)
  have still : (call.run registry).Holds caller endpoint changed :=
    ⟨there, numbered.owner_run gift holds there, own.trans holds.opened⟩
  exact released ((later.read_waits_iff asked).mpr
    ⟨changed, still, inbound.trans empty, across.trans expected⟩)

/-- Whatever ends the wait of a writer, except for gifts, signals the end that is written to. -/
theorem writer_released {call : PipeCall}
    (gift : ∀ endpoints heir, call ≠ .transfer endpoints heir) {data : Bytes}
    (offered : data ≠ []) (waits : (registry.write caller endpoint data).result = .ok none)
    (released : ((call.run registry).write caller endpoint data).result ≠ .ok none)
    (across : endpoint.peer? = some source) : source ∈ call.signals registry := by
  obtain ⟨pipe, holds, expected, full⟩ := (numbered.write_waits_iff offered).mp waits
  obtain ⟨later, announced⟩ := numbered.run call
  obtain ⟨changed, there, keeps⟩ := announced.kept holds.found
  rw [numbered.peer?_of_found holds.found, Option.some_inj] at across
  subst across
  -- Without a signal the queue across is as full, and both ends are as open, as they were.
  by_contra silent
  obtain ⟨inbound, peer, own⟩ := keeps.quiet endpoint.side.peer silent
  rw [Side.peer_peer] at own
  have still : (call.run registry).Holds caller endpoint changed :=
    ⟨there, numbered.owner_run gift holds there, own.trans holds.opened⟩
  refine released ((later.write_waits_iff offered).mpr
    ⟨changed, still, peer.trans expected, ?_⟩)
  rw [announced.capacity, inbound]
  exact full

/-- A call that moves bytes through one queue signals no other. -/
theorem signals_of_queue {call : PipeCall} {moved : Endpoint} (queue : call.queue? = some moved)
    (signalled : endpoint ∈ call.signals registry) : endpoint = moved := by
  -- Reads and writes signal one end at most, and it is the one whose queue changed.
  cases call with
  | read caller source limit =>
    obtain rfl := Option.some.inj queue
    simp only [PipeCall.signals] at signalled
    have outcome := numbered.read_case caller source limit
    generalize registry.read caller source limit = served at outcome signalled
    cases outcome with
    | takes => exact List.mem_singleton.mp signalled
    | _ => simp at signalled
  | write caller target data =>
    simp only [PipeCall.signals] at signalled
    have outcome := numbered.write_case caller target data
    generalize registry.write caller target data = served at outcome signalled
    cases outcome with
    | puts holds =>
      rw [PipeCall.queue?, numbered.peer?_of_found holds.found, Option.some_inj] at queue
      exact (List.mem_singleton.mp signalled).trans queue
    | _ => simp at signalled
  | _ => simp [PipeCall.queue?] at queue

end Numbered

/-- Signals are complete and minimal. In any state that calls lead to, a call signals exactly the
end that it delivers bytes from, the end that it puts bytes into, and both ends of each pipe of
which it closes an end. So whatever ends the wait of a reader or of a writer, if it is no gift,
signals the source that its caller was ever given to wait on, and bytes that move through one queue
release neither those that read from another nor those that write into another. -/
theorem wakeups_exact (capacity maxEndpoints : UInt64) (calls : List PipeCall) (call : PipeCall) :
    let start := fresh capacity maxEndpoints
    let registry := start.after calls
    let signals := call.signals registry
    (∀ endpoint, endpoint ∈ signals ↔
      call.delivered registry endpoint ≠ [] ∨
      (∃ source, source.peer? = some endpoint ∧ call.accepted registry source ≠ []) ∨
      ∃ closed, registry.Closes (call.run registry) closed ∧
        (endpoint = closed ∨ closed.peer? = some endpoint)) ∧
    ((∀ endpoints heir, call ≠ .transfer endpoints heir) → ∀ caller endpoint,
      (∀ limit, limit ≠ 0 → (registry.read caller endpoint limit).result = .ok none →
        ((call.run registry).read caller endpoint limit).result ≠ .ok none →
        (∃ source, registry.readerWaitsOn caller endpoint = .ok source) ∧
        ∀ earlier, earlier <+: calls → ∀ source,
          (start.after earlier).readerWaitsOn caller endpoint = .ok source → source ∈ signals) ∧
      (∀ data, data ≠ [] → (registry.write caller endpoint data).result = .ok none →
        ((call.run registry).write caller endpoint data).result ≠ .ok none →
        (∃ source, registry.writerWaitsOn caller endpoint = .ok source) ∧
        ∀ earlier, earlier <+: calls → ∀ source,
          (start.after earlier).writerWaitsOn caller endpoint = .ok source → source ∈ signals)) ∧
    ∀ moved, call.queue? = some moved → ∀ earlier, earlier <+: calls →
      ∀ caller endpoint source,
      ((start.after earlier).readerWaitsOn caller endpoint = .ok source → endpoint ≠ moved →
        source ∉ signals) ∧
      ((start.after earlier).writerWaitsOn caller endpoint = .ok source →
        endpoint.peer? ≠ some moved → source ∉ signals) := by
  intro start registry signals
  have numbered (history : List PipeCall) : (start.after history).Numbered :=
    (balanced_after capacity maxEndpoints history).numbered
  have here : registry.Numbered := numbered calls
  refine ⟨fun endpoint => here.mem_signals call, fun gift caller endpoint => ⟨?_, ?_⟩, ?_⟩
  · intro limit asked waits released
    obtain ⟨pipe, holds, -⟩ := (here.read_waits_iff asked).mp waits
    refine ⟨⟨endpoint, here.readerWaitsOn_iff.mpr ⟨⟨pipe, holds⟩, rfl⟩⟩, ?_⟩
    intro earlier _ source given
    obtain rfl := ((numbered earlier).readerWaitsOn_iff.mp given).2
    exact here.reader_released gift asked waits released
  · intro data offered waits released
    obtain ⟨pipe, holds, -⟩ := (here.write_waits_iff offered).mp waits
    refine ⟨⟨_, here.writerWaitsOn_iff.mpr ⟨⟨pipe, holds⟩, here.peer?_of_found holds.found⟩⟩, ?_⟩
    intro earlier _ source given
    have across := ((numbered earlier).writerWaitsOn_iff.mp given).2
    exact here.writer_released gift offered waits released across
  · intro moved queue earlier _ caller endpoint source
    refine ⟨fun given apart signalled => ?_, fun given apart signalled => ?_⟩
    · obtain rfl := ((numbered earlier).readerWaitsOn_iff.mp given).2
      exact apart (here.signals_of_queue queue signalled)
    · have across := ((numbered earlier).writerWaitsOn_iff.mp given).2
      exact apart (by rw [across, here.signals_of_queue queue signalled])

/-- A writer waits at a full queue until the byte in it is read, and is released by that. -/
theorem wakeups_exact_of_drained_queue :
    let calls : List PipeCall := [.create .root, .write .root .first [10]]
    let drains : PipeCall := .read .root ⟨2, by decide⟩ 1
    let registry := (fresh 1 4).after calls
    (registry.write .root .first [20]).result = .ok none ∧
      ((drains.run registry).write .root .first [20]).result = .ok (some 1) ∧
      registry.writerWaitsOn .root .first = .ok ⟨2, by decide⟩ ∧
      ⟨2, by decide⟩ ∈ drains.signals registry := by
  -- The only byte of room is taken, and the reader gives it back.
  intro calls drains registry
  have waits : (registry.write .root .first [20]).result = .ok none := by decide
  have goesOn : ((drains.run registry).write .root .first [20]).result = .ok (some 1) := by decide
  have source : registry.writerWaitsOn .root .first = .ok ⟨2, by decide⟩ := by decide
  have released := ((wakeups_exact 1 4 calls drains).2.1 (by simp [drains]) .root .first).2
    [20] (by decide) waits (by rw [goesOn]; simp)
  exact ⟨waits, goesOn, source, released.2 calls (List.prefix_refl _) _ source⟩

end Progeny.PipeRegistry
