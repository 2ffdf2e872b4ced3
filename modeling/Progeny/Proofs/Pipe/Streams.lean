import Progeny.Proofs.Pipe.Signals

/-! Each direction of a pipe is a queue: over any history of calls, what was written to one end is
what was read from the other, followed by what still waits there. -/

namespace Progeny

/-- A call to the registry of pipes, on behalf of some instance. -/
inductive PipeCall where
  | create (owner : InstanceId)
  | read (caller : InstanceId) (endpoint : Endpoint) (limit : Nat)
  | write (caller : InstanceId) (endpoint : Endpoint) (data : Bytes)
  | close (caller : InstanceId) (endpoint : Endpoint)
  | closeOwnedBy (owner : InstanceId)
  | checkTransfer (caller : InstanceId) (endpoints : List Endpoint)
  | transfer (endpoints : List Endpoint) (owner : InstanceId)
  deriving DecidableEq

namespace PipeCall

/-- The registry after a call. -/
def run (registry : PipeRegistry) : PipeCall → PipeRegistry
  | .create owner => (registry.create owner).registry
  | .read caller endpoint limit => (registry.read caller endpoint limit).registry
  | .write caller endpoint data => (registry.write caller endpoint data).registry
  | .close caller endpoint => (registry.close caller endpoint).registry
  | .closeOwnedBy owner => (registry.closeOwnedBy owner).registry
  | .checkTransfer _ _ => registry
  | .transfer endpoints owner => registry.transfer endpoints owner

/-- The endpoints that a call signals. -/
def signals (registry : PipeRegistry) : PipeCall → List Endpoint
  | .create owner => (registry.create owner).signals
  | .read caller endpoint limit => (registry.read caller endpoint limit).signals
  | .write caller endpoint data => (registry.write caller endpoint data).signals
  | .close caller endpoint => (registry.close caller endpoint).signals
  | .closeOwnedBy owner => (registry.closeOwnedBy owner).signals
  | .checkTransfer _ _ => []
  | .transfer _ _ => []

/-- The bytes that a call has taken for an endpoint: the accepted part of what it wrote there. -/
def accepted (registry : PipeRegistry) (endpoint : Endpoint) : PipeCall → Bytes
  | .write caller target data =>
    if target = endpoint then
      match (registry.write caller target data).result with
      | .ok (some count) => data.take count
      | _ => []
    else []
  | _ => []

/-- The bytes that a call has delivered from an endpoint. -/
def delivered (registry : PipeRegistry) (endpoint : Endpoint) : PipeCall → Bytes
  | .read caller source limit =>
    if source = endpoint then
      match (registry.read caller source limit).result with
      | .ok (some bytes) => bytes
      | _ => []
    else []
  | _ => []

end PipeCall

namespace PipeRegistry

/-- A registry in which no pipe was created yet. -/
def fresh (capacity maxEndpoints : UInt64) : PipeRegistry :=
  { capacity := capacity, maxEndpoints := maxEndpoints }

/-- The registry after a history of calls. -/
def after (registry : PipeRegistry) (calls : List PipeCall) : PipeRegistry :=
  calls.foldl PipeCall.run registry

/-- All bytes that a history has taken for an endpoint, in order. -/
def acceptedOn (registry : PipeRegistry) (endpoint : Endpoint) : List PipeCall → Bytes
  | [] => []
  | call :: rest =>
    call.accepted registry endpoint ++ (call.run registry).acceptedOn endpoint rest

/-- All bytes that a history has delivered from an endpoint, in order. -/
def deliveredOn (registry : PipeRegistry) (endpoint : Endpoint) : List PipeCall → Bytes
  | [] => []
  | call :: rest =>
    call.delivered registry endpoint ++ (call.run registry).deliveredOn endpoint rest

/-- All endpoints that a history has signalled, in order. -/
def signalled (registry : PipeRegistry) : List PipeCall → List Endpoint
  | [] => []
  | call :: rest => call.signals registry ++ (call.run registry).signalled rest

end PipeRegistry

/-- What was written towards an end was read from it before what is queued there. Once the end is
closed, the rest of what was written is lost. -/
def PipeEnd.Carries (held : PipeEnd) (written read : Bytes) : Prop :=
  if held.isOpen then written = read ++ held.inbound else read <+: written

namespace PipeEnd.Carries

variable {held : PipeEnd} {written read : Bytes}

/-- What was read was written. -/
theorem isPrefix (carries : held.Carries written read) : read <+: written := by
  unfold Carries at carries
  split at carries
  · exact ⟨held.inbound, carries.symm⟩
  · exact carries

/-- An open end has all that was not yet read in its queue. -/
theorem of_open (carries : held.Carries written read) (opened : held.isOpen = true) :
    written = read ++ held.inbound := by
  simpa [Carries, opened] using carries

end PipeEnd.Carries

namespace PipeRegistry

variable {registry : PipeRegistry}

/-- Every end of every pipe carries what was written on the other end. Endpoints that were never
handed out carried nothing. -/
structure Balanced (registry : PipeRegistry) (accepted delivered : Endpoint → Bytes) : Prop where
  numbered : registry.Numbered
  carries : ∀ {position : Nat} {pipe : Pipe}, registry.pipes[position]? = some pipe → ∀ side,
    (pipe.on side).Carries (accepted (pipe.on side.peer).endpoint)
      (delivered (pipe.on side).endpoint)
  untouched : ∀ endpoint, registry.pipes[endpoint.index]? = none →
    accepted endpoint = [] ∧ delivered endpoint = []

/-- Ends at the same position and side have the same endpoint, and no others do. -/
theorem Numbered.endpoint_eq_iff (numbered : registry.Numbered) {position : Nat} {pipe : Pipe}
    (found : registry.pipes[position]? = some pipe) (side : Side) (endpoint : Endpoint) :
    endpoint = (pipe.on side).endpoint ↔ endpoint.index = position ∧ endpoint.side = side := by
  -- An endpoint is told by its position and its side.
  have place := numbered.ends found side
  constructor
  · rintro rfl
    exact place
  · rintro ⟨index, named⟩
    exact Endpoint.eq_of_index_side (index.trans place.1.symm) (named.trans place.2.symm)

namespace Balanced

variable {accepted delivered : Endpoint → Bytes}

/-- A pipe may be replaced if each of its ends carries what it should by then, and nothing was
written or read anywhere else. -/
theorem setPipe (balanced : registry.Balanced accepted delivered) {position : Nat}
    {pipe changed : Pipe}
    (found : registry.pipes[position]? = some pipe) {accepted' delivered' : Endpoint → Bytes}
    (kept : ∀ side, (changed.on side).endpoint = (pipe.on side).endpoint)
    (carries : ∀ side, (changed.on side).Carries (accepted' (pipe.on side.peer).endpoint)
      (delivered' (pipe.on side).endpoint))
    (elsewhere : ∀ endpoint, endpoint.index ≠ position →
      accepted' endpoint = accepted endpoint ∧ delivered' endpoint = delivered endpoint) :
    (registry.setPipe position changed).Balanced accepted' delivered' where
  -- Streams elsewhere go on as they were, and past the last pipe nothing was ever sent.
  numbered := balanced.numbered.setPipe found kept
  carries := by
    intro other held there side
    simp only [PipeRegistry.setPipe, List.getElem?_set] at there
    split at there
    · split at there
      · obtain rfl := Option.some.inj there
        simpa only [kept] using carries side
      · simp at there
    · rename_i apart
      have here := balanced.numbered.ends there side
      have across := balanced.numbered.ends there side.peer
      rw [(elsewhere _ (by omega)).1, (elsewhere _ (by omega)).2]
      exact balanced.carries there side
  untouched := by
    intro endpoint missing
    have inside := (List.getElem?_eq_some_iff.mp found).1
    simp only [PipeRegistry.setPipe, List.getElem?_eq_none_iff, List.length_set] at missing
    rw [(elsewhere endpoint (by omega)).1, (elsewhere endpoint (by omega)).2]
    exact balanced.untouched endpoint (List.getElem?_eq_none_iff.mpr missing)

/-- Where no byte moves, a pipe may be replaced if its open ends keep their queues. -/
theorem setPipe_still (balanced : registry.Balanced accepted delivered) {position : Nat}
    {pipe changed : Pipe} (found : registry.pipes[position]? = some pipe)
    (kept : ∀ side, (changed.on side).endpoint = (pipe.on side).endpoint)
    (queues : ∀ side, (changed.on side).isOpen = true →
      (pipe.on side).isOpen = true ∧ (changed.on side).inbound = (pipe.on side).inbound) :
    (registry.setPipe position changed).Balanced accepted delivered := by
  -- No stream goes on; an end that was closed keeps what is needed of its prefix.
  refine balanced.setPipe found kept (fun side => ?_) fun _ _ => ⟨rfl, rfl⟩
  have before := balanced.carries found side
  unfold PipeEnd.Carries
  split
  · rename_i opened
    obtain ⟨stillOpen, same⟩ := queues side opened
    rw [same]
    exact before.of_open stillOpen
  · exact before.isPrefix

/-- Budgets do not matter for what pipes carry. -/
theorem of_pipes (balanced : registry.Balanced accepted delivered) {other : PipeRegistry}
    (next : other.nextEndpoint = registry.nextEndpoint) (pipes : other.pipes = registry.pipes) :
    other.Balanced accepted delivered := by
  -- All that is said is about the pipes and the next number.
  refine ⟨⟨?_, ?_⟩, ?_, ?_⟩
  · rw [next, pipes]
    exact balanced.numbered.next
  · rw [pipes]
    exact balanced.numbered.ends
  · rw [pipes]
    exact balanced.carries
  · rw [pipes]
    exact balanced.untouched

/-- Closing a side loses only what was queued there. -/
theorem shut (balanced : registry.Balanced accepted delivered) {endpoint : Endpoint} {pipe : Pipe}
    (found : registry.pipes[endpoint.index]? = some pipe) :
    (registry.shut endpoint pipe).Balanced accepted delivered := by
  -- The closed side has no queue to account for, and the side across keeps its own.
  have closed : (registry.setPipe endpoint.index (pipe.close endpoint.side)).Balanced
      accepted delivered := by
    refine balanced.setPipe_still found (fun side => (pipe.on_close endpoint.side side).1) ?_
    intro side opened
    by_cases same : side = endpoint.side
    · subst same
      simp [(pipe.on_close_self endpoint.side).1] at opened
    · obtain rfl := Side.eq_peer_of_ne same
      have peer := pipe.on_close_peer endpoint.side
      rw [peer.1] at opened
      exact ⟨opened, peer.2 opened⟩
  exact closed.of_pipes rfl rfl

/-- Closing several ends one after another loses only what was queued there. -/
theorem closeAll (balanced : registry.Balanced accepted delivered) (endpoints : List Endpoint) :
    (registry.closeAll endpoints).1.Balanced accepted delivered := by
  -- Each end of the list is shut, or it was shut before.
  induction endpoints generalizing registry with
  | nil => exact balanced
  | cons endpoint rest ih =>
    simp only [PipeRegistry.closeAll]
    cases found : registry.pipes[endpoint.index]? with
    | none =>
      rw [balanced.numbered.closeOpen_of_none found]
      exact ih balanced
    | some pipe =>
      rw [balanced.numbered.closeOpen_eq found]
      split
      · exact ih (balanced.shut found)
      · exact ih balanced

/-- A change of owner moves no byte. -/
theorem transfer (balanced : registry.Balanced accepted delivered) (endpoints : List Endpoint)
    (owner : InstanceId) : (registry.transfer endpoints owner).Balanced accepted delivered := by
  -- Gifts change owners and leave every queue as it is.
  induction endpoints generalizing registry with
  | nil => exact balanced
  | cons endpoint rest ih =>
    cases found : registry.pipes[endpoint.index]? with
    | none =>
      rw [balanced.numbered.transfer_cons_of_none found]
      exact ih balanced
    | some pipe =>
      rw [balanced.numbered.transfer_cons found]
      refine ih (balanced.setPipe_still found (fun side => ?_) fun side => ?_)
      · cases side <;> cases endpoint.side <;> rfl
      · cases side <;> cases endpoint.side <;> exact fun opened => ⟨opened, rfl⟩

/-- A new pipe has carried nothing. -/
theorem extend (balanced : registry.Balanced accepted delivered) {first second next : Endpoint}
    (numbers : first.word.toNat = 2 * registry.pipes.length + 1 ∧
      second.word.toNat = 2 * registry.pipes.length + 2 ∧
      next.word.toNat = 2 * registry.pipes.length + 3) (owner : InstanceId) :
    (registry.extend first second next owner).Balanced accepted delivered where
  numbered := balanced.numbered.extend numbers owner
  carries := by
    intro position pipe found side
    have last := (balanced.numbered.extend numbers owner).ends found
    simp only [PipeRegistry.extend, List.getElem?_append] at found
    split at found
    · exact balanced.carries found side
    · rename_i beyond
      -- Both endpoints were not handed out before.
      have unused (side : Side) := balanced.untouched (pipe.on side).endpoint
        (List.getElem?_eq_none_iff.mpr (by rw [(last side).1]; omega))
      have fresh := List.mem_of_getElem? found
      simp only [List.mem_singleton] at fresh
      rw [(unused side.peer).1, (unused side).2, fresh]
      cases side <;> simp [PipeEnd.Carries, Pipe.on]
  untouched := by
    intro endpoint missing
    simp only [PipeRegistry.extend, List.getElem?_eq_none_iff, List.length_append] at missing
    exact balanced.untouched endpoint (List.getElem?_eq_none_iff.mpr (by omega))

/-- A read moves bytes from the front of a queue to what was read. -/
theorem read (balanced : registry.Balanced accepted delivered) (caller : InstanceId)
    (source : Endpoint) (limit : Nat) :
    (registry.read caller source limit).registry.Balanced accepted fun endpoint =>
      delivered endpoint ++ (PipeCall.read caller source limit).delivered registry endpoint := by
  -- What leaves the queue of the reader is what is delivered; all other streams stand still.
  have outcome := balanced.numbered.read_case caller source limit
  unfold PipeCall.delivered
  dsimp only
  generalize registry.read caller source limit = served at outcome ⊢
  cases outcome with
  | @takes pipe holds asked filled =>
    refine balanced.setPipe holds.found (fun side => ?_) (fun side => ?_) fun endpoint apart => ?_
    · cases side <;> cases source.side <;> rfl
    · have before := balanced.carries holds.found side
      have named := balanced.numbered.endpoint_eq_iff holds.found side source
      by_cases same : side = source.side
      · subst same
        rw [if_pos (named.mpr ⟨rfl, rfl⟩), Pipe.on_modify]
        simpa [PipeEnd.Carries, holds.opened] using before.of_open holds.opened
      · rw [if_neg fun equal => same (named.mp equal).2.symm, List.append_nil,
          Side.eq_peer_of_ne same, Pipe.on_peer_modify]
        simpa only [Side.eq_peer_of_ne same] using before
    · rw [if_neg, List.append_nil]
      · exact ⟨rfl, rfl⟩
      · rintro rfl
        exact apart rfl
  | _ => simpa using balanced

/-- A write moves bytes from what is offered to the back of the queue on the other side. -/
theorem write (balanced : registry.Balanced accepted delivered) (caller : InstanceId)
    (target : Endpoint) (data : Bytes) :
    (registry.write caller target data).registry.Balanced (fun endpoint =>
      accepted endpoint ++ (PipeCall.write caller target data).accepted registry endpoint)
      delivered := by
  -- What enters the queue across is what is accepted; all other streams stand still.
  have outcome := balanced.numbered.write_case caller target data
  unfold PipeCall.accepted
  dsimp only
  generalize registry.write caller target data = served at outcome ⊢
  cases outcome with
  | @puts pipe holds expected offered room =>
    refine balanced.setPipe holds.found (fun side => ?_) (fun side => ?_) fun endpoint apart => ?_
    · cases side <;> cases target.side <;> rfl
    · have before := balanced.carries holds.found side
      have named := balanced.numbered.endpoint_eq_iff holds.found side.peer target
      by_cases same : side = target.side.peer
      · subst same
        rw [Side.peer_peer] at named before ⊢
        rw [if_pos (named.mpr ⟨rfl, rfl⟩), Pipe.on_modify]
        simp only [PipeEnd.Carries, expected, if_true]
        rw [before.of_open expected, List.append_assoc, ← List.take_eq_take_min]
      · have own : side = target.side := by
          simpa using Side.eq_peer_of_ne same
        rw [if_neg fun equal => Side.peer_ne side ((named.mp equal).2.symm.trans own.symm),
          List.append_nil, own, Pipe.on_modify_peer]
        simpa only [own] using before
    · rw [if_neg, List.append_nil]
      · exact ⟨rfl, rfl⟩
      · rintro rfl
        exact apart rfl
  | _ => simpa using balanced

/-- Closing loses only what was queued. -/
theorem close (balanced : registry.Balanced accepted delivered) (caller : InstanceId)
    (endpoint : Endpoint) :
    (registry.close caller endpoint).registry.Balanced accepted delivered := by
  -- A close shuts an end or changes nothing.
  have outcome := balanced.numbered.close_case caller endpoint
  generalize registry.close caller endpoint = served at outcome ⊢
  cases outcome with
  | closes holds => exact balanced.shut holds.found
  | _ => exact balanced

/-- Creating a pipe moves no byte. -/
theorem create (balanced : registry.Balanced accepted delivered) (owner : InstanceId) :
    (registry.create owner).registry.Balanced accepted delivered := by
  -- A new pipe brings empty queues, or nothing at all.
  have outcome := balanced.numbered.create_case owner
  generalize registry.create owner = served at outcome ⊢
  cases outcome with
  | creates _ numbers => exact balanced.extend numbers owner
  | refused => exact balanced

/-- Every call adds to what was written and read just what it accepted and delivered. -/
theorem run (balanced : registry.Balanced accepted delivered) (call : PipeCall) :
    (call.run registry).Balanced
      (fun endpoint => accepted endpoint ++ call.accepted registry endpoint)
      fun endpoint => delivered endpoint ++ call.delivered registry endpoint := by
  -- Of all calls, only reads deliver and only writes accept.
  cases call with
  | create owner =>
    simpa [PipeCall.run, PipeCall.accepted, PipeCall.delivered] using balanced.create owner
  | read caller source limit =>
    simpa [PipeCall.run, PipeCall.accepted] using balanced.read caller source limit
  | write caller target data =>
    simpa [PipeCall.run, PipeCall.delivered] using balanced.write caller target data
  | close caller endpoint =>
    simpa [PipeCall.run, PipeCall.accepted, PipeCall.delivered] using balanced.close caller endpoint
  | closeOwnedBy owner =>
    simpa [PipeCall.run, closeOwnedBy, PipeCall.accepted, PipeCall.delivered]
      using balanced.closeAll (registry.ownedBy owner)
  | checkTransfer caller endpoints =>
    simpa [PipeCall.run, PipeCall.accepted, PipeCall.delivered] using balanced
  | transfer endpoints owner =>
    simpa [PipeCall.run, PipeCall.accepted, PipeCall.delivered] using
      balanced.transfer endpoints owner

/-- Over a history, what was written and read grows by what its calls accepted and delivered. -/
theorem after (balanced : registry.Balanced accepted delivered) (calls : List PipeCall) :
    (registry.after calls).Balanced
      (fun endpoint => accepted endpoint ++ registry.acceptedOn endpoint calls)
      fun endpoint => delivered endpoint ++ registry.deliveredOn endpoint calls := by
  -- The streams so far are generalized, since each call appends to them.
  induction calls generalizing registry accepted delivered with
  | nil => simpa [PipeRegistry.after, acceptedOn, deliveredOn] using balanced
  | cons call rest ih =>
    have later := ih (balanced.run call)
    simp only [List.append_assoc] at later
    exact later

end Balanced

/-- In a history from the beginning the streams are balanced. -/
theorem balanced_after (capacity maxEndpoints : UInt64) (calls : List PipeCall) :
    ((fresh capacity maxEndpoints).after calls).Balanced
      (fun endpoint => (fresh capacity maxEndpoints).acceptedOn endpoint calls)
      fun endpoint => (fresh capacity maxEndpoints).deliveredOn endpoint calls := by
  -- Before the first call nothing was accepted or delivered.
  have start : (fresh capacity maxEndpoints).Balanced (fun _ => []) fun _ => [] :=
    ⟨numbered_of_empty _ rfl rfl, by simp [fresh], fun _ _ => ⟨rfl, rfl⟩⟩
  simpa only [List.nil_append] using start.after calls

/-- A call keeps the numbering, and its signals cover what it changes. -/
theorem Numbered.run (numbered : registry.Numbered) (call : PipeCall) :
    (call.run registry).Numbered ∧
      registry.Announced (call.run registry) (call.signals registry) := by
  -- Each call is one of the operations, of which this is known.
  cases call with
  | create owner => exact (numbered.create_case owner).announced numbered
  | read caller source limit =>
    have outcome := numbered.read_case caller source limit
    exact ⟨outcome.numbered numbered, outcome.announced numbered⟩
  | write caller target data =>
    have outcome := numbered.write_case caller target data
    exact ⟨outcome.numbered numbered, outcome.announced⟩
  | close caller endpoint => exact (numbered.close_case caller endpoint).announced numbered
  | closeOwnedBy owner => exact Announced.closeAll numbered (registry.ownedBy owner)
  | checkTransfer => exact ⟨numbered, .refl registry []⟩
  | transfer endpoints owner => exact Announced.transfer numbered endpoints owner

/-- The same over a history of calls: its signals cover all that it changes. -/
theorem Numbered.runs (numbered : registry.Numbered) (calls : List PipeCall) :
    (registry.after calls).Numbered ∧
      registry.Announced (registry.after calls) (registry.signalled calls) := by
  -- The signals of each call are followed by those of the rest.
  induction calls generalizing registry with
  | nil => exact ⟨numbered, .refl registry []⟩
  | cons call rest ih =>
    obtain ⟨middle, first⟩ := numbered.run call
    obtain ⟨last, further⟩ := ih middle
    exact ⟨last, first.trans further⟩

/-- The side of an endpoint is closed. -/
def IsShut (registry : PipeRegistry) (endpoint : Endpoint) : Prop :=
  ∃ pipe, registry.pipes[endpoint.index]? = some pipe ∧
    (pipe.on endpoint.side).isOpen = false

namespace IsShut

variable {endpoint : Endpoint}

/-- What is closed stays closed, whatever is signalled. -/
theorem announced (shut : registry.IsShut endpoint) {after : PipeRegistry}
    {signals : List Endpoint} (announced : registry.Announced after signals) :
    after.IsShut endpoint := by
  -- The pipe is still there after, and an end that was shut stays shut.
  obtain ⟨pipe, found, closed⟩ := shut
  obtain ⟨changed, there, keeps⟩ := announced.kept found
  exact ⟨changed, there, keeps.shut _ closed⟩

/-- What is closed stays closed over any call. -/
theorem run (shut : registry.IsShut endpoint) (numbered : registry.Numbered) (call : PipeCall) :
    (call.run registry).IsShut endpoint :=
  shut.announced (numbered.run call).2

/-- What is closed stays closed over any further calls. -/
theorem after (shut : registry.IsShut endpoint) (numbered : registry.Numbered)
    (calls : List PipeCall) : (registry.after calls).IsShut endpoint := by
  induction calls generalizing registry with
  | nil => exact shut
  | cons call rest ih => exact ih (shut.run numbered call) (numbered.run call).1

/-- Nothing is read from a closed end. -/
theorem delivered_eq_nil (shut : registry.IsShut endpoint) (numbered : registry.Numbered)
    (call : PipeCall) : call.delivered registry endpoint = [] := by
  obtain ⟨pipe, found, closed⟩ := shut
  cases call with
  | read caller source limit =>
    simp only [PipeCall.delivered]
    split
    · rename_i same
      subst same
      have outcome := numbered.read_case caller source limit
      generalize registry.read caller source limit = served at outcome ⊢
      cases outcome with
      | takes holds _ _ =>
        -- Only the holder of an open end is given bytes.
        obtain rfl := Option.some.inj (found.symm.trans holds.found)
        simp [holds.opened] at closed
      | _ => rfl
    · rfl
  | _ => rfl

/-- Nothing is taken for a closed end. -/
theorem accepted_eq_nil (shut : registry.IsShut endpoint) (numbered : registry.Numbered)
    {across : Endpoint} (index : across.index = endpoint.index)
    (side : across.side = endpoint.side.peer) (call : PipeCall) :
    call.accepted registry across = [] := by
  -- Only a write across could be accepted, and it finds the reader gone.
  obtain ⟨pipe, found, closed⟩ := shut
  cases call with
  | write caller target data =>
    simp only [PipeCall.accepted]
    split
    · rename_i same
      subst same
      have outcome := numbered.write_case caller target data
      generalize registry.write caller target data = served at outcome ⊢
      cases outcome with
      | puts holds expected _ _ =>
        have there := holds.found
        rw [index] at there
        obtain rfl := Option.some.inj (found.symm.trans there)
        rw [side, Side.peer_peer, closed] at expected
        simp at expected
      | _ => simp
    · rfl
  | _ => rfl

/-- Both streams towards a closed end have come to their end. -/
theorem streams_end (shut : registry.IsShut endpoint) (numbered : registry.Numbered)
    {across : Endpoint} (index : across.index = endpoint.index)
    (side : across.side = endpoint.side.peer) (calls : List PipeCall) :
    registry.acceptedOn across calls = [] ∧ registry.deliveredOn endpoint calls = [] := by
  -- Call after call the end stays shut.
  induction calls generalizing registry with
  | nil => exact ⟨rfl, rfl⟩
  | cons call rest ih =>
    have later := ih (shut.run numbered call) (numbered.run call).1
    simp only [acceptedOn, deliveredOn, later, List.append_nil]
    exact ⟨shut.accepted_eq_nil numbered index side call, shut.delivered_eq_nil numbered call⟩

end IsShut

/-- What two histories in a row have taken. -/
theorem acceptedOn_append (registry : PipeRegistry) (endpoint : Endpoint)
    (calls more : List PipeCall) :
    registry.acceptedOn endpoint (calls ++ more) =
      registry.acceptedOn endpoint calls ++ (registry.after calls).acceptedOn endpoint more := by
  -- The later calls begin in the registry that the earlier ones leave.
  induction calls generalizing registry with
  | nil => rfl
  | cons call rest ih => simp [acceptedOn, ih, after]

/-- What two histories in a row have delivered. -/
theorem deliveredOn_append (registry : PipeRegistry) (endpoint : Endpoint)
    (calls more : List PipeCall) :
    registry.deliveredOn endpoint (calls ++ more) =
      registry.deliveredOn endpoint calls ++
        (registry.after calls).deliveredOn endpoint more := by
  -- The later calls begin in the registry that the earlier ones leave.
  induction calls generalizing registry with
  | nil => rfl
  | cons call rest ih => simp [deliveredOn, ih, after]

/-- What two histories in a row have signalled. -/
theorem signalled_append (registry : PipeRegistry) (calls more : List PipeCall) :
    registry.signalled (calls ++ more) =
      registry.signalled calls ++ (registry.after calls).signalled more := by
  -- The later calls begin in the registry that the earlier ones leave.
  induction calls generalizing registry with
  | nil => rfl
  | cons call rest ih => simp [signalled, ih, after]

/-- Gifts change the owners of ends and neither their queues nor whether they are open. -/
theorem Numbered.transfer_queues (numbered : registry.Numbered) (endpoints : List Endpoint)
    (owner : InstanceId) {position : Nat} {pipe : Pipe}
    (found : registry.pipes[position]? = some pipe) (side : Side) :
    ∃ given, (registry.transfer endpoints owner).pipes[position]? = some given ∧
      (given.on side).inbound = (pipe.on side).inbound ∧
      (given.on side).isOpen = (pipe.on side).isOpen := by
  -- A transfer signals nothing, and what is not signalled is not changed.
  obtain ⟨given, there, keeps⟩ := (Announced.transfer numbered endpoints owner).2.kept found
  have quiet := keeps.quiet side (by simp)
  exact ⟨given, there, quiet.1, quiet.2.1⟩

/-- What its holder can read from an open end, in terms of the streams towards it. -/
theorem Balanced.read_result {accepted delivered : Endpoint → Bytes}
    (balanced : registry.Balanced accepted delivered) {position : Nat} {pipe : Pipe}
    (found : registry.pipes[position]? = some pipe) (side : Side)
    (opened : (pipe.on side).isOpen = true) {limit : Nat} (asked : limit ≠ 0) :
    (registry.read (pipe.on side).owner (pipe.on side).endpoint limit).result =
      if delivered (pipe.on side).endpoint = accepted (pipe.on side.peer).endpoint then
        .ok (if (pipe.on side.peer).isOpen then none else some [])
      else .ok (some (((accepted (pipe.on side.peer).endpoint).drop
        (delivered (pipe.on side).endpoint).length).take limit)) := by
  have carried := (balanced.carries found side).of_open opened
  have place := balanced.numbered.ends found side
  have outcome := balanced.numbered.read_case (pipe.on side).owner (pipe.on side).endpoint limit
  have holder : registry.Holds (pipe.on side).owner (pipe.on side).endpoint pipe :=
    ⟨by rw [place.1, found], by rw [place.2], by rw [place.2, opened]⟩
  -- The queue is what was written and not yet read, so it is empty just if the streams are equal.
  have drained : (pipe.on side).inbound = [] ↔
      delivered (pipe.on side).endpoint = accepted (pipe.on side.peer).endpoint := by
    rw [carried]
    simp
  generalize registry.read (pipe.on side).owner (pipe.on side).endpoint limit = served at outcome ⊢
  cases outcome with
  | refused unheld => exact absurd holder (unheld pipe)
  | waits holds _ empty expected =>
    obtain rfl := Option.some.inj (holder.found.symm.trans holds.found)
    rw [place.2] at empty expected
    rw [if_pos (drained.mp empty), expected]
    rfl
  | ends holds reason =>
    obtain rfl := Option.some.inj (holder.found.symm.trans holds.found)
    obtain ⟨empty, closed⟩ := reason.resolve_left asked
    rw [place.2] at empty closed
    rw [if_pos (drained.mp empty), closed]
    rfl
  | takes holds _ filled =>
    obtain rfl := Option.some.inj (holder.found.symm.trans holds.found)
    rw [place.2] at filled
    rw [if_neg fun same => filled (drained.mpr same), place.2, carried]
    simp

/-- So a read that asks for bytes finds the end of the stream, waits, or takes the next bytes. -/
theorem Balanced.read_answers {accepted delivered : Endpoint → Bytes}
    (balanced : registry.Balanced accepted delivered) {position : Nat} {pipe : Pipe}
    (found : registry.pipes[position]? = some pipe) (side : Side)
    (opened : (pipe.on side).isOpen = true) {limit : Nat} (asked : limit ≠ 0) :
    let written := accepted (pipe.on side.peer).endpoint
    let read := delivered (pipe.on side).endpoint
    let result := (registry.read (pipe.on side).owner (pipe.on side).endpoint limit).result
    (result = .ok (some []) ↔ (pipe.on side.peer).isOpen = false ∧ read = written) ∧
    (result = .ok none ↔ (pipe.on side.peer).isOpen = true ∧ read = written) ∧
    (read ≠ written → ∃ bytes, result = .ok (some bytes) ∧ read ++ bytes <+: written ∧
      bytes.length = min limit (written.length - read.length)) := by
  intro written read result
  have carried : written = read ++ (pipe.on side).inbound :=
    (balanced.carries found side).of_open opened
  have answer : result = if read = written
      then .ok (if (pipe.on side.peer).isOpen then none else some [])
      else .ok (some ((written.drop read.length).take limit)) :=
    balanced.read_result found side opened asked
  rw [answer]
  by_cases same : read = written
  · rw [if_pos same]
    cases (pipe.on side.peer).isOpen <;> simp [same]
  · rw [if_neg same]
    -- Whatever is left is not empty, so the read delivers some of it.
    have left : written.drop read.length = (pipe.on side).inbound := by
      rw [carried, List.drop_left]
    have filled : (pipe.on side).inbound ≠ [] := by
      intro empty
      rw [empty, List.append_nil] at carried
      exact same carried.symm
    have some : (written.drop read.length).take limit ≠ [] := by
      rw [left, Ne, List.take_eq_nil_iff]
      simp [asked, filled]
    refine ⟨?_, ?_, fun _ => ⟨_, rfl, ?_, ?_⟩⟩
    · simp only [Except.ok.injEq, Option.some.injEq, some, same, and_false]
    · simp [same]
    · rw [left, carried, List.prefix_append_right_inj]
      exact List.take_prefix limit _
    · rw [List.length_take, List.length_drop]

/-- Pipes lose, repeat and mix up nothing. After any history of calls, what was accepted on one end
is what was delivered from the other followed by its queue, as long as that end is open. Once it is
closed, both streams have ended, and what was delivered is the front of what was accepted. A read
by the holder finds the end of the stream, waits, or takes the next bytes by comparing the two, and
gifts of endpoints change none of this. -/
theorem streams_are_queues (capacity maxEndpoints : UInt64) (calls : List PipeCall) (pipe : Pipe)
    (created : pipe ∈ ((fresh capacity maxEndpoints).after calls).pipes) (side : Side) :
    let start := fresh capacity maxEndpoints
    let registry := start.after calls
    let source := (pipe.on side.peer).endpoint
    let target := (pipe.on side).endpoint
    let written := start.acceptedOn source calls
    let read := start.deliveredOn target calls
    ((pipe.on side).isOpen = true → written = read ++ (pipe.on side).inbound) ∧
    ((pipe.on side).isOpen = false → read <+: written ∧ ∀ more,
      start.acceptedOn source (calls ++ more) = written ∧
        start.deliveredOn target (calls ++ more) = read) ∧
    ((pipe.on side).isOpen = true → ∀ limit, limit ≠ 0 →
      let result := (registry.read (pipe.on side).owner target limit).result
      (result = .ok (some []) ↔ (pipe.on side.peer).isOpen = false ∧ read = written) ∧
      (result = .ok none ↔ (pipe.on side.peer).isOpen = true ∧ read = written) ∧
      (read ≠ written → ∃ bytes, result = .ok (some bytes) ∧ read ++ bytes <+: written ∧
        bytes.length = min limit (written.length - read.length))) ∧
    ∀ endpoints owner,
      start.acceptedOn source (calls ++ [.transfer endpoints owner]) = written ∧
      start.deliveredOn target (calls ++ [.transfer endpoints owner]) = read ∧
      ∃ given ∈ (start.after (calls ++ [.transfer endpoints owner])).pipes,
        (given.on side).endpoint = target ∧ (given.on side).inbound = (pipe.on side).inbound ∧
        (given.on side).isOpen = (pipe.on side).isOpen := by
  intro start registry source target written read
  have balanced : registry.Balanced (fun endpoint => start.acceptedOn endpoint calls)
      fun endpoint => start.deliveredOn endpoint calls :=
    balanced_after capacity maxEndpoints calls
  obtain ⟨position, found⟩ := List.mem_iff_getElem?.mp created
  have carried := balanced.carries found side
  refine ⟨carried.of_open, fun closed => ⟨carried.isPrefix, fun more => ?_⟩,
    fun opened limit asked => balanced.read_answers found side opened asked,
    fun endpoints owner => ?_⟩
  · have here := balanced.numbered.ends found side
    have across := balanced.numbered.ends found side.peer
    have shut : registry.IsShut target := by
      refine ⟨pipe, ?_, ?_⟩
      · rw [here.1]
        exact found
      · rw [here.2]
        exact closed
    have index : source.index = target.index := across.1.trans here.1.symm
    have ended := shut.streams_end balanced.numbered index (by rw [across.2, here.2]) more
    rw [acceptedOn_append, deliveredOn_append, ended.1, ended.2, List.append_nil, List.append_nil]
    exact ⟨rfl, rfl⟩
  · obtain ⟨given, there, inbound, isOpen⟩ :=
      balanced.numbered.transfer_queues endpoints owner found side
    have numbered := (Announced.transfer balanced.numbered endpoints owner).1
    have endpoint := Endpoint.eq_of_index_side
      ((numbered.ends there side).1.trans (balanced.numbered.ends found side).1.symm)
      ((numbered.ends there side).2.trans (balanced.numbered.ends found side).2.symm)
    refine ⟨?_, ?_, given, ?_, endpoint, inbound, isOpen⟩
    · simp [acceptedOn_append, acceptedOn, PipeCall.accepted, written]
    · simp [deliveredOn_append, deliveredOn, PipeCall.delivered, read]
    · have last : start.after (calls ++ [.transfer endpoints owner]) =
          registry.transfer endpoints owner := by
        simp [after, PipeCall.run, registry]
      rw [last]
      exact List.mem_of_getElem? there

/-- A write that is cut off, a gift and a short read: one byte still waits at the reading end. -/
theorem streams_are_queues_after_gift :
    let calls : List PipeCall := [.create .root, .write .root .first [10, 20, 30],
      .transfer [⟨2, by decide⟩] ⟨1⟩, .read ⟨1⟩ ⟨2, by decide⟩ 1]
    let pipe : Pipe := ⟨⟨.first, .root, true, []⟩, ⟨⟨2, by decide⟩, ⟨1⟩, true, [20]⟩⟩
    pipe ∈ ((fresh 2 4).after calls).pipes ∧
      (fresh 2 4).acceptedOn .first calls = [10, 20] ∧
      (fresh 2 4).acceptedOn .first calls =
        (fresh 2 4).deliveredOn ⟨2, by decide⟩ calls ++ [20] := by
  -- Two of three bytes fit, and the heir reads the first of them.
  intro calls pipe
  have created : pipe ∈ ((fresh 2 4).after calls).pipes := by decide
  exact ⟨created, by decide, (streams_are_queues 2 4 calls pipe created .second).1 rfl⟩

end PipeRegistry

end Progeny
