import Progeny.Proofs.Pipe.Holdings
import Progeny.Proofs.Pipe.Streams

/-! The two directions of a pipe, each told by the endpoint that it is read on: which of them a call
moves bytes through, and which ends a call closes. -/

namespace Progeny

/-- The endpoint across the pipe, if a word can name it. -/
def Endpoint.peer? (endpoint : Endpoint) : Option Endpoint :=
  match endpoint.side with
  | .first => endpoint.succ?
  | .second => ofWord? (endpoint.word - 1)

namespace Endpoint

variable {endpoint other : Endpoint}

/-- The endpoint across names the other side of the same pipe. -/
theorem place_of_peer? (across : endpoint.peer? = some other) :
    other.index = endpoint.index ∧ other.side = endpoint.side.peer := by
  -- An odd number is followed by its peer, and an even one follows it.
  have number := endpoint.toNat_eq
  unfold peer? at across
  cases named : endpoint.side with
  | first =>
    simp only [named] at across number
    exact index_side_of_even (by rw [toNat_succ? across, number])
  | second =>
    simp only [named, ofWord?] at across number
    split at across
    · obtain rfl := Option.some.inj across
      refine index_side_of_odd ?_
      have below := endpoint.word.toNat_lt
      simp only [UInt64.toNat_sub, UInt64.reduceToNat]
      omega
    · simp at across

/-- Whatever names the other side of the same pipe is the endpoint across. -/
theorem peer?_eq_some_iff : endpoint.peer? = some other ↔
    other.index = endpoint.index ∧ other.side = endpoint.side.peer := by
  refine ⟨place_of_peer?, fun ⟨index, side⟩ => ?_⟩
  -- The word across exists, since the other endpoint has it.
  cases across : endpoint.peer? with
  | some named =>
    have place := place_of_peer? across
    rw [eq_of_index_side (place.1.trans index.symm) (place.2.trans side.symm)]
  | none =>
    have number := endpoint.toNat_eq
    have numberToo := other.toNat_eq
    rw [index, side] at numberToo
    unfold peer? at across
    cases named : endpoint.side with
    | first =>
      simp only [named, Side.peer] at across number numberToo
      have last := toNat_of_succ?_eq_none across
      have below := other.word.toNat_lt
      omega
    | second =>
      simp only [named, ofWord?] at across number
      split at across
      · simp at across
      · rename_i zero
        rw [Ne, Decidable.not_not, ← UInt64.toNat_inj] at zero
        have below := endpoint.word.toNat_lt
        simp only [UInt64.toNat_sub, UInt64.reduceToNat, UInt64.toNat_zero] at zero
        omega

/-- Each of two endpoints is across from the other. -/
theorem peer?_comm : endpoint.peer? = some other ↔ other.peer? = some endpoint := by
  simp only [peer?_eq_some_iff]
  constructor
  · rintro ⟨index, side⟩
    exact ⟨index.symm, by rw [side, Side.peer_peer]⟩
  · rintro ⟨index, side⟩
    exact ⟨index.symm, by rw [side, Side.peer_peer]⟩

end Endpoint

/-- The queue that a call may move bytes through, told by the endpoint that is read: a read takes
from its own end, and a write puts into the end across. -/
def PipeCall.queue? : PipeCall → Option Endpoint
  | .read _ endpoint _ => some endpoint
  | .write _ endpoint _ => endpoint.peer?
  | _ => none

namespace PipeRegistry

variable {registry middle after : PipeRegistry} {caller : InstanceId} {endpoint : Endpoint}

/-- An end that was not closed before and is closed after. -/
def Closes (before after : PipeRegistry) (endpoint : Endpoint) : Prop :=
  ¬before.IsShut endpoint ∧ after.IsShut endpoint

/-- What two operations in a row close is closed by the first or by the second. -/
theorem closes_trans (first : registry.IsShut endpoint → middle.IsShut endpoint)
    (second : middle.IsShut endpoint → after.IsShut endpoint) :
    registry.Closes after endpoint ↔ registry.Closes middle endpoint ∨
      middle.Closes after endpoint := by
  -- Nothing opens again, so there is one moment at which an end is closed.
  by_cases between : middle.IsShut endpoint
  · simp [Closes, between, second between]
  · have before : ¬registry.IsShut endpoint := fun shut => between (first shut)
    simp [Closes, between, before]

namespace Numbered

variable (numbered : registry.Numbered)
include numbered

/-- The end across stands on the other side of the same pipe. -/
theorem peer?_of_found {pipe : Pipe} (found : registry.pipes[endpoint.index]? = some pipe) :
    endpoint.peer? = some (pipe.on endpoint.side.peer).endpoint :=
  Endpoint.peer?_eq_some_iff.mpr (numbered.ends found endpoint.side.peer)

/-- An end is closed exactly if it is listed as such. -/
theorem isShut_iff : registry.IsShut endpoint ↔
    ∃ owner, ⟨endpoint, owner, false⟩ ∈ registry.holdings := by
  simp only [numbered.mem_holdings]
  constructor
  · rintro ⟨pipe, found, closed⟩
    refine ⟨(pipe.on endpoint.side).owner, pipe, found, ?_⟩
    simp [PipeEnd.holding, numbered.endpoint_of_found found, closed]
  · rintro ⟨owner, pipe, found, same⟩
    exact ⟨pipe, found, congrArg Holding.isOpen same⟩

/-- Where the ends are as open as before, none is closed. -/
theorem not_closes (later : after.Numbered) (same : after.holdings = registry.holdings) :
    ¬registry.Closes after endpoint := by
  rintro ⟨opened, shut⟩
  rw [later.isShut_iff, same, ← numbered.isShut_iff] at shut
  exact opened shut

/-- Closing an open end, whoever holds it, closes that end and no other. -/
theorem closes_shut {pipe : Pipe} {closing : Endpoint}
    (found : registry.pipes[closing.index]? = some pipe)
    (opened : (pipe.on closing.side).isOpen = true) :
    registry.Closes (registry.shut closing pipe) endpoint ↔ endpoint = closing := by
  have holds : registry.Holds (pipe.on closing.side).owner closing pipe := ⟨found, rfl, opened⟩
  unfold Closes
  rw [(numbered.shut found).isShut_iff, numbered.holdings_shut holds, numbered.isShut_iff]
  simp only [List.mem_map]
  constructor
  · rintro ⟨unshut, owner, ⟨named, holder, isOpen⟩, member, same⟩
    -- Every end but the one in question is as open as it was.
    by_contra apart
    simp only [Holding.shut, Holding.mk.injEq, List.mem_singleton] at same
    obtain ⟨rfl, rfl, closed⟩ := same
    simp only [apart, not_false_eq_true, decide_true, Bool.and_true] at closed
    subst closed
    exact unshut ⟨_, member⟩
  · rintro rfl
    have holding := numbered.holds_iff.mp ⟨pipe, holds⟩
    refine ⟨?_, (pipe.on endpoint.side).owner, _, holding, by simp [Holding.shut]⟩
    rintro ⟨owner, closed⟩
    have clash := numbered.holding_unique holding closed rfl
    simp at clash

/-- Whatever the call, if it is no gift every end stays with its owner. -/
theorem holding_run {call : PipeCall} (gift : ∀ endpoints heir, call ≠ .transfer endpoints heir)
    {owner : InstanceId} {isOpen : Bool} (before : ⟨endpoint, owner, isOpen⟩ ∈ registry.holdings) :
    ∃ still, ⟨endpoint, owner, still⟩ ∈ (call.run registry).holdings := by
  -- Ends are added, shut or left alone, and none of that changes an owner.
  cases call with
  | create creator =>
    simp only [PipeCall.run]
    have outcome := numbered.create_case creator
    generalize registry.create creator = served at outcome ⊢
    cases outcome with
    | refused => exact ⟨_, before⟩
    | creates =>
      rw [holdings_extend]
      exact ⟨_, List.mem_append_left _ before⟩
  | read caller source limit =>
    simp only [PipeCall.run, (numbered.read_case caller source limit).holdings]
    exact ⟨_, before⟩
  | write caller target data =>
    simp only [PipeCall.run, (numbered.write_case caller target data).holdings]
    exact ⟨_, before⟩
  | close caller closing =>
    simp only [PipeCall.run]
    have outcome := numbered.close_case caller closing
    generalize registry.close caller closing = served at outcome ⊢
    cases outcome with
    | closes holds =>
      rw [numbered.holdings_shut holds]
      exact ⟨_, List.mem_map.mpr ⟨_, before, rfl⟩⟩
    | _ => exact ⟨_, before⟩
  | closeOwnedBy leaver =>
    simp only [PipeCall.run, closeOwnedBy, numbered.holdings_closeAll]
    exact ⟨_, List.mem_map.mpr ⟨_, before, rfl⟩⟩
  | checkTransfer => exact ⟨_, before⟩
  | transfer endpoints heir => exact absurd rfl (gift endpoints heir)

/-- Whoever held an end before a call that is no gift owns it after. -/
theorem owner_run {call : PipeCall} (gift : ∀ endpoints heir, call ≠ .transfer endpoints heir)
    {pipe changed : Pipe} (holds : registry.Holds caller endpoint pipe)
    (there : (call.run registry).pipes[endpoint.index]? = some changed) :
    (changed.on endpoint.side).owner = caller := by
  -- The end is listed with its owner before and after.
  obtain ⟨isOpen, listed⟩ := numbered.holding_run gift (numbered.holds_iff.mp ⟨pipe, holds⟩)
  obtain ⟨other, still, same⟩ := (numbered.run call).1.mem_holdings.mp listed
  obtain rfl := Option.some.inj (there.symm.trans still)
  exact congrArg Holding.owner same

end Numbered

end PipeRegistry

end Progeny
