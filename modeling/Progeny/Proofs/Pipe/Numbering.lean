import Mathlib.Algebra.Ring.Nat
import Progeny.Pipe.Registry

/-! Endpoints are numbered in the order in which they are handed out, so that every endpoint tells
the position of its pipe and its side of it, and no two ends share an endpoint. -/

namespace Progeny

@[simp] theorem Side.peer_peer (side : Side) : side.peer.peer = side := by
  cases side <;> rfl

/-- No side is its own peer. -/
theorem Side.peer_ne (side : Side) : side.peer ≠ side := by
  cases side <;> simp [peer]

/-- Of two sides that differ each is the peer of the other. -/
theorem Side.eq_peer_of_ne {side other : Side} (differ : other ≠ side) : other = side.peer := by
  cases side <;> cases other <;> simp_all [peer]

namespace Pipe

@[simp] theorem on_modify (pipe : Pipe) (side : Side) (change : PipeEnd → PipeEnd) :
    (pipe.modify side change).on side = change (pipe.on side) := by
  cases side <;> rfl

@[simp] theorem on_peer_modify (pipe : Pipe) (side : Side) (change : PipeEnd → PipeEnd) :
    (pipe.modify side change).on side.peer = pipe.on side.peer := by
  cases side <;> rfl

@[simp] theorem on_modify_peer (pipe : Pipe) (side : Side) (change : PipeEnd → PipeEnd) :
    (pipe.modify side.peer change).on side = pipe.on side := by
  cases side <;> rfl

/-- A pipe is live exactly if either side is open. -/
theorem isLive_eq (pipe : Pipe) (side : Side) :
    pipe.isLive = ((pipe.on side).isOpen || (pipe.on side.peer).isOpen) := by
  cases side <;> simp [isLive, on, Side.peer, Bool.or_comm]

/-- Closing a side leaves the handle and the holder of every end alone. -/
theorem on_close (pipe : Pipe) (side other : Side) :
    ((pipe.close side).on other).endpoint = (pipe.on other).endpoint ∧
      ((pipe.close side).on other).owner = (pipe.on other).owner := by
  -- Neither the endpoint nor the owner is touched, on whichever side.
  unfold close
  dsimp only
  split <;> cases side <;> cases other <;> exact ⟨rfl, rfl⟩

/-- The side that is closed is shut, and its queue is gone. -/
theorem on_close_self (pipe : Pipe) (side : Side) :
    ((pipe.close side).on side).isOpen = false ∧ ((pipe.close side).on side).inbound = [] := by
  unfold close
  dsimp only
  split <;> cases side <;> exact ⟨rfl, rfl⟩

/-- The other side keeps its state, and its queue too as long as it is open. -/
theorem on_close_peer (pipe : Pipe) (side : Side) :
    ((pipe.close side).on side.peer).isOpen = (pipe.on side.peer).isOpen ∧
      ((pipe.on side.peer).isOpen = true →
        ((pipe.close side).on side.peer).inbound = (pipe.on side.peer).inbound) := by
  -- Queues are thrown away only where no side is open any more.
  unfold close
  dsimp only
  split
  · exact ⟨by simp, by simp⟩
  · rename_i dead
    rw [isLive_eq _ side.peer] at dead
    refine ⟨by simp, fun stillOpen => ?_⟩
    simp [stillOpen] at dead

end Pipe

namespace Endpoint

/-- The position of the pipe of an endpoint, in the order of creation. -/
def index (endpoint : Endpoint) : Nat :=
  (endpoint.word.toNat - 1) / 2

/-- The side of its pipe that an endpoint names. -/
def side (endpoint : Endpoint) : Side :=
  if endpoint.word.toNat % 2 = 1 then .first else .second

/-- The number of an endpoint is never zero. -/
theorem toNat_pos (endpoint : Endpoint) : 0 < endpoint.word.toNat := by
  -- Zero is no endpoint.
  have nonzero := endpoint.word_ne_zero
  rw [Ne, ← UInt64.toNat_inj] at nonzero
  simp only [UInt64.toNat_zero] at nonzero
  omega

/-- The number of an endpoint, by its position and its side. -/
theorem toNat_eq (endpoint : Endpoint) : endpoint.word.toNat =
    2 * endpoint.index + match endpoint.side with
      | .first => 1
      | .second => 2 := by
  -- Numbers start at one, so an odd number is one more than twice its position.
  have pos := endpoint.toNat_pos
  unfold index side
  by_cases odd : endpoint.word.toNat % 2 = 1
  · rw [if_pos odd]
    dsimp only
    omega
  · rw [if_neg odd]
    dsimp only
    omega

/-- A position and a side determine an endpoint. -/
theorem eq_of_index_side {one other : Endpoint} (index : one.index = other.index)
    (side : one.side = other.side) : one = other := by
  -- They determine its number.
  have same : one.word.toNat = other.word.toNat := by
    rw [one.toNat_eq, other.toNat_eq, index, side]
  cases one
  cases other
  simpa using UInt64.toNat_inj.mp same

/-- The odd numbers name first sides. -/
theorem index_side_of_odd {endpoint : Endpoint} {position : Nat}
    (number : endpoint.word.toNat = 2 * position + 1) :
    endpoint.index = position ∧ endpoint.side = .first := by
  -- Counting from one puts the odd endpoint of a pair before the even one.
  constructor
  · unfold index
    omega
  · unfold side
    rw [if_pos (by omega)]

/-- The even numbers name second sides. -/
theorem index_side_of_even {endpoint : Endpoint} {position : Nat}
    (number : endpoint.word.toNat = 2 * position + 2) :
    endpoint.index = position ∧ endpoint.side = .second := by
  -- The even endpoint is the second of its pair.
  constructor
  · unfold index
    omega
  · unfold side
    rw [if_neg (by omega)]

/-- The next endpoint has the next number. -/
theorem toNat_succ? {endpoint next : Endpoint} (named : endpoint.succ? = some next) :
    next.word.toNat = endpoint.word.toNat + 1 := by
  -- The successor has a name only where the addition does not wrap around.
  unfold succ? ofWord? at named
  split at named
  · rename_i nonzero
    obtain rfl := Option.some.inj named
    have bound := endpoint.word.toNat_lt
    rw [Ne, ← UInt64.toNat_inj] at nonzero
    simp only [UInt64.toNat_add, UInt64.reduceToNat, UInt64.toNat_zero] at nonzero ⊢
    omega
  · simp at named

/-- Only the greatest word has no successor. -/
theorem toNat_of_succ?_eq_none {endpoint : Endpoint} (last : endpoint.succ? = none) :
    endpoint.word.toNat + 1 = 2 ^ 64 := by
  -- The only word whose successor is zero is the last one.
  unfold succ? ofWord? at last
  split at last
  · simp at last
  · rename_i zero
    have bound := endpoint.word.toNat_lt
    rw [Ne, Decidable.not_not, ← UInt64.toNat_inj] at zero
    simp only [UInt64.toNat_add, UInt64.reduceToNat, UInt64.toNat_zero] at zero
    omega

end Endpoint

namespace PipeRegistry

/-- Pipes are in the order of their creation, and their ends are numbered from one on. -/
structure Numbered (registry : PipeRegistry) : Prop where
  next : registry.nextEndpoint.word.toNat = 2 * registry.pipes.length + 1
  ends : ∀ {position : Nat} {pipe : Pipe}, registry.pipes[position]? = some pipe → ∀ side,
    (pipe.on side).endpoint.index = position ∧ (pipe.on side).endpoint.side = side

/-- The registry with the pipe at a position replaced. -/
def setPipe (registry : PipeRegistry) (position : Nat) (pipe : Pipe) : PipeRegistry :=
  { registry with pipes := registry.pipes.set position pipe }

/-- The pipe of an endpoint that an instance holds open. -/
structure Holds (registry : PipeRegistry) (caller : InstanceId) (endpoint : Endpoint)
    (pipe : Pipe) : Prop where
  found : registry.pipes[endpoint.index]? = some pipe
  owned : (pipe.on endpoint.side).owner = caller
  opened : (pipe.on endpoint.side).isOpen = true

/-- A search that succeeds at one position only finds what stands there. -/
theorem findSome?_at {α β : Type} {items : List α} {pick : α → Option β} {position : Nat}
    {value : α → β}
    (only : ∀ other item, items[other]? = some item →
      pick item = if other = position then some (value item) else none) :
    items.findSome? pick = items[position]?.map value := by
  -- The head is at position zero, and the positions of the rest are shifted by one.
  induction items generalizing position with
  | nil => rfl
  | cons head rest ih =>
    have here := only 0 head rfl
    cases position with
    | zero => simp [here]
    | succ position =>
      simp only [List.findSome?_cons, here, List.getElem?_cons_succ]
      exact ih fun other item found => by simpa using only (other + 1) item (by simpa using found)

variable {registry : PipeRegistry}

namespace Numbered

/-- The side of a pipe that an endpoint names, if the endpoint belongs to it. -/
theorem sideOf? (numbered : registry.Numbered) (endpoint : Endpoint) {position : Nat}
    {pipe : Pipe} (found : registry.pipes[position]? = some pipe) :
    pipe.sideOf? endpoint = if position = endpoint.index then some endpoint.side else none := by
  have first := numbered.ends found .first
  have second := numbered.ends found .second
  simp only [Pipe.on] at first second
  unfold Pipe.sideOf?
  split
  · rename_i same
    rw [same] at first
    simp [first]
  split
  · rename_i same
    rw [same] at second
    simp [second]
  · rename_i notFirst notSecond
    -- An end at this position would have one of the two endpoints.
    rw [if_neg]
    intro same
    cases named : endpoint.side with
    | first =>
      exact notFirst (Endpoint.eq_of_index_side (first.1.trans same) (first.2.trans named.symm))
    | second =>
      exact notSecond
        (Endpoint.eq_of_index_side (second.1.trans same) (second.2.trans named.symm))

/-- An endpoint is found at its position. -/
theorem locate? (numbered : registry.Numbered) (endpoint : Endpoint) :
    registry.locate? endpoint =
      registry.pipes[endpoint.index]?.map fun pipe => (pipe, endpoint.side) := by
  -- Of all pipes only the one at the position of the endpoint has it.
  unfold PipeRegistry.locate?
  apply findSome?_at
  intro position pipe found
  rw [numbered.sideOf? endpoint found]
  split <;> rfl

/-- Only the pipe of the endpoint is changed. -/
theorem modify_eq (numbered : registry.Numbered) {endpoint : Endpoint} {pipe : Pipe}
    (found : registry.pipes[endpoint.index]? = some pipe) (change : Pipe → Side → Pipe) :
    registry.modify endpoint change =
      registry.setPipe endpoint.index (change pipe endpoint.side) := by
  -- Pipe by pipe, all but the one at the position of the endpoint stay as they are.
  have pipes : (registry.modify endpoint change).pipes =
      registry.pipes.set endpoint.index (change pipe endpoint.side) := by
    apply List.ext_getElem?
    intro position
    simp only [PipeRegistry.modify, List.getElem?_map, List.getElem?_set]
    cases there : registry.pipes[position]? with
    | none =>
      rw [if_neg]
      · rfl
      · rintro rfl
        simp [found] at there
    | some other =>
      rw [Option.map_some, numbered.sideOf? endpoint there]
      by_cases same : position = endpoint.index
      · subst same
        rw [found] at there
        obtain rfl := Option.some.inj there
        have inside := (List.getElem?_eq_some_iff.mp found).1
        simp [inside]
      · simp [same, Ne.symm same]
  unfold setPipe
  rw [← pipes]
  rfl

/-- Without a pipe of the endpoint nothing is changed. -/
theorem modify_of_none (numbered : registry.Numbered) {endpoint : Endpoint}
    (missing : registry.pipes[endpoint.index]? = none) (change : Pipe → Side → Pipe) :
    registry.modify endpoint change = registry := by
  -- No pipe has the endpoint, and so none is changed.
  have pipes : (registry.modify endpoint change).pipes = registry.pipes := by
    apply List.ext_getElem?
    intro position
    simp only [PipeRegistry.modify, List.getElem?_map]
    cases there : registry.pipes[position]? with
    | none => rfl
    | some other =>
      rw [Option.map_some, numbered.sideOf? endpoint there, if_neg]
      rintro rfl
      simp [missing] at there
  cases registry
  simp only [PipeRegistry.modify] at pipes ⊢
  rw [pipes]

/-- A caller holds an endpoint exactly if its end is open and owned by the caller. -/
theorem held_iff (numbered : registry.Numbered) {caller : InstanceId} {endpoint : Endpoint}
    {pipe : Pipe} {side : Side} :
    registry.held caller endpoint = .ok (pipe, side) ↔
      registry.Holds caller endpoint pipe ∧ side = endpoint.side := by
  -- The endpoint leads to one pipe, whose end is then asked for its owner.
  unfold held
  rw [numbered.locate?]
  cases found : registry.pipes[endpoint.index]? with
  | none =>
    simp only [Option.map_none, reduceCtorEq, false_iff, not_and]
    intro holds
    simp [holds.found] at found
  | some other =>
    simp only [Option.map_some]
    split
    · rename_i holds
      simp only [Except.ok.injEq, Prod.mk.injEq]
      constructor
      · rintro ⟨rfl, rfl⟩
        exact ⟨⟨found, holds.1, holds.2⟩, rfl⟩
      · rintro ⟨given, rfl⟩
        exact ⟨Option.some.inj (found.symm.trans given.found), rfl⟩
    · rename_i lacks
      simp only [reduceCtorEq, false_iff, not_and]
      intro given
      obtain rfl := Option.some.inj (found.symm.trans given.found)
      exact absurd ⟨given.owned, given.opened⟩ lacks

/-- A pipe that keeps its endpoints may be replaced by another. -/
theorem setPipe (numbered : registry.Numbered) {position : Nat} {pipe changed : Pipe}
    (found : registry.pipes[position]? = some pipe)
    (kept : ∀ side, (changed.on side).endpoint = (pipe.on side).endpoint) :
    (registry.setPipe position changed).Numbered where
  -- Numbers stand in the ends, and those of the new pipe are the same.
  next := by simpa [PipeRegistry.setPipe] using numbered.next
  ends := by
    intro other held there side
    simp only [PipeRegistry.setPipe, List.getElem?_set] at there
    split at there
    · rename_i same
      subst same
      split at there
      · obtain rfl := Option.some.inj there
        rw [kept]
        exact numbered.ends found side
      · simp at there
    · exact numbered.ends there side

end Numbered

/-- A registry without pipes is numbered from its first endpoint on. -/
theorem numbered_of_empty (registry : PipeRegistry) (empty : registry.pipes = [])
    (first : registry.nextEndpoint = .first) : registry.Numbered where
  next := by simp [empty, first, Endpoint.first]
  ends := by simp [empty]

/-- An endpoint that is not held is refused by its number. -/
theorem held_error {caller : InstanceId} {endpoint : Endpoint} {error : CallError}
    (refused : registry.held caller endpoint = .error error) :
    error = .invalidEndpoint endpoint := by
  -- There is one refusal, whether the endpoint leads nowhere or to somebody else.
  unfold held at refused
  split at refused
  · exact (Except.error.inj refused).symm
  · split at refused
    · simp at refused
    · exact (Except.error.inj refused).symm

end PipeRegistry

end Progeny
