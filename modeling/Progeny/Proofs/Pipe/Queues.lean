import Progeny.Proofs.Pipe.Counted

/-! What the queues of pipes hold: nothing on a closed end, and nowhere more than the capacity. -/

namespace Progeny

namespace Pipe

/-- The closed ends of a pipe keep no bytes. -/
def Drained (pipe : Pipe) : Prop :=
  ∀ side, (pipe.on side).isOpen = false → (pipe.on side).inbound = []

/-- No queue of a pipe is longer than its capacity. -/
def Within (capacity : Nat) (pipe : Pipe) : Prop :=
  ∀ side, (pipe.on side).inbound.length ≤ capacity

/-- Closing a side leaves every queue as it is or empties it. -/
theorem inbound_close (pipe : Pipe) (side other : Side) :
    ((pipe.close side).on other).inbound = (pipe.on other).inbound ∨
      ((pipe.close side).on other).inbound = [] := by
  -- The side that is closed is emptied; the one across only if it is closed as well.
  by_cases same : other = side
  · subst same
    exact .inr (pipe.on_close_self other).2
  · obtain rfl := Side.eq_peer_of_ne same
    unfold close
    dsimp only
    split
    · exact .inl (by simp)
    · exact .inr (by simp)

/-- A side that is closed loses its queue. -/
theorem Drained.close {pipe : Pipe} (drained : pipe.Drained) (side : Side) :
    (pipe.close side).Drained := by
  intro other closed
  by_cases same : other = side
  · subst same
    exact (pipe.on_close_self other).2
  · -- The side across was closed before, and so its queue was empty already.
    obtain rfl := Side.eq_peer_of_ne same
    rw [(pipe.on_close_peer side).1] at closed
    rcases pipe.inbound_close side side.peer with kept | emptied
    · rw [kept]
      exact drained side.peer closed
    · exact emptied

/-- Closing a side lengthens no queue. -/
theorem Within.close {capacity : Nat} {pipe : Pipe} (within : pipe.Within capacity) (side : Side) :
    (pipe.close side).Within capacity := by
  intro other
  rcases pipe.inbound_close side other with kept | emptied
  · rw [kept]
    exact within other
  · rw [emptied]
    exact Nat.zero_le capacity

/-- A gift puts no bytes into closed ends. -/
theorem Drained.give {pipe : Pipe} (drained : pipe.Drained) (side : Side) (heir : InstanceId) :
    (pipe.modify side fun held => { held with owner := heir }).Drained := by
  -- To give an end away leaves its state and its queue.
  intro other
  have before := drained other
  cases side <;> cases other <;> exact before

/-- A gift lengthens no queue. -/
theorem Within.give {capacity : Nat} {pipe : Pipe} (within : pipe.Within capacity) (side : Side)
    (heir : InstanceId) :
    (pipe.modify side fun held => { held with owner := heir }).Within capacity := by
  intro other
  have before := within other
  cases side <;> cases other <;> exact before

end Pipe

namespace PipeRegistry

variable {registry : PipeRegistry} {caller : InstanceId} {endpoint : Endpoint}

/-- What all pipes have in common is kept where one is replaced by another that has it too. -/
theorem forall_setPipe {property : Pipe → Prop} (all : ∀ pipe ∈ registry.pipes, property pipe)
    {position : Nat} {changed : Pipe} (kept : property changed) :
    ∀ pipe ∈ (registry.setPipe position changed).pipes, property pipe := by
  intro pipe member
  rcases List.mem_or_eq_of_mem_set member with older | rfl
  · exact all pipe older
  · exact kept

/-- What all pipes have in common is kept by a new pipe that has it too. -/
theorem forall_extend {property : Pipe → Prop} (all : ∀ pipe ∈ registry.pipes, property pipe)
    {first second next : Endpoint} {owner : InstanceId}
    (new : property ⟨⟨first, owner, true, []⟩, ⟨second, owner, true, []⟩⟩) :
    ∀ pipe ∈ (registry.extend first second next owner).pipes, property pipe := by
  intro pipe member
  simp only [extend, List.mem_append, List.mem_singleton] at member
  rcases member with older | rfl
  · exact all pipe older
  · exact new

/-- What outlasts the closing of one side is kept where sides are closed in a row. -/
theorem Numbered.forall_closeAll {property : Pipe → Prop} (numbered : registry.Numbered)
    (close : ∀ {pipe : Pipe} side, property pipe → property (pipe.close side))
    (all : ∀ pipe ∈ registry.pipes, property pipe) (endpoints : List Endpoint) :
    ∀ pipe ∈ (registry.closeAll endpoints).1.pipes, property pipe := by
  -- Every endpoint of the list replaces at most one pipe, by the same pipe with a side closed.
  induction endpoints generalizing registry with
  | nil => exact all
  | cons endpoint rest ih =>
    simp only [PipeRegistry.closeAll]
    cases found : registry.pipes[endpoint.index]? with
    | none =>
      rw [numbered.closeOpen_of_none found]
      exact ih numbered all
    | some pipe =>
      have here := all pipe (List.mem_of_getElem? found)
      rw [numbered.closeOpen_eq found]
      split
      · exact ih (numbered.shut found) (forall_setPipe all (close endpoint.side here))
      · exact ih numbered all

/-- What outlasts a change of owner is kept by gifts. -/
theorem Numbered.forall_transfer {property : Pipe → Prop} (numbered : registry.Numbered)
    (heir : InstanceId)
    (give : ∀ {pipe : Pipe} side, property pipe →
      property (pipe.modify side fun held => { held with owner := heir }))
    (all : ∀ pipe ∈ registry.pipes, property pipe) (endpoints : List Endpoint) :
    ∀ pipe ∈ (registry.transfer endpoints heir).pipes, property pipe := by
  -- Every endpoint of the list replaces at most one pipe, by the same pipe with a new owner.
  induction endpoints generalizing registry with
  | nil => exact all
  | cons endpoint rest ih =>
    cases found : registry.pipes[endpoint.index]? with
    | none =>
      rw [numbered.transfer_cons_of_none found]
      exact ih numbered all
    | some pipe =>
      have here := all pipe (List.mem_of_getElem? found)
      rw [numbered.transfer_cons found]
      exact ih (numbered.give found heir) (forall_setPipe all (give endpoint.side here))

/-- No closed end keeps bytes. -/
def Drained (registry : PipeRegistry) : Prop :=
  ∀ pipe ∈ registry.pipes, pipe.Drained

/-- No queue is longer than the capacity. -/
def Within (registry : PipeRegistry) : Prop :=
  ∀ pipe ∈ registry.pipes, pipe.Within registry.capacity.toNat

namespace Drained

variable (drained : registry.Drained)
include drained

/-- A side that is closed loses its queue. -/
theorem shut {pipe : Pipe} (found : registry.pipes[endpoint.index]? = some pipe) :
    (registry.shut endpoint pipe).Drained :=
  forall_setPipe drained ((drained pipe (List.mem_of_getElem? found)).close endpoint.side)

/-- Ends that are closed in a row lose their queues. -/
theorem closeAll (numbered : registry.Numbered) (endpoints : List Endpoint) :
    (registry.closeAll endpoints).1.Drained :=
  numbered.forall_closeAll (fun side empty => empty.close side) drained endpoints

/-- Gifts put no bytes into closed ends. -/
theorem transfer (numbered : registry.Numbered) (endpoints : List Endpoint) (heir : InstanceId) :
    (registry.transfer endpoints heir).Drained :=
  numbered.forall_transfer heir (fun side empty => empty.give side heir) drained endpoints

/-- Both ends of a new pipe are open. -/
theorem extend (first second next : Endpoint) (owner : InstanceId) :
    (registry.extend first second next owner).Drained :=
  forall_extend drained fun side _ => by cases side <;> rfl

end Drained

/-- A read takes bytes off the queue of an open end. -/
theorem ReadCase.drained {limit : Nat} {served : Served (Except CallError (Option Bytes))}
    (outcome : ReadCase registry caller endpoint limit served) (drained : registry.Drained) :
    served.registry.Drained := by
  cases outcome with
  | @takes pipe holds _ _ =>
    refine forall_setPipe drained fun side closed => ?_
    by_cases same : side = endpoint.side
    · subst same
      simp [holds.opened] at closed
    · obtain rfl := Side.eq_peer_of_ne same
      rw [Pipe.on_peer_modify] at closed ⊢
      exact drained pipe (List.mem_of_getElem? holds.found) _ closed
  | _ => exact drained

/-- A write puts bytes into the queue of an open end. -/
theorem WriteCase.drained {data : Bytes} {served : Served (Except CallError (Option Nat))}
    (outcome : WriteCase registry caller endpoint data served) (drained : registry.Drained) :
    served.registry.Drained := by
  cases outcome with
  | @puts pipe holds expected _ _ =>
    refine forall_setPipe drained fun side closed => ?_
    by_cases same : side = endpoint.side
    · subst same
      rw [Pipe.on_modify_peer, holds.opened] at closed
      simp at closed
    · obtain rfl := Side.eq_peer_of_ne same
      rw [Pipe.on_modify] at closed
      simp [expected] at closed
  | _ => exact drained

/-- A read shortens a queue. -/
theorem ReadCase.within {limit : Nat} {served : Served (Except CallError (Option Bytes))}
    (outcome : ReadCase registry caller endpoint limit served) (within : registry.Within) :
    served.registry.Within := by
  cases outcome with
  | @takes pipe holds _ _ =>
    refine forall_setPipe within fun side => ?_
    have before := within pipe (List.mem_of_getElem? holds.found) side
    by_cases same : side = endpoint.side
    · subst same
      rw [Pipe.on_modify, List.length_drop]
      omega
    · obtain rfl := Side.eq_peer_of_ne same
      rw [Pipe.on_peer_modify]
      exact before
  | _ => exact within

/-- A write puts no more into a queue than there is room for. -/
theorem WriteCase.within {data : Bytes} {served : Served (Except CallError (Option Nat))}
    (outcome : WriteCase registry caller endpoint data served) (within : registry.Within) :
    served.registry.Within := by
  cases outcome with
  | @puts pipe holds _ _ room =>
    refine forall_setPipe within fun side => ?_
    have before := within pipe (List.mem_of_getElem? holds.found) side
    by_cases same : side = endpoint.side
    · subst same
      rw [Pipe.on_modify_peer]
      exact before
    · -- What is taken of the data fills the queue across up to the capacity at most.
      obtain rfl := Side.eq_peer_of_ne same
      rw [Pipe.on_modify]
      simp only [List.length_append, List.length_take]
      omega
  | _ => exact within

end PipeRegistry

end Progeny
