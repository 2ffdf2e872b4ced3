import Progeny.Proofs.Pipe.Calls

/-! Every change that somebody may wait for is signalled: an end whose endpoint an operation did not
signal has kept its queue, and both sides of its pipe are as open as before. -/

namespace Progeny

/-- A pipe after an operation that gave some signals: ends keep their endpoints, what is closed
stays closed, and an end without a signal sees no change. -/
structure Pipe.Keeps (pipe changed : Pipe) (signals : List Endpoint) : Prop where
  endpoint : ∀ side, (changed.on side).endpoint = (pipe.on side).endpoint
  shut : ∀ side, (pipe.on side).isOpen = false → (changed.on side).isOpen = false
  quiet : ∀ side, (pipe.on side).endpoint ∉ signals →
    (changed.on side).inbound = (pipe.on side).inbound ∧
      (changed.on side).isOpen = (pipe.on side).isOpen ∧
      (changed.on side.peer).isOpen = (pipe.on side.peer).isOpen

namespace Pipe.Keeps

/-- A pipe that does not change needs no signal. -/
theorem refl (pipe : Pipe) (signals : List Endpoint) : pipe.Keeps pipe signals :=
  ⟨fun _ => rfl, fun _ => id, fun _ _ => ⟨rfl, rfl, rfl⟩⟩

/-- The signals of two operations together cover what both changed. -/
theorem trans {pipe middle changed : Pipe} {signals further : List Endpoint}
    (first : pipe.Keeps middle signals) (second : middle.Keeps changed further) :
    pipe.Keeps changed (signals ++ further) where
  -- Where neither operation signals, the first leaves all as it was and the second does too.
  endpoint side := (second.endpoint side).trans (first.endpoint side)
  shut side closed := second.shut side (first.shut side closed)
  quiet side silent := by
    rw [List.mem_append, not_or] at silent
    have before := first.quiet side silent.1
    have after := second.quiet side (by rw [first.endpoint]; exact silent.2)
    exact ⟨after.1.trans before.1, after.2.1.trans before.2.1, after.2.2.trans before.2.2⟩

/-- A change of one queue is signalled on its endpoint. -/
theorem modify (pipe : Pipe) (side : Side) (change : PipeEnd → PipeEnd)
    (endpoint : (change (pipe.on side)).endpoint = (pipe.on side).endpoint)
    (isOpen : (change (pipe.on side)).isOpen = (pipe.on side).isOpen) :
    pipe.Keeps (pipe.modify side change) [(pipe.on side).endpoint] := by
  -- The end on the side changes, and the one across does not.
  have both (other : Side) :
      ((pipe.modify side change).on other).endpoint = (pipe.on other).endpoint ∧
        ((pipe.modify side change).on other).isOpen = (pipe.on other).isOpen := by
    by_cases same : other = side
    · subst same
      simpa using ⟨endpoint, isOpen⟩
    · rw [Side.eq_peer_of_ne same, on_peer_modify]
      exact ⟨rfl, rfl⟩
  refine ⟨fun other => (both other).1, fun other closed => (both other).2.trans closed, ?_⟩
  intro other silent
  refine ⟨?_, (both other).2, (both other.peer).2⟩
  by_cases same : other = side
  · subst same
    simp at silent
  · rw [Side.eq_peer_of_ne same, on_peer_modify]

/-- A change of owner needs no signal. -/
theorem give (pipe : Pipe) (side : Side) (owner : InstanceId) :
    pipe.Keeps (pipe.modify side fun held => { held with owner := owner }) [] where
  endpoint other := by cases side <;> cases other <;> rfl
  shut other := by cases side <;> cases other <;> exact id
  quiet other _ := by cases side <;> cases other <;> exact ⟨rfl, rfl, rfl⟩

/-- Closing a side is signalled on both ends. -/
theorem close (pipe : Pipe) (side : Side) :
    pipe.Keeps (pipe.close side) [pipe.first.endpoint, pipe.second.endpoint] where
  -- Closing signals on both sides, so there is no silent side to speak of.
  endpoint other := (pipe.on_close side other).1
  shut other closed := by
    by_cases same : other = side
    · subst same
      exact (pipe.on_close_self other).1
    · rw [Side.eq_peer_of_ne same] at closed ⊢
      rw [(pipe.on_close_peer side).1, closed]
  quiet other silent := by
    cases other <;> simp [on] at silent

end Pipe.Keeps

namespace PipeRegistry

/-- Between two states of the pipes every change is covered by the signals given. -/
structure Announced (before after : PipeRegistry) (signals : List Endpoint) : Prop where
  capacity : after.capacity = before.capacity
  kept : ∀ {position : Nat} {pipe : Pipe}, before.pipes[position]? = some pipe →
    ∃ changed, after.pipes[position]? = some changed ∧ pipe.Keeps changed signals

variable {registry : PipeRegistry}

namespace Announced

/-- Where nothing changes no signal is needed. -/
theorem refl (registry : PipeRegistry) (signals : List Endpoint) :
    registry.Announced registry signals :=
  ⟨rfl, fun found => ⟨_, found, .refl _ _⟩⟩

/-- Two operations in a row are covered by the signals of both. -/
theorem trans {middle after : PipeRegistry} {signals further : List Endpoint}
    (first : registry.Announced middle signals) (second : middle.Announced after further) :
    registry.Announced after (signals ++ further) where
  -- A pipe is followed through both operations, and the signals add up.
  capacity := second.capacity.trans first.capacity
  kept found := by
    obtain ⟨changed, there, keeps⟩ := first.kept found
    obtain ⟨last, still, keepsToo⟩ := second.kept there
    exact ⟨last, still, keeps.trans keepsToo⟩

/-- The signals for one pipe cover its replacement. -/
theorem setPipe {position : Nat} {pipe changed : Pipe} {signals : List Endpoint}
    (found : registry.pipes[position]? = some pipe) (keeps : pipe.Keeps changed signals) :
    registry.Announced (registry.setPipe position changed) signals where
  -- One pipe is replaced, and all others are kept as they are.
  capacity := rfl
  kept := by
    intro other held there
    simp only [PipeRegistry.setPipe, List.getElem?_set]
    by_cases same : position = other
    · subst same
      obtain rfl := Option.some.inj (found.symm.trans there)
      have inside := (List.getElem?_eq_some_iff.mp found).1
      exact ⟨changed, by simp [inside], keeps⟩
    · exact ⟨held, by rw [if_neg same]; exact there, .refl held signals⟩

end Announced

/-- Taking bytes off a queue is signalled. -/
theorem ReadCase.announced {caller : InstanceId} {endpoint : Endpoint} {limit : Nat}
    {served : Served (Except CallError (Option Bytes))}
    (outcome : ReadCase registry caller endpoint limit served) (numbered : registry.Numbered) :
    registry.Announced served.registry served.signals := by
  -- The reader empties its own queue and signals on its own side.
  cases outcome with
  | @takes pipe holds _ _ =>
    refine .setPipe holds.found ?_
    have keeps := Pipe.Keeps.modify pipe endpoint.side
      (fun held => { held with inbound := held.inbound.drop limit }) rfl rfl
    rwa [numbered.endpoint_of_found holds.found] at keeps
  | _ => exact .refl registry _

/-- Putting bytes into a queue is signalled. -/
theorem WriteCase.announced {caller : InstanceId} {endpoint : Endpoint} {data : Bytes}
    {served : Served (Except CallError (Option Nat))}
    (outcome : WriteCase registry caller endpoint data served) :
    registry.Announced served.registry served.signals := by
  -- The writer fills the queue across and signals there.
  cases outcome with
  | puts holds _ _ _ =>
    exact .setPipe holds.found (.modify _ endpoint.side.peer _ rfl rfl)
  | _ => exact .refl registry _

namespace Announced

/-- Closing a side is signalled. -/
theorem shut {endpoint : Endpoint} {pipe : Pipe}
    (found : registry.pipes[endpoint.index]? = some pipe) :
    registry.Announced (registry.shut endpoint pipe)
      [pipe.first.endpoint, pipe.second.endpoint] :=
  ⟨rfl, (setPipe found (.close pipe endpoint.side)).kept⟩

/-- Every side that is closed in a row is signalled. -/
theorem closeAll (numbered : registry.Numbered) (endpoints : List Endpoint) :
    (registry.closeAll endpoints).1.Numbered ∧
      registry.Announced (registry.closeAll endpoints).1 (registry.closeAll endpoints).2 := by
  -- Each end of the list signals for itself.
  induction endpoints generalizing registry with
  | nil => exact ⟨numbered, .refl registry _⟩
  | cons endpoint rest ih =>
    simp only [PipeRegistry.closeAll]
    cases found : registry.pipes[endpoint.index]? with
    | none =>
      rw [numbered.closeOpen_of_none found]
      simpa using ih numbered
    | some pipe =>
      rw [numbered.closeOpen_eq found]
      split
      · have later := ih (numbered.shut found)
        exact ⟨later.1, (shut found).trans later.2⟩
      · simpa using ih numbered

/-- Gifts need no signal. -/
theorem transfer (numbered : registry.Numbered) (endpoints : List Endpoint) (owner : InstanceId) :
    (registry.transfer endpoints owner).Numbered ∧
      registry.Announced (registry.transfer endpoints owner) [] := by
  -- Owners are not signalled, and nothing else changes.
  induction endpoints generalizing registry with
  | nil => exact ⟨numbered, .refl registry _⟩
  | cons endpoint rest ih =>
    cases found : registry.pipes[endpoint.index]? with
    | none =>
      rw [numbered.transfer_cons_of_none found]
      exact ih numbered
    | some pipe =>
      rw [numbered.transfer_cons found]
      have later := ih (numbered.give found owner)
      exact ⟨later.1, (setPipe found (.give pipe endpoint.side owner)).trans later.2⟩

/-- A new pipe changes no older one. -/
theorem extend (registry : PipeRegistry) (first second next : Endpoint) (owner : InstanceId) :
    registry.Announced (registry.extend first second next owner) [] where
  -- The new pipe stands after all others, which stay as they are.
  capacity := rfl
  kept := by
    intro position pipe found
    have inside := (List.getElem?_eq_some_iff.mp found).1
    refine ⟨pipe, ?_, .refl pipe []⟩
    simp only [PipeRegistry.extend]
    rw [List.getElem?_append_left inside, found]

end Announced

/-- Closing an endpoint is signalled. -/
theorem CloseCase.announced {caller : InstanceId} {endpoint : Endpoint}
    {served : Served (Except CallError Bool)} (outcome : CloseCase registry caller endpoint served)
    (numbered : registry.Numbered) :
    served.registry.Numbered ∧ registry.Announced served.registry served.signals := by
  -- Only a close that closes something signals.
  cases outcome with
  | closes holds => exact ⟨numbered.shut holds.found, .shut holds.found⟩
  | _ => exact ⟨numbered, .refl registry _⟩

/-- Creating a pipe needs no signal. -/
theorem CreateCase.announced {owner : InstanceId}
    {served : Served (Except CallError (Endpoint × Endpoint))}
    (outcome : CreateCase registry owner served) (numbered : registry.Numbered) :
    served.registry.Numbered ∧ registry.Announced served.registry served.signals := by
  -- Nobody can wait for a pipe that is new.
  cases outcome with
  | creates _ numbers => exact ⟨numbered.extend numbers owner, .extend registry _ _ _ owner⟩
  | refused => exact ⟨numbered, .refl registry _⟩

end PipeRegistry

end Progeny
