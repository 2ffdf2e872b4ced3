import Progeny.Proofs.Pipe.Calls

/-! The count of open ends is kept true by every operation, and budgets are left alone. -/

namespace Progeny

/-- The number of open ends of a pipe. -/
def Pipe.openEnds (pipe : Pipe) : Nat :=
  (if pipe.first.isOpen then 1 else 0) + if pipe.second.isOpen then 1 else 0

/-- A pipe has as many open ends as another with the same ends open. -/
theorem Pipe.openEnds_congr {pipe other : Pipe}
    (same : ∀ side, (other.on side).isOpen = (pipe.on side).isOpen) :
    other.openEnds = pipe.openEnds := by
  have first : other.first.isOpen = pipe.first.isOpen := same .first
  have second : other.second.isOpen = pipe.second.isOpen := same .second
  simp [openEnds, first, second]

/-- Closing an open side leaves one open end less. -/
theorem Pipe.openEnds_close {pipe : Pipe} {side : Side} (opened : (pipe.on side).isOpen = true) :
    (pipe.close side).openEnds + 1 = pipe.openEnds := by
  -- The side that is closed counts one less, and the other side counts as before.
  have own := (pipe.on_close_self side).1
  have across := (pipe.on_close_peer side).1
  cases side with
  | first =>
    simp only [on, Side.peer] at opened own across
    simp only [openEnds, opened, own, across]
    simp
    omega
  | second =>
    simp only [on, Side.peer] at opened own across
    simp only [openEnds, opened, own, across]
    simp

namespace PipeRegistry

/-- The registry tells how many ends are open. -/
def Counted (registry : PipeRegistry) : Prop :=
  registry.openEndpoints = (registry.pipes.map Pipe.openEnds).sum

variable {registry : PipeRegistry} {caller : InstanceId} {endpoint : Endpoint}

/-- Replacing one pipe changes the count by what that pipe gains or loses. -/
theorem sum_set {pipes : List Pipe} {position : Nat} {pipe : Pipe}
    (found : pipes[position]? = some pipe) (changed : Pipe) :
    ((pipes.set position changed).map Pipe.openEnds).sum + pipe.openEnds =
      (pipes.map Pipe.openEnds).sum + changed.openEnds := by
  -- The position leads to the pipe, and the pipes before it count on both sides.
  induction pipes generalizing position with
  | nil => simp at found
  | cons head rest ih =>
    cases position with
    | zero =>
      obtain rfl := Option.some.inj found
      simp only [List.set_cons_zero, List.map_cons, List.sum_cons]
      omega
    | succ position =>
      have tail := ih (by simpa using found)
      simp only [List.set_cons_succ, List.map_cons, List.sum_cons]
      omega

/-- No more than two ends of a pipe are open. -/
theorem Counted.le (counted : registry.Counted) :
    registry.openEndpoints ≤ 2 * registry.pipes.length := by
  -- No pipe has more than two ends.
  rw [counted]
  induction registry.pipes with
  | nil => simp
  | cons pipe rest ih =>
    have two : pipe.openEnds ≤ 2 := by
      unfold Pipe.openEnds
      split <;> split <;> omega
    simp only [List.map_cons, List.sum_cons, List.length_cons]
    omega

/-- No end is counted exactly if none is open. -/
theorem Counted.eq_zero (counted : registry.Counted)
    (closed : ∀ pipe ∈ registry.pipes, ∀ side, (pipe.on side).isOpen = false) :
    registry.openEndpoints = 0 := by
  -- A pipe without an open end counts for nothing.
  rw [counted]
  have none : ∀ pipe ∈ registry.pipes, pipe.openEnds = 0 := by
    intro pipe there
    have first : pipe.first.isOpen = false := closed pipe there .first
    have second : pipe.second.isOpen = false := closed pipe there .second
    simp [Pipe.openEnds, first, second]
  rw [List.map_congr_left none, List.map_const', List.sum_replicate_nat, Nat.mul_zero]

namespace Counted

/-- A pipe may be replaced by one with the same ends open. -/
theorem setPipe (counted : registry.Counted) {position : Nat} {pipe changed : Pipe}
    (found : registry.pipes[position]? = some pipe)
    (same : ∀ side, (changed.on side).isOpen = (pipe.on side).isOpen) :
    (registry.setPipe position changed).Counted := by
  -- The count does not move, and neither does the sum.
  have sum := sum_set found changed
  have ends := Pipe.openEnds_congr same
  unfold Counted at counted ⊢
  simp only [PipeRegistry.setPipe]
  omega

/-- Closing an open side is counted. -/
theorem shut (counted : registry.Counted) {pipe : Pipe}
    (found : registry.pipes[endpoint.index]? = some pipe)
    (opened : (pipe.on endpoint.side).isOpen = true) : (registry.shut endpoint pipe).Counted := by
  -- The count and the sum go down together.
  have sum := sum_set found (pipe.close endpoint.side)
  have ends := Pipe.openEnds_close opened
  unfold Counted at counted ⊢
  simp only [PipeRegistry.shut, PipeRegistry.setPipe]
  omega

/-- Sides that are closed in a row are counted. -/
theorem closeAll (counted : registry.Counted) (numbered : registry.Numbered)
    (endpoints : List Endpoint) : (registry.closeAll endpoints).1.Counted := by
  -- Every endpoint of the list closes at most one open end.
  induction endpoints generalizing registry with
  | nil => exact counted
  | cons endpoint rest ih =>
    simp only [PipeRegistry.closeAll]
    cases found : registry.pipes[endpoint.index]? with
    | none =>
      rw [numbered.closeOpen_of_none found]
      exact ih counted numbered
    | some pipe =>
      rw [numbered.closeOpen_eq found]
      split
      · exact ih (counted.shut found ‹_›) (numbered.shut found)
      · exact ih counted numbered

/-- Gifts change no count. -/
theorem transfer (counted : registry.Counted) (numbered : registry.Numbered)
    (endpoints : List Endpoint) (heir : InstanceId) :
    (registry.transfer endpoints heir).Counted := by
  -- To give an end away neither opens nor closes it.
  induction endpoints generalizing registry with
  | nil => exact counted
  | cons endpoint rest ih =>
    cases found : registry.pipes[endpoint.index]? with
    | none =>
      rw [numbered.transfer_cons_of_none found]
      exact ih counted numbered
    | some pipe =>
      rw [numbered.transfer_cons found]
      refine ih (counted.setPipe found fun side => ?_) (numbered.give found heir)
      cases side <;> cases endpoint.side <;> rfl

end Counted

/-- Reading changes no count. -/
theorem ReadCase.counted {limit : Nat} {served : Served (Except CallError (Option Bytes))}
    (outcome : ReadCase registry caller endpoint limit served) (counted : registry.Counted) :
    served.registry.Counted := by
  -- Only a queue was shortened.
  cases outcome with
  | takes holds _ _ =>
    refine counted.setPipe holds.found fun side => ?_
    cases side <;> cases endpoint.side <;> rfl
  | _ => exact counted

/-- Writing changes no count. -/
theorem WriteCase.counted {data : Bytes} {served : Served (Except CallError (Option Nat))}
    (outcome : WriteCase registry caller endpoint data served) (counted : registry.Counted) :
    served.registry.Counted := by
  -- Only a queue was lengthened.
  cases outcome with
  | puts holds _ _ _ =>
    refine counted.setPipe holds.found fun side => ?_
    cases side <;> cases endpoint.side <;> rfl
  | _ => exact counted

/-- Closing an endpoint is counted. -/
theorem CloseCase.counted {served : Served (Except CallError Bool)}
    (outcome : CloseCase registry caller endpoint served) (counted : registry.Counted) :
    served.registry.Counted := by
  cases outcome with
  | closes holds => exact counted.shut holds.found holds.opened
  | _ => exact counted

/-- A new pipe has two open ends. -/
theorem CreateCase.counted {served : Served (Except CallError (Endpoint × Endpoint))}
    (outcome : CreateCase registry caller served) (counted : registry.Counted) :
    served.registry.Counted := by
  -- Both ends of the new pipe are open, and both are counted.
  cases outcome with
  | creates =>
    unfold Counted at counted ⊢
    simp [PipeRegistry.extend, counted, Pipe.openEnds]
  | refused => exact counted

/-- Two states of the pipes have the same budgets. -/
def SameBudgets (before after : PipeRegistry) : Prop :=
  after.capacity = before.capacity ∧ after.maxEndpoints = before.maxEndpoints

/-- Reading leaves the budgets. -/
theorem ReadCase.budgets {limit : Nat} {served : Served (Except CallError (Option Bytes))}
    (outcome : ReadCase registry caller endpoint limit served) :
    registry.SameBudgets served.registry := by
  cases outcome <;> exact ⟨rfl, rfl⟩

/-- Writing leaves the budgets. -/
theorem WriteCase.budgets {data : Bytes} {served : Served (Except CallError (Option Nat))}
    (outcome : WriteCase registry caller endpoint data served) :
    registry.SameBudgets served.registry := by
  cases outcome <;> exact ⟨rfl, rfl⟩

/-- Closing leaves the budgets. -/
theorem CloseCase.budgets {served : Served (Except CallError Bool)}
    (outcome : CloseCase registry caller endpoint served) :
    registry.SameBudgets served.registry := by
  cases outcome <;> exact ⟨rfl, rfl⟩

/-- Creating a pipe leaves the budgets. -/
theorem CreateCase.budgets {served : Served (Except CallError (Endpoint × Endpoint))}
    (outcome : CreateCase registry caller served) : registry.SameBudgets served.registry := by
  cases outcome <;> exact ⟨rfl, rfl⟩

/-- Gifts leave the budgets. -/
theorem sameBudgets_transfer (registry : PipeRegistry) (endpoints : List Endpoint)
    (heir : InstanceId) : registry.SameBudgets (registry.transfer endpoints heir) := by
  induction endpoints generalizing registry with
  | nil => exact ⟨rfl, rfl⟩
  | cons endpoint rest ih => exact ih _

end PipeRegistry

end Progeny
