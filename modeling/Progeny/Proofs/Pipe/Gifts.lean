import Mathlib.Data.List.Induction
import Progeny.Proofs.Pipe.Owners

/-! Which endpoints an instance can give away, which one is refused if it cannot, and what a gift
changes. -/

namespace Progeny

/-- An end after some endpoints were given to an instance. -/
def PipeEnd.give (endpoints : List Endpoint) (heir : InstanceId) (held : PipeEnd) : PipeEnd :=
  { held with owner := if held.endpoint ∈ endpoints then heir else held.owner }

/-- A pipe after some endpoints were given to an instance. -/
def Pipe.give (endpoints : List Endpoint) (heir : InstanceId) (pipe : Pipe) : Pipe :=
  ⟨pipe.first.give endpoints heir, pipe.second.give endpoints heir⟩

namespace PipeRegistry

/-- A caller may give endpoints away if it holds each of them open and each is listed once. -/
structure Givable (registry : PipeRegistry) (caller : InstanceId) (endpoints : List Endpoint) :
    Prop where
  held : ∀ endpoint ∈ endpoints, ∃ pipe, registry.Holds caller endpoint pipe
  once : endpoints.Nodup

/-- A gift of several endpoints fails at one of them if those before it could be given away, and
together with it they could not. -/
def FailsAt (registry : PipeRegistry) (caller : InstanceId) (endpoints : List Endpoint)
    (endpoint : Endpoint) : Prop :=
  ∃ before after, endpoints = before ++ endpoint :: after ∧ registry.Givable caller before ∧
    ¬registry.Givable caller (before ++ [endpoint])

variable {registry : PipeRegistry} {caller : InstanceId}

/-- The check goes on behind endpoints that pass. -/
theorem checkTransfer_append_ok {endpoints given : List Endpoint}
    (passed : registry.checkTransfer caller endpoints given = .ok ()) (more : List Endpoint) :
    registry.checkTransfer caller (endpoints ++ more) given =
      registry.checkTransfer caller more (endpoints.reverse ++ given) := by
  induction endpoints generalizing given with
  | nil => rfl
  | cons endpoint rest ih =>
    rw [List.cons_append, checkTransfer]
    rw [checkTransfer] at passed
    -- What passed was held, and it was not listed before.
    cases held : registry.held caller endpoint with
    | error error => simp [held] at passed
    | ok place =>
      simp only [held] at passed ⊢
      split at passed
      · simp at passed
      · rename_i fresh
        rw [if_neg fresh, ih passed]
        simp

/-- The check ends at the first endpoint that does not pass. -/
theorem checkTransfer_append_error {endpoints given : List Endpoint} {error : CallError}
    (failed : registry.checkTransfer caller endpoints given = .error error)
    (more : List Endpoint) :
    registry.checkTransfer caller (endpoints ++ more) given = .error error := by
  induction endpoints generalizing given with
  | nil => simp [checkTransfer] at failed
  | cons endpoint rest ih =>
    rw [List.cons_append, checkTransfer]
    rw [checkTransfer] at failed
    cases held : registry.held caller endpoint with
    | error refused =>
      simp only [held] at failed ⊢
      exact failed
    | ok place =>
      simp only [held] at failed ⊢
      split at failed
      · rename_i again
        rw [if_pos again]
        exact failed
      · rename_i fresh
        rw [if_neg fresh]
        exact ih failed

/-- A single endpoint that does not pass is named in the refusal. -/
theorem checkTransfer_single {endpoint : Endpoint} {given : List Endpoint} {error : CallError}
    (failed : registry.checkTransfer caller [endpoint] given = .error error) :
    error = .invalidEndpoint endpoint := by
  rw [checkTransfer] at failed
  cases held : registry.held caller endpoint with
  | error refused =>
    simp only [held, Except.error.injEq] at failed
    rw [← failed]
    exact held_error held
  | ok place =>
    simp only [held, checkTransfer] at failed
    split at failed
    · exact (Except.error.inj failed).symm
    · simp at failed

namespace Numbered

variable (numbered : registry.Numbered)
include numbered

/-- The check passes exactly what may be given away. -/
theorem checkTransfer_ok_iff {endpoints : List Endpoint} :
    registry.checkTransfer caller endpoints = .ok () ↔ registry.Givable caller endpoints := by
  rw [numbered.checkTransfer_iff]
  constructor
  · intro passed
    exact ⟨passed.1, passed.2.1⟩
  · intro givable
    exact ⟨givable.held, givable.once, by simp⟩

/-- The check fails exactly at the first endpoint that may not be given away after those before
it. -/
theorem checkTransfer_error_iff {endpoints : List Endpoint} {error : CallError} :
    registry.checkTransfer caller endpoints = .error error ↔
      ∃ endpoint, registry.FailsAt caller endpoints endpoint ∧
        error = .invalidEndpoint endpoint := by
  constructor
  · -- Either the endpoints before the last one fail already, or the last one does.
    intro failed
    induction endpoints using List.reverseRecOn with
    | nil => simp [checkTransfer] at failed
    | append_singleton before last ih =>
      cases earlier : registry.checkTransfer caller before with
      | error refused =>
        have same := checkTransfer_append_error earlier [last]
        rw [failed] at same
        obtain rfl := Except.error.inj same
        obtain ⟨endpoint, ⟨left, right, split, rest⟩, named⟩ := ih earlier
        exact ⟨endpoint, ⟨left, right ++ [last], by simp [split], rest⟩, named⟩
      | ok passed =>
        have single := checkTransfer_append_ok earlier [last]
        rw [failed] at single
        refine ⟨last, ⟨before, [], rfl, numbered.checkTransfer_ok_iff.mp earlier, ?_⟩,
          checkTransfer_single single.symm⟩
        intro givable
        rw [← numbered.checkTransfer_ok_iff, failed] at givable
        simp at givable
  · intro refused
    obtain ⟨endpoint, ⟨before, after, rfl, givable, notGivable⟩, rfl⟩ := refused
    have passed := numbered.checkTransfer_ok_iff.mpr givable
    -- The endpoint does not pass behind those before it, and what follows is not looked at.
    have failed : registry.checkTransfer caller (before ++ [endpoint]) =
        .error (.invalidEndpoint endpoint) := by
      cases outcome : registry.checkTransfer caller (before ++ [endpoint]) with
      | ok passed => exact absurd (numbered.checkTransfer_ok_iff.mp outcome) notGivable
      | error error =>
        rw [checkTransfer_append_ok passed] at outcome
        rw [checkTransfer_single outcome]
    have whole := checkTransfer_append_error failed after
    simpa using whole

/-- A gift changes the owners of the listed ends and nothing else. -/
theorem transfer_eq (endpoints : List Endpoint) (heir : InstanceId) :
    registry.transfer endpoints heir =
      { registry with pipes := registry.pipes.map (Pipe.give endpoints heir) } := by
  have pipes : (registry.transfer endpoints heir).pipes =
      registry.pipes.map (Pipe.give endpoints heir) := by
    apply List.ext_getElem?
    intro position
    rw [List.getElem?_map]
    cases found : registry.pipes[position]? with
    | none =>
      rw [List.getElem?_eq_none_iff] at found
      exact List.getElem?_eq_none (by rw [length_transfer]; exact found)
    | some pipe =>
      obtain ⟨changed, there, ends⟩ := numbered.transfer_found endpoints heir found
      have first : changed.first = pipe.first.give endpoints heir := ends .first
      have second : changed.second = pipe.second.give endpoints heir := ends .second
      rw [there, Option.map_some, Pipe.give, ← first, ← second]
  rw [← pipes]
  exact transfer_fields registry endpoints heir

end Numbered

end PipeRegistry

end Progeny
