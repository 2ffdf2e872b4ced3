import Progeny.Pipe.Registry

/-! Reads and writes that are answered make progress: a read shortens the queue that it takes bytes
from, and a write of some bytes takes at least one of them. -/

namespace Progeny.PipeRegistry

/-- The number of bytes that wait to be read on an endpoint. -/
def queued (registry : PipeRegistry) (endpoint : Endpoint) : Nat :=
  match registry.locate? endpoint with
  | none => 0
  | some (pipe, side) => (pipe.on side).inbound.length

/-- A change that keeps the endpoints of a pipe is found where the pipe was. -/
theorem locate?_modify (registry : PipeRegistry) (endpoint : Endpoint)
    (change : Pipe → Side → Pipe)
    (kept : ∀ pipe side, (change pipe side).sideOf? endpoint = pipe.sideOf? endpoint) :
    (registry.modify endpoint change).locate? endpoint =
      (registry.locate? endpoint).map fun (pipe, side) => (change pipe side, side) := by
  -- Pipe by pipe, the side that the endpoint names is the same before and after.
  unfold locate? modify
  induction registry.pipes with
  | nil => rfl
  | cons pipe rest ih =>
    simp only [List.map_cons, List.findSome?_cons]
    cases named : pipe.sideOf? endpoint with
    | none => simp only [named, Option.map_none]; exact ih
    | some side => simp [kept, named]

/-- Reading keeps the endpoints of a pipe. -/
theorem sideOf?_read (pipe : Pipe) (side : Side) (limit : Nat) (endpoint : Endpoint) :
    (pipe.read side limit).2.sideOf? endpoint = pipe.sideOf? endpoint := by
  unfold Pipe.read
  split
  · rfl
  split
  · rfl
  · cases side <;> rfl

/-- Bytes that were read are no longer queued. -/
theorem queued_read_lt {registry : PipeRegistry} {caller : InstanceId} {endpoint : Endpoint}
    {limit : Nat} {byte : UInt8} {bytes : Bytes}
    (delivered : (registry.read caller endpoint limit).result = .ok (some (byte :: bytes))) :
    (registry.read caller endpoint limit).registry.queued endpoint
      < registry.queued endpoint := by
  unfold read at delivered ⊢
  cases found : registry.held caller endpoint with
  | error => simp [found] at delivered
  | ok located =>
    obtain ⟨pipe, side⟩ := located
    have place : registry.locate? endpoint = some (pipe, side) := by
      unfold held at found
      split at found
      · simp at found
      · split at found
        · simp_all
        · simp at found
    simp only [found] at delivered ⊢
    cases attempt : (pipe.read side limit).1 with
    | none => simp [attempt] at delivered
    | some taken =>
      cases taken with
      | nil => simp [attempt] at delivered
      | cons first more =>
        simp only [queued, locate?_modify _ _ _ fun pipe side => sideOf?_read pipe side limit _,
          place, Option.map_some]
        -- Some bytes were taken, so the queue was not empty and the limit was not zero.
        unfold Pipe.read at attempt ⊢
        split at attempt
        · simp at attempt
        split at attempt
        · split at attempt <;> simp at attempt
        · rename_i positive filled
          have : 0 < (pipe.on side).inbound.length := List.length_pos_iff.mpr filled
          cases side <;> simp_all [Pipe.on, Pipe.modify] <;> omega

/-- A write of some bytes that is answered took at least one of them. -/
theorem write_pos {registry : PipeRegistry} {caller : InstanceId} {endpoint : Endpoint}
    {data : Bytes} {count : Nat} (offered : data ≠ [])
    (accepted : (registry.write caller endpoint data).result = .ok (some count)) :
    0 < count := by
  unfold write at accepted
  split at accepted
  · simp at accepted
  · split at accepted
    · simp at accepted
    · simp at accepted
    · rename_i zero
      -- Nothing is accepted of some bytes only if there is no room, which is another answer.
      have : 0 < data.length := List.length_pos_iff.mpr offered
      unfold Pipe.write at zero
      simp only [offered, if_false] at zero
      split at zero
      · simp at zero
      split at zero
      · simp at zero
      · simp only [WriteAttempt.accepted.injEq, List.length_take] at zero
        omega
    · rename_i nonzero _
      simp only [Except.ok.injEq, Option.some.injEq] at accepted
      subst accepted
      exact Nat.pos_of_ne_zero nonzero

end Progeny.PipeRegistry
