import Progeny.Proofs.Pipe.Numbering

/-! What each operation on numbered pipes can come to: its result, the one pipe that it changes,
and the endpoints that it signals. -/

namespace Progeny.PipeRegistry

variable {registry : PipeRegistry} {caller : InstanceId} {endpoint : Endpoint}

/-- What a read of an endpoint can come to. -/
inductive ReadCase (registry : PipeRegistry) (caller : InstanceId) (endpoint : Endpoint)
    (limit : Nat) : Served (Except CallError (Option Bytes)) → Prop where
  | refused (unheld : ∀ pipe, ¬registry.Holds caller endpoint pipe) :
    ReadCase registry caller endpoint limit ⟨.error (.invalidEndpoint endpoint), registry, []⟩
  | waits {pipe : Pipe} (holds : registry.Holds caller endpoint pipe) (asked : limit ≠ 0)
      (empty : (pipe.on endpoint.side).inbound = [])
      (expected : (pipe.on endpoint.side.peer).isOpen = true) :
    ReadCase registry caller endpoint limit ⟨.ok none, registry, []⟩
  | ends {pipe : Pipe} (holds : registry.Holds caller endpoint pipe)
      (reason : limit = 0 ∨ (pipe.on endpoint.side).inbound = [] ∧
        (pipe.on endpoint.side.peer).isOpen = false) :
    ReadCase registry caller endpoint limit ⟨.ok (some []), registry, []⟩
  | takes {pipe : Pipe} (holds : registry.Holds caller endpoint pipe) (asked : limit ≠ 0)
      (filled : (pipe.on endpoint.side).inbound ≠ []) :
    ReadCase registry caller endpoint limit
      ⟨.ok (some ((pipe.on endpoint.side).inbound.take limit)),
        registry.setPipe endpoint.index (pipe.modify endpoint.side fun held =>
          { held with inbound := held.inbound.drop limit }), [endpoint]⟩

/-- What a write to an endpoint can come to. -/
inductive WriteCase (registry : PipeRegistry) (caller : InstanceId) (endpoint : Endpoint)
    (data : Bytes) : Served (Except CallError (Option Nat)) → Prop where
  | refused (unheld : ∀ pipe, ¬registry.Holds caller endpoint pipe) :
    WriteCase registry caller endpoint data ⟨.error (.invalidEndpoint endpoint), registry, []⟩
  | broken {pipe : Pipe} (holds : registry.Holds caller endpoint pipe)
      (gone : (pipe.on endpoint.side.peer).isOpen = false) :
    WriteCase registry caller endpoint data ⟨.error (.brokenChannel endpoint), registry, []⟩
  | nothing {pipe : Pipe} (holds : registry.Holds caller endpoint pipe)
      (expected : (pipe.on endpoint.side.peer).isOpen = true) (offered : data = []) :
    WriteCase registry caller endpoint data ⟨.ok (some 0), registry, []⟩
  | waits {pipe : Pipe} (holds : registry.Holds caller endpoint pipe)
      (expected : (pipe.on endpoint.side.peer).isOpen = true) (offered : data ≠ [])
      (full : registry.capacity.toNat ≤ (pipe.on endpoint.side.peer).inbound.length) :
    WriteCase registry caller endpoint data ⟨.ok none, registry, []⟩
  | puts {pipe : Pipe} (holds : registry.Holds caller endpoint pipe)
      (expected : (pipe.on endpoint.side.peer).isOpen = true) (offered : data ≠ [])
      (room : (pipe.on endpoint.side.peer).inbound.length < registry.capacity.toNat) :
    WriteCase registry caller endpoint data
      ⟨.ok (some (min (registry.capacity.toNat - (pipe.on endpoint.side.peer).inbound.length)
          data.length)),
        registry.setPipe endpoint.index (pipe.modify endpoint.side.peer fun held =>
          { held with inbound := held.inbound ++ data.take (registry.capacity.toNat -
            (pipe.on endpoint.side.peer).inbound.length) }),
        [(pipe.on endpoint.side.peer).endpoint]⟩

/-- The registry after the end of an endpoint was closed. -/
def shut (registry : PipeRegistry) (endpoint : Endpoint) (pipe : Pipe) : PipeRegistry :=
  { registry.setPipe endpoint.index (pipe.close endpoint.side) with
    openEndpoints := registry.openEndpoints - 1 }

/-- What closing an endpoint can come to. -/
inductive CloseCase (registry : PipeRegistry) (caller : InstanceId) (endpoint : Endpoint) :
    Served (Except CallError Bool) → Prop where
  | refused (foreign : ∀ pipe, registry.pipes[endpoint.index]? = some pipe →
      (pipe.on endpoint.side).owner ≠ caller) :
    CloseCase registry caller endpoint ⟨.error (.invalidEndpoint endpoint), registry, []⟩
  | repeated {pipe : Pipe} (found : registry.pipes[endpoint.index]? = some pipe)
      (owned : (pipe.on endpoint.side).owner = caller)
      (closed : (pipe.on endpoint.side).isOpen = false) :
    CloseCase registry caller endpoint ⟨.ok false, registry, []⟩
  | closes {pipe : Pipe} (holds : registry.Holds caller endpoint pipe) :
    CloseCase registry caller endpoint
      ⟨.ok true, registry.shut endpoint pipe, [pipe.first.endpoint, pipe.second.endpoint]⟩

/-- The registry with a new pipe. -/
def extend (registry : PipeRegistry) (first second next : Endpoint) (owner : InstanceId) :
    PipeRegistry :=
  { registry with
    nextEndpoint := next
    openEndpoints := registry.openEndpoints + 2
    pipes := registry.pipes ++ [⟨⟨first, owner, true, []⟩, ⟨second, owner, true, []⟩⟩] }

/-- What the creation of a pipe can come to. -/
inductive CreateCase (registry : PipeRegistry) (owner : InstanceId) :
    Served (Except CallError (Endpoint × Endpoint)) → Prop where
  | refused (spent : registry.maxEndpoints.toNat < registry.openEndpoints + 2 ∨
      2 ^ 64 ≤ 2 * registry.pipes.length + 3) :
    CreateCase registry owner
      ⟨.error (.exhausted .endpoints registry.maxEndpoints), registry, []⟩
  | creates {first second next : Endpoint}
      (budget : registry.openEndpoints + 2 ≤ registry.maxEndpoints.toNat)
      (numbers : first.word.toNat = 2 * registry.pipes.length + 1 ∧
        second.word.toNat = 2 * registry.pipes.length + 2 ∧
        next.word.toNat = 2 * registry.pipes.length + 3) :
    CreateCase registry owner ⟨.ok (first, second), registry.extend first second next owner, []⟩

namespace Numbered

variable (numbered : registry.Numbered)
include numbered

/-- An endpoint that nobody else can use is refused with its number. -/
theorem held_cases (caller : InstanceId) (endpoint : Endpoint) :
    (∃ pipe, registry.Holds caller endpoint pipe ∧
        registry.held caller endpoint = .ok (pipe, endpoint.side)) ∨
      (∀ pipe, ¬registry.Holds caller endpoint pipe) ∧
        registry.held caller endpoint = .error (.invalidEndpoint endpoint) := by
  -- Whoever does not hold the endpoint is told so in one way only.
  cases outcome : registry.held caller endpoint with
  | error error =>
    obtain rfl := held_error outcome
    refine Or.inr ⟨fun pipe holds => ?_, rfl⟩
    simp [numbered.held_iff.mpr ⟨holds, rfl⟩] at outcome
  | ok place =>
    obtain ⟨pipe, side⟩ := place
    obtain ⟨holds, rfl⟩ := numbered.held_iff.mp outcome
    exact Or.inl ⟨pipe, holds, rfl⟩

/-- The end found for an endpoint bears that endpoint. -/
theorem endpoint_of_found {pipe : Pipe}
    (found : registry.pipes[endpoint.index]? = some pipe) :
    (pipe.on endpoint.side).endpoint = endpoint :=
  Endpoint.eq_of_index_side (numbered.ends found endpoint.side).1
    (numbered.ends found endpoint.side).2

/-- A read is refused, waits, finds the end of the stream, or takes bytes off one queue. -/
theorem read_case (caller : InstanceId) (endpoint : Endpoint) (limit : Nat) :
    ReadCase registry caller endpoint limit (registry.read caller endpoint limit) := by
  unfold read
  rcases numbered.held_cases caller endpoint with ⟨pipe, holds, outcome⟩ | ⟨unheld, outcome⟩
  · simp only [outcome]
    by_cases asked : limit = 0
    · simpa [Pipe.read, asked] using .ends holds (.inl rfl)
    by_cases empty : (pipe.on endpoint.side).inbound = []
    · cases expected : (pipe.on endpoint.side.peer).isOpen with
      | true => simpa [Pipe.read, asked, empty, expected] using .waits holds asked empty expected
      | false =>
        simpa [Pipe.read, asked, empty, expected] using .ends holds (.inr ⟨empty, expected⟩)
    · -- Some byte is delivered, so the answer is not the one for the end of the stream.
      have delivered : (pipe.on endpoint.side).inbound.take limit ≠ [] := by
        simp [List.take_eq_nil_iff, asked, empty]
      have step := numbered.modify_eq holds.found fun pipe side => (pipe.read side limit).2
      have bytes : (pipe.read endpoint.side limit).1 =
          some ((pipe.on endpoint.side).inbound.take limit) := by
        simp [Pipe.read, asked, empty]
      simp only [bytes]
      rw [step, numbered.endpoint_of_found holds.found]
      simpa [Pipe.read, asked, empty] using ReadCase.takes holds asked empty
  · simpa only [outcome] using .refused unheld

/-- A write is refused, finds nobody to read, waits, or puts bytes into one queue. -/
theorem write_case (caller : InstanceId) (endpoint : Endpoint) (data : Bytes) :
    WriteCase registry caller endpoint data (registry.write caller endpoint data) := by
  unfold write
  rcases numbered.held_cases caller endpoint with ⟨pipe, holds, outcome⟩ | ⟨unheld, outcome⟩
  · simp only [outcome]
    cases expected : (pipe.on endpoint.side.peer).isOpen with
    | false => simpa [Pipe.write, expected] using .broken holds expected
    | true =>
      by_cases offered : data = []
      · simpa [Pipe.write, expected, offered] using .nothing holds expected rfl
      by_cases full : registry.capacity.toNat ≤ (pipe.on endpoint.side.peer).inbound.length
      · simpa [Pipe.write, expected, offered, Nat.sub_eq_zero_of_le full]
          using .waits holds expected offered full
      · -- There is room for at least one byte, and at least one is offered.
        have room : registry.capacity.toNat - (pipe.on endpoint.side.peer).inbound.length ≠ 0 := by
          omega
        have some : data.length ≠ 0 := by simpa using offered
        have step := numbered.modify_eq holds.found
          fun pipe side => (pipe.write registry.capacity.toNat side data).2
        have taken : (pipe.write registry.capacity.toNat endpoint.side data).1 = .accepted
            (min (registry.capacity.toNat - (pipe.on endpoint.side.peer).inbound.length)
              data.length) := by
          simp [Pipe.write, expected, offered, room]
        simp only [taken]
        split
        · simp_all
        · simp_all
        · rename_i zero
          simp only [WriteAttempt.accepted.injEq] at zero
          omega
        · rename_i count _ same
          obtain rfl := WriteAttempt.accepted.inj same
          rw [step]
          simpa [Pipe.write, expected, offered, room]
            using WriteCase.puts holds expected offered (by omega)
  · simpa only [outcome] using .refused unheld

/-- Closing an open endpoint, whoever holds it, closes its side and signals both. -/
theorem closeOpen_eq {pipe : Pipe} (found : registry.pipes[endpoint.index]? = some pipe) :
    registry.closeOpen endpoint =
      if (pipe.on endpoint.side).isOpen = true
      then (registry.shut endpoint pipe, [pipe.first.endpoint, pipe.second.endpoint])
      else (registry, []) := by
  -- The position of the endpoint decides which pipe is looked at.
  unfold closeOpen
  simp only [numbered.locate?, found, Option.map_some]
  split
  · rw [numbered.modify_eq found]
    rfl
  · rfl

/-- Without a pipe of the endpoint there is nothing to close. -/
theorem closeOpen_of_none (missing : registry.pipes[endpoint.index]? = none) :
    registry.closeOpen endpoint = (registry, []) := by
  unfold closeOpen
  simp [numbered.locate?, missing]

/-- Closing is refused, comes too late, or closes the side. -/
theorem close_case (caller : InstanceId) (endpoint : Endpoint) :
    CloseCase registry caller endpoint (registry.close caller endpoint) := by
  -- The owner is asked for before the end, so a closed end still tells its owner.
  unfold close
  cases found : registry.pipes[endpoint.index]? with
  | none =>
    simp only [numbered.locate?, found, Option.map_none]
    exact .refused fun pipe there => by simp [found] at there
  | some pipe =>
    simp only [numbered.locate?, found, Option.map_some]
    split
    · rename_i owned
      rw [numbered.closeOpen_eq found]
      cases opened : (pipe.on endpoint.side).isOpen with
      | true => exact .closes ⟨found, owned, opened⟩
      | false => exact .repeated found owned opened
    · rename_i foreign
      refine .refused fun other there => ?_
      obtain rfl := Option.some.inj (found.symm.trans there)
      exact foreign

/-- A new pipe takes the next two numbers, if the budget and the numbers last. -/
theorem create_case (owner : InstanceId) : CreateCase registry owner (registry.create owner) := by
  -- Two further endpoints must be nameable, or one of them is the last word.
  have next := numbered.next
  unfold create
  dsimp only
  split
  · exact .refused (by omega)
  · rename_i budget
    cases following : registry.nextEndpoint.succ? with
    | none =>
      have last := Endpoint.toNat_of_succ?_eq_none following
      exact .refused (.inr (by omega))
    | some second =>
      have secondNumber := Endpoint.toNat_succ? following
      dsimp only
      cases beyond : second.succ? with
      | none =>
        have last := Endpoint.toNat_of_succ?_eq_none beyond
        exact .refused (.inr (by omega))
      | some last =>
        have lastNumber := Endpoint.toNat_succ? beyond
        exact .creates (by omega) ⟨by omega, by omega, by omega⟩

/-- Giving an endpoint away changes its owner and nothing else. -/
theorem transfer_cons {pipe : Pipe} (found : registry.pipes[endpoint.index]? = some pipe)
    (rest : List Endpoint) (owner : InstanceId) :
    registry.transfer (endpoint :: rest) owner =
      (registry.setPipe endpoint.index (pipe.modify endpoint.side fun held =>
        { held with owner := owner })).transfer rest owner := by
  -- The first endpoint of the list is given away before the rest.
  unfold transfer
  rw [List.foldl_cons, numbered.modify_eq found]

/-- An endpoint without a pipe cannot be given away. -/
theorem transfer_cons_of_none (missing : registry.pipes[endpoint.index]? = none)
    (rest : List Endpoint) (owner : InstanceId) :
    registry.transfer (endpoint :: rest) owner = registry.transfer rest owner := by
  unfold transfer
  rw [List.foldl_cons, numbered.modify_of_none missing]

/-- Endpoints may be given away exactly if the caller holds each of them and each is listed once. -/
theorem checkTransfer_iff {endpoints given : List Endpoint} :
    registry.checkTransfer caller endpoints given = .ok () ↔
      (∀ endpoint ∈ endpoints, ∃ pipe, registry.Holds caller endpoint pipe) ∧
        endpoints.Nodup ∧ ∀ endpoint ∈ endpoints, endpoint ∉ given := by
  -- What was given so far grows by the endpoint just checked.
  induction endpoints generalizing given with
  | nil => simp [checkTransfer]
  | cons endpoint rest ih =>
    unfold checkTransfer
    rcases numbered.held_cases caller endpoint with ⟨pipe, holds, outcome⟩ | ⟨unheld, outcome⟩
    · simp only [outcome]
      split
      · simp_all
      · rename_i fresh
        rw [ih]
        simp only [List.mem_cons, not_or, List.nodup_cons, forall_eq_or_imp]
        constructor
        · rintro ⟨held, once, apart⟩
          exact ⟨⟨⟨pipe, holds⟩, held⟩, ⟨fun again => (apart _ again).1 rfl, once⟩, fresh,
            fun other member => (apart other member).2⟩
        · rintro ⟨⟨_, held⟩, ⟨missing, once⟩, _, apart⟩
          refine ⟨held, once, fun other member => ⟨?_, apart other member⟩⟩
          rintro rfl
          exact missing member
    · simp only [outcome, reduceCtorEq, false_iff, not_and]
      intro held
      obtain ⟨pipe, holds⟩ := held endpoint (by simp)
      exact absurd holds (unheld pipe)

end Numbered

/-! Every operation keeps the numbering. -/

namespace ReadCase

/-- Taking bytes off a queue keeps the numbering. -/
theorem numbered {limit : Nat} {served : Served (Except CallError (Option Bytes))}
    (outcome : ReadCase registry caller endpoint limit served) (numbered : registry.Numbered) :
    served.registry.Numbered := by
  -- Only a queue was shortened.
  cases outcome with
  | takes holds _ _ =>
    refine numbered.setPipe holds.found fun side => ?_
    cases side <;> cases endpoint.side <;> rfl
  | _ => exact numbered

end ReadCase

namespace WriteCase

/-- Putting bytes into a queue keeps the numbering. -/
theorem numbered {data : Bytes} {served : Served (Except CallError (Option Nat))}
    (outcome : WriteCase registry caller endpoint data served) (numbered : registry.Numbered) :
    served.registry.Numbered := by
  -- Only a queue was lengthened.
  cases outcome with
  | puts holds _ _ _ =>
    refine numbered.setPipe holds.found fun side => ?_
    cases side <;> cases endpoint.side <;> rfl
  | _ => exact numbered

end WriteCase

namespace Numbered

/-- Closing a side keeps the numbering. -/
theorem shut (numbered : registry.Numbered) {pipe : Pipe}
    (found : registry.pipes[endpoint.index]? = some pipe) :
    (registry.shut endpoint pipe).Numbered := by
  have kept := numbered.setPipe found fun side => (pipe.on_close endpoint.side side).1
  exact ⟨kept.next, kept.ends⟩

/-- A new pipe continues the numbering. -/
theorem extend (numbered : registry.Numbered) {first second next : Endpoint}
    (numbers : first.word.toNat = 2 * registry.pipes.length + 1 ∧
      second.word.toNat = 2 * registry.pipes.length + 2 ∧
      next.word.toNat = 2 * registry.pipes.length + 3) (owner : InstanceId) :
    (registry.extend first second next owner).Numbered where
  next := by
    simp only [PipeRegistry.extend, List.length_append, List.length_singleton]
    omega
  ends := by
    intro position pipe found side
    simp only [PipeRegistry.extend, List.getElem?_append] at found
    split at found
    · exact numbered.ends found side
    · rename_i beyond
      -- The only position beyond the older pipes is the first one.
      have last : position = registry.pipes.length := by
        have := (List.getElem?_eq_some_iff.mp found).1
        simp only [List.length_singleton] at this
        omega
      subst last
      simp only [Nat.sub_self, List.getElem?_cons_zero, Option.some.injEq] at found
      subst found
      cases side with
      | first => exact Endpoint.index_side_of_odd numbers.1
      | second => exact Endpoint.index_side_of_even numbers.2.1

/-- A change of owner keeps the numbering. -/
theorem give (numbered : registry.Numbered) {pipe : Pipe}
    (found : registry.pipes[endpoint.index]? = some pipe) (owner : InstanceId) :
    (registry.setPipe endpoint.index (pipe.modify endpoint.side fun held =>
      { held with owner := owner })).Numbered := by
  -- Owners are no numbers.
  refine numbered.setPipe found fun side => ?_
  cases side <;> cases endpoint.side <;> rfl

end Numbered

end Progeny.PipeRegistry
