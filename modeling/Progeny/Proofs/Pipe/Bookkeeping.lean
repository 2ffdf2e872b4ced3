import Progeny.Proofs.Pipe.Holdings
import Progeny.Proofs.Pipe.Queues
import Progeny.Proofs.Pipe.Streams

/-! What the registry tells about its pipes is true of them after any history of calls: how many
ends are open, who holds them, which endpoints were handed out, and how much waits on each. -/

namespace Progeny

/-- The pair of endpoints that a call hands out, if it creates a pipe. -/
def PipeCall.created (registry : PipeRegistry) : PipeCall → List (Endpoint × Endpoint)
  | .create owner =>
    match (registry.create owner).result with
    | .ok pair => [pair]
    | .error _ => []
  | _ => []

namespace PipeRegistry

/-- All pairs of endpoints that a history has handed out, in order. -/
def createdBy (registry : PipeRegistry) : List PipeCall → List (Endpoint × Endpoint)
  | [] => []
  | call :: rest => call.created registry ++ (call.run registry).createdBy rest

/-- The endpoints of all ends, whether open or closed. -/
def endpoints (registry : PipeRegistry) : List Endpoint :=
  registry.holdings.map Holding.endpoint

/-- The endpoints of some pairs, one after another. -/
def bothOf (pairs : List (Endpoint × Endpoint)) : List Endpoint :=
  pairs.flatMap fun pair => [pair.1, pair.2]

/-- What the registry keeps beside its pipes agrees with them, and its limits are observed. -/
structure Kept (registry : PipeRegistry) : Prop where
  numbered : registry.Numbered
  counted : registry.Counted
  afforded : registry.openEndpoints ≤ registry.maxEndpoints.toNat
  drained : registry.Drained
  within : registry.Within

variable {registry : PipeRegistry}

/-- Closing ends in a row opens none and leaves the budgets. -/
theorem Numbered.closeAll_afforded (numbered : registry.Numbered) (endpoints : List Endpoint) :
    (registry.closeAll endpoints).1.openEndpoints ≤ registry.openEndpoints ∧
      registry.SameBudgets (registry.closeAll endpoints).1 := by
  -- Every endpoint of the list takes at most one from the count.
  induction endpoints generalizing registry with
  | nil => exact ⟨Nat.le_refl _, rfl, rfl⟩
  | cons endpoint rest ih =>
    simp only [PipeRegistry.closeAll]
    cases found : registry.pipes[endpoint.index]? with
    | none =>
      rw [numbered.closeOpen_of_none found]
      exact ih numbered
    | some pipe =>
      rw [numbered.closeOpen_eq found]
      split
      · obtain ⟨fewer, budgets⟩ := ih (numbered.shut found)
        exact ⟨Nat.le_trans fewer (Nat.sub_le _ 1), budgets⟩
      · exact ih numbered

namespace Kept

/-- In a registry without pipes there is nothing to keep. -/
theorem fresh (capacity maxEndpoints : UInt64) : (fresh capacity maxEndpoints).Kept where
  numbered := numbered_of_empty _ rfl rfl
  counted := rfl
  afforded := Nat.zero_le _
  drained := fun pipe member => by simp [PipeRegistry.fresh] at member
  within := fun pipe member => by simp [PipeRegistry.fresh] at member

variable (kept : registry.Kept)
include kept

/-- Reading is accounted for. -/
theorem read (caller : InstanceId) (endpoint : Endpoint) (limit : Nat) :
    (registry.read caller endpoint limit).registry.Kept := by
  have outcome := kept.numbered.read_case caller endpoint limit
  generalize registry.read caller endpoint limit = served at outcome ⊢
  refine ⟨outcome.numbered kept.numbered, outcome.counted kept.counted, ?_,
    outcome.drained kept.drained, outcome.within kept.within⟩
  cases outcome <;> exact kept.afforded

/-- Writing is accounted for. -/
theorem write (caller : InstanceId) (endpoint : Endpoint) (data : Bytes) :
    (registry.write caller endpoint data).registry.Kept := by
  have outcome := kept.numbered.write_case caller endpoint data
  generalize registry.write caller endpoint data = served at outcome ⊢
  refine ⟨outcome.numbered kept.numbered, outcome.counted kept.counted, ?_,
    outcome.drained kept.drained, outcome.within kept.within⟩
  cases outcome <;> exact kept.afforded

/-- Creating a pipe is accounted for. -/
theorem create (owner : InstanceId) : (registry.create owner).registry.Kept := by
  have outcome := kept.numbered.create_case owner
  have counted := outcome.counted kept.counted
  generalize registry.create owner = served at outcome counted ⊢
  cases outcome with
  | refused => exact kept
  | creates budget numbers =>
    refine ⟨kept.numbered.extend numbers owner, counted, budget,
      kept.drained.extend _ _ _ owner, ?_⟩
    exact forall_extend kept.within fun side => by cases side <;> exact Nat.zero_le _

/-- Closing ends in a row is accounted for. -/
theorem closeAll (endpoints : List Endpoint) : (registry.closeAll endpoints).1.Kept := by
  obtain ⟨fewer, capacity, maxEndpoints⟩ := kept.numbered.closeAll_afforded endpoints
  refine ⟨(Announced.closeAll kept.numbered endpoints).1,
    kept.counted.closeAll kept.numbered endpoints, ?_,
    kept.drained.closeAll kept.numbered endpoints, ?_⟩
  · rw [maxEndpoints]
    exact Nat.le_trans fewer kept.afforded
  · unfold Within
    rw [capacity]
    exact kept.numbered.forall_closeAll (fun side short => short.close side) kept.within endpoints

/-- Closing an endpoint is accounted for. -/
theorem close (caller : InstanceId) (endpoint : Endpoint) :
    (registry.close caller endpoint).registry.Kept := by
  -- It is refused, comes too late, or closes one end as a list of one would.
  have outcome := kept.numbered.close_case caller endpoint
  generalize registry.close caller endpoint = served at outcome ⊢
  cases outcome with
  | @closes pipe holds =>
    have alone := kept.closeAll [endpoint]
    simp only [PipeRegistry.closeAll] at alone
    rwa [kept.numbered.closeOpen_eq holds.found, if_pos holds.opened] at alone
  | _ => exact kept

/-- Gifts are accounted for. -/
theorem transfer (endpoints : List Endpoint) (heir : InstanceId) :
    (registry.transfer endpoints heir).Kept := by
  obtain ⟨capacity, -⟩ := sameBudgets_transfer registry endpoints heir
  refine ⟨(Announced.transfer kept.numbered endpoints heir).1,
    kept.counted.transfer kept.numbered endpoints heir, ?_,
    kept.drained.transfer kept.numbered endpoints heir, ?_⟩
  · rw [transfer_fields]
    exact kept.afforded
  · unfold Within
    rw [capacity]
    exact kept.numbered.forall_transfer heir (fun side short => short.give side heir) kept.within
      endpoints

/-- Every call is accounted for. -/
theorem run (call : PipeCall) : (call.run registry).Kept := by
  cases call with
  | create owner => exact kept.create owner
  | read caller source limit => exact kept.read caller source limit
  | write caller target data => exact kept.write caller target data
  | close caller endpoint => exact kept.close caller endpoint
  | closeOwnedBy owner => exact kept.closeAll (registry.ownedBy owner)
  | checkTransfer => exact kept
  | transfer endpoints heir => exact kept.transfer endpoints heir

/-- Every history of calls is accounted for. -/
theorem after (calls : List PipeCall) : (registry.after calls).Kept := by
  induction calls generalizing registry with
  | nil => exact kept
  | cons call rest ih => exact ih (kept.run call)

end Kept

/-- No call changes the budgets. -/
theorem Kept.sameBudgets (kept : registry.Kept) (call : PipeCall) :
    registry.SameBudgets (call.run registry) := by
  have numbered := kept.numbered
  cases call with
  | create owner => exact (numbered.create_case owner).budgets
  | read caller source limit => exact (numbered.read_case caller source limit).budgets
  | write caller target data => exact (numbered.write_case caller target data).budgets
  | close caller endpoint => exact (numbered.close_case caller endpoint).budgets
  | closeOwnedBy owner => exact (numbered.closeAll_afforded (registry.ownedBy owner)).2
  | checkTransfer => exact ⟨rfl, rfl⟩
  | transfer endpoints heir => exact sameBudgets_transfer registry endpoints heir

/-- No history changes the budgets. -/
theorem Kept.sameBudgets_after (kept : registry.Kept) (calls : List PipeCall) :
    registry.SameBudgets (registry.after calls) := by
  induction calls generalizing registry with
  | nil => exact ⟨rfl, rfl⟩
  | cons call rest ih =>
    have first := kept.sameBudgets call
    have later := ih (kept.run call)
    exact ⟨later.1.trans first.1, later.2.trans first.2⟩

/-- A call adds the endpoints that it hands out, and takes none back. -/
theorem Kept.endpoints_run (kept : registry.Kept) (call : PipeCall) :
    (call.run registry).endpoints = registry.endpoints ++ bothOf (call.created registry) := by
  have numbered := kept.numbered
  unfold endpoints
  cases call with
  | create owner =>
    have outcome := numbered.create_case owner
    simp only [PipeCall.run, PipeCall.created]
    generalize registry.create owner = served at outcome ⊢
    cases outcome with
    | refused => simp [bothOf]
    | creates => simp [bothOf, holdings_extend, Holding.both]
  | read caller source limit =>
    have same := (numbered.read_case caller source limit).holdings
    simp [PipeCall.run, PipeCall.created, bothOf, same]
  | write caller target data =>
    have same := (numbered.write_case caller target data).holdings
    simp [PipeCall.run, PipeCall.created, bothOf, same]
  | close caller endpoint =>
    have outcome := numbered.close_case caller endpoint
    simp only [PipeCall.run, PipeCall.created]
    generalize registry.close caller endpoint = served at outcome ⊢
    cases outcome with
    | closes holds => simp [bothOf, numbered.holdings_shut holds, Function.comp_def]
    | _ => simp [bothOf]
  | closeOwnedBy owner =>
    simp only [PipeCall.run, PipeCall.created, closeOwnedBy]
    simp [bothOf, numbered.holdings_closeAll, Function.comp_def]
  | checkTransfer => simp [PipeCall.run, PipeCall.created, bothOf]
  | transfer endpoints heir =>
    simp [PipeCall.run, PipeCall.created, bothOf, numbered.holdings_transfer, Function.comp_def]

/-- A history adds the endpoints that it hands out, and takes none back. -/
theorem Kept.endpoints_after (kept : registry.Kept) (calls : List PipeCall) :
    (registry.after calls).endpoints =
      registry.endpoints ++ bothOf (registry.createdBy calls) := by
  induction calls generalizing registry with
  | nil => simp [PipeRegistry.after, createdBy, bothOf]
  | cons call rest ih =>
    have later := ih (kept.run call)
    rw [kept.endpoints_run, List.append_assoc] at later
    simpa [PipeRegistry.after, createdBy, bothOf] using later

/-- Where the endpoints of pairs are numbered without a gap, each pair has two numbers in a row. -/
theorem numbers_of_range {pairs : List (Endpoint × Endpoint)} (offset : Nat)
    (numbers : (bothOf pairs).map (fun endpoint => endpoint.word.toNat) =
      List.range' (2 * offset + 1) (2 * pairs.length))
    {position : Nat} {first second : Endpoint} (found : pairs[position]? = some (first, second)) :
    first.word.toNat = 2 * (offset + position) + 1 ∧
      second.word.toNat = 2 * (offset + position) + 2 := by
  -- The first pair takes two numbers, and the rest begin after them.
  induction pairs generalizing offset position with
  | nil => simp at found
  | cons pair rest ih =>
    have length : 2 * (pair :: rest).length = 2 * rest.length + 1 + 1 := by
      rw [List.length_cons]
      omega
    rw [length, List.range'_succ, List.range'_succ] at numbers
    simp only [bothOf, List.flatMap_cons, List.map_cons, List.cons_append, List.nil_append,
      List.cons.injEq] at numbers
    obtain ⟨here, next, tail⟩ := numbers
    cases position with
    | zero =>
      obtain rfl := Option.some.inj found
      exact ⟨here, next⟩
    | succ position =>
      have later := ih (offset + 1) tail (by simpa using found)
      constructor
      · omega
      · omega

/-- After a history from the beginning there is one pipe for each pair handed out, and the pairs are
numbered from one on. -/
theorem created_numbers (capacity maxEndpoints : UInt64) (calls : List PipeCall) :
    let start := PipeRegistry.fresh capacity maxEndpoints
    let created := start.createdBy calls
    (start.after calls).pipes.length = created.length ∧ (bothOf created).Nodup ∧
      ∀ position first second, created[position]? = some (first, second) →
        first.word.toNat = 2 * position + 1 ∧ second.word.toNat = 2 * position + 2 := by
  intro start created
  have kept : start.Kept := .fresh capacity maxEndpoints
  -- At the start no endpoint exists.
  have handed : (start.after calls).endpoints = bothOf created := kept.endpoints_after calls
  have numbered := (kept.after calls).numbered
  have numbers : (bothOf created).map (fun endpoint => endpoint.word.toNat) =
      List.range' 1 (2 * (start.after calls).pipes.length) := by
    rw [← handed, ← numbered.numbers, endpoints, List.map_map]
    rfl
  -- Each pair has two endpoints, and so has each pipe.
  have length : (start.after calls).pipes.length = created.length := by
    have both := congrArg List.length numbers
    simp only [List.length_map, List.length_range', bothOf, List.length_flatMap] at both
    simp at both
    omega
  refine ⟨length, ?_, fun position first second found => ?_⟩
  · rw [← handed]
    exact numbered.nodup_endpoints
  · rw [length] at numbers
    have pair := numbers_of_range 0 numbers found
    rwa [Nat.zero_add] at pair

namespace Kept

variable (kept : registry.Kept)
include kept

/-- To close an open end takes exactly one from the count, which is not zero before. -/
theorem closeOpen_counts {endpoint : Endpoint} {owner : InstanceId}
    (opened : ⟨endpoint, owner, true⟩ ∈ registry.holdings) :
    (registry.closeOpen endpoint).1.openEndpoints + 1 = registry.openEndpoints := by
  obtain ⟨pipe, holds⟩ := kept.numbered.holds_iff.mpr opened
  have some : 0 < registry.openEndpoints := by
    rw [kept.counted.eq_length]
    exact List.length_pos_of_mem (List.mem_filter.mpr ⟨opened, rfl⟩)
  rw [kept.numbered.closeOpen_eq holds.found, if_pos holds.opened]
  show registry.openEndpoints - 1 + 1 = registry.openEndpoints
  omega

/-- As long as numbers last, a pipe is refused exactly if the budget does not allow for two further
ends, and otherwise it takes the next two numbers. -/
theorem create_result (few : registry.pipes.length < 2 ^ 63 - 1) (owner : InstanceId) :
    ((registry.create owner).result = .error (.exhausted .endpoints registry.maxEndpoints) ↔
      registry.maxEndpoints.toNat < registry.openEndpoints + 2) ∧
    (registry.openEndpoints + 2 ≤ registry.maxEndpoints.toNat → ∃ first second,
      (registry.create owner).result = .ok (first, second) ∧
      first.word.toNat = 2 * registry.pipes.length + 1 ∧
      second.word.toNat = 2 * registry.pipes.length + 2) := by
  have outcome := kept.numbered.create_case owner
  generalize registry.create owner = served at outcome ⊢
  cases outcome with
  | refused spent =>
    have beyond : registry.maxEndpoints.toNat < registry.openEndpoints + 2 := by omega
    exact ⟨⟨fun _ => beyond, fun _ => rfl⟩, fun room => absurd beyond (by omega)⟩
  | creates budget numbers =>
    refine ⟨⟨fun failed => by simp at failed, fun beyond => absurd budget (by omega)⟩,
      fun _ => ?_⟩
    exact ⟨_, _, rfl, numbers.1, numbers.2.1⟩

/-- An endpoint leads to its own end, if its number was handed out, and else nowhere. -/
theorem locate?_eq (endpoint : Endpoint) :
    (registry.locate? endpoint = none ↔ 2 * registry.pipes.length < endpoint.word.toNat) ∧
      ∀ pipe side, registry.locate? endpoint = some (pipe, side) →
        registry.pipes[endpoint.index]? = some pipe ∧ side = endpoint.side ∧
        (pipe.on side).endpoint = endpoint := by
  have number := endpoint.toNat_eq
  rw [kept.numbered.locate?]
  constructor
  · rw [Option.map_eq_none_iff, List.getElem?_eq_none_iff]
    cases named : endpoint.side with
    | first =>
      rw [named] at number
      dsimp only at number
      omega
    | second =>
      rw [named] at number
      dsimp only at number
      omega
  · intro pipe side located
    obtain ⟨held, found, same⟩ := Option.map_eq_some_iff.mp located
    obtain ⟨rfl, rfl⟩ := Prod.mk.inj same
    exact ⟨found, rfl, kept.numbered.endpoint_of_found found⟩

end Kept

/-- The books of the registry are exact after any history of calls, as long as fewer than
`2 ^ 63 - 1` pipes were created. The count is that of the open ends, stays within the budget and
within a word, and every end that is closed, also one of several closed in a row, takes one from it.
The creation of a pipe fails exactly if two more open ends would exceed the budget, and the pipes
that were created have the numbers from one on, so that none comes up twice. Exactly these endpoints
lead to an end, each to its own. No queue exceeds the capacity, and those of closed ends are empty.
What is closed stays closed. The endpoints of an owner are its open ends in ascending order, and
every open end is listed for one owner. -/
theorem bookkeeping_exact (capacity maxEndpoints : UInt64) (calls : List PipeCall)
    (few : ((fresh capacity maxEndpoints).createdBy calls).length < 2 ^ 63 - 1) :
    let start := fresh capacity maxEndpoints
    let registry := start.after calls
    let created := start.createdBy calls
    let openEnds := registry.holdings.filter Holding.isOpen
    (registry.openEndpoints = openEnds.length ∧ registry.openEndpoints ≤ maxEndpoints.toNat ∧
      registry.openEndpoints + 2 < 2 ^ 64 ∧
      ∀ earlier endpoint owner, ⟨endpoint, owner, true⟩ ∈ (registry.closeAll earlier).1.holdings →
        ((registry.closeAll earlier).1.closeOpen endpoint).1.openEndpoints + 1 =
          (registry.closeAll earlier).1.openEndpoints) ∧
    ((∀ owner,
        ((registry.create owner).result = .error (.exhausted .endpoints maxEndpoints) ↔
          maxEndpoints.toNat < openEnds.length + 2) ∧
        (openEnds.length + 2 ≤ maxEndpoints.toNat → ∃ first second,
          (registry.create owner).result = .ok (first, second) ∧
          first.word.toNat = 2 * created.length + 1 ∧
          second.word.toNat = 2 * created.length + 2)) ∧
      (∀ position first second, created[position]? = some (first, second) →
        first.word.toNat = 2 * position + 1 ∧ second.word.toNat = 2 * position + 2) ∧
      (bothOf created).Nodup) ∧
    (registry.pipes.length = created.length ∧
      (∀ endpoint, registry.locate? endpoint = none ↔
        2 * created.length < endpoint.word.toNat) ∧
      ∀ endpoint pipe side, registry.locate? endpoint = some (pipe, side) →
        registry.pipes[endpoint.index]? = some pipe ∧ side = endpoint.side ∧
        (pipe.on side).endpoint = endpoint) ∧
    (∀ pipe ∈ registry.pipes, ∀ side, (pipe.on side).inbound.length ≤ capacity.toNat ∧
      ((pipe.on side).isOpen = false → (pipe.on side).inbound = [])) ∧
    (∀ more endpoint, registry.IsShut endpoint → (registry.after more).IsShut endpoint) ∧
    (∀ owner, ((registry.ownedBy owner).map fun endpoint => endpoint.word.toNat).Pairwise (· < ·)) ∧
    (∀ owner endpoint, endpoint ∈ registry.ownedBy owner ↔
      ⟨endpoint, owner, true⟩ ∈ registry.holdings) ∧
    ∀ holding ∈ openEnds, ∃! owner, holding.endpoint ∈ registry.ownedBy owner := by
  intro start registry created openEnds
  have begun : start.Kept := .fresh capacity maxEndpoints
  have kept : registry.Kept := begun.after calls
  have sameCapacity : registry.capacity = capacity := (begun.sameBudgets_after calls).1
  have sameBudget : registry.maxEndpoints = maxEndpoints := (begun.sameBudgets_after calls).2
  have count : registry.openEndpoints = openEnds.length := kept.counted.eq_length
  obtain ⟨length, once, pairs⟩ := created_numbers capacity maxEndpoints calls
  have few' : registry.pipes.length < 2 ^ 63 - 1 := by
    rw [length]
    exact few
  refine ⟨⟨count, ?_, ?_, fun earlier endpoint owner opened => ?_⟩,
    ⟨fun owner => ?_, pairs, once⟩,
    ⟨length, fun endpoint => ?_, fun endpoint => (kept.locate?_eq endpoint).2⟩,
    fun pipe member side => ⟨?_, kept.drained pipe member side⟩,
    fun more endpoint shut => shut.after kept.numbered more,
    kept.numbered.sorted_ownedBy, fun owner endpoint => kept.numbered.mem_ownedBy_iff,
    fun holding member => ?_⟩
  · rw [← sameBudget]
    exact kept.afforded
  · have twice := kept.counted.le
    omega
  · exact (kept.closeAll earlier).closeOpen_counts opened
  · have result := kept.create_result few' owner
    rw [length, count, sameBudget] at result
    exact result
  · have place := (kept.locate?_eq endpoint).1
    rw [length] at place
    exact place
  · rw [← sameCapacity]
    exact kept.within pipe member side
  · -- An end has one owner, and whoever lists the endpoint owns that end.
    obtain ⟨there, opened⟩ := List.mem_filter.mp member
    refine ⟨holding.owner, ?_, fun other listed => ?_⟩
    · apply kept.numbered.mem_ownedBy_iff.mpr
      rw [← opened]
      exact there
    · have owned := kept.numbered.mem_ownedBy_iff.mp listed
      rw [kept.numbered.holding_unique there owned rfl]

/-- A refused pipe, an end closed twice, a gift of a closed end and the end of an owner that holds
ends of both pipes: one end is still open, and the next pipe has the numbers five and six. -/
theorem bookkeeping_exact_after_teardown :
    let calls : List PipeCall := [.create .root, .create .root, .create ⟨1⟩,
      .write .root .first [10, 20, 30], .close .root ⟨3, by decide⟩, .close .root ⟨3, by decide⟩,
      .transfer [⟨3, by decide⟩, ⟨2, by decide⟩] ⟨1⟩, .closeOwnedBy .root]
    let registry := (fresh 2 4).after calls
    ((fresh 2 4).createdBy calls).length < 2 ^ 63 - 1 ∧
      registry.openEndpoints = (registry.holdings.filter Holding.isOpen).length ∧
      registry.ownedBy ⟨1⟩ = [⟨2, by decide⟩] ∧
      ∃ first second, (registry.create .root).result = .ok (first, second) ∧
        first.word.toNat = 5 ∧ second.word.toNat = 6 := by
  intro calls registry
  have few : ((fresh 2 4).createdBy calls).length < 2 ^ 63 - 1 := by decide
  obtain ⟨⟨count, -⟩, ⟨next, -⟩, -⟩ := bookkeeping_exact 2 4 calls few
  exact ⟨few, count, by decide, (next .root).2 (by decide)⟩

end PipeRegistry

end Progeny
