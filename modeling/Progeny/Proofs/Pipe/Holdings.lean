import Mathlib.Data.List.Nodup
import Progeny.Proofs.Pipe.Counted
import Progeny.Proofs.Pipe.Owners

/-! Who holds which end, beside the queues: every operation on the pipes adds two ends, shuts some,
gives some away, or leaves them all as they are. -/

namespace Progeny

/-- An end of a pipe without its queue. -/
structure Holding where
  endpoint : Endpoint
  owner : InstanceId
  isOpen : Bool
  deriving DecidableEq

/-- An end after some endpoints were closed. -/
def Holding.shut (endpoints : List Endpoint) (holding : Holding) : Holding :=
  { holding with isOpen := holding.isOpen && decide (holding.endpoint ∉ endpoints) }

/-- An end after some endpoints were given to an instance. -/
def Holding.give (endpoints : List Endpoint) (heir : InstanceId) (holding : Holding) : Holding :=
  { holding with owner := if holding.endpoint ∈ endpoints then heir else holding.owner }

/-- Both ends of a new pipe. -/
def Holding.both (owner : InstanceId) (first second : Endpoint) : List Holding :=
  [⟨first, owner, true⟩, ⟨second, owner, true⟩]

@[simp] theorem Holding.endpoint_shut (endpoints : List Endpoint) (holding : Holding) :
    (holding.shut endpoints).endpoint = holding.endpoint :=
  rfl

@[simp] theorem Holding.owner_shut (endpoints : List Endpoint) (holding : Holding) :
    (holding.shut endpoints).owner = holding.owner :=
  rfl

@[simp] theorem Holding.endpoint_give (endpoints : List Endpoint) (heir : InstanceId)
    (holding : Holding) : (holding.give endpoints heir).endpoint = holding.endpoint :=
  rfl

@[simp] theorem Holding.isOpen_give (endpoints : List Endpoint) (heir : InstanceId)
    (holding : Holding) : (holding.give endpoints heir).isOpen = holding.isOpen :=
  rfl

/-- To close nothing leaves every end as it is. -/
@[simp] theorem Holding.shut_nil : Holding.shut [] = id := by
  funext holding
  simp [shut]

/-- To give nothing away leaves every end as it is. -/
@[simp] theorem Holding.give_nil (heir : InstanceId) : Holding.give [] heir = id := by
  funext holding
  simp [give]

/-- Endpoints closed in a row are closed. -/
theorem Holding.shut_append (endpoints more : List Endpoint) (holding : Holding) :
    (holding.shut endpoints).shut more = holding.shut (endpoints ++ more) := by
  simp [shut, Bool.and_assoc]

/-- An end apart from its queue. -/
def PipeEnd.holding (held : PipeEnd) : Holding :=
  ⟨held.endpoint, held.owner, held.isOpen⟩

namespace PipeRegistry

/-- All ends of all pipes, in the order of their endpoints. -/
def holdings (registry : PipeRegistry) : List Holding :=
  (registry.pipes.flatMap Pipe.ends).map PipeEnd.holding

variable {registry after : PipeRegistry} {caller : InstanceId} {endpoint : Endpoint}

/-- Where every pipe stays in its place and its ends change alike, so do the ends as a whole. -/
theorem holdings_eq_map {change : Holding → Holding}
    (length : after.pipes.length = registry.pipes.length)
    (ends : ∀ {position : Nat} {pipe : Pipe}, registry.pipes[position]? = some pipe →
      ∃ changed, after.pipes[position]? = some changed ∧
        ∀ side, (changed.on side).holding = change (pipe.on side).holding) :
    after.holdings = registry.holdings.map change := by
  -- Pipe by pipe, the pair of ends is the changed pair.
  have pairs : after.pipes.map (fun pipe => pipe.ends.map PipeEnd.holding) =
      registry.pipes.map (fun pipe => (pipe.ends.map PipeEnd.holding).map change) := by
    apply List.ext_getElem?
    intro position
    simp only [List.getElem?_map]
    cases found : registry.pipes[position]? with
    | none =>
      have beyond : after.pipes[position]? = none := by
        rw [List.getElem?_eq_none_iff] at found ⊢
        omega
      rw [beyond]
      rfl
    | some pipe =>
      obtain ⟨changed, there, same⟩ := ends found
      have first := same .first
      have second := same .second
      simp only [Pipe.on] at first second
      rw [there]
      simp [Pipe.ends, first, second]
  unfold holdings
  rw [List.map_flatMap, List.map_flatMap, List.map_flatMap, List.flatMap_def, List.flatMap_def,
    pairs]

/-- A pipe may be replaced by one with the same owners and the same ends open. -/
theorem holdings_setPipe {position : Nat} {pipe changed : Pipe}
    (found : registry.pipes[position]? = some pipe)
    (same : ∀ side, (changed.on side).holding = (pipe.on side).holding) :
    (registry.setPipe position changed).holdings = registry.holdings := by
  -- Only one position is touched, and nothing that counts is changed there.
  have kept : (registry.setPipe position changed).holdings = registry.holdings.map id := by
    refine holdings_eq_map (by simp [setPipe]) fun {other} {held} there => ?_
    rw [setPipe_found found]
    by_cases here : other = position
    · subst here
      obtain rfl := Option.some.inj (found.symm.trans there)
      exact ⟨changed, if_pos rfl, same⟩
    · exact ⟨held, by rw [if_neg here]; exact there, fun side => rfl⟩
  rw [kept, List.map_id]

/-- Reading leaves every end with its owner, and as open as it was. -/
theorem ReadCase.holdings {limit : Nat} {served : Served (Except CallError (Option Bytes))}
    (outcome : ReadCase registry caller endpoint limit served) :
    served.registry.holdings = registry.holdings := by
  -- Only a queue was shortened.
  cases outcome with
  | takes holds _ _ =>
    refine holdings_setPipe holds.found fun side => ?_
    cases side <;> cases endpoint.side <;> rfl
  | _ => rfl

/-- Writing leaves every end with its owner, and as open as it was. -/
theorem WriteCase.holdings {data : Bytes} {served : Served (Except CallError (Option Nat))}
    (outcome : WriteCase registry caller endpoint data served) :
    served.registry.holdings = registry.holdings := by
  -- Only a queue was lengthened.
  cases outcome with
  | puts holds _ _ _ =>
    refine holdings_setPipe holds.found fun side => ?_
    cases side <;> cases endpoint.side <;> rfl
  | _ => rfl

/-- A new pipe has two open ends of its creator. -/
theorem holdings_extend (registry : PipeRegistry) (first second next : Endpoint)
    (owner : InstanceId) :
    (registry.extend first second next owner).holdings =
      registry.holdings ++ Holding.both owner first second := by
  simp [PipeRegistry.holdings, extend, Pipe.ends, PipeEnd.holding, Holding.both]

/-- The endpoints of an owner are those of the open ends that it owns, in their order. -/
theorem ownedBy_eq (registry : PipeRegistry) (owner : InstanceId) :
    registry.ownedBy owner =
      (registry.holdings.filter fun holding => holding.isOpen && holding.owner = owner).map
        Holding.endpoint := by
  simp only [ownedBy, holdings, List.filter_map, List.map_map]
  rfl

/-- Pairs that are numbered by their positions are numbered without a gap. -/
theorem range_of_places (pipes : List Pipe) (offset : Nat)
    (places : ∀ position pipe, pipes[position]? = some pipe →
      pipe.first.endpoint.word.toNat = 2 * (offset + position) + 1 ∧
        pipe.second.endpoint.word.toNat = 2 * (offset + position) + 2) :
    (pipes.flatMap Pipe.ends).map (fun held => held.endpoint.word.toNat) =
      List.range' (2 * offset + 1) (2 * pipes.length) := by
  -- The first pipe takes two numbers, and the rest begin after them.
  induction pipes generalizing offset with
  | nil => rfl
  | cons pipe rest ih =>
    have here := places 0 pipe rfl
    have tail := ih (offset + 1) fun position other found => by
      have there := places (position + 1) other found
      constructor
      · omega
      · omega
    have length : 2 * (pipe :: rest).length = 2 * rest.length + 1 + 1 := by
      rw [List.length_cons]
      omega
    rw [List.flatMap_cons, List.map_append, tail, length, List.range'_succ, List.range'_succ]
    simp only [Pipe.ends, List.map_cons, List.map_nil, here.1, here.2, List.cons_append,
      List.nil_append]
    rfl

namespace Numbered

variable (numbered : registry.Numbered)
include numbered

/-- An end is listed exactly if it stands at the position of its endpoint. -/
theorem mem_holdings {holding : Holding} :
    holding ∈ registry.holdings ↔ ∃ pipe, registry.pipes[holding.endpoint.index]? = some pipe ∧
      (pipe.on holding.endpoint.side).holding = holding := by
  simp only [holdings, List.mem_map, List.mem_flatMap]
  constructor
  · rintro ⟨held, ⟨pipe, member, ends⟩, rfl⟩
    obtain ⟨position, found⟩ := List.mem_iff_getElem?.mp member
    obtain ⟨side, rfl⟩ : ∃ side, held = pipe.on side := by
      simp only [Pipe.ends, List.mem_cons, List.not_mem_nil, or_false] at ends
      rcases ends with rfl | rfl
      · exact ⟨.first, rfl⟩
      · exact ⟨.second, rfl⟩
    have number := numbered.ends found side
    refine ⟨pipe, ?_, ?_⟩
    · rw [show (pipe.on side).holding.endpoint.index = position from number.1]
      exact found
    · rw [show (pipe.on side).holding.endpoint.side = side from number.2]
  · rintro ⟨pipe, found, same⟩
    refine ⟨pipe.on holding.endpoint.side, ⟨pipe, List.mem_of_getElem? found, ?_⟩, same⟩
    cases holding.endpoint.side <;> simp [Pipe.ends, Pipe.on]

/-- No two ends have the same endpoint. -/
theorem holding_unique {one other : Holding} (first : one ∈ registry.holdings)
    (second : other ∈ registry.holdings) (same : one.endpoint = other.endpoint) :
    one = other := by
  -- An endpoint leads to one side of one pipe.
  obtain ⟨pipe, found, own⟩ := numbered.mem_holdings.mp first
  obtain ⟨another, there, ownToo⟩ := numbered.mem_holdings.mp second
  rw [same] at found own
  obtain rfl := Option.some.inj (found.symm.trans there)
  exact own.symm.trans ownToo

/-- The ends are numbered from one on, without a gap. -/
theorem numbers : registry.holdings.map (fun holding => holding.endpoint.word.toNat) =
    List.range' 1 (2 * registry.pipes.length) := by
  -- An end has the number that its position and its side give.
  simp only [holdings, List.map_map]
  refine range_of_places registry.pipes 0 fun position pipe found => ?_
  have first := (pipe.on .first).endpoint.toNat_eq
  have second := (pipe.on .second).endpoint.toNat_eq
  rw [(numbered.ends found .first).1, (numbered.ends found .first).2] at first
  rw [(numbered.ends found .second).1, (numbered.ends found .second).2] at second
  rw [Nat.zero_add]
  exact ⟨first, second⟩

/-- No endpoint is listed twice. -/
theorem nodup_endpoints : (registry.holdings.map Holding.endpoint).Nodup := by
  -- Even the numbers of the endpoints are distinct.
  apply List.Nodup.of_map fun endpoint : Endpoint => endpoint.word.toNat
  rw [List.map_map]
  show (registry.holdings.map fun holding => holding.endpoint.word.toNat).Nodup
  rw [numbered.numbers]
  exact List.nodup_range'

/-- Whoever holds an endpoint is the owner of an open end. -/
theorem holds_iff : (∃ pipe, registry.Holds caller endpoint pipe) ↔
    ⟨endpoint, caller, true⟩ ∈ registry.holdings := by
  rw [numbered.mem_holdings]
  constructor
  · rintro ⟨pipe, holds⟩
    refine ⟨pipe, holds.found, ?_⟩
    simp [PipeEnd.holding, numbered.endpoint_of_found holds.found, holds.owned, holds.opened]
  · rintro ⟨pipe, found, same⟩
    simp only [PipeEnd.holding, Holding.mk.injEq] at same
    exact ⟨pipe, found, same.2.1, same.2.2⟩

/-- The endpoints of an owner are those of its open ends. -/
theorem mem_ownedBy_iff : endpoint ∈ registry.ownedBy caller ↔
    ⟨endpoint, caller, true⟩ ∈ registry.holdings := by
  rw [numbered.mem_ownedBy, numbered.holds_iff]

/-- The endpoints of an owner are listed once. -/
theorem nodup_ownedBy (owner : InstanceId) :
    (registry.ownedBy owner).Nodup := by
  -- They are some of all endpoints, in the same order.
  rw [ownedBy_eq]
  exact numbered.nodup_endpoints.sublist (List.filter_sublist.map Holding.endpoint)

/-- The endpoints of an owner are listed in ascending order. -/
theorem sorted_ownedBy (owner : InstanceId) :
    ((registry.ownedBy owner).map fun endpoint => endpoint.word.toNat).Pairwise (· < ·) := by
  -- The numbers of all endpoints ascend, and so do some of them in the same order.
  have all : (registry.holdings.map fun holding => holding.endpoint.word.toNat).Pairwise
      (· < ·) := by
    rw [numbered.numbers]
    exact List.pairwise_lt_range'
  rw [ownedBy_eq, List.map_map]
  exact all.sublist (List.filter_sublist.map _)

/-- Closing an endpoint, whoever holds it, shuts its end and no other. -/
theorem holdings_closeOpen (endpoint : Endpoint) :
    (registry.closeOpen endpoint).1.holdings =
      registry.holdings.map (Holding.shut [endpoint]) := by
  -- An end is shut only if it stands where the endpoint leads.
  have elsewhere {position : Nat} {pipe : Pipe} (found : registry.pipes[position]? = some pipe)
      (side : Side) (apart : ¬(position = endpoint.index ∧ side = endpoint.side)) :
      (pipe.on side).holding.shut [endpoint] = (pipe.on side).holding := by
    have differ : (pipe.on side).endpoint ≠ endpoint := by
      rintro rfl
      exact apart ⟨(numbered.ends found side).1.symm, (numbered.ends found side).2.symm⟩
    simp [Holding.shut, PipeEnd.holding, differ]
  cases there : registry.pipes[endpoint.index]? with
  | none =>
    rw [numbered.closeOpen_of_none there]
    refine holdings_eq_map rfl fun {position} {pipe} found => ⟨pipe, found, fun side => ?_⟩
    refine (elsewhere found side ?_).symm
    rintro ⟨rfl, -⟩
    simp [there] at found
  | some pipe =>
    rw [numbered.closeOpen_eq there]
    have own := numbered.endpoint_of_found there
    split
    · rename_i opened
      refine holdings_eq_map (by simp [PipeRegistry.shut, PipeRegistry.setPipe])
        fun {position} {other} found => ?_
      change ∃ changed, (registry.setPipe endpoint.index _).pipes[position]? = _ ∧ _
      rw [setPipe_found there]
      by_cases here : position = endpoint.index
      · subst here
        obtain rfl := Option.some.inj (there.symm.trans found)
        refine ⟨_, if_pos rfl, fun side => ?_⟩
        have kept := pipe.on_close endpoint.side side
        by_cases same : side = endpoint.side
        · subst same
          simp [PipeEnd.holding, Holding.shut, kept, pipe.on_close_self, own]
        · rw [elsewhere found side (by simp [same])]
          obtain rfl := Side.eq_peer_of_ne same
          simp [PipeEnd.holding, kept, pipe.on_close_peer]
      · exact ⟨other, by rw [if_neg here]; exact found,
          fun side => (elsewhere found side (by simp [here])).symm⟩
    · rename_i closed
      refine holdings_eq_map rfl fun {position} {other} found => ⟨other, found, fun side => ?_⟩
      by_cases here : position = endpoint.index ∧ side = endpoint.side
      · obtain ⟨rfl, rfl⟩ := here
        obtain rfl := Option.some.inj (there.symm.trans found)
        simp [PipeEnd.holding, Holding.shut, closed]
      · exact (elsewhere found side here).symm

/-- An end that is closed by its holder is shut, and no other. -/
theorem holdings_shut {pipe : Pipe} (holds : registry.Holds caller endpoint pipe) :
    (registry.shut endpoint pipe).holdings = registry.holdings.map (Holding.shut [endpoint]) := by
  have closed := numbered.holdings_closeOpen endpoint
  rwa [numbered.closeOpen_eq holds.found, if_pos holds.opened] at closed

/-- Endpoints that are closed in a row are shut, and no others. -/
theorem holdings_closeAll (endpoints : List Endpoint) :
    (registry.closeAll endpoints).1.holdings =
      registry.holdings.map (Holding.shut endpoints) := by
  -- The first endpoint of the list is closed before the rest.
  induction endpoints generalizing registry with
  | nil => simp [PipeRegistry.closeAll]
  | cons endpoint rest ih =>
    have closed : (registry.closeOpen endpoint).1.Numbered := by
      cases found : registry.pipes[endpoint.index]? with
      | none =>
        rw [numbered.closeOpen_of_none found]
        exact numbered
      | some pipe =>
        rw [numbered.closeOpen_eq found]
        split
        · exact numbered.shut found
        · exact numbered
    simp only [PipeRegistry.closeAll]
    rw [ih closed, numbered.holdings_closeOpen, List.map_map]
    exact List.map_congr_left fun holding _ => holding.shut_append [endpoint] rest

/-- Once the ends of an owner were closed, whatever is open was open before and is not the
owner's. -/
theorem of_closeOwnedBy {owner : InstanceId} {holding : Holding}
    (there : holding ∈ (registry.closeOwnedBy owner).registry.holdings)
    (opened : holding.isOpen = true) : holding ∈ registry.holdings ∧ holding.owner ≠ owner := by
  change holding ∈ (registry.closeAll (registry.ownedBy owner)).1.holdings at there
  rw [numbered.holdings_closeAll] at there
  obtain ⟨before, member, rfl⟩ := List.mem_map.mp there
  obtain ⟨stillOpen, unlisted⟩ := Bool.and_eq_true_iff.mp opened
  have same : before.shut (registry.ownedBy owner) = before := by
    simp only [Holding.shut, unlisted, Bool.and_true]
  refine ⟨by rw [same]; exact member, fun owned => ?_⟩
  -- An open end of the owner would have been on the list.
  refine absurd (numbered.mem_ownedBy_iff.mpr ?_) (of_decide_eq_true unlisted)
  obtain ⟨endpoint, holder, isOpen⟩ := before
  simp only [Holding.owner_shut] at owned stillOpen
  exact owned ▸ stillOpen ▸ member

/-- Endpoints that are given away have the heir as their owner, and no others have. -/
theorem holdings_transfer (endpoints : List Endpoint) (heir : InstanceId) :
    (registry.transfer endpoints heir).holdings =
      registry.holdings.map (Holding.give endpoints heir) := by
  refine holdings_eq_map (length_transfer registry endpoints heir) fun found => ?_
  obtain ⟨changed, there, ends⟩ := numbered.transfer_found endpoints heir found
  exact ⟨changed, there, fun side => by rw [ends]; rfl⟩

end Numbered

/-- As many ends are open as are counted. -/
theorem Counted.eq_length (counted : registry.Counted) :
    registry.openEndpoints = (registry.holdings.filter Holding.isOpen).length := by
  -- Each pipe contributes its own open ends on both sides.
  rw [counted, holdings]
  induction registry.pipes with
  | nil => rfl
  | cons pipe rest ih =>
    simp only [List.map_cons, List.sum_cons, List.flatMap_cons, List.map_append,
      List.filter_append, List.length_append, ih]
    congr 1
    cases first : pipe.first.isOpen <;> cases second : pipe.second.isOpen <;>
      simp [Pipe.openEnds, Pipe.ends, PipeEnd.holding, first, second]

/-- To close all that an owner holds takes as much off the count of open ends. -/
theorem Counted.closeOwnedBy (counted : registry.Counted) (numbered : registry.Numbered)
    (owner : InstanceId) :
    (registry.closeOwnedBy owner).registry.openEndpoints + (registry.ownedBy owner).length =
      registry.openEndpoints := by
  -- An end is open afterwards if it was open before and was not the owner's.
  have left : ∀ holding ∈ registry.holdings,
      ((Holding.isOpen ∘ Holding.shut (registry.ownedBy owner)) holding = true ↔
        (holding.isOpen && !decide (holding.owner = owner)) = true) := by
    rintro ⟨endpoint, holder, isOpen⟩ there
    cases isOpen with
    | false => simp [Holding.shut]
    | true =>
      have listed : endpoint ∈ registry.ownedBy owner ↔ holder = owner := by
        rw [numbered.mem_ownedBy_iff]
        refine ⟨fun owned => ?_, fun same => same ▸ there⟩
        exact (congrArg Holding.owner (numbered.holding_unique owned there rfl)).symm
      simp [Holding.shut, listed]
  have closed : (registry.closeOwnedBy owner).registry.Counted :=
    counted.closeAll numbered (registry.ownedBy owner)
  rw [closed.eq_length, counted.eq_length, ownedBy_eq, List.length_map]
  change (List.filter _ (registry.closeAll (registry.ownedBy owner)).1.holdings).length + _ = _
  rw [numbered.holdings_closeAll]
  simp only [← List.countP_eq_length_filter, List.countP_map]
  rw [List.countP_congr left, List.countP_eq_countP_filter_add registry.holdings Holding.isOpen
    fun holding => decide (holding.owner = owner), List.countP_filter, List.countP_filter,
    Nat.add_comm]
end PipeRegistry

end Progeny
