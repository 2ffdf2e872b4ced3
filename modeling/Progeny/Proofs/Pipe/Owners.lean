import Progeny.Proofs.Pipe.Calls

/-! What an instance does with its own ends leaves the ends of all others in their hands, and as
open as they were. -/

namespace Progeny.PipeRegistry

/-- Between two states of the pipes every end of somebody else keeps its owner and stays open or
closed. -/
structure Spares (caller : InstanceId) (before after : PipeRegistry) : Prop where
  kept : ∀ {position : Nat} {pipe : Pipe} (side : Side), before.pipes[position]? = some pipe →
    (pipe.on side).owner ≠ caller → ∃ changed, after.pipes[position]? = some changed ∧
      (changed.on side).owner = (pipe.on side).owner ∧
      (changed.on side).isOpen = (pipe.on side).isOpen

/-- Every endpoint of a list that names an end names one of an owner. -/
def Owned (owner : InstanceId) (registry : PipeRegistry) (endpoints : List Endpoint) : Prop :=
  ∀ endpoint ∈ endpoints, ∀ pipe, registry.pipes[endpoint.index]? = some pipe →
    (pipe.on endpoint.side).owner = owner

variable {registry : PipeRegistry} {caller : InstanceId}

namespace Spares

/-- Where nothing changes everybody is spared. -/
theorem refl (caller : InstanceId) (registry : PipeRegistry) : Spares caller registry registry :=
  ⟨fun _ found _ => ⟨_, found, rfl, rfl⟩⟩

/-- Whoever two operations spare is spared by both in a row. -/
theorem trans {middle after : PipeRegistry} (first : Spares caller registry middle)
    (second : Spares caller middle after) : Spares caller registry after where
  -- What the first operation leaves is still not the end of the one who acts.
  kept side found foreign := by
    obtain ⟨changed, there, owner, isOpen⟩ := first.kept side found foreign
    obtain ⟨last, still, ownerToo, isOpenToo⟩ := second.kept side there (owner ▸ foreign)
    exact ⟨last, still, ownerToo.trans owner, isOpenToo.trans isOpen⟩

/-- To replace a pipe spares all if it does so for the ends of others. -/
theorem setPipe {position : Nat} {pipe changed : Pipe}
    (found : registry.pipes[position]? = some pipe)
    (kept : ∀ side, (pipe.on side).owner ≠ caller →
      (changed.on side).owner = (pipe.on side).owner ∧
        (changed.on side).isOpen = (pipe.on side).isOpen) :
    Spares caller registry (registry.setPipe position changed) where
  -- Only one position is touched, and there the ends of others are kept.
  kept := by
    intro other held side there foreign
    simp only [PipeRegistry.setPipe, List.getElem?_set]
    by_cases same : position = other
    · subst same
      obtain rfl := Option.some.inj (found.symm.trans there)
      have inside := (List.getElem?_eq_some_iff.mp found).1
      exact ⟨changed, by simp [inside], kept side foreign⟩
    · exact ⟨held, by rw [if_neg same]; exact there, rfl, rfl⟩

/-- An owner may close an end of its own. -/
theorem shut {endpoint : Endpoint} {pipe : Pipe}
    (found : registry.pipes[endpoint.index]? = some pipe)
    (owned : (pipe.on endpoint.side).owner = caller) :
    Spares caller registry (registry.shut endpoint pipe) := by
  -- The end that is closed belongs to the one who acts.
  refine ⟨(setPipe found fun side foreign => ?_).kept⟩
  refine ⟨(pipe.on_close endpoint.side side).2, ?_⟩
  by_cases same : side = endpoint.side
  · subst same
    exact absurd owned foreign
  · rw [Side.eq_peer_of_ne same]
    exact (pipe.on_close_peer endpoint.side).1

end Spares

/-- Reading spares the ends of all others. -/
theorem ReadCase.spares {endpoint : Endpoint} {limit : Nat}
    {served : Served (Except CallError (Option Bytes))}
    (outcome : ReadCase registry caller endpoint limit served) :
    Spares caller registry served.registry := by
  -- A read shortens a queue and touches neither owner nor state.
  cases outcome with
  | takes holds _ _ =>
    refine .setPipe holds.found fun side _ => ?_
    cases side <;> cases endpoint.side <;> exact ⟨rfl, rfl⟩
  | _ => exact .refl caller registry

/-- Writing spares the ends of all others. -/
theorem WriteCase.spares {endpoint : Endpoint} {data : Bytes}
    {served : Served (Except CallError (Option Nat))}
    (outcome : WriteCase registry caller endpoint data served) :
    Spares caller registry served.registry := by
  -- A write lengthens a queue and touches neither owner nor state.
  cases outcome with
  | puts holds _ _ _ =>
    refine .setPipe holds.found fun side _ => ?_
    cases side <;> cases endpoint.side <;> exact ⟨rfl, rfl⟩
  | _ => exact .refl caller registry

/-- Closing spares the ends of all others. -/
theorem CloseCase.spares {endpoint : Endpoint} {served : Served (Except CallError Bool)}
    (outcome : CloseCase registry caller endpoint served) :
    Spares caller registry served.registry := by
  cases outcome with
  | closes holds => exact .shut holds.found holds.owned
  | _ => exact .refl caller registry

/-- Creating a pipe spares the ends of all others. -/
theorem CreateCase.spares {served : Served (Except CallError (Endpoint × Endpoint))}
    (outcome : CreateCase registry caller served) : Spares caller registry served.registry := by
  -- The new pipe stands after all others.
  cases outcome with
  | creates =>
    refine ⟨fun side found _ => ⟨_, ?_, rfl, rfl⟩⟩
    simp only [PipeRegistry.extend]
    rw [List.getElem?_append_left (List.getElem?_eq_some_iff.mp found).1, found]
  | refused => exact .refl caller registry

namespace Owned

variable {owner : InstanceId} {endpoint : Endpoint} {rest : List Endpoint}

/-- The first of some ends of an owner is its own, and so are the rest. -/
theorem cons (owned : Owned owner registry (endpoint :: rest)) :
    (∀ pipe, registry.pipes[endpoint.index]? = some pipe →
        (pipe.on endpoint.side).owner = owner) ∧ Owned owner registry rest :=
  ⟨owned endpoint (by simp), fun other member => owned other (by simp [member])⟩

/-- A pipe may be replaced by one with the same owners of the listed ends. -/
theorem setPipe (owned : Owned owner registry rest) {position : Nat} {pipe changed : Pipe}
    (found : registry.pipes[position]? = some pipe)
    (kept : ∀ other ∈ rest, other.index = position →
      (changed.on other.side).owner = (pipe.on other.side).owner) :
    Owned owner (registry.setPipe position changed) rest := by
  -- Elsewhere nothing changes, and here the owners are kept.
  intro other member held there
  simp only [PipeRegistry.setPipe, List.getElem?_set] at there
  split at there
  · rename_i same
    split at there
    · obtain rfl := Option.some.inj there
      rw [kept other member same.symm]
      exact owned other member pipe (same ▸ found)
    · simp at there
  · exact owned other member held there

/-- Whoever can give endpoints away owns them. -/
theorem of_checkTransfer (numbered : registry.Numbered) {endpoints : List Endpoint}
    (checked : registry.checkTransfer caller endpoints = .ok ()) :
    Owned caller registry endpoints ∧ endpoints.Nodup := by
  -- Whatever passes the check is held by the one who gives it.
  obtain ⟨held, once, -⟩ := numbered.checkTransfer_iff.mp checked
  refine ⟨fun endpoint member pipe found => ?_, once⟩
  obtain ⟨own, holds⟩ := held endpoint member
  obtain rfl := Option.some.inj (holds.found.symm.trans found)
  exact holds.owned

end Owned

/-- An endpoint is listed for an owner exactly if that owner holds it. -/
theorem Numbered.mem_ownedBy (numbered : registry.Numbered) {owner : InstanceId}
    {endpoint : Endpoint} :
    endpoint ∈ registry.ownedBy owner ↔ ∃ pipe, registry.Holds owner endpoint pipe := by
  -- An end is listed by its owner, and its endpoint leads back to its position.
  simp only [ownedBy, List.mem_map, List.mem_filter, List.mem_flatMap, Bool.and_eq_true,
    decide_eq_true_eq]
  constructor
  · rintro ⟨held, ⟨⟨pipe, member, ends⟩, opened, owned⟩, rfl⟩
    obtain ⟨position, found⟩ := List.mem_iff_getElem?.mp member
    obtain ⟨side, rfl⟩ : ∃ side, held = pipe.on side := by
      simp only [Pipe.ends, List.mem_cons, List.not_mem_nil, or_false] at ends
      rcases ends with rfl | rfl
      · exact ⟨.first, rfl⟩
      · exact ⟨.second, rfl⟩
    have number := numbered.ends found side
    exact ⟨pipe, by rw [number.1]; exact found, by rw [number.2]; exact owned,
      by rw [number.2]; exact opened⟩
  · rintro ⟨pipe, holds⟩
    refine ⟨pipe.on endpoint.side, ⟨⟨pipe, List.mem_of_getElem? holds.found, ?_⟩, holds.opened,
      holds.owned⟩, numbered.endpoint_of_found holds.found⟩
    cases endpoint.side <;> simp [Pipe.ends, Pipe.on]

namespace Spares

/-- An owner may close ends of its own in a row. -/
theorem closeAll (numbered : registry.Numbered) {endpoints : List Endpoint}
    (owned : Owned caller registry endpoints) :
    Spares caller registry (registry.closeAll endpoints).1 := by
  -- Each end that is closed belongs to the owner, and it still does for the rest of the list.
  induction endpoints generalizing registry with
  | nil => exact .refl caller registry
  | cons endpoint rest ih =>
    simp only [PipeRegistry.closeAll]
    cases found : registry.pipes[endpoint.index]? with
    | none =>
      rw [numbered.closeOpen_of_none found]
      exact ih numbered owned.cons.2
    | some pipe =>
      rw [numbered.closeOpen_eq found]
      split
      · refine (shut found (owned.cons.1 pipe found)).trans (ih (numbered.shut found) ?_)
        exact owned.cons.2.setPipe found fun other _ _ => (pipe.on_close _ other.side).2
      · exact ih numbered owned.cons.2

/-- The end of an instance closes ends of its own only. -/
theorem closeOwnedBy (numbered : registry.Numbered) (owner : InstanceId) :
    Spares owner registry (registry.closeOwnedBy owner).registry := by
  -- The list holds ends of the owner only.
  refine closeAll numbered fun endpoint member pipe found => ?_
  obtain ⟨own, holds⟩ := numbered.mem_ownedBy.mp member
  obtain rfl := Option.some.inj (holds.found.symm.trans found)
  exact holds.owned

/-- An owner may give ends of its own away. -/
theorem transfer (numbered : registry.Numbered) {endpoints : List Endpoint}
    (owned : Owned caller registry endpoints) (once : endpoints.Nodup) (heir : InstanceId) :
    Spares caller registry (registry.transfer endpoints heir) := by
  induction endpoints generalizing registry with
  | nil => exact .refl caller registry
  | cons endpoint rest ih =>
    obtain ⟨fresh, once⟩ := List.nodup_cons.mp once
    cases found : registry.pipes[endpoint.index]? with
    | none =>
      rw [numbered.transfer_cons_of_none found]
      exact ih numbered owned.cons.2 once
    | some pipe =>
      rw [numbered.transfer_cons found]
      refine trans (setPipe found fun side foreign => ?_) (ih (numbered.give found heir) ?_ once)
      · -- The end that is given away is the caller's, so it is not the one in question.
        have other : side ≠ endpoint.side := by
          rintro rfl
          exact foreign (owned.cons.1 pipe found)
        rw [Side.eq_peer_of_ne other, Pipe.on_peer_modify]
        exact ⟨rfl, rfl⟩
      · refine owned.cons.2.setPipe found fun other member same => ?_
        have differ : other.side ≠ endpoint.side := by
          intro also
          exact fresh (Endpoint.eq_of_index_side same also ▸ member)
        rw [Side.eq_peer_of_ne differ, Pipe.on_peer_modify]

end Spares

/-- Only the position of a replaced pipe holds another. -/
theorem setPipe_found {position : Nat} {pipe : Pipe}
    (found : registry.pipes[position]? = some pipe) (changed : Pipe) (other : Nat) :
    (registry.setPipe position changed).pipes[other]? =
      if other = position then some changed else registry.pipes[other]? := by
  -- The position lies within, so the pipe there is the new one.
  have inside := (List.getElem?_eq_some_iff.mp found).1
  simp only [setPipe, List.getElem?_set]
  by_cases same : other = position
  · simp [same, inside]
  · rw [if_neg (Ne.symm same), if_neg same]

/-- After gifts every pipe stands where it stood, with the heir as the owner of the ends that were
listed, and otherwise as it was. -/
theorem Numbered.transfer_found (numbered : registry.Numbered) (endpoints : List Endpoint)
    (heir : InstanceId) {position : Nat} {pipe : Pipe}
    (found : registry.pipes[position]? = some pipe) :
    ∃ changed, (registry.transfer endpoints heir).pipes[position]? = some changed ∧ ∀ side,
      changed.on side = { pipe.on side with
        owner := if (pipe.on side).endpoint ∈ endpoints then heir else (pipe.on side).owner } := by
  induction endpoints generalizing registry pipe with
  | nil => exact ⟨pipe, found, fun side => by simp⟩
  | cons endpoint rest ih =>
    have ends := numbered.ends found
    cases there : registry.pipes[endpoint.index]? with
    | none =>
      rw [numbered.transfer_cons_of_none there]
      obtain ⟨changed, still, same⟩ := ih numbered found
      refine ⟨changed, still, fun side => ?_⟩
      have differ : (pipe.on side).endpoint ≠ endpoint := by
        rintro rfl
        rw [(ends side).1, found] at there
        simp at there
      rw [same]
      simp [differ]
    | some other =>
      rw [numbered.transfer_cons there]
      by_cases here : endpoint.index = position
      · subst here
        obtain rfl := Option.some.inj (there.symm.trans found)
        have given := (setPipe_found found (other.modify endpoint.side fun held =>
          { held with owner := heir }) endpoint.index).trans (if_pos rfl)
        obtain ⟨changed, still, same⟩ := ih (numbered.give found heir) given
        refine ⟨changed, still, fun side => ?_⟩
        rw [same]
        -- The listed end is the given one, and the other end of the pipe is not.
        by_cases listed : side = endpoint.side
        · subst listed
          have own := numbered.endpoint_of_found found
          simp [own]
        · have differ : (other.on side).endpoint ≠ endpoint := by
            rintro rfl
            exact listed (ends side).2.symm
          rw [Side.eq_peer_of_ne listed] at differ ⊢
          simp [differ]
      · have kept := (setPipe_found there (other.modify endpoint.side fun held =>
          { held with owner := heir }) position).trans (if_neg (Ne.symm here))
        obtain ⟨changed, still, same⟩ := ih (numbered.give there heir) (kept.trans found)
        refine ⟨changed, still, fun side => ?_⟩
        have differ : (pipe.on side).endpoint ≠ endpoint := by
          rintro rfl
          exact here (ends side).1
        rw [same]
        simp [differ]

/-- Gifts change nothing beside the pipes. -/
theorem transfer_fields (registry : PipeRegistry) (endpoints : List Endpoint) (heir : InstanceId) :
    registry.transfer endpoints heir =
      { registry with pipes := (registry.transfer endpoints heir).pipes } := by
  induction endpoints generalizing registry with
  | nil => rfl
  | cons endpoint rest ih => exact ih _

/-- Gifts neither create nor remove pipes. -/
theorem length_transfer (registry : PipeRegistry) (endpoints : List Endpoint) (heir : InstanceId) :
    (registry.transfer endpoints heir).pipes.length = registry.pipes.length := by
  -- Endpoint by endpoint, pipes are changed in place.
  induction endpoints generalizing registry with
  | nil => rfl
  | cons endpoint rest ih =>
    refine (ih _).trans ?_
    simp [modify]

end Progeny.PipeRegistry
