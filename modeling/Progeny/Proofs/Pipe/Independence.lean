import Mathlib.Data.Set.Basic
import Progeny.Proofs.Pipe.Directions

/-! Directions and pipes do not interfere: calls that move bytes through some queues cannot be
noticed by anybody who uses other queues. -/

namespace Progeny

/-- What a call answers. -/
inductive PipeAnswer where
  | created (result : Except CallError (Endpoint × Endpoint))
  | read (result : Except CallError (Option Bytes))
  | written (result : Except CallError (Option Nat))
  | closed (result : Except CallError Bool)
  | closedAll (endpoints : List Endpoint)
  | checked (result : Except CallError Unit)
  | transferred

/-- Everything that can be learnt from a call and from the registry right after it, short of another
call: its answer and signals, how many ends are open, who holds which, and what is waited on. -/
structure PipeReport where
  answer : PipeAnswer
  signals : List Endpoint
  openEndpoints : Nat
  owned : InstanceId → List Endpoint
  readerWaitsOn : InstanceId → Endpoint → Except CallError Endpoint
  writerWaitsOn : InstanceId → Endpoint → Except CallError Endpoint

namespace PipeCall

/-- The answer to a call. -/
def answer (registry : PipeRegistry) : PipeCall → PipeAnswer
  | .create owner => .created (registry.create owner).result
  | .read caller endpoint limit => .read (registry.read caller endpoint limit).result
  | .write caller endpoint data => .written (registry.write caller endpoint data).result
  | .close caller endpoint => .closed (registry.close caller endpoint).result
  | .closeOwnedBy owner => .closedAll (registry.closeOwnedBy owner).result
  | .checkTransfer caller endpoints => .checked (registry.checkTransfer caller endpoints)
  | .transfer _ _ => .transferred

/-- The report of a call. -/
def report (registry : PipeRegistry) (call : PipeCall) : PipeReport :=
  let after := call.run registry
  { answer := call.answer registry
    signals := call.signals registry
    openEndpoints := after.openEndpoints
    owned := after.ownedBy
    readerWaitsOn := after.readerWaitsOn
    writerWaitsOn := after.writerWaitsOn }

/-- Whether a call leaves the queues of some ends alone: it neither reads one of these ends nor
writes into it. -/
def isVisible (hidden : Set Endpoint) [DecidablePred (· ∈ hidden)] (call : PipeCall) : Bool :=
  !call.queue?.any (· ∈ hidden)

/-- Whether a call has to do with what is read on an endpoint: it reads the endpoint, writes into
it, or creates, closes or gives away some end. -/
def bearsOn (endpoint : Endpoint) (call : PipeCall) : Bool :=
  match call with
  | .read _ _ _ | .write _ _ _ => call.queue? = some endpoint
  | .checkTransfer _ _ => false
  | .create _ | .close _ _ | .closeOwnedBy _ | .transfer _ _ => true

/-- What has to do with an endpoint leaves all other queues alone. -/
theorem isVisible_of_bearsOn {endpoint : Endpoint}
    [DecidablePred (· ∈ {other | other ≠ endpoint})] (call : PipeCall)
    (bears : call.bearsOn endpoint = true) : call.isVisible {other | other ≠ endpoint} = true := by
  unfold isVisible
  cases queue : call.queue? with
  | none => rfl
  | some moved =>
    -- Only reads and writes move bytes, and then through the one queue.
    have same : moved = endpoint := by
      cases call <;> simp_all [bearsOn, queue?]
    simp [same]

end PipeCall

/-- The reports of a history of calls, each with its call. -/
def PipeRegistry.reports (registry : PipeRegistry) : List PipeCall → List (PipeCall × PipeReport)
  | [] => []
  | call :: rest => (call, call.report registry) :: (call.run registry).reports rest

variable (hidden : Set Endpoint) [DecidablePred (· ∈ hidden)]

/-- An end without its queue, if it is hidden. -/
def PipeEnd.veil (held : PipeEnd) : PipeEnd :=
  { held with inbound := if held.endpoint ∈ hidden then [] else held.inbound }

/-- A pipe without its hidden queues. -/
def Pipe.veil (pipe : Pipe) : Pipe :=
  ⟨pipe.first.veil hidden, pipe.second.veil hidden⟩

/-- A registry without its hidden queues. -/
def PipeRegistry.veil (registry : PipeRegistry) : PipeRegistry :=
  { registry with pipes := registry.pipes.map (Pipe.veil hidden) }

namespace Pipe

variable (pipe : Pipe) (side : Side)

@[simp] theorem on_veil : (pipe.veil hidden).on side = (pipe.on side).veil hidden := by
  cases side <;> rfl

@[simp] theorem sideOf?_veil (endpoint : Endpoint) :
    (pipe.veil hidden).sideOf? endpoint = pipe.sideOf? endpoint :=
  rfl

/-- An end that is not hidden shows its queue. -/
theorem on_veil_of_shown (shown : (pipe.on side).endpoint ∉ hidden) :
    (pipe.veil hidden).on side = pipe.on side := by
  simp [PipeEnd.veil, shown]

/-- A change of one end that only depends on what is shown can be made behind the veil. -/
theorem veil_modify {change : PipeEnd → PipeEnd}
    (kept : (change (pipe.on side)).veil hidden = change ((pipe.on side).veil hidden)) :
    (pipe.modify side change).veil hidden = (pipe.veil hidden).modify side change := by
  cases side with
  | first => exact congrArg (Pipe.mk · (pipe.second.veil hidden)) kept
  | second => exact congrArg (Pipe.mk (pipe.first.veil hidden)) kept

/-- A change of one end that is not shown cannot be told behind the veil. -/
theorem veil_modify_of_same {change : PipeEnd → PipeEnd}
    (same : (change (pipe.on side)).veil hidden = (pipe.on side).veil hidden) :
    (pipe.modify side change).veil hidden = pipe.veil hidden := by
  cases side with
  | first => exact congrArg (Pipe.mk · (pipe.second.veil hidden)) same
  | second => exact congrArg (Pipe.mk (pipe.first.veil hidden)) same

/-- Closing takes no notice of queues. -/
theorem veil_close : (pipe.close side).veil hidden = (pipe.veil hidden).close side := by
  -- Queues are only ever emptied, and that the veil does as well.
  unfold close
  dsimp only
  have closed : (pipe.modify side fun held =>
      { held with isOpen := false, inbound := [] }).veil hidden =
        (pipe.veil hidden).modify side fun held => { held with isOpen := false, inbound := [] } :=
    veil_modify hidden pipe side (by simp [PipeEnd.veil])
  have live (other : Pipe) : (other.veil hidden).isLive = other.isLive := rfl
  rw [← closed, live]
  split
  · rfl
  · rw [veil_modify]
    simp [PipeEnd.veil]

variable {hidden pipe side}

/-- A read of a queue that is shown. -/
theorem veil_read (shown : (pipe.on side).endpoint ∉ hidden) (limit : Nat) :
    (pipe.veil hidden).read side limit =
      ((pipe.read side limit).1, (pipe.read side limit).2.veil hidden) := by
  unfold read
  rw [on_veil_of_shown hidden pipe side shown, on_veil]
  split
  · rfl
  split
  · rfl
  · rw [veil_modify]
    simp [PipeEnd.veil, shown]

/-- A write into a queue that is shown. -/
theorem veil_write (shown : (pipe.on side.peer).endpoint ∉ hidden) (capacity : Nat)
    (data : Bytes) : (pipe.veil hidden).write capacity side data =
      ((pipe.write capacity side data).1, (pipe.write capacity side data).2.veil hidden) := by
  unfold write
  rw [on_veil_of_shown hidden pipe side.peer shown]
  dsimp only
  split
  · rfl
  split
  · rfl
  split
  · rfl
  · rw [veil_modify]
    simp [PipeEnd.veil, shown]

end Pipe

namespace PipeRegistry

variable {hidden} {registry : PipeRegistry}

@[simp] theorem pipes_veil (position : Nat) :
    (registry.veil hidden).pipes[position]? = registry.pipes[position]?.map (Pipe.veil hidden) := by
  simp [veil]

/-- A pipe is replaced behind the veil by what is shown of it. -/
theorem veil_setPipe (position : Nat) (pipe : Pipe) :
    (registry.setPipe position pipe).veil hidden =
      (registry.veil hidden).setPipe position (pipe.veil hidden) := by
  simp [setPipe, veil, List.map_set]

/-- A pipe may be replaced unnoticed by one that differs in what is hidden only. -/
theorem veil_setPipe_of_same {position : Nat} {pipe changed : Pipe}
    (found : registry.pipes[position]? = some pipe)
    (same : changed.veil hidden = pipe.veil hidden) :
    (registry.setPipe position changed).veil hidden = registry.veil hidden := by
  rw [veil_setPipe, same]
  -- To put something where it stands changes nothing.
  have pipes : (registry.veil hidden).pipes.set position (pipe.veil hidden) =
      (registry.veil hidden).pipes := by
    apply List.ext_getElem?
    intro other
    rw [List.getElem?_set]
    split
    · rename_i here
      subst here
      have inside := (List.getElem?_eq_some_iff.mp found).1
      rw [pipes_veil, found, if_pos (by simpa [veil] using inside)]
      rfl
    · rfl
  simp only [setPipe, pipes]

/-- The ends of a registry are listed without their queues. -/
theorem veil_holdings : (registry.veil hidden).holdings = registry.holdings := by
  have kept : (registry.veil hidden).holdings = registry.holdings.map id :=
    holdings_eq_map (by simp [veil]) fun {position} {pipe} found =>
      ⟨pipe.veil hidden, by rw [pipes_veil, found]; rfl, fun side => by rw [Pipe.on_veil]; rfl⟩
  rw [kept, List.map_id]

/-- Which ends an owner has open does not depend on queues. -/
theorem veil_ownedBy (owner : InstanceId) :
    (registry.veil hidden).ownedBy owner = registry.ownedBy owner := by
  rw [ownedBy_eq, ownedBy_eq, veil_holdings]

/-- Whether a pipe can be created does not depend on queues. -/
theorem veil_create (owner : InstanceId) :
    (registry.veil hidden).create owner = { registry.create owner with
      registry := (registry.create owner).registry.veil hidden } := by
  -- The budget and the numbers decide, and the new ends have nothing to hide.
  by_cases spent : registry.openEndpoints + 2 > registry.maxEndpoints.toNat
  · simp only [create, PipeRegistry.veil, spent, if_true]
  · cases following : registry.nextEndpoint.succ? with
    | none => simp only [create, PipeRegistry.veil, spent, if_false, following]
    | some second =>
      cases beyond : second.succ? with
      | none => simp only [create, PipeRegistry.veil, spent, if_false, following, beyond]
      | some next =>
        simp [create, PipeRegistry.veil, spent, following, beyond, Pipe.veil, PipeEnd.veil]

namespace Numbered

variable (numbered : registry.Numbered)
include numbered

/-- Numbers are never hidden. -/
theorem veil : (registry.veil hidden).Numbered where
  next := by simpa [PipeRegistry.veil] using numbered.next
  ends := by
    intro position pipe found side
    rw [pipes_veil, Option.map_eq_some_iff] at found
    obtain ⟨shown, there, rfl⟩ := found
    rw [Pipe.on_veil]
    exact numbered.ends there side

/-- Who holds an end does not depend on queues. -/
theorem veil_held (caller : InstanceId) (endpoint : Endpoint) :
    (registry.veil hidden).held caller endpoint =
      (registry.held caller endpoint).map fun (pipe, side) => (pipe.veil hidden, side) := by
  unfold held
  rw [numbered.veil.locate?, numbered.locate?, pipes_veil]
  cases registry.pipes[endpoint.index]? with
  | none => rfl
  | some pipe =>
    simp only [Option.map_some, Pipe.on_veil]
    show (if (pipe.on endpoint.side).owner = caller ∧ (pipe.on endpoint.side).isOpen = true
      then _ else _) = _
    split <;> rfl

/-- What a reader waits on does not depend on queues. -/
theorem veil_readerWaitsOn :
    (registry.veil hidden).readerWaitsOn = registry.readerWaitsOn := by
  funext caller endpoint
  unfold readerWaitsOn
  rw [numbered.veil_held]
  cases registry.held caller endpoint with
  | error => rfl
  | ok place =>
    simp only [Except.map, Pipe.on_veil]
    rfl

/-- What a writer waits on does not depend on queues. -/
theorem veil_writerWaitsOn :
    (registry.veil hidden).writerWaitsOn = registry.writerWaitsOn := by
  funext caller endpoint
  unfold writerWaitsOn
  rw [numbered.veil_held]
  cases registry.held caller endpoint with
  | error => rfl
  | ok place =>
    simp only [Except.map, Pipe.on_veil]
    rfl

/-- Whether endpoints can be given away does not depend on queues. -/
theorem veil_checkTransfer (caller : InstanceId) (endpoints given : List Endpoint) :
    (registry.veil hidden).checkTransfer caller endpoints given =
      registry.checkTransfer caller endpoints given := by
  induction endpoints generalizing given with
  | nil => rfl
  | cons endpoint rest ih =>
    unfold checkTransfer
    rw [numbered.veil_held]
    cases registry.held caller endpoint with
    | error => rfl
    | ok place => simp only [Except.map, ih]

/-- A change of the pipe of an endpoint that takes no notice of what is hidden can be made behind
the veil. -/
theorem veil_modify {endpoint : Endpoint} {change : Pipe → Side → Pipe}
    (kept : ∀ pipe, registry.pipes[endpoint.index]? = some pipe →
      (change pipe endpoint.side).veil hidden = change (pipe.veil hidden) endpoint.side) :
    (registry.modify endpoint change).veil hidden =
      (registry.veil hidden).modify endpoint change := by
  have behind : (registry.veil hidden).pipes[endpoint.index]? = _ := pipes_veil endpoint.index
  cases found : registry.pipes[endpoint.index]? with
  | none =>
    rw [found] at behind
    rw [numbered.modify_of_none found, numbered.veil.modify_of_none behind]
  | some pipe =>
    rw [found] at behind
    rw [numbered.modify_eq found, numbered.veil.modify_eq behind, veil_setPipe, kept pipe found]

/-- A read of an end that is shown finds the same behind the veil. -/
theorem veil_read {endpoint : Endpoint} (shown : endpoint ∉ hidden) (caller : InstanceId)
    (limit : Nat) : (registry.veil hidden).read caller endpoint limit =
      { registry.read caller endpoint limit with
        registry := (registry.read caller endpoint limit).registry.veil hidden } := by
  have reads (pipe : Pipe) (found : registry.pipes[endpoint.index]? = some pipe) :
      (pipe.veil hidden).read endpoint.side limit =
        ((pipe.read endpoint.side limit).1, (pipe.read endpoint.side limit).2.veil hidden) :=
    Pipe.veil_read (by rw [numbered.endpoint_of_found found]; exact shown) limit
  have after : (registry.modify endpoint fun pipe side => (pipe.read side limit).2).veil hidden =
      (registry.veil hidden).modify endpoint fun pipe side => (pipe.read side limit).2 :=
    numbered.veil_modify fun pipe found => by rw [reads pipe found]
  unfold read
  rw [numbered.veil_held]
  rcases numbered.held_cases caller endpoint with ⟨pipe, holds, outcome⟩ | ⟨-, outcome⟩
  · -- The end answers alike, and is left alike.
    simp only [outcome, Except.map, reads pipe holds.found, Pipe.on_veil]
    split
    · rfl
    · rfl
    · rw [after]
      rfl
  · simp only [outcome, Except.map]

/-- A write into an end that is shown finds the same behind the veil. -/
theorem veil_write {endpoint : Endpoint} (shown : ∀ across ∈ endpoint.peer?, across ∉ hidden)
    (caller : InstanceId) (data : Bytes) : (registry.veil hidden).write caller endpoint data =
      { registry.write caller endpoint data with
        registry := (registry.write caller endpoint data).registry.veil hidden } := by
  have writes (pipe : Pipe) (found : registry.pipes[endpoint.index]? = some pipe) :
      (pipe.veil hidden).write registry.capacity.toNat endpoint.side data =
        ((pipe.write registry.capacity.toNat endpoint.side data).1,
          (pipe.write registry.capacity.toNat endpoint.side data).2.veil hidden) :=
    Pipe.veil_write (shown _ (numbered.peer?_of_found found)) registry.capacity.toNat data
  have after : (registry.modify endpoint fun pipe side =>
      (pipe.write registry.capacity.toNat side data).2).veil hidden =
        (registry.veil hidden).modify endpoint fun pipe side =>
          (pipe.write registry.capacity.toNat side data).2 :=
    numbered.veil_modify fun pipe found => by rw [writes pipe found]
  unfold write
  rw [numbered.veil_held]
  rcases numbered.held_cases caller endpoint with ⟨pipe, holds, outcome⟩ | ⟨-, outcome⟩
  · -- The end across has the same room, and is left alike.
    have capacity : (registry.veil hidden).capacity = registry.capacity := rfl
    simp only [outcome, Except.map, capacity, writes pipe holds.found, Pipe.on_veil]
    split
    · rfl
    · rfl
    · rfl
    · rw [after]
      rfl
  · simp only [outcome, Except.map]

/-- Closing an endpoint, whoever holds it, takes no notice of queues. -/
theorem veil_closeOpen (endpoint : Endpoint) : (registry.veil hidden).closeOpen endpoint =
    ((registry.closeOpen endpoint).1.veil hidden, (registry.closeOpen endpoint).2) := by
  -- Behind the veil the same pipe is found, and whether its end is open shows there too.
  have behind : (registry.veil hidden).pipes[endpoint.index]? = _ := pipes_veil endpoint.index
  cases found : registry.pipes[endpoint.index]? with
  | none =>
    rw [found] at behind
    rw [numbered.closeOpen_of_none found, numbered.veil.closeOpen_of_none behind]
  | some pipe =>
    rw [found] at behind
    rw [numbered.closeOpen_eq found, numbered.veil.closeOpen_eq behind, Pipe.on_veil]
    show (if (pipe.on endpoint.side).isOpen = true then _ else _) = _
    split
    · simp only [PipeRegistry.shut, Prod.mk.injEq]
      refine ⟨?_, rfl⟩
      rw [← Pipe.veil_close, ← veil_setPipe]
      rfl
    · rfl

/-- A close takes no notice of queues. -/
theorem veil_close (caller : InstanceId) (endpoint : Endpoint) :
    (registry.veil hidden).close caller endpoint = { registry.close caller endpoint with
      registry := (registry.close caller endpoint).registry.veil hidden } := by
  unfold close
  rw [numbered.veil.locate?, numbered.locate?, pipes_veil, numbered.veil_closeOpen]
  cases registry.pipes[endpoint.index]? with
  | none => rfl
  | some pipe =>
    simp only [Option.map_some, Pipe.on_veil]
    show (if (pipe.on endpoint.side).owner = caller then _ else _) = _
    split
    · rfl
    · rfl

/-- Closing ends in a row takes no notice of queues. -/
theorem veil_closeAll (endpoints : List Endpoint) : (registry.veil hidden).closeAll endpoints =
    ((registry.closeAll endpoints).1.veil hidden, (registry.closeAll endpoints).2) := by
  induction endpoints generalizing registry with
  | nil => rfl
  | cons endpoint rest ih =>
    have later : (registry.closeOpen endpoint).1.Numbered := by
      simpa [closeAll] using (Announced.closeAll numbered [endpoint]).1
    simp only [closeAll, numbered.veil_closeOpen, ih later]

/-- Gifts take no notice of queues. -/
theorem veil_transfer (endpoints : List Endpoint) (heir : InstanceId) :
    (registry.veil hidden).transfer endpoints heir =
      (registry.transfer endpoints heir).veil hidden := by
  induction endpoints generalizing registry with
  | nil => rfl
  | cons endpoint rest ih =>
    have later : (registry.transfer [endpoint] heir).Numbered :=
      (Announced.transfer numbered [endpoint] heir).1
    have given : (registry.modify endpoint fun pipe side =>
        pipe.modify side fun held => { held with owner := heir }).veil hidden =
          (registry.veil hidden).modify endpoint fun pipe side =>
            pipe.modify side fun held => { held with owner := heir } :=
      numbered.veil_modify fun pipe _ =>
        Pipe.veil_modify hidden pipe endpoint.side (by simp [PipeEnd.veil])
    refine Eq.trans ?_ (ih later)
    simp only [transfer, List.foldl_cons, given]

/-- A call that leaves hidden queues alone finds the same, and does the same, behind the veil. -/
theorem veil_call {call : PipeCall} (visible : call.isVisible hidden = true) :
    call.report (registry.veil hidden) = call.report registry ∧
      call.run (registry.veil hidden) = (call.run registry).veil hidden := by
  have later := (numbered.run call).1
  -- Owners, numbers and open ends are shown anyway, so what remains are answers and signals.
  have seen (run : call.run (registry.veil hidden) = (call.run registry).veil hidden)
      (answer : call.answer (registry.veil hidden) = call.answer registry)
      (signals : call.signals (registry.veil hidden) = call.signals registry) :
      call.report (registry.veil hidden) = call.report registry ∧
        call.run (registry.veil hidden) = (call.run registry).veil hidden := by
    refine ⟨?_, run⟩
    simp only [PipeCall.report, run, answer, signals, later.veil_readerWaitsOn,
      later.veil_writerWaitsOn, PipeReport.mk.injEq, true_and, and_true]
    exact ⟨rfl, funext fun owner => veil_ownedBy owner⟩
  cases call with
  | create owner =>
    apply seen <;> simp only [PipeCall.run, PipeCall.answer, PipeCall.signals, veil_create]
  | read caller endpoint limit =>
    have shown : endpoint ∉ hidden := by
      simpa [PipeCall.isVisible, PipeCall.queue?] using visible
    apply seen <;>
      simp only [PipeCall.run, PipeCall.answer, PipeCall.signals, numbered.veil_read shown]
  | write caller endpoint data =>
    have shown : ∀ across ∈ endpoint.peer?, across ∉ hidden := by
      intro across named
      rw [Option.mem_def] at named
      simpa [PipeCall.isVisible, PipeCall.queue?, named] using visible
    apply seen <;>
      simp only [PipeCall.run, PipeCall.answer, PipeCall.signals, numbered.veil_write shown]
  | close caller endpoint =>
    apply seen <;>
      simp only [PipeCall.run, PipeCall.answer, PipeCall.signals, numbered.veil_close]
  | closeOwnedBy owner =>
    apply seen <;> simp only [PipeCall.run, PipeCall.answer, PipeCall.signals, closeOwnedBy,
      veil_ownedBy, numbered.veil_closeAll]
  | checkTransfer caller endpoints =>
    apply seen <;>
      simp only [PipeCall.run, PipeCall.answer, PipeCall.signals, numbered.veil_checkTransfer]
  | transfer endpoints heir =>
    apply seen <;>
      simp only [PipeCall.run, PipeCall.answer, PipeCall.signals, numbered.veil_transfer]

/-- A call that only moves bytes through a hidden queue does nothing that is seen. -/
theorem veil_hidden_call {call : PipeCall} {moved : Endpoint} (queue : call.queue? = some moved)
    (unseen : moved ∈ hidden) : (call.run registry).veil hidden = registry.veil hidden := by
  -- Only the hidden queue changes, and only if some bytes move.
  cases call with
  | read caller endpoint limit =>
    obtain rfl := Option.some.inj queue
    simp only [PipeCall.run]
    have outcome := numbered.read_case caller endpoint limit
    generalize registry.read caller endpoint limit = served at outcome ⊢
    cases outcome with
    | @takes pipe holds =>
      have own := numbered.endpoint_of_found holds.found
      refine veil_setPipe_of_same holds.found (Pipe.veil_modify_of_same hidden pipe _ ?_)
      simp [PipeEnd.veil, own, unseen]
    | _ => rfl
  | write caller endpoint data =>
    simp only [PipeCall.run]
    have outcome := numbered.write_case caller endpoint data
    generalize registry.write caller endpoint data = served at outcome ⊢
    cases outcome with
    | @puts pipe holds =>
      rw [PipeCall.queue?, numbered.peer?_of_found holds.found, Option.some_inj] at queue
      refine veil_setPipe_of_same holds.found (Pipe.veil_modify_of_same hidden pipe _ ?_)
      simp [PipeEnd.veil, queue, unseen]
    | _ => rfl
  | _ => simp [PipeCall.queue?] at queue

/-- A call that neither creates, closes nor gives away anything, and moves no byte towards an
endpoint, does nothing that is seen there. -/
theorem veil_idle_call {endpoint : Endpoint} [DecidablePred (· ∈ {other | other ≠ endpoint})]
    {call : PipeCall} (idle : call.bearsOn endpoint = false) :
    (call.run registry).veil {other | other ≠ endpoint} =
      registry.veil {other | other ≠ endpoint} := by
  cases queue : call.queue? with
  | some moved =>
    refine numbered.veil_hidden_call queue fun same => ?_
    subst same
    cases call <;> simp_all [PipeCall.bearsOn, PipeCall.queue?]
  | none =>
    cases call with
    | read => simp [PipeCall.queue?] at queue
    | write caller target data =>
      -- Nobody can hold an end that has no end across.
      simp only [PipeCall.run]
      have outcome := numbered.write_case caller target data
      generalize registry.write caller target data = served at outcome ⊢
      cases outcome with
      | puts holds => simp [PipeCall.queue?, numbered.peer?_of_found holds.found] at queue
      | _ => rfl
    | checkTransfer => rfl
    | _ => simp [PipeCall.bearsOn] at idle

end Numbered

/-- Calls that do nothing that is seen can be left out of a history, and nobody who makes the other
calls can tell. -/
theorem reports_filter {kept : PipeCall → Bool}
    (visible : ∀ call, kept call = true → call.isVisible hidden = true)
    (silent : ∀ call, kept call = false → ∀ registry : PipeRegistry, registry.Numbered →
      (call.run registry).veil hidden = registry.veil hidden)
    {one other : PipeRegistry} (numbered : one.Numbered) (numberedToo : other.Numbered)
    (same : one.veil hidden = other.veil hidden) (calls : List PipeCall) :
    (one.reports calls).filter (fun entry => kept entry.1) = other.reports (calls.filter kept) ∧
      (one.after calls).veil hidden = (other.after (calls.filter kept)).veil hidden := by
  -- Call by call, both registries look alike behind the veil.
  induction calls generalizing one other with
  | nil => exact ⟨rfl, same⟩
  | cons call rest ih =>
    have later := (numbered.run call).1
    cases keep : kept call with
    | false =>
      have further := ih later numberedToo ((silent call keep one numbered).trans same)
      simp only [reports, List.filter_cons, keep, Bool.false_eq_true, if_false]
      exact further
    | true =>
      have seen := numbered.veil_call (visible call keep)
      have seenToo := numberedToo.veil_call (visible call keep)
      have report : call.report one = call.report other := by
        rw [← seen.1, same, seenToo.1]
      have run : (call.run one).veil hidden = (call.run other).veil hidden := by
        rw [← seen.2, same, seenToo.2]
      have further := ih later (numberedToo.run call).1 run
      simp only [reports, List.filter_cons, keep, if_true, report, further.1, true_and]
      exact further.2

/-- Directions and pipes do not interfere. Leave out of any history all reads of some ends and all
writes into them: all other calls still answer and signal the same, and the registry that is left
differs in the queues of these ends only. So all that is ever read on an endpoint depends on the
writes into it, the reads of it, and what is created, closed and given away. -/
theorem directions_independent (capacity maxEndpoints : UInt64) (calls : List PipeCall)
    (hidden : Set Endpoint) [DecidablePred (· ∈ hidden)] :
    let start := fresh capacity maxEndpoints
    let visible := PipeCall.isVisible hidden
    (start.reports calls).filter (fun entry => visible entry.1) =
      start.reports (calls.filter visible) ∧
    (start.after calls).veil hidden = (start.after (calls.filter visible)).veil hidden ∧
    ∀ endpoint, (start.reports calls).filter (fun entry => entry.1.bearsOn endpoint) =
      start.reports (calls.filter (PipeCall.bearsOn endpoint)) := by
  intro start visible
  have numbered : start.Numbered := numbered_of_empty start rfl rfl
  have silent (call : PipeCall) (unseen : visible call = false) (registry : PipeRegistry)
      (numbered : registry.Numbered) :
      (call.run registry).veil hidden = registry.veil hidden := by
    simp only [visible, PipeCall.isVisible, Bool.not_eq_false', Option.any_eq_true,
      decide_eq_true_eq] at unseen
    obtain ⟨moved, queue, member⟩ := unseen
    exact numbered.veil_hidden_call queue member
  have whole := reports_filter (fun _ => id) silent numbered numbered rfl calls
  refine ⟨whole.1, whole.2, fun endpoint => ?_⟩
  -- Seen from one endpoint, all other queues are hidden.
  have : DecidablePred (· ∈ {other | other ≠ endpoint}) :=
    fun other => inferInstanceAs (Decidable (other ≠ endpoint))
  refine (reports_filter (fun call bears => call.isVisible_of_bearsOn bears)
    (fun call idle registry numbered => numbered.veil_idle_call idle) numbered numbered rfl calls).1

end PipeRegistry

end Progeny
