import Progeny.Proofs.Pipe.Holdings
import Progeny.Proofs.Pipe.Queues
import Progeny.Proofs.Session.Stuck
import Progeny.Proofs.Session.Undisturbed

/-! What each call comes to: it is refused and changes nothing, it does the one thing that it asks
for, or it exchanges bytes and exit codes. -/

namespace Progeny

/-- The call that a request begins, if it is one that can wait. -/
def Request.pending? : Request → Option Pending
  | .pipe | .spawn .. | .close _ => none
  | .join target => some (.join target)
  | .read endpoint limit => some (.read endpoint limit)
  | .readExact endpoint count => some (.readExact endpoint [] count)
  | .readToEnd endpoint => some (.readToEnd endpoint [])
  | .write endpoint data => some (.write endpoint data)
  | .writeAll endpoint data => some (.writeAll endpoint data)

/-- Whether a call cannot go on without an endpoint. A call that is already complete asks nothing of
its endpoint. -/
def Pending.Uses (endpoint : Endpoint) : Pending → Prop
  | .join _ => False
  | .read used _ | .readToEnd used _ | .write used _ => used = endpoint
  | .readExact used _ missing => used = endpoint ∧ missing ≠ 0
  | .writeAll used rest => used = endpoint ∧ rest ≠ []

namespace Tables

variable {π : Type} {tables after : Tables π} {caller : InstanceId}

/-- A request that can wait is the beginning of its call. -/
theorem perform_of_pending {request : Request} {pending : Pending}
    (begins : request.pending? = some pending) :
    tables.perform caller request = tables.resume caller pending := by
  cases request with
  | pipe | spawn | close => simp [Request.pending?] at begins
  | join | read | readExact | readToEnd | write | writeAll =>
    obtain rfl := Option.some.inj begins
    rfl

/-- What a call comes to. -/
inductive CallCase (tables : Tables π) (caller : InstanceId) :
    Request → Progress → Tables π → Prop where
  | connects {first second next : Endpoint}
      (numbers : first.word.toNat = 2 * tables.pipes.pipes.length + 1 ∧
        second.word.toNat = 2 * tables.pipes.pipes.length + 2 ∧
        next.word.toNat = 2 * tables.pipes.pipes.length + 3) :
    CallCase tables caller .pipe (.finished (.ok (.endpoints first second)))
      (({ tables with pipes := tables.pipes.extend first second next caller } : Tables π).report
        (.pipeCreated caller first second))
  | spawns {descriptor : Descriptor} {argv : List Bytes} {endpoints : List Endpoint} {program : π}
      {record : InstanceRecord} (loaded : tables.load descriptor = .ok program)
      (held : ∀ endpoint ∈ endpoints, ⟨endpoint, caller, true⟩ ∈ tables.pipes.holdings)
      (found : tables.instances.find? caller = some record)
      (named : tables.instances.nextId + 1 ≠ 0) :
    CallCase tables caller (.spawn descriptor argv endpoints)
      (.finished (.ok (.instance ⟨tables.instances.nextId⟩)))
      (({ tables with
        pipes := tables.pipes.transfer endpoints ⟨tables.instances.nextId⟩
        instances := tables.instances.enlist (some caller) (record.depth + 1)
        launches := tables.launches ++
          [⟨⟨tables.instances.nextId⟩, program, argv, endpoints⟩] } : Tables π).report
        (.spawned ⟨tables.instances.nextId⟩ (some caller) endpoints))
  | closes {endpoint : Endpoint} {pipe : Pipe} {signals : SignalCounts}
      (holds : tables.pipes.Holds caller endpoint pipe) :
    CallCase tables caller (.close endpoint) (.finished (.ok .done))
      (({ tables with pipes := tables.pipes.shut endpoint pipe, signals := signals } :
        Tables π).report (.pipeClosed caller endpoint))
  | repeats {endpoint : Endpoint}
      (closed : ⟨endpoint, caller, false⟩ ∈ tables.pipes.holdings) :
    CallCase tables caller (.close endpoint) (.finished (.ok .done)) tables
  | refused {request : Request} {error : CallError} (immediate : request.pending? = none) :
    CallCase tables caller request (.finished (.error error)) tables
  | exchanges {request : Request} {pending : Pending} {progress : Progress} {after : Tables π}
      (begins : request.pending? = some pending) (exchanges : Exchanges caller tables after) :
    CallCase tables caller request progress after

/-- Whatever is asked for comes to one of the cases. -/
theorem perform_case (sound : tables.Sound) (caller : InstanceId) (request : Request) :
    CallCase tables caller request (tables.perform caller request).1
      (tables.perform caller request).2 := by
  cases begins : request.pending? with
  | some pending =>
    rw [perform_of_pending begins]
    exact .exchanges begins (tables.exchanges_resume caller pending)
  | none =>
    cases request with
    | join | read | readExact | readToEnd | write | writeAll => simp [Request.pending?] at begins
    | pipe =>
      have outcome := sound.numbered.create_case caller
      simp only [perform, createPipe]
      generalize tables.pipes.create caller = served at outcome ⊢
      cases outcome with
      | refused => simpa [replyWith, settle_self, Except.map] using CallCase.refused begins
      | creates budget numbers => exact .connects numbers
    | spawn descriptor argv endpoints =>
      rcases spawn_case sound descriptor argv endpoints with
        ⟨error, same⟩ | ⟨program, record, loaded, checked, found, -, -, named, same⟩
      · rw [perform, same]
        exact .refused begins
      · rw [perform, same]
        refine .spawns loaded (fun endpoint listed => ?_) found named
        exact sound.numbered.holds_iff.mp
          ((sound.numbered.checkTransfer_iff.mp checked).1 endpoint listed)
    | close endpoint =>
      have outcome := sound.numbered.close_case caller endpoint
      simp only [perform, closeEndpoint]
      generalize tables.pipes.close caller endpoint = served at outcome ⊢
      cases outcome with
      | refused => simpa [replyWith, settle_self, Except.map] using CallCase.refused begins
      | @repeated pipe found owned closed =>
        simp only [replyWith, settle_self, Except.map]
        refine .repeats (sound.numbered.mem_holdings.mpr ⟨pipe, found, ?_⟩)
        simp [PipeEnd.holding, sound.numbered.endpoint_of_found found, owned, closed]
      | closes holds => exact .closes holds

/-- The same where the outcome is known. -/
theorem CallCase.of_perform (sound : tables.Sound) {request : Request} {progress : Progress}
    (performed : tables.perform caller request = (progress, after)) :
    CallCase tables caller request progress after := by
  have outcome := perform_case sound caller request
  rwa [performed] at outcome

/-- Bytes and exit codes that are exchanged change no record, no owner, and nothing that is to be
started. -/
theorem Exchanges.keeps (sound : tables.Sound) (exchanges : Exchanges caller tables after) :
    after.Sound ∧ after.instances = tables.instances ∧
      after.pipes.holdings = tables.pipes.holdings ∧ after.launches = tables.launches ∧
      after.load = tables.load ∧ (tables.pipes.Drained → after.pipes.Drained) := by
  induction exchanges with
  | refl => exact ⟨sound, rfl, rfl, rfl, rfl, id⟩
  | @tail middle last _ exchange ih =>
    obtain ⟨soundToo, instances, holdings, launches, load, drained⟩ := ih
    have soundLast : last.Sound :=
      (Effects.sound soundToo (Exchanges.effects (.single exchange))).1
    cases exchange with
    | reads endpoint limit =>
      have outcome := soundToo.numbered.read_case caller endpoint limit
      exact ⟨soundLast, instances, outcome.holdings.trans holdings, launches, load,
        fun before => outcome.drained (drained before)⟩
    | writes endpoint data =>
      have outcome := soundToo.numbered.write_case caller endpoint data
      exact ⟨soundLast, instances, outcome.holdings.trans holdings, launches, load,
        fun before => outcome.drained (drained before)⟩
    | joins exited => exact ⟨soundLast, instances, holdings, launches, load, drained⟩

/-- A call on an endpoint that the caller does not hold is refused with the endpoint and changes
nothing. -/
theorem resume_of_unheld (sound : tables.Sound) {endpoint : Endpoint} {pending : Pending}
    (uses : pending.Uses endpoint)
    (unheld : ⟨endpoint, caller, true⟩ ∉ tables.pipes.holdings) :
    tables.resume caller pending =
      (.finished (.error (.invalidEndpoint endpoint)), tables) := by
  -- Before every attempt the caller is asked for the endpoint.
  have refused : tables.pipes.held caller endpoint = .error (.invalidEndpoint endpoint) := by
    rcases sound.numbered.held_cases caller endpoint with ⟨pipe, holds, -⟩ | ⟨-, refused⟩
    · exact absurd (sound.numbered.holds_iff.mp ⟨pipe, holds⟩) unheld
    · exact refused
  have read (limit : Nat) : tables.tryRead caller endpoint limit =
      (.failed (.invalidEndpoint endpoint), tables) := by
    simp [tryRead, PipeRegistry.readerWaitsOn, refused, Except.map]
  have write (data : Bytes) : tables.tryWrite caller endpoint data =
      (.failed (.invalidEndpoint endpoint), tables) := by
    simp [tryWrite, PipeRegistry.writerWaitsOn, refused, Except.map]
  cases pending with
  | join target => exact uses.elim
  | read used limit =>
    obtain rfl := uses
    simp [resume, read]
  | readExact used taken missing =>
    obtain ⟨rfl, asked⟩ := uses
    rw [resume, readExact, if_neg asked, read]
  | readToEnd used taken =>
    obtain rfl := uses
    rw [resume, readToEnd]
    split <;> simp_all
  | write used data =>
    obtain rfl := uses
    simp [resume, write]
  | writeAll used rest =>
    obtain ⟨rfl, offered⟩ := uses
    rw [resume, writeAll, dif_neg offered]
    split <;> simp_all

end Tables

end Progeny
