import Progeny.Proofs.Instance.Lineage
import Progeny.Proofs.Session.Replies

/-! What instances are told is true: a call is answered in its own terms, whoever is said to have
been created was, and whoever is said to have exited has. -/

namespace Progeny

/-- A request was answered in its own terms, and truly by the records. -/
inductive Request.Answered (table : InstanceTable) : Request → Reply → Prop where
  | refused (request : Request) (error : CallError) : Answered table request (.error error)
  | pipe (first second : Endpoint) : Answered table .pipe (.ok (.endpoints first second))
  | spawn (descriptor : Descriptor) (argv : List Bytes) (endpoints : List Endpoint)
      (id : InstanceId) : Answered table (.spawn descriptor argv endpoints) (.ok (.instance id))
  | close (endpoint : Endpoint) : Answered table (.close endpoint) (.ok .done)
  | join {target : InstanceId} {code : Int8} (exited : table.exitCode target = some code) :
    Answered table (.join target) (.ok (.code code))
  | read (endpoint : Endpoint) (limit : Nat) (bytes : Bytes) :
    Answered table (.read endpoint limit) (.ok (.bytes bytes))
  | readExact (endpoint : Endpoint) (count : Nat) (bytes : Bytes) :
    Answered table (.readExact endpoint count) (.ok (.bytes bytes))
  | readToEnd (endpoint : Endpoint) (bytes : Bytes) :
    Answered table (.readToEnd endpoint) (.ok (.bytes bytes))
  | write (endpoint : Endpoint) (data : Bytes) (count : Nat) :
    Answered table (.write endpoint data) (.ok (.count count))
  | writeAll (endpoint : Endpoint) (data : Bytes) :
    Answered table (.writeAll endpoint data) (.ok .done)

/-- A call that waits is what a request has come to. -/
inductive Pending.Serves : Pending → Request → Prop where
  | join (target : InstanceId) : Serves (.join target) (.join target)
  | read (endpoint : Endpoint) (limit : Nat) : Serves (.read endpoint limit) (.read endpoint limit)
  | readExact (endpoint : Endpoint) (count : Nat) (taken : Bytes) (missing : Nat) :
    Serves (.readExact endpoint taken missing) (.readExact endpoint count)
  | readToEnd (endpoint : Endpoint) (taken : Bytes) :
    Serves (.readToEnd endpoint taken) (.readToEnd endpoint)
  | write (endpoint : Endpoint) (data : Bytes) :
    Serves (.write endpoint data) (.write endpoint data)
  | writeAll (endpoint : Endpoint) (data rest : Bytes) :
    Serves (.writeAll endpoint rest) (.writeAll endpoint data)

/-- A request begins with its own call. -/
theorem Request.serves {request : Request} {call : Pending}
    (begins : request.pending? = some call) : call.Serves request := by
  cases request with
  | pipe | spawn | close => simp [Request.pending?] at begins
  | join | read | readExact | readToEnd | write | writeAll =>
    obtain rfl := Option.some.inj begins
    constructor

/-- Answers stay true as long as no exit code changes. -/
theorem Request.Answered.later {before after : InstanceTable} {request : Request} {reply : Reply}
    (answered : request.Answered before reply)
    (kept : ∀ {id code}, before.exitCode id = some code → after.exitCode id = some code) :
    request.Answered after reply := by
  cases answered with
  | join exited => exact .join (kept exited)
  | refused | pipe | spawn | close | read | readExact | readToEnd | write | writeAll => constructor

/-- How far a request may have come: it was answered, or its call still waits. -/
inductive Progress.Suits (table : InstanceTable) (request : Request) : Progress → Prop where
  | finished {reply : Reply} (answered : request.Answered table reply) :
    Suits table request (.finished reply)
  | blocked {blocked : Blocked} (serves : blocked.call.Serves request) :
    Suits table request (.blocked blocked)

namespace Tables

variable {π : Type} {tables after : Tables π} {caller : InstanceId} {request : Request}
  {progress : Progress}

/-- To ask for an exit code is answered by the record. -/
theorem suits_join (tables : Tables π) (caller target : InstanceId) :
    (tables.join caller target).1.Suits tables.instances (.join target) := by
  unfold join
  split
  · exact .finished (.refused _ _)
  split
  · exact .finished (.refused _ _)
  · rename_i record found
    split
    · exact .blocked (.join target)
    · rename_i code state
      refine .finished (.join ?_)
      simp [InstanceTable.exitCode, found, state, Lifecycle.exitCode]

/-- To read a number of bytes is answered by bytes. -/
theorem suits_readExact (table : InstanceTable) (tables : Tables π) (caller : InstanceId)
    (endpoint : Endpoint) (count : Nat) (taken : Bytes) (missing : Nat) :
    (tables.readExact caller endpoint taken missing).1.Suits table (.readExact endpoint count) := by
  -- The attempt goes on as long as bytes come, and any end of it suits.
  fun_induction readExact tables caller endpoint taken missing with
  | case1 | case4 => exact .finished (.readExact endpoint count _)
  | case2 => exact .finished (.refused _ _)
  | case3 => exact .blocked (.readExact endpoint count _ _)
  | case5 _ _ _ _ _ _ _ _ ih => exact ih

/-- To read a stream to its end is answered by bytes. -/
theorem suits_readToEnd (table : InstanceTable) (tables : Tables π) (caller : InstanceId)
    (endpoint : Endpoint) (taken : Bytes) :
    (tables.readToEnd caller endpoint taken).1.Suits table (.readToEnd endpoint) := by
  fun_induction readToEnd tables caller endpoint taken with
  | case1 => exact .finished (.refused _ _)
  | case2 => exact .blocked (.readToEnd endpoint _)
  | case3 => exact .finished (.readToEnd endpoint _)
  | case4 _ _ _ _ _ _ ih => exact ih

/-- To write every byte is answered once that is done. -/
theorem suits_writeAll (table : InstanceTable) (tables : Tables π) (caller : InstanceId)
    (endpoint : Endpoint) (data rest : Bytes) :
    (tables.writeAll caller endpoint rest).1.Suits table (.writeAll endpoint data) := by
  fun_induction writeAll tables caller endpoint rest with
  | case1 => exact .finished (.writeAll endpoint data)
  | case2 => exact .finished (.refused _ _)
  | case3 => exact .blocked (.writeAll endpoint data _)
  | case4 _ _ _ _ _ _ ih => exact ih

/-- To go on with a call of a request suits the request. -/
theorem suits_resume (tables : Tables π) (caller : InstanceId) {call : Pending}
    (serves : call.Serves request) :
    (tables.resume caller call).1.Suits tables.instances request := by
  cases serves with
  | join target => exact tables.suits_join caller target
  | readExact endpoint count taken missing =>
    exact suits_readExact _ tables caller endpoint count taken missing
  | readToEnd endpoint taken => exact suits_readToEnd _ tables caller endpoint taken
  | writeAll endpoint data rest => exact suits_writeAll _ tables caller endpoint data rest
  | read endpoint limit =>
    simp only [resume]
    split
    · exact .finished (.refused _ _)
    · exact .blocked (.read endpoint limit)
    · exact .finished (.read endpoint limit _)
  | write endpoint data =>
    simp only [resume]
    split
    · exact .finished (.refused _ _)
    · exact .blocked (.write endpoint data)
    · exact .finished (.write endpoint data _)

/-- A further attempt at a call suits the request as well. -/
theorem suits_retry (tables : Tables π) (caller : InstanceId) {blocked : Blocked}
    (serves : blocked.call.Serves request) :
    (tables.retry caller blocked).1.Suits tables.instances request := by
  unfold retry
  split
  · exact tables.suits_resume caller serves
  · exact .blocked serves

/-- Any request is answered in its own terms, or it waits. -/
theorem suits_perform (tables : Tables π) (caller : InstanceId) (request : Request) :
    (tables.perform caller request).1.Suits tables.instances request := by
  -- What can wait begins with its call; the rest is answered at once.
  cases begins : request.pending? with
  | some call =>
    rw [perform_of_pending begins]
    exact tables.suits_resume caller (Request.serves begins)
  | none =>
    cases request with
    | join | read | readExact | readToEnd | write | writeAll => simp [Request.pending?] at begins
    | pipe =>
      simp only [perform, replyWith]
      cases (tables.createPipe caller).1 with
      | error error => exact .finished (.refused _ error)
      | ok both => exact .finished (.pipe both.1 both.2)
    | spawn descriptor argv endpoints =>
      simp only [perform, replyWith]
      cases (tables.spawn caller descriptor argv endpoints).1 with
      | error error => exact .finished (.refused _ error)
      | ok id => exact .finished (.spawn descriptor argv endpoints id)
    | close endpoint =>
      simp only [perform, replyWith]
      cases (tables.closeEndpoint caller endpoint).1 with
      | error error => exact .finished (.refused _ error)
      | ok both => exact .finished (.close endpoint)

/-- The child that a call has created. -/
def created? : Request → Progress → Option InstanceId
  | .spawn .., .finished (.ok (.instance id)) => some id
  | _, _ => none

/-- What a call does to the records and to what is to be started. -/
inductive Peoples (tables : Tables π) (caller : InstanceId) (request : Request)
    (progress : Progress) (after : Tables π) : Prop where
  | keeps (childless : created? request progress = none)
      (instances : after.instances = tables.instances) (launches : after.launches = tables.launches)
  | creates {record : InstanceRecord} {launch : Launch π} {descriptor : Descriptor}
      (child : created? request progress = some ⟨tables.instances.nextId⟩)
      (found : tables.instances.find? caller = some record)
      (named : tables.instances.nextId + 1 ≠ 0)
      (loaded : tables.load descriptor = .ok launch.program)
      (own : launch.id = ⟨tables.instances.nextId⟩)
      (instances : after.instances = tables.instances.enlist (some caller) (record.depth + 1))
      (launches : after.launches = tables.launches ++ [launch])

/-- A call creates a child of the caller, or it changes no record. -/
theorem CallCase.peoples (outcome : CallCase tables caller request progress after)
    (sound : tables.Sound) :
    Peoples tables caller request progress after ∧ after.load = tables.load := by
  cases outcome with
  | connects | closes | repeats => exact ⟨.keeps rfl rfl rfl, rfl⟩
  | @spawns descriptor argv endpoints program record loaded held found named =>
    exact ⟨.creates rfl found named loaded rfl rfl rfl, rfl⟩
  | refused immediate =>
    refine ⟨.keeps ?_ rfl rfl, rfl⟩
    cases request <;> rfl
  | exchanges begins exchanges =>
    obtain ⟨-, instances, -, launches, load, -⟩ := exchanges.keeps sound
    refine ⟨.keeps ?_ instances launches, load⟩
    -- A request that can wait creates nobody.
    cases request with
    | pipe | spawn | close => simp [Request.pending?] at begins
    | join | read | readExact | readToEnd | write | writeAll => rfl

end Tables

end Progeny
