import Progeny.Pipe.Progress
import Progeny.Session.Tables

/-! The calls of an instance. Some have to wait for another instance, and then what they have
achieved so far is kept until they go on. -/

namespace Progeny

/-- What an instance may ask for. -/
inductive Request where
  /-- A new pipe with both ends held by the caller. -/
  | pipe
  /-- A child that takes over endpoints. -/
  | spawn (descriptor : Descriptor) (argv : List Bytes) (endpoints : List Endpoint)
  | close (endpoint : Endpoint)
  /-- The exit code of an instance, once it has exited. -/
  | join (target : InstanceId)
  /-- At least one byte, or none at the end of the stream. -/
  | read (endpoint : Endpoint) (limit : Nat)
  /-- A number of bytes, or fewer at the end of the stream. -/
  | readExact (endpoint : Endpoint) (count : Nat)
  /-- All bytes up to the end of the stream. -/
  | readToEnd (endpoint : Endpoint)
  /-- That at least one byte is taken. -/
  | write (endpoint : Endpoint) (data : Bytes)
  /-- That every byte is taken. -/
  | writeAll (endpoint : Endpoint) (data : Bytes)
  deriving DecidableEq

/-- What a call that succeeds returns. -/
inductive Value where
  | done
  | endpoints (first second : Endpoint)
  | instance (id : InstanceId)
  | code (code : Int8)
  | bytes (bytes : Bytes)
  | count (count : Nat)
  deriving DecidableEq

/-- The end of a call. -/
abbrev Reply := Except CallError Value

/-- A call that can wait, with what it has achieved so far. -/
inductive Pending where
  | join (target : InstanceId)
  | read (endpoint : Endpoint) (limit : Nat)
  | readExact (endpoint : Endpoint) (taken : Bytes) (missing : Nat)
  | readToEnd (endpoint : Endpoint) (taken : Bytes)
  | write (endpoint : Endpoint) (data : Bytes)
  | writeAll (endpoint : Endpoint) (rest : Bytes)
  deriving DecidableEq

/-- What a call waits for. -/
inductive Wait where
  /-- The end of an instance. -/
  | exitOf (target : InstanceId)
  /-- A signal on an endpoint beyond those already seen. -/
  | signalOn (source : Endpoint) (seen : Nat)
  deriving DecidableEq

/-- A call that waits. -/
structure Blocked where
  call : Pending
  wait : Wait
  deriving DecidableEq

/-- How far a call has come. -/
inductive Progress where
  | finished (reply : Reply)
  | blocked (blocked : Blocked)

/-- What a single attempt to move bytes led to. -/
inductive Attempt (α : Type) where
  | failed (error : CallError)
  | wait (wait : Wait)
  | moved (amount : α)
  deriving DecidableEq

namespace Tables

variable {π : Type}

/-- Whether what a call waits for has happened. -/
def isOver (tables : Tables π) : Wait → Bool
  | .exitOf target => (tables.instances.exitCode target).isSome
  -- Counts only grow, so another count is a later one.
  | .signalOn source seen => tables.signals.count source ≠ seen

/-- Tries to read. A caller that has to wait does so from the state in which it tried. -/
def tryRead (tables : Tables π) (caller : InstanceId) (endpoint : Endpoint) (limit : Nat) :
    Attempt Bytes × Tables π :=
  match tables.pipes.readerWaitsOn caller endpoint with
  | .error error => (.failed error, tables)
  | .ok source =>
    let served := tables.pipes.read caller endpoint limit
    match served.result with
    | .error error => (.failed error, tables.settle served)
    | .ok none => (.wait (.signalOn source (tables.signals.count source)), tables.settle served)
    | .ok (some bytes) => (.moved bytes, tables.settle served)

/-- Tries to write. -/
def tryWrite (tables : Tables π) (caller : InstanceId) (endpoint : Endpoint) (data : Bytes) :
    Attempt Nat × Tables π :=
  match tables.pipes.writerWaitsOn caller endpoint with
  | .error error => (.failed error, tables)
  | .ok source =>
    let served := tables.pipes.write caller endpoint data
    match served.result with
    | .error error => (.failed error, tables.settle served)
    | .ok none => (.wait (.signalOn source (tables.signals.count source)), tables.settle served)
    | .ok (some count) => (.moved count, tables.settle served)

/-- Bytes that were read are no longer queued. -/
theorem queued_tryRead_lt {tables after : Tables π} {caller : InstanceId} {endpoint : Endpoint}
    {limit : Nat} {byte : UInt8} {bytes : Bytes}
    (delivered : tables.tryRead caller endpoint limit = (.moved (byte :: bytes), after)) :
    after.pipes.queued endpoint < tables.pipes.queued endpoint := by
  unfold tryRead at delivered
  split at delivered
  · simp at delivered
  · dsimp only at delivered
    split at delivered
    · simp at delivered
    · simp at delivered
    · rename_i answered
      simp only [Prod.mk.injEq, Attempt.moved.injEq] at delivered
      obtain ⟨rfl, rfl⟩ := delivered
      exact PipeRegistry.queued_read_lt answered

/-- A write of some bytes that need not wait takes at least one of them. -/
theorem tryWrite_pos {tables after : Tables π} {caller : InstanceId} {endpoint : Endpoint}
    {data : Bytes} {count : Nat} (offered : data ≠ [])
    (accepted : tables.tryWrite caller endpoint data = (.moved count, after)) : 0 < count := by
  unfold tryWrite at accepted
  split at accepted
  · simp at accepted
  · dsimp only at accepted
    split at accepted
    · simp at accepted
    · simp at accepted
    · rename_i answered
      simp only [Prod.mk.injEq, Attempt.moved.injEq] at accepted
      obtain ⟨rfl, _⟩ := accepted
      exact PipeRegistry.write_pos offered answered

/-- Asks for the exit code of an instance. -/
def join (tables : Tables π) (caller target : InstanceId) : Progress × Tables π :=
  if target = caller then
    (.finished (.error (.invalidArgument "an instance cannot join itself")), tables)
  else
    match tables.instances.find? target with
    | none => (.finished (.error (.invalidInstance target)), tables)
    | some record =>
      match record.state with
      -- Nobody is told of a join that has to wait.
      | .running => (.blocked ⟨.join target, .exitOf target⟩, tables)
      | .exited code => (.finished (.ok (.code code)), tables.report (.joined caller target code))

/-- Reads until nothing is missing or the stream ends. -/
def readExact (tables : Tables π) (caller : InstanceId) (endpoint : Endpoint) (taken : Bytes)
    (missing : Nat) : Progress × Tables π :=
  if missing = 0 then (.finished (.ok (.bytes taken)), tables)
  else
    match tables.tryRead caller endpoint missing with
    | (.failed error, tables) => (.finished (.error error), tables)
    | (.wait wait, tables) => (.blocked ⟨.readExact endpoint taken missing, wait⟩, tables)
    | (.moved [], tables) => (.finished (.ok (.bytes taken)), tables)
    | (.moved (byte :: bytes), tables) =>
      -- A read that was cut short is followed by another one at once.
      tables.readExact caller endpoint (taken ++ byte :: bytes) (missing - (bytes.length + 1))
termination_by missing

/-- The most bytes that one read of a whole stream takes. -/
def chunkSize : Nat := 256

/-- Reads until the stream ends. -/
def readToEnd (tables : Tables π) (caller : InstanceId) (endpoint : Endpoint) (taken : Bytes) :
    Progress × Tables π :=
  match _attempt : tables.tryRead caller endpoint chunkSize with
  | (.failed error, tables) => (.finished (.error error), tables)
  | (.wait wait, tables) => (.blocked ⟨.readToEnd endpoint taken, wait⟩, tables)
  | (.moved [], tables) => (.finished (.ok (.bytes taken)), tables)
  -- Only an empty read means the end, so a short one is followed by another.
  | (.moved (byte :: bytes), tables) =>
    tables.readToEnd caller endpoint (taken ++ byte :: bytes)
termination_by tables.pipes.queued endpoint
decreasing_by exact queued_tryRead_lt _attempt

/-- Writes until nothing is left. -/
def writeAll (tables : Tables π) (caller : InstanceId) (endpoint : Endpoint) (rest : Bytes) :
    Progress × Tables π :=
  if _none : rest = [] then (.finished (.ok .done), tables)
  else
    match _attempt : tables.tryWrite caller endpoint rest with
    | (.failed error, tables) => (.finished (.error error), tables)
    | (.wait wait, tables) => (.blocked ⟨.writeAll endpoint rest, wait⟩, tables)
    | (.moved count, tables) => tables.writeAll caller endpoint (rest.drop count)
termination_by rest.length
decreasing_by
  have := tryWrite_pos _none _attempt
  have := List.length_pos_iff.mpr _none
  simp only [List.length_drop]
  omega

/-- Goes on with a call. -/
def resume (tables : Tables π) (caller : InstanceId) : Pending → Progress × Tables π
  | .join target => tables.join caller target
  | .read endpoint limit =>
    match tables.tryRead caller endpoint limit with
    | (.failed error, tables) => (.finished (.error error), tables)
    | (.wait wait, tables) => (.blocked ⟨.read endpoint limit, wait⟩, tables)
    | (.moved bytes, tables) => (.finished (.ok (.bytes bytes)), tables)
  | .readExact endpoint taken missing => tables.readExact caller endpoint taken missing
  | .readToEnd endpoint taken => tables.readToEnd caller endpoint taken
  | .write endpoint data =>
    match tables.tryWrite caller endpoint data with
    | (.failed error, tables) => (.finished (.error error), tables)
    | (.wait wait, tables) => (.blocked ⟨.write endpoint data, wait⟩, tables)
    | (.moved count, tables) => (.finished (.ok (.count count)), tables)
  | .writeAll endpoint rest => tables.writeAll caller endpoint rest

/-- Goes on with a call that waits, once what it waits for has happened. -/
def retry (tables : Tables π) (caller : InstanceId) (blocked : Blocked) : Progress × Tables π :=
  if tables.isOver blocked.wait then tables.resume caller blocked.call
  else (.blocked blocked, tables)

/-- The reply to a call that never waits. -/
def replyWith {α : Type} (value : α → Value) : Except CallError α × Tables π → Progress × Tables π
  | (result, tables) => (.finished (result.map value), tables)

/-- Begins a call on behalf of an instance. -/
def perform (tables : Tables π) (caller : InstanceId) : Request → Progress × Tables π
  | .pipe => replyWith (fun (first, second) => .endpoints first second) (tables.createPipe caller)
  | .spawn descriptor argv endpoints =>
    replyWith .instance (tables.spawn caller descriptor argv endpoints)
  | .close endpoint => replyWith (fun _ => .done) (tables.closeEndpoint caller endpoint)
  | .join target => tables.resume caller (.join target)
  | .read endpoint limit => tables.resume caller (.read endpoint limit)
  | .readExact endpoint count => tables.resume caller (.readExact endpoint [] count)
  | .readToEnd endpoint => tables.resume caller (.readToEnd endpoint [])
  | .write endpoint data => tables.resume caller (.write endpoint data)
  | .writeAll endpoint data => tables.resume caller (.writeAll endpoint data)

end Tables

end Progeny
