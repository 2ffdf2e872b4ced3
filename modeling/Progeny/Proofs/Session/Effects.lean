import Mathlib.Logic.Relation
import Progeny.Proofs.Pipe.Calls
import Progeny.Session.Call

/-! What calls do to the tables: every call, and every further attempt at one that waits, is a
sequence of single effects. -/

namespace Progeny.Tables

variable {π : Type} {caller : InstanceId}

/-- A single effect of a call on the tables. -/
inductive Effect (caller : InstanceId) (tables : Tables π) : Tables π → Prop where
  | reads (endpoint : Endpoint) (limit : Nat) :
    Effect caller tables (tables.settle (tables.pipes.read caller endpoint limit))
  | writes (endpoint : Endpoint) (data : Bytes) :
    Effect caller tables (tables.settle (tables.pipes.write caller endpoint data))
  | creates : Effect caller tables (tables.createPipe caller).2
  | closes (endpoint : Endpoint) : Effect caller tables (tables.closeEndpoint caller endpoint).2
  | spawns (descriptor : Descriptor) (argv : List Bytes) (endpoints : List Endpoint) :
    Effect caller tables (tables.spawn caller descriptor argv endpoints).2
  | joins {target : InstanceId} {code : Int8}
      (exited : tables.instances.exitCode target = some code) :
    Effect caller tables (tables.report (.joined caller target code))

/-- Some effects of calls, one after another. -/
abbrev Effects (caller : InstanceId) : Tables π → Tables π → Prop :=
  Relation.ReflTransGen (Effect caller)

/-- A single effect of a call that can wait: it moves bytes, or it learns an exit code. -/
inductive Exchange (caller : InstanceId) (tables : Tables π) : Tables π → Prop where
  | reads (endpoint : Endpoint) (limit : Nat) :
    Exchange caller tables (tables.settle (tables.pipes.read caller endpoint limit))
  | writes (endpoint : Endpoint) (data : Bytes) :
    Exchange caller tables (tables.settle (tables.pipes.write caller endpoint data))
  | joins {target : InstanceId} {code : Int8}
      (exited : tables.instances.exitCode target = some code) :
    Exchange caller tables (tables.report (.joined caller target code))

/-- Some effects of calls that can wait, one after another. -/
abbrev Exchanges (caller : InstanceId) : Tables π → Tables π → Prop :=
  Relation.ReflTransGen (Exchange caller)

variable {tables after : Tables π}

/-- What calls that can wait do is among what calls do. -/
theorem Exchanges.effects (exchanges : Exchanges caller tables after) :
    Effects caller tables after := by
  -- Each single effect is one of the same name.
  induction exchanges with
  | refl => exact .refl
  | tail _ last ih =>
    refine ih.tail ?_
    cases last with
    | reads endpoint limit => exact .reads endpoint limit
    | writes endpoint data => exact .writes endpoint data
    | joins exited => exact .joins exited

/-- An attempt to read changes the tables by a read at most. -/
theorem exchanges_tryRead (tables : Tables π) (caller : InstanceId) (endpoint : Endpoint)
    (limit : Nat) : Exchanges caller tables (tables.tryRead caller endpoint limit).2 := by
  -- Only an attempt that does not wait reads.
  unfold tryRead
  split
  · exact .refl
  · dsimp only
    split <;> exact .single (.reads endpoint limit)

/-- An attempt to write changes the tables by a write at most. -/
theorem exchanges_tryWrite (tables : Tables π) (caller : InstanceId) (endpoint : Endpoint)
    (data : Bytes) : Exchanges caller tables (tables.tryWrite caller endpoint data).2 := by
  -- Only an attempt that does not wait writes.
  unfold tryWrite
  split
  · exact .refl
  · dsimp only
    split <;> exact .single (.writes endpoint data)

/-- To ask for an exit code is no more than to report it. -/
theorem exchanges_join (tables : Tables π) (caller target : InstanceId) :
    Exchanges caller tables (tables.join caller target).2 := by
  -- A join acts only once the target has exited.
  unfold join
  split
  · exact .refl
  split
  · exact .refl
  · rename_i record found
    split
    · exact .refl
    · rename_i code state
      exact .single (.joins (by simp [InstanceTable.exitCode, found, state, Lifecycle.exitCode]))

/-- To read a number of bytes is a sequence of reads. -/
theorem exchanges_readExact (tables : Tables π) (caller : InstanceId) (endpoint : Endpoint)
    (taken : Bytes) (missing : Nat) :
    Exchanges caller tables (tables.readExact caller endpoint taken missing).2 := by
  -- Only the first attempt acts here; the bytes still missing are left to the induction.
  fun_induction readExact tables caller endpoint taken missing with
  | case1 => exact .refl
  | case2 tables taken missing some error after attempt
  | case3 tables taken missing some wait after attempt
  | case4 tables taken missing some after attempt =>
    have first := tables.exchanges_tryRead caller endpoint missing
    rwa [attempt] at first
  | case5 tables taken missing some byte bytes after attempt ih =>
    have first := tables.exchanges_tryRead caller endpoint missing
    rw [attempt] at first
    exact first.trans ih

/-- To read a stream to its end is a sequence of reads. -/
theorem exchanges_readToEnd (tables : Tables π) (caller : InstanceId) (endpoint : Endpoint)
    (taken : Bytes) : Exchanges caller tables (tables.readToEnd caller endpoint taken).2 := by
  -- Chunk after chunk, each attempt is one read.
  fun_induction readToEnd tables caller endpoint taken with
  | case1 tables taken error after attempt
  | case2 tables taken wait after attempt
  | case3 tables taken after attempt =>
    have first := tables.exchanges_tryRead caller endpoint chunkSize
    rwa [attempt] at first
  | case4 tables taken byte bytes after attempt ih =>
    have first := tables.exchanges_tryRead caller endpoint chunkSize
    rw [attempt] at first
    exact first.trans ih

/-- To write every byte is a sequence of writes. -/
theorem exchanges_writeAll (tables : Tables π) (caller : InstanceId) (endpoint : Endpoint)
    (rest : Bytes) : Exchanges caller tables (tables.writeAll caller endpoint rest).2 := by
  -- What the first attempt does not accept is left to the induction.
  fun_induction writeAll tables caller endpoint rest with
  | case1 => exact .refl
  | case2 tables rest some error after attempt
  | case3 tables rest some wait after attempt =>
    have first := tables.exchanges_tryWrite caller endpoint rest
    rwa [attempt] at first
  | case4 tables rest some count after attempt ih =>
    have first := tables.exchanges_tryWrite caller endpoint rest
    rw [attempt] at first
    exact first.trans ih

/-- To go on with a call is a sequence of such effects. -/
theorem exchanges_resume (tables : Tables π) (caller : InstanceId) (call : Pending) :
    Exchanges caller tables (tables.resume caller call).2 := by
  -- Reads and writes of one attempt do what the attempt does.
  cases call with
  | join target => exact tables.exchanges_join caller target
  | read endpoint limit =>
    have first := tables.exchanges_tryRead caller endpoint limit
    simp only [resume]
    split <;> simp_all
  | readExact endpoint taken missing =>
    exact tables.exchanges_readExact caller endpoint taken missing
  | readToEnd endpoint taken => exact tables.exchanges_readToEnd caller endpoint taken
  | write endpoint data =>
    have first := tables.exchanges_tryWrite caller endpoint data
    simp only [resume]
    split <;> simp_all
  | writeAll endpoint rest => exact tables.exchanges_writeAll caller endpoint rest

/-- The same where the outcome is known. -/
theorem Exchanges.of_resume {call : Pending} {progress : Progress}
    (resumed : tables.resume caller call = (progress, after)) : Exchanges caller tables after := by
  have exchanges := tables.exchanges_resume caller call
  rwa [resumed] at exchanges

/-- To go on with a call that waits is a sequence of effects. -/
theorem effects_retry (tables : Tables π) (caller : InstanceId) (blocked : Blocked) :
    Effects caller tables (tables.retry caller blocked).2 := by
  -- A wait that is not over leaves the tables alone.
  unfold retry
  split
  · exact (tables.exchanges_resume caller blocked.call).effects
  · exact .refl

/-- To make a call is a sequence of effects. -/
theorem effects_perform (tables : Tables π) (caller : InstanceId) (request : Request) :
    Effects caller tables (tables.perform caller request).2 := by
  -- A request either acts at once or begins a call, which is then resumed.
  cases request with
  | pipe => exact .single .creates
  | spawn descriptor argv endpoints => exact .single (.spawns descriptor argv endpoints)
  | close endpoint => exact .single (.closes endpoint)
  | join | read | readExact | readToEnd | write | writeAll =>
    exact (tables.exchanges_resume caller _).effects

end Progeny.Tables
