import Progeny.Proofs.Pipe.Numbering
import Progeny.Session.Call

/-! Calls that have to wait: what is missing for them, and for what they wait. -/

namespace Progeny

namespace Pending

/-- The endpoint that a call reads at least one byte from. -/
def reads : Pending → Option Endpoint
  | .read endpoint limit => if limit = 0 then none else some endpoint
  | .readExact endpoint _ missing => if missing = 0 then none else some endpoint
  | .readToEnd endpoint _ => some endpoint
  | .join _ | .write .. | .writeAll .. => none

/-- The endpoint that a call writes at least one byte to. -/
def writes : Pending → Option Endpoint
  | .write endpoint data => if data = [] then none else some endpoint
  | .writeAll endpoint rest => if rest = [] then none else some endpoint
  | .join _ | .read .. | .readExact .. | .readToEnd .. => none

end Pending

namespace Tables

variable {π : Type} {tables after : Tables π} {caller : InstanceId}

/-- A call that would have to wait if it was made now, with what it would wait for: it joins another
instance that runs, it reads from an end of the caller whose queue is empty while bytes may still
come, or it writes where the queue across is full while somebody may still read it. -/
inductive Stuck (tables : Tables π) (caller : InstanceId) : Pending → Wait → Prop where
  | joins {target : InstanceId} {record : InstanceRecord} (other : target ≠ caller)
      (found : tables.instances.find? target = some record) (running : record.state = .running) :
    Stuck tables caller (.join target) (.exitOf target)
  | reads {call : Pending} {endpoint : Endpoint} {pipe : Pipe} {side : Side}
      (reading : call.reads = some endpoint)
      (held : tables.pipes.held caller endpoint = .ok (pipe, side))
      (empty : (pipe.on side).inbound = []) (expected : (pipe.on side.peer).isOpen = true) :
    Stuck tables caller call
      (.signalOn (pipe.on side).endpoint (tables.signals.count (pipe.on side).endpoint))
  | writes {call : Pending} {endpoint : Endpoint} {pipe : Pipe} {side : Side}
      (writing : call.writes = some endpoint)
      (held : tables.pipes.held caller endpoint = .ok (pipe, side))
      (expected : (pipe.on side.peer).isOpen = true)
      (full : tables.pipes.capacity.toNat ≤ (pipe.on side.peer).inbound.length) :
    Stuck tables caller call
      (.signalOn (pipe.on side.peer).endpoint (tables.signals.count (pipe.on side.peer).endpoint))

/-- An operation that left the pipes alone and signalled nothing changes nothing. -/
theorem settle_self {α : Type} (tables : Tables π) (result : α) :
    tables.settle ⟨result, tables.pipes, []⟩ = tables := rfl

/-- An attempt to read waits exactly if its end is empty while bytes may still come. -/
theorem tryRead_eq_wait {endpoint : Endpoint} {limit : Nat} {wait : Wait} :
    tables.tryRead caller endpoint limit = (.wait wait, after) ↔
      after = tables ∧ ∃ pipe side, tables.pipes.held caller endpoint = .ok (pipe, side) ∧
        limit ≠ 0 ∧ (pipe.on side).inbound = [] ∧ (pipe.on side.peer).isOpen = true ∧
        wait = .signalOn (pipe.on side).endpoint
          (tables.signals.count (pipe.on side).endpoint) := by
  -- An attempt waits where it asks for bytes, finds none, and may still be sent some.
  unfold tryRead PipeRegistry.readerWaitsOn PipeRegistry.read
  cases outcome : tables.pipes.held caller endpoint with
  | error error => simp [Except.map]
  | ok place =>
    obtain ⟨pipe, side⟩ := place
    simp only [Except.map, Except.ok.injEq, Prod.mk.injEq]
    constructor
    · intro waits
      by_cases asked : limit = 0
      · simp [Pipe.read, asked] at waits
      by_cases empty : (pipe.on side).inbound = []
      · cases expected : (pipe.on side.peer).isOpen with
        | false => simp [Pipe.read, asked, empty, expected] at waits
        | true =>
          simp only [Pipe.read, asked, empty, expected, if_false, if_true, settle_self,
            Prod.mk.injEq, Attempt.wait.injEq] at waits
          exact ⟨waits.2.symm, pipe, side, ⟨rfl, rfl⟩, asked, empty, expected, waits.1.symm⟩
      · have bytes : (pipe.read side limit).1 = some ((pipe.on side).inbound.take limit) := by
          simp [Pipe.read, asked, empty]
        rw [bytes] at waits
        cases taken : (pipe.on side).inbound.take limit <;> simp [taken] at waits
    · rintro ⟨rfl, _, _, ⟨rfl, rfl⟩, asked, empty, expected, rfl⟩
      simp [Pipe.read, asked, empty, expected, settle_self]

/-- An attempt to write waits exactly if the queue across is full while somebody may still read. -/
theorem tryWrite_eq_wait {endpoint : Endpoint} {data : Bytes} {wait : Wait} :
    tables.tryWrite caller endpoint data = (.wait wait, after) ↔
      after = tables ∧ ∃ pipe side, tables.pipes.held caller endpoint = .ok (pipe, side) ∧
        data ≠ [] ∧ (pipe.on side.peer).isOpen = true ∧
        tables.pipes.capacity.toNat ≤ (pipe.on side.peer).inbound.length ∧
        wait = .signalOn (pipe.on side.peer).endpoint
          (tables.signals.count (pipe.on side.peer).endpoint) := by
  -- An attempt waits where it offers bytes, is awaited, and finds no room.
  unfold tryWrite PipeRegistry.writerWaitsOn PipeRegistry.write
  cases outcome : tables.pipes.held caller endpoint with
  | error error => simp [Except.map]
  | ok place =>
    obtain ⟨pipe, side⟩ := place
    simp only [Except.map, Except.ok.injEq, Prod.mk.injEq]
    constructor
    · intro waits
      cases expected : (pipe.on side.peer).isOpen with
      | false => simp [Pipe.write, expected] at waits
      | true =>
        by_cases offered : data = []
        · simp [Pipe.write, expected, offered] at waits
        by_cases full : tables.pipes.capacity.toNat ≤ (pipe.on side.peer).inbound.length
        · simp only [Pipe.write, expected, offered, Nat.sub_eq_zero_of_le full, Bool.not_true,
            Bool.false_eq_true, if_false, if_true, settle_self, Prod.mk.injEq,
            Attempt.wait.injEq] at waits
          exact ⟨waits.2.symm, pipe, side, ⟨rfl, rfl⟩, offered, expected, full, waits.1.symm⟩
        · have room : tables.pipes.capacity.toNat - (pipe.on side.peer).inbound.length ≠ 0 := by
            omega
          have taken : ∃ count, (pipe.write tables.pipes.capacity.toNat side data).1 =
              .accepted count := by
            simp [Pipe.write, expected, offered, room]
          obtain ⟨count, taken⟩ := taken
          rw [taken] at waits
          cases count <;> simp at waits
    · rintro ⟨rfl, _, _, ⟨rfl, rfl⟩, offered, expected, full, rfl⟩
      simp [Pipe.write, expected, offered, Nat.sub_eq_zero_of_le full, settle_self]

/-- Whoever waits in an attempt to read is stuck in the call that it belongs to. -/
theorem stuck_of_tryRead {call : Pending} {endpoint : Endpoint} {limit : Nat} {wait : Wait}
    (reading : limit ≠ 0 → call.reads = some endpoint)
    (waits : tables.tryRead caller endpoint limit = (.wait wait, after)) :
    after.Stuck caller call wait := by
  obtain ⟨rfl, pipe, side, held, asked, empty, expected, rfl⟩ := tryRead_eq_wait.mp waits
  exact .reads (reading asked) held empty expected

/-- Whoever waits in an attempt to write is stuck in the call that it belongs to. -/
theorem stuck_of_tryWrite {call : Pending} {endpoint : Endpoint} {data : Bytes} {wait : Wait}
    (writing : data ≠ [] → call.writes = some endpoint)
    (waits : tables.tryWrite caller endpoint data = (.wait wait, after)) :
    after.Stuck caller call wait := by
  obtain ⟨rfl, pipe, side, held, offered, expected, full, rfl⟩ := tryWrite_eq_wait.mp waits
  exact .writes (writing offered) held expected full

/-- A call for an exit code is stuck if it waits. -/
theorem stuck_of_join {target : InstanceId} {blocked : Blocked}
    (waits : tables.join caller target = (.blocked blocked, after)) :
    after.Stuck caller blocked.call blocked.wait := by
  -- Of the ways a join can go, one waits.
  unfold join at waits
  split at waits
  · simp at waits
  rename_i other
  split at waits
  · simp at waits
  rename_i record found
  split at waits
  · rename_i running
    obtain ⟨same, rfl⟩ := Prod.mk.inj waits
    obtain rfl := Progress.blocked.inj same
    exact .joins other found running
  · simp at waits

/-- A call for a number of bytes is stuck if it waits. -/
theorem stuck_of_readExact {endpoint : Endpoint} {taken : Bytes} {missing : Nat}
    {blocked : Blocked}
    (waits : tables.readExact caller endpoint taken missing = (.blocked blocked, after)) :
    after.Stuck caller blocked.call blocked.wait := by
  -- Only the last of its reads can have waited.
  fun_induction readExact tables caller endpoint taken missing with
  | case1 | case2 | case4 => simp at waits
  | case3 tables taken missing some wait reached attempt =>
    obtain ⟨same, rfl⟩ := Prod.mk.inj waits
    obtain rfl := Progress.blocked.inj same
    exact stuck_of_tryRead (fun asked => by simp [Pending.reads, asked]) attempt
  | case5 tables taken missing some byte bytes reached attempt ih => exact ih waits

/-- A call for a whole stream is stuck if it waits. -/
theorem stuck_of_readToEnd {endpoint : Endpoint} {taken : Bytes} {blocked : Blocked}
    (waits : tables.readToEnd caller endpoint taken = (.blocked blocked, after)) :
    after.Stuck caller blocked.call blocked.wait := by
  -- The attempt that waits is the last one, whatever was taken before.
  fun_induction readToEnd tables caller endpoint taken with
  | case1 | case3 => simp at waits
  | case2 tables taken wait reached attempt =>
    obtain ⟨same, rfl⟩ := Prod.mk.inj waits
    obtain rfl := Progress.blocked.inj same
    exact stuck_of_tryRead (fun _ => rfl) attempt
  | case4 tables taken byte bytes reached attempt ih => exact ih waits

/-- A call to write every byte is stuck if it waits. -/
theorem stuck_of_writeAll {endpoint : Endpoint} {rest : Bytes} {blocked : Blocked}
    (waits : tables.writeAll caller endpoint rest = (.blocked blocked, after)) :
    after.Stuck caller blocked.call blocked.wait := by
  -- The attempt that waits is the last one, whatever was accepted before.
  fun_induction writeAll tables caller endpoint rest with
  | case1 | case2 => simp at waits
  | case3 tables rest some wait reached attempt =>
    obtain ⟨same, rfl⟩ := Prod.mk.inj waits
    obtain rfl := Progress.blocked.inj same
    exact stuck_of_tryWrite (fun offered => by simp [Pending.writes, offered]) attempt
  | case4 tables rest some count reached attempt ih => exact ih waits

/-- A call that goes on and then waits is stuck. -/
theorem stuck_of_resume {call : Pending} {blocked : Blocked}
    (waits : tables.resume caller call = (.blocked blocked, after)) :
    after.Stuck caller blocked.call blocked.wait := by
  -- Reads and writes of one attempt wait where the attempt does.
  cases call with
  | join target => exact stuck_of_join waits
  | readExact endpoint taken missing => exact stuck_of_readExact waits
  | readToEnd endpoint taken => exact stuck_of_readToEnd waits
  | writeAll endpoint rest => exact stuck_of_writeAll waits
  | read endpoint limit =>
    simp only [resume] at waits
    split at waits
    · simp at waits
    · rename_i wait reached attempt
      obtain ⟨same, rfl⟩ := Prod.mk.inj waits
      obtain rfl := Progress.blocked.inj same
      exact stuck_of_tryRead (fun asked => by simp [Pending.reads, asked]) attempt
    · simp at waits
  | write endpoint data =>
    simp only [resume] at waits
    split at waits
    · simp at waits
    · rename_i wait reached attempt
      obtain ⟨same, rfl⟩ := Prod.mk.inj waits
      obtain rfl := Progress.blocked.inj same
      exact stuck_of_tryWrite (fun offered => by simp [Pending.writes, offered]) attempt
    · simp at waits

/-- A call that is made and then waits is stuck. -/
theorem stuck_of_perform {request : Request} {blocked : Blocked}
    (waits : tables.perform caller request = (.blocked blocked, after)) :
    after.Stuck caller blocked.call blocked.wait := by
  -- A request that acts at once never blocks.
  cases request with
  | pipe | spawn | close => simp [perform, replyWith] at waits
  | join | read | readExact | readToEnd | write | writeAll =>
    simp only [perform] at waits
    exact stuck_of_resume waits

/-- Reading a whole stream waits where its first attempt does. -/
theorem readToEnd_of_wait {endpoint : Endpoint} {wait : Wait}
    (attempt : tables.tryRead caller endpoint chunkSize = (.wait wait, tables)) (taken : Bytes) :
    tables.readToEnd caller endpoint taken =
      (.blocked ⟨.readToEnd endpoint taken, wait⟩, tables) := by
  rw [readToEnd]
  -- The match remembers its attempt, so it is split and not rewritten.
  split
  · simp_all
  · rename_i waiting reached outcome
    obtain ⟨same, rfl⟩ := Prod.mk.inj (outcome.symm.trans attempt)
    rw [Attempt.wait.inj same]
  · simp_all
  · simp_all

/-- Writing everything waits where its first attempt does. -/
theorem writeAll_of_wait {endpoint : Endpoint} {rest : Bytes} {wait : Wait} (offered : rest ≠ [])
    (attempt : tables.tryWrite caller endpoint rest = (.wait wait, tables)) :
    tables.writeAll caller endpoint rest = (.blocked ⟨.writeAll endpoint rest, wait⟩, tables) := by
  rw [writeAll, dif_neg offered]
  split
  · simp_all
  · rename_i waiting reached outcome
    obtain ⟨same, rfl⟩ := Prod.mk.inj (outcome.symm.trans attempt)
    rw [Attempt.wait.inj same]
  · simp_all

/-- A call that reads waits where attempts to read do. -/
theorem resume_of_reads {call : Pending} {endpoint : Endpoint} {wait : Wait}
    (reading : call.reads = some endpoint)
    (attempt : ∀ limit, limit ≠ 0 →
      tables.tryRead caller endpoint limit = (.wait wait, tables)) :
    tables.resume caller call = (.blocked ⟨call, wait⟩, tables) := by
  cases call with
  | join | write | writeAll => simp [Pending.reads] at reading
  | read endpoint limit =>
    simp only [Pending.reads, Option.ite_none_left_eq_some, Option.some.injEq] at reading
    obtain ⟨asked, rfl⟩ := reading
    simp only [Tables.resume]
    rw [attempt limit asked]
  | readExact endpoint taken missing =>
    simp only [Pending.reads, Option.ite_none_left_eq_some, Option.some.injEq] at reading
    obtain ⟨asked, rfl⟩ := reading
    simp only [Tables.resume]
    rw [readExact, if_neg asked, attempt missing asked]
  | readToEnd endpoint taken =>
    obtain rfl := Option.some.inj reading
    exact readToEnd_of_wait (attempt chunkSize (by decide)) taken

/-- A call that writes waits where attempts to write do. -/
theorem resume_of_writes {call : Pending} {endpoint : Endpoint} {wait : Wait}
    (writing : call.writes = some endpoint)
    (attempt : ∀ data, data ≠ [] →
      tables.tryWrite caller endpoint data = (.wait wait, tables)) :
    tables.resume caller call = (.blocked ⟨call, wait⟩, tables) := by
  cases call with
  | join | read | readExact | readToEnd => simp [Pending.writes] at writing
  | write endpoint data =>
    simp only [Pending.writes, Option.ite_none_left_eq_some, Option.some.injEq] at writing
    obtain ⟨offered, rfl⟩ := writing
    simp only [Tables.resume]
    rw [attempt data offered]
  | writeAll endpoint rest =>
    simp only [Pending.writes, Option.ite_none_left_eq_some, Option.some.injEq] at writing
    obtain ⟨offered, rfl⟩ := writing
    exact writeAll_of_wait offered (attempt rest offered)

/-- A call that is stuck stays so when it is tried again, and then waits from that moment on. -/
theorem Stuck.resume {call : Pending} {wait : Wait} (stuck : tables.Stuck caller call wait) :
    tables.resume caller call = (.blocked ⟨call, wait⟩, tables) := by
  -- Nothing has changed, so the attempts of the call wait as they did.
  cases stuck with
  | joins other found running => simp [Tables.resume, join, other, found, running]
  | reads reading held empty expected =>
    exact resume_of_reads reading fun limit asked => tryRead_eq_wait.mpr
      ⟨rfl, _, _, held, asked, empty, expected, rfl⟩
  | writes writing held expected full =>
    exact resume_of_writes writing fun data offered => tryWrite_eq_wait.mpr
      ⟨rfl, _, _, held, offered, expected, full, rfl⟩

/-- What a stuck call waits for has not happened. -/
theorem Stuck.isOver {call : Pending} {wait : Wait} (stuck : tables.Stuck caller call wait) :
    tables.isOver wait = false := by
  -- The wait was taken from the present counts, which have not moved.
  cases stuck with
  | joins other found running =>
    simp [Tables.isOver, InstanceTable.exitCode, found, running, Lifecycle.exitCode]
  | reads | writes => simp [Tables.isOver]

end Tables

end Progeny
