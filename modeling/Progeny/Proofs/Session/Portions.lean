import Progeny.Proofs.Session.Traffic

/-! Reading a number of bytes, reading to the end, and writing everything are loops that may have to
wait between any two of their steps. What such a call moves in one attempt is a portion, and the
portions of its attempts add up to what it moves as a whole. -/

namespace Progeny

/-- An open end has come to the end of its stream: nothing waits to be read there, and nobody can
send more. -/
def PipeRegistry.AtEnd (registry : PipeRegistry) (endpoint : Endpoint) : Prop :=
  ∃ pipe, registry.pipes[endpoint.index]? = some pipe ∧
    (pipe.on endpoint.side).isOpen = true ∧ (pipe.on endpoint.side).inbound = [] ∧
    (pipe.on endpoint.side.peer).isOpen = false

/-- What an attempt moved, if it did. -/
def Attempt.moved? {α : Type} : Attempt α → Option α
  | .moved amount => some amount
  | .failed _ | .wait _ => none

/-- Whether a call that waits is a loop of reads or writes. -/
def Pending.Loops : Pending → Prop
  | .readExact .. | .readToEnd .. | .writeAll .. => True
  | .join _ | .read .. | .write .. => False

/-- The endpoint that a call reads from or writes to. -/
def Pending.endpoint? : Pending → Option Endpoint
  | .join _ => none
  | .read endpoint _ | .readExact endpoint _ _ | .readToEnd endpoint _ | .write endpoint _
  | .writeAll endpoint _ => some endpoint

/-- The bytes that some calls on pipes move through the endpoint of a call, in its direction. -/
def Pending.moved (registry : PipeRegistry) (calls : List PipeCall) : Pending → Bytes
  | .join _ => []
  | .read endpoint _ | .readExact endpoint _ _ | .readToEnd endpoint _ =>
    registry.deliveredOn endpoint calls
  | .write endpoint _ | .writeAll endpoint _ => registry.acceptedOn endpoint calls

/-- What an attempt at a call that is a loop comes to, together with the bytes that it moves. -/
inductive Portion (registry : PipeRegistry) : Pending → Bytes → Progress → Prop where
  /-- All bytes asked for were read, or fewer at the end of the stream. -/
  | filled {endpoint : Endpoint} (taken : Bytes) {part : Bytes} {missing : Nat}
      (within : part.length ≤ missing)
      (short : part.length < missing → registry.AtEnd endpoint) :
    Portion registry (.readExact endpoint taken missing) part
      (.finished (.ok (.bytes (taken ++ part))))
  | fills (endpoint : Endpoint) (taken part : Bytes) (left : Nat) (wait : Wait) :
    Portion registry (.readExact endpoint taken (part.length + left)) part
      (.blocked ⟨.readExact endpoint (taken ++ part) left, wait⟩)
  /-- All bytes up to the end of the stream were read. -/
  | drained {endpoint : Endpoint} (taken part : Bytes) (ended : registry.AtEnd endpoint) :
    Portion registry (.readToEnd endpoint taken) part (.finished (.ok (.bytes (taken ++ part))))
  | drains (endpoint : Endpoint) (taken part : Bytes) (wait : Wait) :
    Portion registry (.readToEnd endpoint taken) part
      (.blocked ⟨.readToEnd endpoint (taken ++ part), wait⟩)
  /-- All bytes were written. -/
  | sent (endpoint : Endpoint) (rest : Bytes) :
    Portion registry (.writeAll endpoint rest) rest (.finished (.ok .done))
  | sends (endpoint : Endpoint) (part left : Bytes) (wait : Wait) :
    Portion registry (.writeAll endpoint (part ++ left)) part
      (.blocked ⟨.writeAll endpoint left, wait⟩)
  /-- A call may fail at any step. What was written by then is a front of the data. -/
  | failed {call : Pending} {part : Bytes} (error : CallError)
      (front : ∀ endpoint rest, call = .writeAll endpoint rest → part <+: rest) :
    Portion registry call part (.finished (.error error))

namespace Portion

/-- What is left of a call after a portion uses the same endpoint in the same direction. -/
theorem left {registry : PipeRegistry} {call : Pending} {part : Bytes} {blocked : Blocked}
    (portion : Portion registry call part (.blocked blocked)) : blocked.call.Loops ∧
      blocked.call.endpoint? = call.endpoint? ∧ ∀ registry calls,
        blocked.call.moved registry calls = call.moved registry calls := by
  cases portion <;> exact ⟨trivial, rfl, fun _ _ => rfl⟩

/-- A portion after which the call waits is one whatever becomes of the pipes. -/
theorem waits {registry : PipeRegistry} {call : Pending} {part : Bytes} {blocked : Blocked}
    (portion : Portion registry call part (.blocked blocked)) (other : PipeRegistry) :
    Portion other call part (.blocked blocked) := by
  cases portion with
  | fills endpoint taken part left wait => exact .fills endpoint taken part left wait
  | drains endpoint taken part wait => exact .drains endpoint taken part wait
  | sends endpoint part left wait => exact .sends endpoint part left wait

/-- Portions of one call add up. -/
theorem trans {before after : PipeRegistry} {call : Pending} {part more : Bytes}
    {blocked : Blocked} {progress : Progress} (first : Portion before call part (.blocked blocked))
    (second : Portion after blocked.call more progress) :
    Portion after call (part ++ more) progress := by
  -- The second portion begins with what the first one left of the call.
  cases first with
  | fills endpoint taken part left wait =>
    cases second with
    | filled _ within short =>
      rw [List.append_assoc]
      refine .filled taken (by rw [List.length_append]; omega) fun fewer => short ?_
      rw [List.length_append] at fewer
      omega
    | fills _ _ _ left waitToo =>
      have same : part.length + (more.length + left) = (part ++ more).length + left := by
        rw [List.length_append, Nat.add_assoc]
      rw [same, List.append_assoc]
      exact .fills endpoint taken _ left waitToo
    | failed error => exact .failed error (by simp)
  | drains endpoint taken part wait =>
    cases second with
    | drained _ _ ended =>
      rw [List.append_assoc]
      exact .drained taken _ ended
    | drains _ _ _ waitToo =>
      rw [List.append_assoc]
      exact .drains endpoint taken _ waitToo
    | failed error => exact .failed error (by simp)
  | sends endpoint part left wait =>
    cases second with
    | sent => exact .sent endpoint _
    | sends _ _ left waitToo =>
      rw [← List.append_assoc]
      exact .sends endpoint _ left waitToo
    | failed error front =>
      refine .failed error fun target rest same => ?_
      obtain ⟨rfl, rfl⟩ := Pending.writeAll.inj same
      exact (List.prefix_append_right_inj part).mpr (front _ _ rfl)

end Portion

namespace Tables

variable {π : Type} {tables after : Tables π} {caller : InstanceId} {endpoint : Endpoint}

/-- An attempt to read moves what the read yields. -/
theorem moved?_tryRead (tables : Tables π) (caller : InstanceId) (endpoint : Endpoint)
    (limit : Nat) : (tables.tryRead caller endpoint limit).1.moved? =
      (tables.pipes.read caller endpoint limit).result.toOption.join := by
  unfold tryRead PipeRegistry.readerWaitsOn
  cases held : tables.pipes.held caller endpoint with
  | error error => simp [Except.map, PipeRegistry.read, held, Except.toOption, Attempt.moved?]
  | ok place =>
    simp only [Except.map]
    split <;> simp_all [Except.toOption, Attempt.moved?]

/-- An attempt to write moves what the write yields. -/
theorem moved?_tryWrite (tables : Tables π) (caller : InstanceId) (endpoint : Endpoint)
    (data : Bytes) : (tables.tryWrite caller endpoint data).1.moved? =
      (tables.pipes.write caller endpoint data).result.toOption.join := by
  unfold tryWrite PipeRegistry.writerWaitsOn
  cases held : tables.pipes.held caller endpoint with
  | error error => simp [Except.map, PipeRegistry.write, held, Except.toOption, Attempt.moved?]
  | ok place =>
    simp only [Except.map]
    split <;> simp_all [Except.toOption, Attempt.moved?]

/-- A read delivers what the attempt to read moves, and later reads begin where it ended. -/
theorem deliveredOn_tryRead {limit : Nat} {attempt : Attempt Bytes}
    (outcome : tables.tryRead caller endpoint limit = (attempt, after)) (calls : List PipeCall) :
    tables.pipes.deliveredOn endpoint (.read caller endpoint limit :: calls) =
      attempt.moved?.getD [] ++ after.pipes.deliveredOn endpoint calls := by
  have moved := tables.moved?_tryRead caller endpoint limit
  have reached := tables.pipes_tryRead caller endpoint limit
  rw [outcome] at moved reached
  rw [moved, reached]
  simp only [PipeRegistry.deliveredOn, PipeCall.delivered, PipeCall.run, if_true]
  generalize (tables.pipes.read caller endpoint limit).result = answer
  rcases answer with error | _ | bytes <;> rfl

/-- A write takes as much of its data as the attempt to write moves. -/
theorem acceptedOn_tryWrite {data : Bytes} {attempt : Attempt Nat}
    (outcome : tables.tryWrite caller endpoint data = (attempt, after)) (calls : List PipeCall) :
    tables.pipes.acceptedOn endpoint (.write caller endpoint data :: calls) =
      data.take (attempt.moved?.getD 0) ++ after.pipes.acceptedOn endpoint calls := by
  have moved := tables.moved?_tryWrite caller endpoint data
  have reached := tables.pipes_tryWrite caller endpoint data
  rw [outcome] at moved reached
  rw [moved, reached]
  simp only [PipeRegistry.acceptedOn, PipeCall.accepted, PipeCall.run, if_true]
  generalize (tables.pipes.write caller endpoint data).result = answer
  rcases answer with error | _ | count <;> rfl

/-- Bytes that were read are no more than was asked for, and there are none only at the end of the
stream. -/
theorem tryRead_moved (numbered : tables.pipes.Numbered) {limit : Nat} {bytes : Bytes}
    (asked : limit ≠ 0)
    (outcome : tables.tryRead caller endpoint limit = (.moved bytes, after)) :
    bytes.length ≤ limit ∧ (bytes = [] → after.pipes.AtEnd endpoint) := by
  -- A read that takes bytes takes some, so no bytes are the answer to a reader at the end.
  have moved := tables.moved?_tryRead caller endpoint limit
  have reached := tables.pipes_tryRead caller endpoint limit
  have served := numbered.read_case caller endpoint limit
  rw [outcome] at moved reached
  rw [reached]
  generalize tables.pipes.read caller endpoint limit = answer at moved served
  cases served with
  | refused | waits => simp [Attempt.moved?, Except.toOption] at moved
  | ends holds reason =>
    obtain rfl := Option.some.inj moved
    obtain ⟨empty, gone⟩ := reason.resolve_left asked
    exact ⟨Nat.zero_le _, fun _ => ⟨_, holds.found, holds.opened, empty, gone⟩⟩
  | takes holds _ filled =>
    obtain rfl := Option.some.inj moved
    refine ⟨List.length_take_le _ _, fun none => ?_⟩
    rcases List.take_eq_nil_iff.mp none with zero | empty
    · exact absurd zero asked
    · exact absurd empty filled

/-- Numbered pipes are so after an attempt to read. -/
theorem numbered_tryRead (numbered : tables.pipes.Numbered) {limit : Nat}
    {attempt : Attempt Bytes}
    (outcome : tables.tryRead caller endpoint limit = (attempt, after)) :
    after.pipes.Numbered := by
  have reached := tables.pipes_tryRead caller endpoint limit
  rw [outcome] at reached
  rw [reached]
  exact (numbered.run (.read caller endpoint limit)).1

/-- The reads of a call for a number of bytes are a portion of it. -/
theorem portion_readExact (numbered : tables.pipes.Numbered) {taken : Bytes} {missing : Nat}
    {progress : Progress}
    (resumed : tables.readExact caller endpoint taken missing = (progress, after)) :
    Portion after.pipes (.readExact endpoint taken missing)
      (tables.pipes.deliveredOn endpoint (tables.readsExact caller endpoint missing)) progress := by
  -- The bytes of the first read are a portion as if the call had waited then, and the rest of the
  -- loop is another.
  fun_induction readExact tables caller endpoint taken missing with
  | case1 tables taken =>
    obtain ⟨rfl, rfl⟩ := Prod.mk.inj resumed
    have whole : Portion tables.pipes (.readExact endpoint taken 0) []
        (.finished (.ok (.bytes (taken ++ [])))) := .filled taken (Nat.le_refl _) (by simp)
    simpa [readsExact, PipeRegistry.deliveredOn] using whole
  | case2 tables taken missing asked error reached attempt =>
    obtain ⟨rfl, rfl⟩ := Prod.mk.inj resumed
    exact .failed error (by simp)
  | case3 tables taken missing asked wait reached attempt =>
    obtain ⟨rfl, rfl⟩ := Prod.mk.inj resumed
    have whole : Portion reached.pipes (.readExact endpoint taken (0 + missing)) []
        (.blocked ⟨.readExact endpoint (taken ++ []) missing, wait⟩) :=
      .fills endpoint taken [] missing wait
    rw [readsExact_of_rest asked attempt (by simp), deliveredOn_tryRead attempt]
    simpa [Attempt.moved?, PipeRegistry.deliveredOn] using whole
  | case4 tables taken missing asked reached attempt =>
    obtain ⟨rfl, rfl⟩ := Prod.mk.inj resumed
    have ended := (tryRead_moved numbered asked attempt).2 rfl
    have whole : Portion reached.pipes (.readExact endpoint taken missing) []
        (.finished (.ok (.bytes (taken ++ [])))) := .filled taken (Nat.zero_le _) fun _ => ended
    rw [readsExact_of_rest asked attempt (by simp), deliveredOn_tryRead attempt]
    simpa [Attempt.moved?, PipeRegistry.deliveredOn] using whole
  | case5 tables taken missing asked byte bytes reached attempt ih =>
    have further := ih (numbered_tryRead numbered attempt) resumed
    have within := (tryRead_moved numbered asked attempt).1
    have first : Portion reached.pipes (.readExact endpoint taken
        ((byte :: bytes).length + (missing - (bytes.length + 1)))) (byte :: bytes)
        (.blocked ⟨_, .exitOf caller⟩) := .fills endpoint taken _ _ _
    have all : (byte :: bytes).length + (missing - (bytes.length + 1)) = missing :=
      Nat.add_sub_cancel' within
    rw [all] at first
    rw [readsExact_of_moved asked attempt, deliveredOn_tryRead attempt]
    exact first.trans further

/-- The reads of a call for a whole stream are a portion of it. -/
theorem portion_readToEnd (numbered : tables.pipes.Numbered) {taken : Bytes} {progress : Progress}
    (resumed : tables.readToEnd caller endpoint taken = (progress, after)) :
    Portion after.pipes (.readToEnd endpoint taken)
      (tables.pipes.deliveredOn endpoint (tables.readsToEnd caller endpoint)) progress := by
  -- Chunk after chunk, each is a portion of its own.
  fun_induction readToEnd tables caller endpoint taken with
  | case1 tables taken error reached attempt =>
    obtain ⟨rfl, rfl⟩ := Prod.mk.inj resumed
    exact .failed error (by simp)
  | case2 tables taken wait reached attempt =>
    obtain ⟨rfl, rfl⟩ := Prod.mk.inj resumed
    have whole : Portion reached.pipes (.readToEnd endpoint taken) []
        (.blocked ⟨.readToEnd endpoint (taken ++ []), wait⟩) := .drains endpoint taken [] wait
    rw [readsToEnd_of_rest attempt (by simp), deliveredOn_tryRead attempt]
    simpa [Attempt.moved?, PipeRegistry.deliveredOn] using whole
  | case3 tables taken reached attempt =>
    obtain ⟨rfl, rfl⟩ := Prod.mk.inj resumed
    have ended := (tryRead_moved numbered (by decide) attempt).2 rfl
    have whole : Portion reached.pipes (.readToEnd endpoint taken) []
        (.finished (.ok (.bytes (taken ++ [])))) := .drained taken [] ended
    rw [readsToEnd_of_rest attempt (by simp), deliveredOn_tryRead attempt]
    simpa [Attempt.moved?, PipeRegistry.deliveredOn] using whole
  | case4 tables taken byte bytes reached attempt ih =>
    have further := ih (numbered_tryRead numbered attempt) resumed
    have first : Portion reached.pipes (.readToEnd endpoint taken) (byte :: bytes)
        (.blocked ⟨_, .exitOf caller⟩) := .drains endpoint taken _ _
    rw [readsToEnd_of_moved attempt, deliveredOn_tryRead attempt]
    exact first.trans further

/-- The writes of a call to write everything are a portion of it. -/
theorem portion_writeAll {rest : Bytes} {progress : Progress}
    (resumed : tables.writeAll caller endpoint rest = (progress, after)) :
    Portion after.pipes (.writeAll endpoint rest)
      (tables.pipes.acceptedOn endpoint (tables.writesAll caller endpoint rest)) progress := by
  -- What one write did not take is the data of the next.
  fun_induction writeAll tables caller endpoint rest with
  | case1 tables =>
    obtain ⟨rfl, rfl⟩ := Prod.mk.inj resumed
    have whole : Portion tables.pipes (.writeAll endpoint []) [] _ := .sent endpoint []
    simpa [writesAll, PipeRegistry.acceptedOn] using whole
  | case2 tables rest offered error reached attempt =>
    obtain ⟨rfl, rfl⟩ := Prod.mk.inj resumed
    rw [writesAll_of_rest offered attempt (by simp), acceptedOn_tryWrite attempt]
    exact .failed error (by simp [Attempt.moved?, PipeRegistry.acceptedOn])
  | case3 tables rest offered wait reached attempt =>
    obtain ⟨rfl, rfl⟩ := Prod.mk.inj resumed
    have whole : Portion reached.pipes (.writeAll endpoint ([] ++ rest)) []
        (.blocked ⟨.writeAll endpoint rest, wait⟩) := .sends endpoint [] rest wait
    rw [writesAll_of_rest offered attempt (by simp), acceptedOn_tryWrite attempt]
    simpa [Attempt.moved?, PipeRegistry.acceptedOn] using whole
  | case4 tables rest offered count reached attempt ih =>
    have further := ih resumed
    have first : Portion reached.pipes (.writeAll endpoint (rest.take count ++ rest.drop count))
        (rest.take count) (.blocked ⟨_, .exitOf caller⟩) := .sends endpoint _ _ _
    rw [List.take_append_drop] at first
    rw [writesAll_of_moved offered attempt, acceptedOn_tryWrite attempt]
    exact first.trans further

/-- What an attempt at a loop moves is a portion of it. -/
theorem portion_resume (numbered : tables.pipes.Numbered) {call : Pending} {progress : Progress}
    (loops : call.Loops) (resumed : tables.resume caller call = (progress, after)) :
    Portion after.pipes call (call.moved tables.pipes (tables.attempts caller call)) progress := by
  cases call with
  | readExact endpoint taken missing => exact portion_readExact numbered resumed
  | readToEnd endpoint taken => exact portion_readToEnd numbered resumed
  | writeAll endpoint rest => exact portion_writeAll resumed
  | join | read | write => exact loops.elim

end Tables

end Progeny
