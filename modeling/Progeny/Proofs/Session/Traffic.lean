import Progeny.Proofs.Pipe.Directions
import Progeny.Proofs.Session.History
import Progeny.Proofs.Session.Replies

/-! The calls on pipes that a history of a session comes to. From them follows, end by end, which
bytes were accepted and delivered in it, and how often each end was signalled. -/

namespace Progeny

variable {π : Type}

namespace Tables

/-- The reads of a call for a number of bytes. -/
def readsExact (tables : Tables π) (caller : InstanceId) (endpoint : Endpoint) (missing : Nat) :
    List PipeCall :=
  if missing = 0 then []
  else
    .read caller endpoint missing ::
      match tables.tryRead caller endpoint missing with
      | (.moved (_ :: bytes), tables) =>
        tables.readsExact caller endpoint (missing - (bytes.length + 1))
      | _ => []
termination_by missing

/-- The reads of a call for a whole stream. -/
def readsToEnd (tables : Tables π) (caller : InstanceId) (endpoint : Endpoint) : List PipeCall :=
  .read caller endpoint chunkSize ::
    match _attempt : tables.tryRead caller endpoint chunkSize with
    | (.moved (_ :: _), tables) => tables.readsToEnd caller endpoint
    | _ => []
termination_by tables.pipes.queued endpoint
decreasing_by exact queued_tryRead_lt _attempt

/-- The writes of a call to write everything. -/
def writesAll (tables : Tables π) (caller : InstanceId) (endpoint : Endpoint) (rest : Bytes) :
    List PipeCall :=
  if _none : rest = [] then []
  else
    .write caller endpoint rest ::
      match _attempt : tables.tryWrite caller endpoint rest with
      | (.moved count, tables) => tables.writesAll caller endpoint (rest.drop count)
      | _ => []
termination_by rest.length
decreasing_by
  have := tryWrite_pos _none _attempt
  have := List.length_pos_iff.mpr _none
  simp only [List.length_drop]
  omega

/-- The calls on pipes that an attempt at a call makes. -/
def attempts (tables : Tables π) (caller : InstanceId) : Pending → List PipeCall
  | .join _ => []
  | .read endpoint limit => [.read caller endpoint limit]
  | .readExact endpoint _ missing => tables.readsExact caller endpoint missing
  | .readToEnd endpoint _ => tables.readsToEnd caller endpoint
  | .write endpoint data => [.write caller endpoint data]
  | .writeAll endpoint rest => tables.writesAll caller endpoint rest

/-- The calls on pipes that a request makes when it is put. A check for a gift is left out, since it
changes nothing. -/
def pipeCalls (tables : Tables π) (caller : InstanceId) : Request → List PipeCall
  | .pipe => [.create caller]
  | .spawn descriptor argv endpoints =>
    match (tables.spawn caller descriptor argv endpoints).1 with
    | .ok id => [.transfer endpoints id]
    | .error _ => []
  | .close endpoint => [.close caller endpoint]
  | .join target => tables.attempts caller (.join target)
  | .read endpoint limit => tables.attempts caller (.read endpoint limit)
  | .readExact endpoint count => tables.attempts caller (.readExact endpoint [] count)
  | .readToEnd endpoint => tables.attempts caller (.readToEnd endpoint [])
  | .write endpoint data => tables.attempts caller (.write endpoint data)
  | .writeAll endpoint data => tables.attempts caller (.writeAll endpoint data)

/-- Tables after some calls on their pipes: the pipes are what the calls make of them, and every
signal of the calls is counted. -/
structure Relays (tables : Tables π) (calls : List PipeCall) (after : Tables π) : Prop where
  pipes : after.pipes = tables.pipes.after calls
  signals : after.signals = tables.signals.addAll (tables.pipes.signalled calls)

variable {tables middle after : Tables π} {caller : InstanceId} {endpoint : Endpoint}
  {calls more : List PipeCall}

namespace Relays

/-- Where pipes and signals stay as they are, no call is made on them. -/
theorem none (pipes : after.pipes = tables.pipes) (signals : after.signals = tables.signals) :
    tables.Relays [] after :=
  ⟨pipes, signals⟩

/-- A single call. -/
theorem one {call : PipeCall} (pipes : after.pipes = call.run tables.pipes)
    (signals : after.signals = tables.signals.addAll (call.signals tables.pipes)) :
    tables.Relays [call] after :=
  ⟨pipes, by rw [signals, PipeRegistry.signalled, PipeRegistry.signalled, List.append_nil]⟩

/-- Some calls after others. -/
theorem trans (first : tables.Relays calls middle) (second : middle.Relays more after) :
    tables.Relays (calls ++ more) after where
  pipes := by
    rw [second.pipes, first.pipes]
    exact List.foldl_append.symm
  signals := by
    rw [second.signals, first.signals, first.pipes, PipeRegistry.signalled_append,
      SignalCounts.addAll_append]

end Relays

/-- An attempt to read makes a read. -/
theorem relays_tryRead (tables : Tables π) (caller : InstanceId) (endpoint : Endpoint)
    (limit : Nat) : tables.Relays [.read caller endpoint limit]
      (tables.tryRead caller endpoint limit).2 := by
  -- Who does not hold the endpoint would be refused the read as well, so nothing is left out.
  unfold tryRead PipeRegistry.readerWaitsOn
  cases outcome : tables.pipes.held caller endpoint with
  | error error =>
    have refused : tables.pipes.read caller endpoint limit =
        ⟨.error error, tables.pipes, []⟩ := by
      simp [PipeRegistry.read, outcome]
    refine .one ?_ ?_
    · rw [PipeCall.run, refused]
      rfl
    · rw [PipeCall.signals, refused]
      rfl
  | ok place =>
    simp only [Except.map]
    split <;> exact .one rfl rfl

/-- An attempt to write makes a write. -/
theorem relays_tryWrite (tables : Tables π) (caller : InstanceId) (endpoint : Endpoint)
    (data : Bytes) : tables.Relays [.write caller endpoint data]
      (tables.tryWrite caller endpoint data).2 := by
  -- The same holds of a write.
  unfold tryWrite PipeRegistry.writerWaitsOn
  cases outcome : tables.pipes.held caller endpoint with
  | error error =>
    have refused : tables.pipes.write caller endpoint data =
        ⟨.error error, tables.pipes, []⟩ := by
      simp [PipeRegistry.write, outcome]
    refine .one ?_ ?_
    · rw [PipeCall.run, refused]
      rfl
    · rw [PipeCall.signals, refused]
      rfl
  | ok place =>
    simp only [Except.map]
    split <;> exact .one rfl rfl

/-- An attempt to read leaves the pipes as a read does. -/
theorem pipes_tryRead (tables : Tables π) (caller : InstanceId) (endpoint : Endpoint)
    (limit : Nat) : (tables.tryRead caller endpoint limit).2.pipes =
      (tables.pipes.read caller endpoint limit).registry :=
  (tables.relays_tryRead caller endpoint limit).pipes

/-- An attempt to write leaves the pipes as a write does. -/
theorem pipes_tryWrite (tables : Tables π) (caller : InstanceId) (endpoint : Endpoint)
    (data : Bytes) : (tables.tryWrite caller endpoint data).2.pipes =
      (tables.pipes.write caller endpoint data).registry :=
  (tables.relays_tryWrite caller endpoint data).pipes

/-- A request that can wait makes the calls of its first attempt. -/
theorem pipeCalls_of_pending {request : Request} {pending : Pending}
    (begins : request.pending? = some pending) :
    tables.pipeCalls caller request = tables.attempts caller pending := by
  cases request with
  | pipe | spawn | close => simp [Request.pending?] at begins
  | join | read | readExact | readToEnd | write | writeAll =>
    obtain rfl := Option.some.inj begins
    rfl

/-- Where an attempt moved no bytes, a call for some number of them has made one read. -/
theorem readsExact_of_rest {missing : Nat} {attempt : Attempt Bytes} (asked : missing ≠ 0)
    (outcome : tables.tryRead caller endpoint missing = (attempt, after))
    (rests : ∀ byte bytes, attempt ≠ .moved (byte :: bytes)) :
    tables.readsExact caller endpoint missing = [.read caller endpoint missing] := by
  rw [readsExact, if_neg asked, outcome]
  split
  · rename_i same
    exact absurd (congrArg Prod.fst same) (rests _ _)
  · rfl

/-- Where an attempt moved some bytes, the call goes on with those that are missing. -/
theorem readsExact_of_moved {missing : Nat} {byte : UInt8} {bytes : Bytes} (asked : missing ≠ 0)
    (outcome : tables.tryRead caller endpoint missing = (.moved (byte :: bytes), after)) :
    tables.readsExact caller endpoint missing = .read caller endpoint missing ::
      after.readsExact caller endpoint (missing - (bytes.length + 1)) := by
  rw [readsExact, if_neg asked, outcome]

/-- Where an attempt moved no bytes, a call for a whole stream has made one read. -/
theorem readsToEnd_of_rest {attempt : Attempt Bytes}
    (outcome : tables.tryRead caller endpoint chunkSize = (attempt, after))
    (rests : ∀ byte bytes, attempt ≠ .moved (byte :: bytes)) :
    tables.readsToEnd caller endpoint = [.read caller endpoint chunkSize] := by
  rw [readsToEnd]
  split
  · rename_i byte bytes reached same
    exact absurd (congrArg Prod.fst (outcome.symm.trans same)) (rests byte bytes)
  · rfl

/-- Where an attempt moved some bytes, the call goes on. -/
theorem readsToEnd_of_moved {byte : UInt8} {bytes : Bytes}
    (outcome : tables.tryRead caller endpoint chunkSize = (.moved (byte :: bytes), after)) :
    tables.readsToEnd caller endpoint =
      .read caller endpoint chunkSize :: after.readsToEnd caller endpoint := by
  rw [readsToEnd]
  split
  · rename_i same
    obtain ⟨-, rfl⟩ := Prod.mk.inj (outcome.symm.trans same)
    rfl
  · rename_i other
    exact absurd outcome (other _ _ _)

/-- Where an attempt moved nothing, a call to write everything has made one write. -/
theorem writesAll_of_rest {rest : Bytes} {attempt : Attempt Nat} (offered : rest ≠ [])
    (outcome : tables.tryWrite caller endpoint rest = (attempt, after))
    (rests : ∀ count, attempt ≠ .moved count) :
    tables.writesAll caller endpoint rest = [.write caller endpoint rest] := by
  rw [writesAll, dif_neg offered]
  split
  · rename_i count reached same
    exact absurd (congrArg Prod.fst (outcome.symm.trans same)) (rests count)
  · rfl

/-- Where an attempt moved some bytes, the call goes on with the others. -/
theorem writesAll_of_moved {rest : Bytes} {count : Nat} (offered : rest ≠ [])
    (outcome : tables.tryWrite caller endpoint rest = (.moved count, after)) :
    tables.writesAll caller endpoint rest =
      .write caller endpoint rest :: after.writesAll caller endpoint (rest.drop count) := by
  rw [writesAll, dif_neg offered]
  split
  · rename_i same
    obtain ⟨moved, rfl⟩ := Prod.mk.inj (outcome.symm.trans same)
    rw [Attempt.moved.inj moved]
  · rename_i other
    exact absurd outcome (other _ _)

/-- A call for a number of bytes makes its reads. -/
theorem relays_readExact (tables : Tables π) (caller : InstanceId) (endpoint : Endpoint)
    (taken : Bytes) (missing : Nat) : tables.Relays (tables.readsExact caller endpoint missing)
      (tables.readExact caller endpoint taken missing).2 := by
  -- The loop ends with its first read or goes on after it, and so does the list of its reads.
  fun_induction readExact tables caller endpoint taken missing with
  | case1 =>
    rw [readsExact, if_pos rfl]
    exact .none rfl rfl
  | case2 tables taken missing asked error after attempt
  | case3 tables taken missing asked wait after attempt
  | case4 tables taken missing asked after attempt =>
    have first := tables.relays_tryRead caller endpoint missing
    rw [attempt] at first
    rwa [readsExact_of_rest asked attempt (by simp)]
  | case5 tables taken missing asked byte bytes after attempt ih =>
    have first := tables.relays_tryRead caller endpoint missing
    rw [attempt] at first
    rw [readsExact_of_moved asked attempt]
    exact first.trans ih

/-- A call for a whole stream makes its reads. -/
theorem relays_readToEnd (tables : Tables π) (caller : InstanceId) (endpoint : Endpoint)
    (taken : Bytes) : tables.Relays (tables.readsToEnd caller endpoint)
      (tables.readToEnd caller endpoint taken).2 := by
  -- Every attempt is a read, and only one that moved some bytes is followed by another.
  fun_induction readToEnd tables caller endpoint taken with
  | case1 tables taken error after attempt
  | case2 tables taken wait after attempt
  | case3 tables taken after attempt =>
    have first := tables.relays_tryRead caller endpoint chunkSize
    rw [attempt] at first
    rwa [readsToEnd_of_rest attempt (by simp)]
  | case4 tables taken byte bytes after attempt ih =>
    have first := tables.relays_tryRead caller endpoint chunkSize
    rw [attempt] at first
    rw [readsToEnd_of_moved attempt]
    exact first.trans ih

/-- A call to write everything makes its writes. -/
theorem relays_writeAll (tables : Tables π) (caller : InstanceId) (endpoint : Endpoint)
    (rest : Bytes) : tables.Relays (tables.writesAll caller endpoint rest)
      (tables.writeAll caller endpoint rest).2 := by
  -- What an attempt did not take is left to those that follow it.
  fun_induction writeAll tables caller endpoint rest with
  | case1 =>
    rw [writesAll, dif_pos rfl]
    exact .none rfl rfl
  | case2 tables rest offered error after attempt
  | case3 tables rest offered wait after attempt =>
    have first := tables.relays_tryWrite caller endpoint rest
    rw [attempt] at first
    rwa [writesAll_of_rest offered attempt (by simp)]
  | case4 tables rest offered count after attempt ih =>
    have first := tables.relays_tryWrite caller endpoint rest
    rw [attempt] at first
    rw [writesAll_of_moved offered attempt]
    exact first.trans ih

/-- An attempt at a call makes its calls on the pipes. -/
theorem relays_resume (tables : Tables π) (caller : InstanceId) (pending : Pending) :
    tables.Relays (tables.attempts caller pending) (tables.resume caller pending).2 := by
  cases pending with
  | join target =>
    simp only [resume, join]
    split
    · exact .none rfl rfl
    split
    · exact .none rfl rfl
    split <;> exact .none rfl rfl
  | readExact endpoint taken missing => exact tables.relays_readExact caller endpoint taken missing
  | readToEnd endpoint taken => exact tables.relays_readToEnd caller endpoint taken
  | writeAll endpoint rest => exact tables.relays_writeAll caller endpoint rest
  | read endpoint limit =>
    have first := tables.relays_tryRead caller endpoint limit
    simp only [resume]
    split <;> simp_all [attempts]
  | write endpoint data =>
    have first := tables.relays_tryWrite caller endpoint data
    simp only [resume]
    split <;> simp_all [attempts]

/-- A request makes its calls on the pipes. -/
theorem relays_perform (tables : Tables π) (caller : InstanceId) (request : Request) :
    tables.Relays (tables.pipeCalls caller request) (tables.perform caller request).2 := by
  cases begins : request.pending? with
  | some pending =>
    rw [perform_of_pending begins, pipeCalls_of_pending begins]
    exact tables.relays_resume caller pending
  | none =>
    cases request with
    | join | read | readExact | readToEnd | write | writeAll => simp [Request.pending?] at begins
    | pipe =>
      simp only [perform, replyWith, createPipe]
      split <;> exact .one rfl rfl
    | close endpoint =>
      simp only [perform, replyWith, closeEndpoint]
      split <;> exact .one rfl rfl
    | spawn descriptor argv endpoints =>
      -- Whether the gift is made shows in the answer.
      simp only [perform, replyWith, pipeCalls]
      unfold spawn
      cases tables.load descriptor with
      | error error => exact .none rfl rfl
      | ok program =>
        cases tables.pipes.checkTransfer caller endpoints with
        | error error => exact .none rfl rfl
        | ok passed =>
          cases tables.instances.allocate caller with
          | error denial =>
            cases denial with
            | denied | fatal => exact .none rfl rfl
          | ok place => exact .one rfl rfl

/-- The calls on pipes that the end of an instance makes: it closes whatever the instance holds,
unless no such instance runs. -/
def exitCalls (tables : Tables π) (id : InstanceId) (result : Except String Int8) :
    List PipeCall :=
  match tables.instances.markExited id (ending result).1 (ending result).2 with
  | .ok _ => [.closeOwnedBy id]
  | .error _ => []

/-- The end of an instance makes its calls on the pipes. -/
theorem relays_exit (tables : Tables π) (id : InstanceId) (result : Except String Int8) :
    tables.Relays (tables.exitCalls id result) (tables.exit id result) := by
  -- The endpoints are closed if the record can be marked, whatever is recorded in it.
  cases result with
  | ok code =>
    simp only [exit, exitCalls, ending]
    cases tables.instances.markExited id code none with
    | error violation => exact .none rfl rfl
    | ok instances =>
      simp only [reportClosed_eq]
      exact .one rfl rfl
  | error message =>
    simp only [exit, exitCalls, ending]
    cases tables.instances.markExited id faultCode (some message) with
    | error violation => exact .none rfl rfl
    | ok instances =>
      simp only [reportClosed_eq]
      exact .one rfl rfl

/-- To tear down what is left is to close what each of the instances holds. -/
theorem relays_foldl_teardown (ids : List InstanceId) (tables : Tables π) :
    tables.Relays (ids.map .closeOwnedBy) (ids.foldl teardown tables) := by
  -- One instance after another closes all that it holds.
  induction ids generalizing tables with
  | nil => exact .none rfl rfl
  | cons id rest ih =>
    have first : tables.Relays [.closeOwnedBy id] (tables.teardown id) := by
      rw [teardown_eq]
      exact .one rfl rfl
    exact first.trans (ih (tables.teardown id))

end Tables

namespace Session

/-- What a deed makes of the tables. -/
def Deed.tables (tables : Tables π) : Deed π → Tables π
  | .boots descriptor argv _ => (tables.boot descriptor argv).2
  | .starts _ => { tables with launches := tables.launches.tail }
  | .calls caller request _ => (tables.perform caller request).2
  | .resumes caller pending _ => (tables.resume caller pending).2
  | .ends id result => tables.exit id result
  | .finishes _ =>
    { tables.instances.running.foldl Tables.teardown tables with launches := [] }
  | .polls _ | .stirs | .rests _ => tables

/-- The calls on pipes that a deed makes. -/
def Deed.pipeCalls (tables : Tables π) : Deed π → List PipeCall
  | .calls caller request _ => tables.pipeCalls caller request
  | .resumes caller pending _ => tables.attempts caller pending
  | .ends id result => tables.exitCalls id result
  | .finishes _ => tables.instances.running.map .closeOwnedBy
  | .boots .. | .starts _ | .polls _ | .stirs | .rests _ => []

/-- What some deeds make of the tables. -/
def tablesAfter (tables : Tables π) (deeds : List (Deed π)) : Tables π :=
  deeds.foldl Deed.tables tables

/-- The calls on pipes that some deeds make. -/
def traffic (tables : Tables π) : List (Deed π) → List PipeCall
  | [] => []
  | deed :: rest => deed.pipeCalls tables ++ traffic (deed.tables tables) rest

/-- The bytes that were accepted on an endpoint in the course of some deeds. -/
def accepted (tables : Tables π) (endpoint : Endpoint) (deeds : List (Deed π)) : Bytes :=
  tables.pipes.acceptedOn endpoint (traffic tables deeds)

/-- The bytes that were delivered from an endpoint in the course of some deeds. -/
def delivered (tables : Tables π) (endpoint : Endpoint) (deeds : List (Deed π)) : Bytes :=
  tables.pipes.deliveredOn endpoint (traffic tables deeds)

/-- All that happened to a session since some tables were made for it. -/
def HistoryFrom {β σ : Type} (behaviour : Behaviour π β σ) (discipline : Discipline)
    (tables : Tables π) (deeds : List (Deed π)) (session : Session π β σ) : Prop :=
  ∃ config load keepsEvents shared, Tables.new config load keepsEvents = .ok tables ∧
    Course behaviour discipline [] (.ofTables tables shared) deeds session

variable {tables : Tables π} {endpoint : Endpoint} {deeds more : List (Deed π)} {deed : Deed π}

@[simp] theorem tablesAfter_append :
    tablesAfter tables (deeds ++ more) = tablesAfter (tablesAfter tables deeds) more :=
  List.foldl_append

@[simp] theorem tablesAfter_singleton : tablesAfter tables [deed] = deed.tables tables :=
  rfl

/-- A deed makes its calls on the pipes. -/
theorem Deed.relays (deed : Deed π) (tables : Tables π) :
    tables.Relays (deed.pipeCalls tables) (deed.tables tables) := by
  -- Deeds that make no calls leave both the pipes and the signals alone.
  cases deed with
  | boots descriptor argv =>
    simp only [Deed.tables, Tables.boot]
    split
    · exact .none rfl rfl
    split <;> exact .none rfl rfl
  | calls caller request => exact tables.relays_perform caller request
  | resumes caller pending => exact tables.relays_resume caller pending
  | ends id result => exact tables.relays_exit id result
  | finishes =>
    have torn := tables.relays_foldl_teardown tables.instances.running
    exact ⟨torn.pipes, torn.signals⟩
  | starts | polls | stirs | rests => exact .none rfl rfl

/-- A deed leaves the pipes as its calls on them do. -/
theorem Deed.pipes_tables (deed : Deed π) (tables : Tables π) :
    (deed.tables tables).pipes = tables.pipes.after (deed.pipeCalls tables) :=
  (deed.relays tables).pipes

/-- Deeds in a row make their calls in a row. -/
theorem traffic_append : traffic tables (deeds ++ more) =
    traffic tables deeds ++ traffic (tablesAfter tables deeds) more := by
  induction deeds generalizing tables with
  | nil => rfl
  | cons deed rest ih => simp [traffic, ih, tablesAfter]

/-- Deeds in a row make all their calls on the pipes. -/
theorem relays_tablesAfter (tables : Tables π) (deeds : List (Deed π)) :
    tables.Relays (traffic tables deeds) (tablesAfter tables deeds) := by
  -- The later deeds begin where the first one ends, and so do their calls.
  induction deeds generalizing tables with
  | nil => exact .none rfl rfl
  | cons deed rest ih => exact (deed.relays tables).trans (ih (deed.tables tables))

/-- Deeds leave the pipes as their calls on them do. -/
theorem pipes_tablesAfter : (tablesAfter tables deeds).pipes =
    tables.pipes.after (traffic tables deeds) :=
  (relays_tablesAfter tables deeds).pipes

/-- What deeds in a row have accepted. -/
theorem accepted_append : accepted tables endpoint (deeds ++ more) =
    accepted tables endpoint deeds ++ accepted (tablesAfter tables deeds) endpoint more := by
  rw [accepted, traffic_append, PipeRegistry.acceptedOn_append, ← pipes_tablesAfter]
  rfl

/-- What deeds in a row have delivered. -/
theorem delivered_append : delivered tables endpoint (deeds ++ more) =
    delivered tables endpoint deeds ++ delivered (tablesAfter tables deeds) endpoint more := by
  rw [delivered, traffic_append, PipeRegistry.deliveredOn_append, ← pipes_tablesAfter]
  rfl

variable {β σ : Type} {behaviour : Behaviour π β σ} {discipline : Discipline}
  {session after : Session π β σ}

/-- What a deed makes of a session in order it makes of its tables. -/
theorem Step.tables_eq {polled : Option InstanceId} (steady : Steady polled session)
    (step : Step behaviour discipline polled session deed after) :
    after.tables = deed.tables session.tables := by
  cases step with
  | boots idle descriptor argv =>
    unfold Session.boot
    split <;> simp_all [Deed.tables]
  | starts idle ongoing oldest =>
    rw [start_eq]
    simp [Deed.tables, oldest]
  | calls permitted performed => simp [Deed.tables, performed]
  | resumes permitted resumed => simp [Deed.tables, resumed]
  | polls | stirs | rests | ends => rfl
  | finishes idle ongoing booted exited =>
    -- Whoever runs was started, or is to be started.
    simp only [finish, Deed.tables, steady.orderly.population ongoing]

/-- The same for a course of deeds. -/
theorem History.tables_course (history : History behaviour discipline deeds session)
    (course : Course behaviour discipline deeds session more after) :
    after.tables = tablesAfter session.tables more := by
  induction course with
  | here => rfl
  | further course step ih =>
    rw [step.tables_eq (history.course course).steady, ih, tablesAfter_append,
      tablesAfter_singleton]

namespace HistoryFrom

variable (history : HistoryFrom behaviour discipline tables deeds session)
include history

/-- It is a history. -/
theorem toHistory : History behaviour discipline deeds session := by
  obtain ⟨config, load, keepsEvents, shared, valid, course⟩ := history
  exact ⟨config, load, keepsEvents, tables, shared, valid, course⟩

/-- The tables are what the deeds made of those that were made first. -/
theorem tables_eq : session.tables = tablesAfter tables deeds := by
  obtain ⟨config, load, keepsEvents, shared, valid, course⟩ := history
  have opened : History behaviour discipline [] (ofTables tables shared) :=
    ⟨config, load, keepsEvents, tables, shared, valid, .here⟩
  exact opened.tables_course course

/-- The pipes carry the bytes that were accepted and not yet delivered. -/
theorem balanced : session.tables.pipes.Balanced (fun endpoint => accepted tables endpoint deeds)
    fun endpoint => delivered tables endpoint deeds := by
  have same := history.tables_eq
  obtain ⟨config, load, keepsEvents, shared, valid, -⟩ := history
  rw [same, pipes_tablesAfter]
  obtain rfl := new_eq valid
  exact PipeRegistry.balanced_after config.pipeCapacity config.maxEndpoints _

/-- What came first is such a history as well. -/
theorem before {earlier later : List (Deed π)} (same : deeds = earlier ++ later) :
    ∃ before, HistoryFrom behaviour discipline tables earlier before := by
  subst same
  cases later with
  | nil => exact ⟨session, by simpa using history⟩
  | cons deed rest =>
    obtain ⟨config, load, keepsEvents, shared, valid, course⟩ := history
    obtain ⟨before, next, first, -⟩ := course.split
    exact ⟨before, config, load, keepsEvents, shared, valid, first⟩

/-- Such a history ends with its last deed. -/
theorem last {earlier : List (Deed π)} (same : deeds = earlier ++ [deed]) :
    ∃ before, HistoryFrom behaviour discipline tables earlier before ∧
      Step behaviour discipline (polling earlier) before deed session := by
  subst same
  obtain ⟨config, load, keepsEvents, shared, valid, course⟩ := history
  obtain ⟨before, first, step⟩ := course.last
  exact ⟨before, ⟨config, load, keepsEvents, shared, valid, first⟩, by simpa using step⟩

end HistoryFrom

end Session

end Progeny
