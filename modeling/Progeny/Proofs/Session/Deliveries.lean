import Progeny.Proofs.Session.Attempts
import Progeny.Proofs.Session.Conduct
import Progeny.Proofs.Session.Flows
import Progeny.Proofs.Session.Waiting

/-! Calls that are loops are exact, whatever others do between their steps: what was written is the
data, what was read are the next bytes of the stream, and all of them at its end. So whatever an
instance sends through a pipe and then closes is what the reader of the other end is given. -/

namespace Progeny

variable {π β σ : Type}

namespace PipeRegistry

variable {registry : PipeRegistry} {endpoint peer : Endpoint}

/-- Nothing is accepted on a closed end. -/
theorem IsShut.acceptedOn_eq_nil (shut : registry.IsShut endpoint) (numbered : registry.Numbered)
    (calls : List PipeCall) : registry.acceptedOn endpoint calls = [] := by
  -- Only the holder of an open end may write, and call after call the end stays shut.
  induction calls generalizing registry with
  | nil => rfl
  | cons call rest ih =>
    have first : call.accepted registry endpoint = [] := by
      obtain ⟨pipe, found, closed⟩ := shut
      cases call with
      | write caller target data =>
        simp only [PipeCall.accepted]
        split
        · rename_i same
          subst same
          have outcome := numbered.write_case caller target data
          generalize registry.write caller target data = served at outcome
          cases outcome with
          | puts holds =>
            obtain rfl := Option.some.inj (found.symm.trans holds.found)
            simp [holds.opened] at closed
          | _ => simp
        · rfl
      | _ => rfl
    rw [acceptedOn, first, ih (shut.run numbered call) (numbered.run call).1]
    rfl

/-- The endpoint across of an end whose peer is closed is that of a closed end. -/
theorem Numbered.isShut_peer (numbered : registry.Numbered) {pipe : Pipe}
    (found : registry.pipes[endpoint.index]? = some pipe)
    (gone : (pipe.on endpoint.side.peer).isOpen = false) :
    ∃ peer, endpoint.peer? = some peer ∧ registry.IsShut peer := by
  have across := numbered.peer?_of_found found
  have place := Endpoint.place_of_peer? across
  refine ⟨_, across, pipe, ?_, ?_⟩
  · rw [place.1, found]
  · rw [place.2, gone]

namespace Balanced

variable {accepted delivered : Endpoint → Bytes} (balanced : registry.Balanced accepted delivered)
include balanced

/-- What was read from an end is the front of what was written across. -/
theorem isPrefix (across : endpoint.peer? = some peer) :
    delivered endpoint <+: accepted peer := by
  cases found : registry.pipes[endpoint.index]? with
  | none => simp [(balanced.untouched endpoint found).2]
  | some pipe =>
    have same := (balanced.numbered.peer?_of_found found).symm.trans across
    have carried := (balanced.carries found endpoint.side).isPrefix
    rwa [balanced.numbered.endpoint_of_found found, Option.some.inj same] at carried

/-- At the end of a stream its writer has closed, and all that was written has been read. -/
theorem of_atEnd (ended : registry.AtEnd endpoint) : ∃ peer, endpoint.peer? = some peer ∧
    registry.IsShut peer ∧ delivered endpoint = accepted peer := by
  obtain ⟨pipe, found, opened, empty, gone⟩ := ended
  obtain ⟨peer, across, shut⟩ := balanced.numbered.isShut_peer found gone
  have same := (balanced.numbered.peer?_of_found found).symm.trans across
  have carried := (balanced.carries found endpoint.side).of_open opened
  rw [balanced.numbered.endpoint_of_found found, empty, List.append_nil,
    Option.some.inj same] at carried
  exact ⟨peer, across, shut, carried.symm⟩

end Balanced

end PipeRegistry

namespace Session

/-- An instance sends messages through an end of its own, one call after another, and then closes
it. Meanwhile others do what they like, and the instance itself whatever leaves the end alone. -/
inductive Sends (sender : InstanceId) (source : Endpoint) :
    List Bytes → Bool → List (Deed π) → Prop where
  | begins : Sends sender source [] false []
  | aside {messages : List Bytes} {closed : Bool} {deeds : List (Deed π)} {deed : Deed π}
      (sends : Sends sender source messages closed deeds)
      (apart : closed = true ∨ ¬deed.Affects sender source) :
    Sends sender source messages closed (deeds ++ [deed])
  | sends {messages : List Bytes} {message : Bytes} {deeds during : List (Deed π)}
      (sends : Sends sender source messages false deeds)
      (span : CallSpan sender (.writeAll source message) during (.finished (.ok .done))) :
    Sends sender source (messages ++ [message]) false (deeds ++ during)
  | closes {messages : List Bytes} {deeds : List (Deed π)}
      (sends : Sends sender source messages false deeds) :
    Sends sender source messages true
      (deeds ++ [.calls sender (.close source) (.finished (.ok .done))])

/-- A deed that asks for a whole stream, at first or once more. -/
inductive Deed.Drains (reader : InstanceId) (endpoint : Endpoint) (progress : Progress) :
    Deed π → Prop where
  | calls : Drains reader endpoint progress (.calls reader (.readToEnd endpoint) progress)
  | resumes (taken : Bytes) :
    Drains reader endpoint progress (.resumes reader (.readToEnd endpoint taken) progress)

/-- Calls that are loops are exact in all that happened since some tables were made. -/
structure LoopsExact (tables : Tables π) (deeds : List (Deed π)) : Prop where
  /-- A call to write everything has written exactly its data, or a front of it if it failed. -/
  written : ∀ earlier during later, deeds = earlier ++ during ++ later →
    ∀ id endpoint data reply, CallSpan id (.writeAll endpoint data) during (.finished reply) →
    ∃ part, accepted tables endpoint (earlier ++ during) =
        accepted tables endpoint earlier ++ part ∧
      (reply = .ok .done ∧ part = data ∨ ∃ error, reply = .error error ∧ part <+: data)
  /-- A call for a number of bytes returns the next ones of the stream, and fewer only at the end of
  the stream. -/
  read : ∀ earlier during later, deeds = earlier ++ during ++ later →
    ∀ id endpoint count value,
    CallSpan id (.readExact endpoint count) during (.finished (.ok value)) →
    ∃ bytes, value = .bytes bytes ∧ bytes.length ≤ count ∧
      delivered tables endpoint (earlier ++ during) = delivered tables endpoint earlier ++ bytes ∧
      (∀ peer, endpoint.peer? = some peer →
        delivered tables endpoint earlier ++ bytes <+: accepted tables peer (earlier ++ during)) ∧
      (bytes.length < count → ∃ peer, endpoint.peer? = some peer ∧
        (tablesAfter tables (earlier ++ during)).pipes.IsShut peer ∧
        delivered tables endpoint (earlier ++ during) = accepted tables peer (earlier ++ during))
  /-- A call for a whole stream returns all that was not yet read, and only once the peer is
  closed. -/
  drained : ∀ earlier during later, deeds = earlier ++ during ++ later →
    ∀ id endpoint value, CallSpan id (.readToEnd endpoint) during (.finished (.ok value)) →
    ∃ bytes peer, value = .bytes bytes ∧ endpoint.peer? = some peer ∧
      (tablesAfter tables (earlier ++ during)).pipes.IsShut peer ∧
      delivered tables endpoint (earlier ++ during) = delivered tables endpoint earlier ++ bytes ∧
      delivered tables endpoint earlier ++ bytes = accepted tables peer (earlier ++ during)
  /-- Asking for a whole stream fails for nobody who holds its end, and once the peer is closed it
  is answered. -/
  answered : ∀ earlier deed later, deeds = earlier ++ deed :: later →
    ∀ reader endpoint progress, deed.Drains reader endpoint progress →
    ∀ pipe, (tablesAfter tables earlier).pipes.Holds reader endpoint pipe →
      (∀ error, progress ≠ .finished (.error error)) ∧
      ((pipe.on endpoint.side.peer).isOpen = false →
        ∃ bytes, progress = .finished (.ok (.bytes bytes)))
  /-- What is sent through a fresh pipe that is closed then is what its reader is given, if nothing
  was read before. -/
  delivered : ∀ opening sent, deeds = opening ++ sent → ∀ sender source sink messages,
    source.peer? = some sink → accepted tables source opening = [] →
    (∃ pipe, (tablesAfter tables opening).pipes.Holds sender source pipe) →
    Sends sender source messages true sent →
    ∀ earlier during later, deeds = earlier ++ during ++ later →
      delivered tables sink earlier = [] → ∀ receiver value,
      CallSpan receiver (.readToEnd sink) during (.finished (.ok value)) →
      value = .bytes messages.flatten

/-- Whoever waits for the end of a stream is served once the writer has closed. -/
def DrainersServed (behaviour : Behaviour π β σ) (session : Session π β σ) : Prop :=
  ∀ task ∈ session.tasks, ∀ endpoint taken wait,
    task.blocked = some ⟨.readToEnd endpoint taken, wait⟩ →
    ∃ pipe, session.tables.pipes.Holds task.id endpoint pipe ∧
      ((pipe.on endpoint.side.peer).isOpen = false → task.id ∈ session.ready ∧
        ∃ bytes tables, ∀ result, Proceeds behaviour task (session.counted task.id) result ↔
          Acts behaviour task.id task.state (.reply (.ok (.bytes bytes)))
            { session.counted task.id with tables := tables } result)

variable {behaviour : Behaviour π β σ} {tables : Tables π} {session : Session π β σ}
  {earlier during : List (Deed π)} {id : InstanceId} {endpoint : Endpoint}

namespace HistoryFrom

variable (history : HistoryFrom behaviour .confined tables (earlier ++ during) session)
include history

/-- What a call to write everything has written when it ends. -/
theorem written {data : Bytes} {reply : Reply}
    (span : CallSpan id (.writeAll endpoint data) during (.finished reply)) :
    ∃ part, accepted tables endpoint (earlier ++ during) =
        accepted tables endpoint earlier ++ part ∧
      (reply = .ok .done ∧ part = data ∨ ∃ error, reply = .error error ∧ part <+: data) := by
  obtain ⟨portion, -⟩ := history.portion span rfl trivial (by simp)
  refine ⟨_, accepted_append, ?_⟩
  change Portion _ (.writeAll endpoint data) (accepted (tablesAfter tables earlier) endpoint during)
    _ at portion
  generalize accepted (tablesAfter tables earlier) endpoint during = part at portion
  cases portion with
  | sent => exact .inl ⟨rfl, rfl⟩
  | failed error front => exact .inr ⟨error, rfl, front _ _ rfl⟩

/-- What a call for a number of bytes has read when it succeeds. -/
theorem read {count : Nat} {value : Value}
    (span : CallSpan id (.readExact endpoint count) during (.finished (.ok value))) :
    ∃ bytes, value = .bytes bytes ∧ bytes.length ≤ count ∧
      delivered tables endpoint (earlier ++ during) = delivered tables endpoint earlier ++ bytes ∧
      (bytes.length < count → session.tables.pipes.AtEnd endpoint) := by
  obtain ⟨portion, -⟩ := history.portion span rfl trivial (by simp)
  rw [delivered_append]
  change Portion _ (.readExact endpoint [] count)
    (delivered (tablesAfter tables earlier) endpoint during) _ at portion
  generalize delivered (tablesAfter tables earlier) endpoint during = part at portion
  cases portion with
  | filled _ within short => exact ⟨part, rfl, within, rfl, short⟩

/-- What a call for a whole stream has read when it succeeds. -/
theorem drained {value : Value}
    (span : CallSpan id (.readToEnd endpoint) during (.finished (.ok value))) :
    ∃ bytes peer, value = .bytes bytes ∧ endpoint.peer? = some peer ∧
      session.tables.pipes.IsShut peer ∧
      delivered tables endpoint (earlier ++ during) = delivered tables endpoint earlier ++ bytes ∧
      delivered tables endpoint earlier ++ bytes = accepted tables peer (earlier ++ during) := by
  obtain ⟨portion, -⟩ := history.portion span rfl trivial (by simp)
  have grown : delivered tables endpoint (earlier ++ during) = _ := delivered_append
  change Portion _ (.readToEnd endpoint [])
    (delivered (tablesAfter tables earlier) endpoint during) _ at portion
  generalize delivered (tablesAfter tables earlier) endpoint during = part at portion grown
  cases portion with
  | drained _ _ ended =>
    obtain ⟨peer, across, shut, all⟩ := history.balanced.of_atEnd ended
    exact ⟨part, peer, rfl, across, shut, grown, grown.symm.trans all⟩

end HistoryFrom

end Session

namespace Tables

variable {tables after : Tables π} {caller : InstanceId} {endpoint : Endpoint}

/-- Asking for a whole stream fails for nobody who holds its end, and where the peer is closed it is
answered. -/
theorem readToEnd_answers (numbered : tables.pipes.Numbered)
    (there : ⟨endpoint, caller, true⟩ ∈ tables.pipes.holdings) {taken : Bytes}
    {progress : Progress}
    (resumed : tables.readToEnd caller endpoint taken = (progress, after)) :
    (∀ error, progress ≠ .finished (.error error)) ∧ ∀ peer, endpoint.peer? = some peer →
      tables.pipes.IsShut peer → ∃ bytes, progress = .finished (.ok (.bytes bytes)) := by
  -- Chunk after chunk the caller still holds the end, and what was closed stays closed.
  fun_induction readToEnd tables caller endpoint taken with
  | case1 tables taken error reached attempt =>
    obtain ⟨pipe, holds⟩ := numbered.holds_iff.mpr there
    have outcome := readOutcome numbered holds (by decide : chunkSize ≠ 0)
    rw [attempt] at outcome
    cases outcome
  | case2 tables taken wait reached attempt =>
    obtain ⟨rfl, -⟩ := Prod.mk.inj resumed
    refine ⟨by simp, fun peer across shut => ?_⟩
    obtain ⟨pipe, found, closed⟩ := shut
    obtain ⟨-, own, side, held, -, -, expected, -⟩ := tryRead_eq_wait.mp attempt
    obtain ⟨holds, rfl⟩ := numbered.held_iff.mp held
    have place := Endpoint.place_of_peer? across
    rw [place.1, holds.found] at found
    obtain rfl := Option.some.inj found
    rw [place.2, expected] at closed
    simp at closed
  | case3 tables taken reached attempt =>
    obtain ⟨rfl, -⟩ := Prod.mk.inj resumed
    exact ⟨by simp, fun _ _ _ => ⟨taken, rfl⟩⟩
  | case4 tables taken byte bytes reached attempt ih =>
    have same := tables.pipes_tryRead caller endpoint chunkSize
    rw [attempt] at same
    dsimp only at same
    have kept := (numbered.read_case caller endpoint chunkSize).holdings
    rw [← same] at kept
    obtain ⟨answered, served⟩ := ih (numbered_tryRead numbered attempt) (kept ▸ there) resumed
    refine ⟨answered, fun peer across shut => served peer across ?_⟩
    rw [same]
    exact shut.run numbered (.read caller endpoint chunkSize)

end Tables

namespace Session

variable {behaviour : Behaviour π β σ} {tables : Tables π} {session : Session π β σ}
  {deeds : List (Deed π)} {id : InstanceId} {endpoint : Endpoint}

/-- Through a closed end no deed writes anything. -/
theorem accepted_of_isShut (numbered : tables.pipes.Numbered)
    (shut : tables.pipes.IsShut endpoint) (more : List (Deed π)) :
    accepted tables endpoint more = [] :=
  shut.acceptedOn_eq_nil numbered _

/-- Whoever closes an end of its own leaves it closed. -/
theorem Step.shuts {polled : Option InstanceId} {discipline : Discipline}
    {after : Session π β σ} {holder : InstanceId} (steady : Steady polled session)
    (step : Step behaviour discipline polled session
      (.calls holder (.close endpoint) (.finished (.ok .done))) after)
    (there : ⟨endpoint, holder, true⟩ ∈ session.tables.pipes.holdings) :
    after.tables.pipes.IsShut endpoint := by
  -- Of all that can become of an end in one deed, only its closing fits this one.
  have numbered := (step.steady steady).orderly.sound.numbered
  obtain ⟨later, still, fate⟩ := (step.rearranges steady).fate there
  cases fate with
  | remains _ again => simpa using (again holder rfl).2
  | passes _ hands =>
    obtain ⟨_, _, _, -, same⟩ := hands
    simp at same
  | closes => exact numbered.isShut_iff.mpr ⟨holder, still⟩

/-- What an instance has sent is what was accepted on its end, which is its own until it is
closed. -/
theorem HistoryFrom.sends {opening sent : List (Deed π)} {sender : InstanceId}
    {source : Endpoint} {messages : List Bytes} {closed : Bool}
    (history : HistoryFrom behaviour .confined tables (opening ++ sent) session)
    (sends : Sends sender source messages closed sent)
    (there : ⟨source, sender, true⟩ ∈ (tablesAfter tables opening).pipes.holdings) :
    accepted (tablesAfter tables opening) source sent = messages.flatten ∧
      if closed then session.tables.pipes.IsShut source
      else ⟨source, sender, true⟩ ∈ session.tables.pipes.holdings := by
  -- Each call adds its message, and nothing else is added as long as the end is the sender's.
  induction sends generalizing session with
  | begins =>
    rw [List.append_nil] at history
    rw [history.tables_eq]
    exact ⟨rfl, there⟩
  | @aside messages closed deeds deed _ apart ih =>
    obtain ⟨before, past, step⟩ := history.last (List.append_assoc ..).symm
    have steady := past.toHistory.steady
    have numbered := steady.orderly.sound.numbered
    obtain ⟨all, state⟩ := ih past
    have same := past.tables_eq
    rw [tablesAfter_append] at same
    rw [accepted_append, all, ← same]
    cases closed with
    | true =>
      refine ⟨by rw [accepted_of_isShut numbered state, List.append_nil], ?_⟩
      have shut := state.after numbered (deed.pipeCalls before.tables)
      rw [← deed.pipes_tables, ← step.tables_eq steady] at shut
      exact shut
    | false =>
      have aside := apart.resolve_left (by simp)
      exact ⟨by rw [accepted_of_apart numbered state aside, List.append_nil],
        step.holding_kept steady state aside⟩
  | @sends messages message deeds during _ span ih =>
    rw [← List.append_assoc] at history
    obtain ⟨before, past⟩ := history.before rfl
    obtain ⟨all, state⟩ := ih past
    obtain ⟨part, grown, whole⟩ := history.written span
    have kept := history.holding_kept span rfl (by simp) (past.tables_eq ▸ state)
    obtain ⟨-, rfl⟩ := whole.resolve_right (by simp)
    rw [accepted_append, tablesAfter_append, List.append_cancel_left_eq] at grown
    refine ⟨?_, kept⟩
    rw [accepted_append, all, grown, List.flatten_append, List.flatten_singleton]
  | @closes messages deeds _ ih =>
    obtain ⟨before, past, step⟩ := history.last (List.append_assoc ..).symm
    have steady := past.toHistory.steady
    obtain ⟨all, state⟩ := ih past
    refine ⟨?_, step.shuts steady state⟩
    rw [accepted_append, all]
    exact List.append_nil _

/-- A deed that asks for a whole stream is an attempt on the tables. -/
theorem Step.drains {polled : Option InstanceId} {discipline : Discipline} {deed : Deed π}
    {reader : InstanceId} {progress : Progress} {after : Session π β σ}
    (drains : deed.Drains reader endpoint progress)
    (step : Step behaviour discipline polled session deed after) :
    ∃ taken later, session.tables.readToEnd reader endpoint taken = (progress, later) := by
  cases drains with
  | calls =>
    cases step with
    | calls _ performed => exact ⟨[], _, performed⟩
  | resumes taken =>
    cases step with
    | resumes _ resumed => exact ⟨taken, _, resumed⟩

/-- All that was sent before an end was closed is all that is ever accepted on it, so it is what a
reader across is given who is the first to read. -/
theorem HistoryFrom.given {opening sent earlier during : List (Deed π)} {middle : Session π β σ}
    {sender receiver : InstanceId} {source sink : Endpoint} {messages : List Bytes} {value : Value}
    (history : HistoryFrom behaviour .confined tables (opening ++ sent) session)
    (fresh : accepted tables source opening = [])
    (there : ⟨source, sender, true⟩ ∈ (tablesAfter tables opening).pipes.holdings)
    (sends : Sends sender source messages true sent) (across : source.peer? = some sink)
    (past : HistoryFrom behaviour .confined tables (earlier ++ during) middle)
    (within : earlier ++ during <+: opening ++ sent)
    (unread : delivered tables sink earlier = [])
    (span : CallSpan receiver (.readToEnd sink) during (.finished (.ok value))) :
    value = .bytes messages.flatten := by
  obtain ⟨all, -⟩ := history.sends sends there
  obtain ⟨bytes, peer, rfl, acrossToo, shut, -, whole⟩ := past.drained span
  obtain rfl : source = peer :=
    Option.some.inj ((Endpoint.peer?_comm.mp across).symm.trans acrossToo)
  obtain ⟨later, same⟩ := within
  -- Once the end was closed nothing more was written, so all that was sent had been written.
  have ever : accepted tables source (opening ++ sent) =
      accepted tables source (earlier ++ during) := by
    rw [← same, accepted_append, ← past.tables_eq,
      accepted_of_isShut past.toHistory.steady.orderly.sound.numbered shut, List.append_nil]
  rw [unread, List.nil_append, ← ever, accepted_append, fresh, all] at whole
  rw [whole]
  rfl

/-- Calls that are loops are exact in every history. -/
theorem HistoryFrom.loopsExact (history : HistoryFrom behaviour .confined tables deeds session) :
    LoopsExact tables deeds where
  written earlier during later same id endpoint data reply span := by
    obtain ⟨middle, past⟩ := history.before same
    exact past.written span
  read earlier during later same id endpoint count value span := by
    obtain ⟨middle, past⟩ := history.before same
    obtain ⟨bytes, rfl, within, grown, short⟩ := past.read span
    refine ⟨bytes, rfl, within, grown, fun peer across => ?_, fun fewer => ?_⟩
    · rw [← grown]
      exact past.balanced.isPrefix across
    · rw [← past.tables_eq]
      exact past.balanced.of_atEnd (short fewer)
  drained earlier during later same id endpoint value span := by
    obtain ⟨middle, past⟩ := history.before same
    rw [← past.tables_eq]
    exact past.drained span
  answered earlier deed later same reader endpoint progress drains pipe holds := by
    -- The state in which the attempt was made is the one that was left by all before it.
    rw [List.append_cons] at same
    obtain ⟨middle, whole⟩ := history.before same
    obtain ⟨before, past, step⟩ := whole.last rfl
    rw [← past.tables_eq] at holds
    have numbered := past.toHistory.steady.orderly.sound.numbered
    obtain ⟨taken, tables, resumed⟩ := step.drains drains
    obtain ⟨answered, served⟩ := Tables.readToEnd_answers numbered
      (numbered.holds_iff.mp ⟨pipe, holds⟩) resumed
    refine ⟨answered, fun gone => ?_⟩
    obtain ⟨peer, across, shut⟩ := numbered.isShut_peer holds.found gone
    exact served peer across shut
  delivered opening sent same sender source sink messages across fresh there sends earlier during
      later sameToo unread receiver value span := by
    obtain ⟨opened, before⟩ := history.before same
    obtain ⟨middle, past⟩ := history.before sameToo
    subst same
    have numbered := before.toHistory.steady.orderly.sound.numbered
    rw [before.tables_eq] at numbered
    exact history.given fresh (numbered.holds_iff.mp there) sends across past ⟨later, sameToo.symm⟩
      unread span

/-- Wherever a session comes, whoever waits for the end of a stream is served once it has come. -/
theorem Reached.drainersServed (reached : Reached behaviour session) :
    DrainersServed behaviour session := by
  intro task started endpoint taken wait waits
  have sound := reached.orderly.sound
  generalize same : (⟨.readToEnd endpoint taken, wait⟩ : Blocked) = blocked at waits
  cases reached.waiting task started blocked waits with
  | joins => simp at same
  | writes writing =>
    obtain ⟨rfl, -⟩ := Blocked.mk.inj same
    simp [Pending.writes] at writing
  | @reads call source pipe seen reading holds past quiet =>
    obtain ⟨rfl, rfl⟩ := Blocked.mk.inj same
    obtain rfl := Option.some.inj reading
    refine ⟨pipe, holds, fun gone => ?_⟩
    -- Without a signal the writer would still be there.
    have happened : session.tables.isOver (.signalOn endpoint seen) = true := by
      by_contra still
      have unchanged : session.tables.signals.count endpoint = seen := by
        simpa [Tables.isOver] using still
      simp [(quiet unchanged).2] at gone
    have released : session.isReleased task = true := by simp [isReleased, waits, happened]
    obtain ⟨peer, across, shut⟩ := sound.numbered.isShut_peer holds.found gone
    obtain ⟨bytes, answer⟩ := (Tables.readToEnd_answers sound.numbered
      (sound.numbered.holds_iff.mp ⟨pipe, holds⟩) rfl).2 peer across shut
    refine ⟨mem_ready.mpr (.inr ⟨task, started, rfl, released⟩), bytes,
      (session.tables.readToEnd task.id endpoint taken).2, fun result => ?_⟩
    refine proceeds_of_answer waits ?_
    show session.tables.retry task.id _ = _
    rw [Tables.retry, if_pos happened]
    exact Prod.ext answer rfl

/-- Every attempt at a call belongs to a call that was begun and was not answered before. -/
def Spanned (deeds : List (Deed π)) : Prop :=
  ∀ earlier deed later, deeds = earlier ++ deed :: later → ∀ id request pending progress,
    deed = .calls id request progress ∨ deed = .resumes id pending progress →
    ∃ before during request, earlier ++ [deed] = before ++ during ∧
      CallSpan id request during progress

/-- Deeds in turn consist of calls as a whole. -/
theorem Sequential.spanned (sequential : Sequential deeds) : Spanned deeds := by
  rintro earlier deed later rfl id request pending progress attempt
  rw [List.append_cons] at sequential
  exact sequential.before.span_of_attempt attempt

/-- Calls that are loops are exact in every session, whatever its programs do. -/
theorem loops_exact (behaviour : Behaviour π β σ) :
    (∀ tables deeds session, HistoryFrom behaviour .confined tables deeds session →
      LoopsExact tables deeds) ∧
    ∀ session, Reached behaviour session → DrainersServed behaviour session ∧
      ∃ tables deeds, HistoryFrom behaviour .confined tables deeds session ∧
        Reflects deeds session ∧ Spanned deeds := by
  refine ⟨fun tables deeds session history => history.loopsExact, fun session reached => ?_⟩
  obtain ⟨deeds, history, -, reflects⟩ := reached.history
  obtain ⟨config, load, keepsEvents, tables, shared, valid, course⟩ := history
  have since : HistoryFrom behaviour .confined tables deeds session :=
    ⟨config, load, keepsEvents, shared, valid, course⟩
  exact ⟨reached.drainersServed, tables, deeds, since, reflects, reflects.sequential.spanned⟩

/-- While a call waits, others may do anything, one after another. -/
theorem CallSpan.meanwhile {request : Request} {blocked : Blocked}
    (span : CallSpan id request deeds (.blocked blocked)) {more : List (Deed π)}
    (others : ∀ deed ∈ more, deed.actor? ≠ some id) :
    CallSpan id request (deeds ++ more) (.blocked blocked) := by
  induction more generalizing deeds with
  | nil => rwa [List.append_nil]
  | cons deed rest ih =>
    rw [List.append_cons]
    exact ih (span.others (others deed (.head _))) fun other later => others other (.tail _ later)

/-- What is sent is sent, whatever happens after the end was closed. -/
theorem Sends.afterwards {sender : InstanceId} {source : Endpoint} {messages : List Bytes}
    (sends : Sends sender source messages true deeds) (more : List (Deed π)) :
    Sends sender source messages true (deeds ++ more) := by
  induction more generalizing deeds with
  | nil => rwa [List.append_nil]
  | cons deed rest ih =>
    rw [List.append_cons]
    exact ih (sends.aside (.inl rfl))

section Runs

variable {discipline : Discipline} {past : List (Deed π)} {deed : Deed π} {middle : Session π β σ}
  {polled : Option InstanceId} {progress : Progress}

/-- A deed that can happen leads to all that can follow it. -/
theorem Step.leads (step : Step behaviour discipline (polling past) session deed middle)
    (further : ∃ after, Course behaviour discipline (past ++ [deed]) middle deeds after) :
    ∃ after, Course behaviour discipline past session (deed :: deeds) after :=
  further.imp fun _ => step.course.trans

/-- Every instance that was started can be polled. -/
theorem Step.polls_of_started (idle : polled = none) (ongoing : session.finished = none)
    (started : id ∈ session.tasks.map Task.id) :
    Step behaviour discipline polled session (.polls id) (session.counted id) := by
  obtain ⟨task, known, rfl⟩ := List.mem_map.mp started
  exact .polls idle ongoing known

/-- A call comes as far as the tables say. -/
theorem Step.performed {request : Request} (permitted : discipline.Permits polled session.tables id)
    (comes : (session.tables.perform id request).1 = progress) :
    Step behaviour discipline polled session (.calls id request progress)
      { session with tables := (session.tables.perform id request).2 } :=
  .calls permitted (Prod.ext comes rfl)

/-- So does a call that is made once more. -/
theorem Step.resumed {pending : Pending} (permitted : discipline.Permits polled session.tables id)
    (comes : (session.tables.resume id pending).1 = progress) :
    Step behaviour discipline polled session (.resumes id pending progress)
      { session with tables := (session.tables.resume id pending).2 } :=
  .resumes permitted (Prod.ext comes rfl)

end Runs

/-- Tables on which pipes hold two bytes. -/
def narrow : Tables Unit where
  config := { pipeCapacity := 2 }
  load _ := .ok ()
  pipes := { capacity := 2, maxEndpoints := 64 }
  instances := { maxInstances := 16, maxDepth := 8 }

/-- The first instance creates a pipe and hands one end to a child. -/
def connecting (sink : Endpoint) : List (Deed Unit) :=
  [.boots { index := 0, source := 0 } [] (.ok .root), .starts ⟨.root, (), [], []⟩, .polls .root,
    .calls .root .pipe (.finished (.ok (.endpoints .first sink))),
    .calls .root (.spawn { index := 0, source := 0 } [] [sink])
      (.finished (.ok (.instance ⟨1⟩)))]

/-- Then it writes more than the pipe holds, and has to wait for the child to read. It writes once
more and closes its end, and the child reads the rest. -/
def dictation (sink : Endpoint) : List (Deed Unit) :=
  [.calls .root (.writeAll .first [7, 8, 9])
      (.blocked ⟨.writeAll .first [9], .signalOn sink 1⟩),
    .rests .root, .starts ⟨⟨1⟩, (), [], [sink]⟩, .polls ⟨1⟩,
    .calls ⟨1⟩ (.readToEnd sink) (.blocked ⟨.readToEnd sink [7, 8], .signalOn sink 2⟩),
    .rests ⟨1⟩, .polls .root, .resumes .root (.writeAll .first [9]) (.finished (.ok .done)),
    .calls .root (.writeAll .first [10]) (.finished (.ok .done)),
    .calls .root (.close .first) (.finished (.ok .done)), .rests .root, .polls ⟨1⟩,
    .resumes ⟨1⟩ (.readToEnd sink [7, 8]) (.finished (.ok (.bytes [7, 8, 9, 10])))]

/-- All of this can happen. -/
theorem exists_dictation : ∃ session, HistoryFrom quiet .confined narrow
    (connecting ⟨2, by decide⟩ ++ dictation ⟨2, by decide⟩) session := by
  suffices possible : ∃ session, Course quiet .confined [] (.ofTables narrow ())
      (connecting ⟨2, by decide⟩ ++ dictation ⟨2, by decide⟩) session by
    obtain ⟨session, course⟩ := possible
    exact ⟨session, { pipeCapacity := 2 }, fun _ => .ok (), true, (), rfl, course⟩
  -- The loops do not unfold of themselves, so what comes after the first is checked by evaluation.
  refine Step.leads (.boots rfl { index := 0, source := 0 } []) ?_
  refine Step.leads (.starts rfl rfl rfl) ?_
  refine Step.leads (.polls_of_started rfl rfl (.head _)) ?_
  refine Step.leads (.performed ⟨by decide, by decide⟩ rfl) ?_
  refine Step.leads (.performed ⟨by decide, by decide⟩ rfl) ?_
  refine Step.leads (.performed ⟨by decide, by decide⟩ (by with_unfolding_all rfl)) ?_
  refine Step.leads (.rests rfl () none) ?_
  refine Step.leads (.starts rfl (by decide +kernel) (by with_unfolding_all rfl)) ?_
  refine Step.leads (.polls_of_started rfl (by decide +kernel) (by decide +kernel)) ?_
  refine Step.leads (.performed ⟨by decide, by decide +kernel⟩ (by with_unfolding_all rfl)) ?_
  refine Step.leads (.rests rfl () none) ?_
  refine Step.leads (.polls_of_started rfl (by decide +kernel) (by decide +kernel)) ?_
  refine Step.leads (.resumed ⟨by decide, by decide +kernel⟩ (by with_unfolding_all rfl)) ?_
  refine Step.leads (.performed ⟨by decide, by decide +kernel⟩ (by with_unfolding_all rfl)) ?_
  refine Step.leads (.performed ⟨by decide, by decide +kernel⟩ (by with_unfolding_all rfl)) ?_
  refine Step.leads (.rests rfl () none) ?_
  refine Step.leads (.polls_of_started rfl (by decide +kernel) (by decide +kernel)) ?_
  refine Step.leads (.resumed ⟨by decide, by decide +kernel⟩ (by with_unfolding_all rfl)) ?_
  exact ⟨_, .here⟩

/-- The child is given what its parent wrote, in spite of the narrow pipe. -/
theorem loops_exact_of_dictation : ∃ sink,
    Sends .root .first [[7, 8, 9], [10]] true (dictation sink) ∧
      CallSpan ⟨1⟩ (.readToEnd sink) ((dictation sink).drop 4)
        (.finished (.ok (.bytes [7, 8, 9, 10]))) ∧
      LoopsExact narrow (connecting sink ++ dictation sink) ∧
      Value.bytes [7, 8, 9, 10] = .bytes [[7, 8, 9], [10]].flatten := by
  obtain ⟨session, history⟩ := exists_dictation
  have written : CallSpan .root (.writeAll .first [7, 8, 9])
      ((dictation ⟨2, by decide⟩).take 8) (.finished (.ok .done)) :=
    ((CallSpan.begins (.blocked _)).meanwhile
      (by decide : ∀ deed ∈ ((dictation _).take 7).tail, deed.actor? ≠ some .root)).again _
  have sends : Sends .root .first [[7, 8, 9], [10]] true (dictation ⟨2, by decide⟩) :=
    (((Sends.begins.sends written).sends (.begins _)).closes).afterwards ((dictation _).drop 10)
  have others : ∀ deed ∈ ((dictation ⟨2, by decide⟩).drop 5).take 7, deed.actor? ≠ some ⟨1⟩ := by
    decide
  have read : CallSpan ⟨1⟩ (.readToEnd ⟨2, by decide⟩) ((dictation ⟨2, by decide⟩).drop 4)
      (.finished (.ok (.bytes [7, 8, 9, 10]))) :=
    ((CallSpan.begins (.blocked _)).meanwhile others).again _
  have exact := (loops_exact quiet).1 narrow _ session history
  have given := exact.delivered (connecting _) (dictation _) rfl .root .first ⟨2, by decide⟩
    [[7, 8, 9], [10]] (by decide) (by decide +kernel) ⟨_, rfl, rfl, rfl⟩ sends
    (connecting _ ++ (dictation _).take 4) ((dictation _).drop 4) [] rfl (by decide +kernel) ⟨1⟩
    _ read
  exact ⟨_, sends, read, exact, given⟩

end Session

end Progeny
