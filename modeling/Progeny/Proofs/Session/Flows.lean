import Progeny.Proofs.Session.Capabilities
import Progeny.Proofs.Session.Portions
import Progeny.Proofs.Session.Spans

/-! What moves through an end while its holder waits in a call: nothing. So a call that is a loop
moves, from its beginning to its end, nothing but the portions of its own attempts. -/

namespace Progeny

variable {π : Type}

namespace PipeCall

/-- Whether a call writes to an endpoint. -/
def WritesTo (endpoint : Endpoint) : PipeCall → Prop
  | .write _ target _ => target = endpoint
  | _ => False

/-- Whether a call reads from an endpoint. -/
def ReadsFrom (endpoint : Endpoint) : PipeCall → Prop
  | .read _ source _ => source = endpoint
  | _ => False

/-- Whether a call is a read or a write on behalf of an instance. -/
def ExchangedBy (caller : InstanceId) : PipeCall → Prop
  | .read reader _ _ => reader = caller
  | .write writer _ _ => writer = caller
  | _ => False

end PipeCall

namespace PipeRegistry

variable {registry : PipeRegistry} {endpoint : Endpoint} {calls : List PipeCall}

/-- Nothing is accepted on an endpoint that nobody writes to. -/
theorem acceptedOn_eq_nil (unwritten : ∀ call ∈ calls, ¬call.WritesTo endpoint) :
    registry.acceptedOn endpoint calls = [] := by
  induction calls generalizing registry with
  | nil => rfl
  | cons call rest ih =>
    have first : call.accepted registry endpoint = [] := by
      cases call with
      | write => exact if_neg (unwritten _ (.head _))
      | _ => rfl
    rw [acceptedOn, first, ih fun other member => unwritten other (.tail _ member)]
    rfl

/-- Nothing is delivered from an endpoint that nobody reads from. -/
theorem deliveredOn_eq_nil (unread : ∀ call ∈ calls, ¬call.ReadsFrom endpoint) :
    registry.deliveredOn endpoint calls = [] := by
  induction calls generalizing registry with
  | nil => rfl
  | cons call rest ih =>
    have first : call.delivered registry endpoint = [] := by
      cases call with
      | read => exact if_neg (unread _ (.head _))
      | _ => rfl
    rw [deliveredOn, first, ih fun other member => unread other (.tail _ member)]
    rfl

/-- Whatever others read and write, nothing moves through an end that they do not hold. -/
theorem Numbered.streams_of_foreign (numbered : registry.Numbered) {holder caller : InstanceId}
    (there : ⟨endpoint, holder, true⟩ ∈ registry.holdings) (foreign : caller ≠ holder)
    (exchanged : ∀ call ∈ calls, call.ExchangedBy caller) :
    registry.acceptedOn endpoint calls = [] ∧ registry.deliveredOn endpoint calls = [] := by
  -- A read or a write changes no holder, and on the end itself it is refused.
  have unheld {registry : PipeRegistry} (numbered : registry.Numbered)
      (there : ⟨endpoint, holder, true⟩ ∈ registry.holdings) (pipe : Pipe)
      (holds : registry.Holds caller endpoint pipe) : False := by
    have own := numbered.holds_iff.mp ⟨pipe, holds⟩
    exact foreign (congrArg Holding.owner (numbered.holding_unique own there rfl))
  induction calls generalizing registry with
  | nil => exact ⟨rfl, rfl⟩
  | cons call rest ih =>
    have numberedToo := (numbered.run call).1
    have first : call.accepted registry endpoint = [] ∧ call.delivered registry endpoint = [] ∧
        (call.run registry).holdings = registry.holdings := by
      cases call with
      | read reader source limit =>
        obtain rfl : reader = caller := exchanged _ (.head _)
        have outcome := numbered.read_case reader source limit
        refine ⟨rfl, ?_, outcome.holdings⟩
        simp only [PipeCall.delivered]
        split
        · rename_i same
          subst same
          generalize registry.read reader source limit = served at outcome
          cases outcome with
          | takes holds => exact (unheld numbered there _ holds).elim
          | _ => rfl
        · rfl
      | write writer target data =>
        obtain rfl : writer = caller := exchanged _ (.head _)
        have outcome := numbered.write_case writer target data
        refine ⟨?_, rfl, outcome.holdings⟩
        simp only [PipeCall.accepted]
        split
        · rename_i same
          subst same
          generalize registry.write writer target data = served at outcome
          cases outcome with
          | puts holds => exact (unheld numbered there _ holds).elim
          | _ => simp
        · rfl
      | _ => exact (exchanged _ (.head _)).elim
    obtain ⟨accepted, delivered, kept⟩ := first
    have later :=
      ih numberedToo (by rwa [kept]) fun other member => exchanged other (.tail _ member)
    simp [acceptedOn, deliveredOn, accepted, delivered, later]

end PipeRegistry

/-- The endpoint that a call writes to. -/
def Pending.target? : Pending → Option Endpoint
  | .write endpoint _ | .writeAll endpoint _ => some endpoint
  | .join _ | .read .. | .readExact .. | .readToEnd .. => none

/-- Whether a request may write to an endpoint, or take it from its holder. -/
def Request.Affects (endpoint : Endpoint) : Request → Prop
  | .write target _ | .writeAll target _ | .close target => target = endpoint
  | .spawn _ _ endpoints => endpoint ∈ endpoints
  | .pipe | .join _ | .read .. | .readExact .. | .readToEnd _ => False

/-- A request whose call writes to an endpoint affects it. -/
theorem Request.affects_of_target {request : Request} {pending : Pending} {endpoint : Endpoint}
    (begins : request.pending? = some pending) (target : pending.target? = some endpoint) :
    request.Affects endpoint := by
  cases request with
  | pipe | spawn | close => simp [Request.pending?] at begins
  | write | writeAll =>
    obtain rfl := Option.some.inj begins
    exact Option.some.inj target
  | join | read | readExact | readToEnd =>
    obtain rfl := Option.some.inj begins
    simp [Pending.target?] at target

namespace Tables

variable {tables : Tables π} {caller : InstanceId} {endpoint : Endpoint}

/-- A call for a number of bytes makes nothing but reads. -/
theorem mem_readsExact {missing : Nat} {call : PipeCall}
    (member : call ∈ tables.readsExact caller endpoint missing) :
    ∃ limit, call = .read caller endpoint limit := by
  fun_induction readsExact tables caller endpoint missing with
  | case1 => simp at member
  | case2 tables missing asked ih =>
    rcases List.mem_cons.mp member with rfl | later
    · exact ⟨missing, rfl⟩
    · split at later
      · exact ih _ _ later
      · simp at later

/-- A call for a whole stream makes nothing but reads. -/
theorem mem_readsToEnd {call : PipeCall}
    (member : call ∈ tables.readsToEnd caller endpoint) :
    ∃ limit, call = .read caller endpoint limit := by
  fun_induction readsToEnd tables caller endpoint with
  | case1 tables ih =>
    rcases List.mem_cons.mp member with rfl | later
    · exact ⟨chunkSize, rfl⟩
    · split at later
      · rename_i attempt
        exact ih _ _ _ attempt later
      · simp at later

/-- A call to write everything makes nothing but writes. -/
theorem mem_writesAll {rest : Bytes} {call : PipeCall}
    (member : call ∈ tables.writesAll caller endpoint rest) :
    ∃ data, call = .write caller endpoint data := by
  fun_induction writesAll tables caller endpoint rest with
  | case1 => simp at member
  | case2 tables rest offered ih =>
    rcases List.mem_cons.mp member with rfl | later
    · exact ⟨rest, rfl⟩
    · split at later
      · rename_i attempt
        exact ih _ _ attempt later
      · simp at later

/-- All calls of an attempt are reads and writes of the caller, and writes go where the attempt
writes to. -/
theorem mem_attempts {pending : Pending} {call : PipeCall}
    (member : call ∈ tables.attempts caller pending) : call.ExchangedBy caller ∧
      ∀ endpoint, call.WritesTo endpoint → pending.target? = some endpoint := by
  -- A loop repeats one kind of call, with other limits or data each time.
  cases pending with
  | join target => simp [attempts] at member
  | read source limit =>
    obtain rfl := List.mem_singleton.mp member
    exact ⟨rfl, fun _ => False.elim⟩
  | write target data =>
    obtain rfl := List.mem_singleton.mp member
    exact ⟨rfl, fun _ => congrArg some⟩
  | readExact source taken missing =>
    obtain ⟨limit, rfl⟩ := mem_readsExact member
    exact ⟨rfl, fun _ => False.elim⟩
  | readToEnd source taken =>
    obtain ⟨limit, rfl⟩ := mem_readsToEnd member
    exact ⟨rfl, fun _ => False.elim⟩
  | writeAll target rest =>
    obtain ⟨data, rfl⟩ := mem_writesAll member
    exact ⟨rfl, fun _ => congrArg some⟩

/-- A request makes reads and writes of the caller, or calls of another kind. -/
theorem pipeCalls_case (tables : Tables π) (caller : InstanceId) (request : Request) :
    (∀ call ∈ tables.pipeCalls caller request, call.ExchangedBy caller ∧
        ∀ endpoint, call.WritesTo endpoint → request.Affects endpoint) ∨
      ∀ call ∈ tables.pipeCalls caller request, ∀ endpoint,
        ¬call.WritesTo endpoint ∧ ¬call.ReadsFrom endpoint := by
  -- What may have to wait is a read or a write, and nothing else moves bytes.
  cases begins : request.pending? with
  | some pending =>
    rw [pipeCalls_of_pending begins]
    refine .inl fun call member => ?_
    obtain ⟨exchanged, writes⟩ := mem_attempts member
    exact ⟨exchanged, fun endpoint written =>
      Request.affects_of_target begins (writes endpoint written)⟩
  | none =>
    refine .inr fun call member endpoint => ?_
    cases request with
    | join | read | readExact | readToEnd | write | writeAll => simp [Request.pending?] at begins
    | pipe =>
      obtain rfl := List.mem_singleton.mp member
      exact ⟨id, id⟩
    | close target =>
      obtain rfl := List.mem_singleton.mp member
      exact ⟨id, id⟩
    | spawn descriptor argv endpoints =>
      simp only [pipeCalls] at member
      split at member
      · obtain rfl := List.mem_singleton.mp member
        exact ⟨id, id⟩
      · simp at member

end Tables

namespace Session

/-- Whether a deed may write to an end of an instance, or take it from the instance. -/
def Deed.Affects (holder : InstanceId) (endpoint : Endpoint) : Deed π → Prop
  | .calls caller request _ => caller = holder ∧ request.Affects endpoint
  | .resumes caller pending _ => caller = holder ∧ pending.target? = some endpoint
  | .ends id _ => id = holder
  | .finishes _ => True
  | .boots .. | .starts _ | .polls _ | .stirs | .rests _ => False

variable {tables : Tables π} {holder : InstanceId} {endpoint : Endpoint} {deed : Deed π}

/-- A deed makes reads and writes of whoever acts in it, or calls of another kind. -/
theorem Deed.pipeCalls_case (deed : Deed π) (tables : Tables π) :
    (∃ caller, deed.actor? = some caller ∧ ∀ call ∈ deed.pipeCalls tables,
      call.ExchangedBy caller ∧ ∀ endpoint, call.WritesTo endpoint → deed.Affects caller endpoint) ∨
    ∀ call ∈ deed.pipeCalls tables, ∀ endpoint,
      ¬call.WritesTo endpoint ∧ ¬call.ReadsFrom endpoint := by
  -- Whoever ends only closes what is left to close.
  cases deed with
  | calls caller request progress =>
    rcases tables.pipeCalls_case caller request with exchanges | others
    · refine .inl ⟨caller, rfl, fun call member => ⟨(exchanges call member).1, ?_⟩⟩
      exact fun endpoint written => ⟨rfl, (exchanges call member).2 endpoint written⟩
    · exact .inr others
  | resumes caller pending progress =>
    refine .inl ⟨caller, rfl, fun call member => ?_⟩
    obtain ⟨exchanged, writes⟩ := Tables.mem_attempts member
    exact ⟨exchanged, fun endpoint written => ⟨rfl, writes endpoint written⟩⟩
  | ends leaver result =>
    refine .inr fun call member endpoint => ?_
    simp only [Deed.pipeCalls, Tables.exitCalls] at member
    split at member
    · obtain rfl := List.mem_singleton.mp member
      exact ⟨id, id⟩
    · simp at member
  | finishes code =>
    refine .inr fun call member endpoint => ?_
    obtain ⟨owner, -, rfl⟩ := List.mem_map.mp member
    exact ⟨id, id⟩
  | boots | starts | polls | stirs | rests => exact .inr (by simp [Deed.pipeCalls])

/-- The calls of one deed are all of its traffic. -/
@[simp] theorem traffic_singleton (tables : Tables π) (deed : Deed π) :
    traffic tables [deed] = deed.pipeCalls tables := by
  simp [traffic]

/-- Nothing is accepted on an end by a deed that does not affect it. -/
theorem accepted_of_apart (numbered : tables.pipes.Numbered)
    (there : ⟨endpoint, holder, true⟩ ∈ tables.pipes.holdings)
    (apart : ¬deed.Affects holder endpoint) : accepted tables endpoint [deed] = [] := by
  rw [accepted, traffic_singleton]
  rcases deed.pipeCalls_case tables with ⟨caller, -, exchanges⟩ | others
  · -- The holder itself writes elsewhere, and others cannot write here.
    by_cases own : caller = holder
    · subst own
      exact PipeRegistry.acceptedOn_eq_nil fun call member written =>
        apart ((exchanges call member).2 endpoint written)
    · exact (numbered.streams_of_foreign there own fun call member => (exchanges call member).1).1
  · exact PipeRegistry.acceptedOn_eq_nil fun call member => (others call member endpoint).1

/-- Nothing is delivered from an end by what others do. -/
theorem delivered_of_foreign (numbered : tables.pipes.Numbered)
    (there : ⟨endpoint, holder, true⟩ ∈ tables.pipes.holdings)
    (foreign : deed.actor? ≠ some holder) : delivered tables endpoint [deed] = [] := by
  rw [delivered, traffic_singleton]
  rcases deed.pipeCalls_case tables with ⟨caller, acts, exchanges⟩ | others
  · have other : caller ≠ holder := fun own => foreign (own ▸ acts)
    exact (numbered.streams_of_foreign there other fun call member => (exchanges call member).1).2
  · exact PipeRegistry.deliveredOn_eq_nil fun call member => (others call member endpoint).2

/-- Others affect no end of a holder, unless the session is over. -/
theorem Deed.not_affects (foreign : deed.actor? ≠ some holder)
    (further : ∀ code, deed ≠ .finishes code) : ¬deed.Affects holder endpoint := by
  intro affects
  cases deed with
  | calls caller => exact foreign (congrArg some affects.1)
  | resumes caller => exact foreign (congrArg some affects.1)
  | ends id => exact foreign (congrArg some affects)
  | finishes code => exact further code rfl
  | _ => exact affects

variable {β σ : Type} {behaviour : Behaviour π β σ} {discipline : Discipline}
  {session after : Session π β σ}

/-- An end stays with its holder over a deed that does not affect it. -/
theorem Step.holding_kept {polled : Option InstanceId} (steady : Steady polled session)
    (step : Step behaviour discipline polled session deed after)
    (there : ⟨endpoint, holder, true⟩ ∈ session.tables.pipes.holdings)
    (apart : ¬deed.Affects holder endpoint) :
    ⟨endpoint, holder, true⟩ ∈ after.tables.pipes.holdings := by
  -- Each other fate of the end is an effect on it.
  obtain ⟨later, still, fate⟩ := (step.rearranges steady).fate there
  cases fate with
  | remains => exact still
  | passes opened hands =>
    obtain ⟨descriptor, argv, endpoints, listed, rfl⟩ := hands
    exact absurd ⟨rfl, listed⟩ apart
  | closes opened ending =>
    rcases ending with rfl | ⟨result, rfl⟩ | ⟨code, rfl⟩
    · exact absurd ⟨rfl, rfl⟩ apart
    · exact absurd rfl apart
    · exact absurd trivial apart

/-- As long as a session goes on it has not been finished before. -/
theorem Step.ongoing {polled : Option InstanceId}
    (step : Step behaviour discipline polled session deed after)
    (ongoing : after.finished = none) :
    session.finished = none ∧ ∀ code, deed ≠ .finishes code := by
  cases step with
  | boots idle descriptor argv =>
    unfold Session.boot at ongoing
    split at ongoing <;> exact ⟨ongoing, by simp⟩
  | starts idle before oldest => exact ⟨before, by simp⟩
  | finishes => simp [finish] at ongoing
  | polls | calls | resumes | stirs | rests | ends => exact ⟨ongoing, by simp⟩

/-- The bytes that some deeds move through the endpoint of a call, in its direction. -/
def moved (tables : Tables π) (call : Pending) (deeds : List (Deed π)) : Bytes :=
  call.moved tables.pipes (traffic tables deeds)

/-- What one deed moves its calls move. -/
theorem moved_singleton {call : Pending} :
    moved tables call [deed] = call.moved tables.pipes (deed.pipeCalls tables) := by
  rw [moved, traffic_singleton]

/-- What deeds in a row move. -/
theorem moved_append {call : Pending} {deeds more : List (Deed π)} :
    moved tables call (deeds ++ more) =
      moved tables call deeds ++ moved (tablesAfter tables deeds) call more := by
  cases call with
  | join => rfl
  | read | readExact | readToEnd => exact delivered_append
  | write | writeAll => exact accepted_append

/-- While its holder waits in a call nothing is moved through an end in either direction. -/
theorem moved_of_foreign (numbered : tables.pipes.Numbered) {call : Pending}
    (there : ∀ endpoint, call.endpoint? = some endpoint →
      ⟨endpoint, holder, true⟩ ∈ tables.pipes.holdings)
    (foreign : deed.actor? ≠ some holder) (further : ∀ code, deed ≠ .finishes code) :
    moved tables call [deed] = [] := by
  cases call with
  | join => rfl
  | read | readExact | readToEnd => exact delivered_of_foreign numbered (there _ rfl) foreign
  | write | writeAll =>
    exact accepted_of_apart numbered (there _ rfl) (Deed.not_affects foreign further)

end Session

namespace Tables

/-- Whoever is stuck in a call holds the endpoint of the call. -/
theorem Stuck.holds {tables : Tables π} (numbered : tables.pipes.Numbered) {caller : InstanceId}
    {call : Pending} {wait : Wait} (stuck : tables.Stuck caller call wait) {endpoint : Endpoint}
    (used : call.endpoint? = some endpoint) :
    ⟨endpoint, caller, true⟩ ∈ tables.pipes.holdings := by
  have holding {pipe : Pipe} {side : Side} {other : Endpoint}
      (held : tables.pipes.held caller other = .ok (pipe, side)) :
      ⟨other, caller, true⟩ ∈ tables.pipes.holdings :=
    numbered.holds_iff.mp ⟨pipe, (numbered.held_iff.mp held).1⟩
  cases stuck with
  | joins => simp [Pending.endpoint?] at used
  | @reads _ source _ _ reading held =>
    have same : source = endpoint := by
      cases call <;> simp_all [Pending.reads, Pending.endpoint?]
    exact same ▸ holding held
  | @writes _ target _ _ writing held =>
    have same : target = endpoint := by
      cases call <;> simp_all [Pending.writes, Pending.endpoint?]
    exact same ▸ holding held

end Tables

namespace Session

variable {tables : Tables π} {holder : InstanceId} {β σ : Type} {behaviour : Behaviour π β σ}
  {session : Session π β σ}

/-- What an attempt at a loop moves is a portion of it, and if the caller has to wait it holds the
endpoint. -/
theorem Steady.portion {polled : Option InstanceId} (steady : Steady polled session)
    {call : Pending} {progress : Progress} {after : Tables π} (loops : call.Loops)
    (resumed : session.tables.resume holder call = (progress, after)) :
    Portion after.pipes call
        (call.moved session.tables.pipes (session.tables.attempts holder call)) progress ∧
      ∀ blocked, progress = .blocked blocked → ∀ endpoint, call.endpoint? = some endpoint →
        ⟨endpoint, holder, true⟩ ∈ after.pipes.holdings := by
  -- Whoever has to wait is stuck in the very call, and only a holder can be stuck.
  have sound := steady.orderly.sound
  have portion := Tables.portion_resume sound.numbered loops resumed
  refine ⟨portion, fun blocked waits endpoint used => ?_⟩
  subst waits
  have soundToo := ((Tables.Exchanges.of_resume resumed).effects.sound sound).1
  refine (Tables.stuck_of_resume resumed).holds soundToo.numbered ?_
  rw [portion.left.2.1, used]

/-- What holds when a call begins, and is kept by its further attempts and by whatever others do
while it waits, holds as long as it is under way. -/
theorem HistoryFrom.span_induction {earlier during : List (Deed π)} {request : Request}
    {progress : Progress} (holds : List (Deed π) → Session π β σ → Progress → Prop)
    (history : HistoryFrom behaviour .confined tables (earlier ++ during) session)
    (span : CallSpan holder request during progress)
    (ongoing : ∀ blocked, progress = .blocked blocked → session.finished = none)
    (begins : ∀ {before after : Session π β σ} {progress : Progress},
      HistoryFrom behaviour .confined tables earlier before →
      Step behaviour .confined (polling earlier) before (.calls holder request progress) after →
      holds [.calls holder request progress] after progress)
    (others : ∀ {deeds : List (Deed π)} {deed : Deed π} {before after : Session π β σ}
      {blocked : Blocked}, HistoryFrom behaviour .confined tables (earlier ++ deeds) before →
      holds deeds before (.blocked blocked) → deed.actor? ≠ some holder →
      (∀ code, deed ≠ .finishes code) →
      Step behaviour .confined (polling (earlier ++ deeds)) before deed after →
      holds (deeds ++ [deed]) after (.blocked blocked))
    (again : ∀ {deeds : List (Deed π)} {before after : Session π β σ} {blocked : Blocked}
      {progress : Progress}, HistoryFrom behaviour .confined tables (earlier ++ deeds) before →
      holds deeds before (.blocked blocked) →
      Step behaviour .confined (polling (earlier ++ deeds)) before
        (.resumes holder blocked.call progress) after →
      holds (deeds ++ [.resumes holder blocked.call progress]) after progress) :
    holds during session progress := by
  -- Once a session is over nobody is polled, and so no call is tried again.
  induction span generalizing session with
  | begins progress =>
    obtain ⟨before, past, step⟩ := history.last rfl
    exact begins past step
  | @others deeds blocked deed span foreign ih =>
    obtain ⟨before, past, step⟩ := history.last (List.append_assoc ..).symm
    obtain ⟨ongoing, further⟩ := step.ongoing (ongoing blocked rfl)
    exact others past (ih past fun _ _ => ongoing) foreign further step
  | @again deeds blocked span progress ih =>
    obtain ⟨before, past, step⟩ := history.last (List.append_assoc ..).symm
    cases step with
    | resumes permitted resumed =>
      obtain ⟨id, acting⟩ := Option.ne_none_iff_exists'.mp permitted.1
      have ongoing := (past.toHistory.steady.acting id acting).1
      exact again past (ih past fun _ _ => ongoing) (.resumes permitted resumed)

/-- From its beginning to any attempt at it a loop moves its portions, and nothing else moves
through its endpoint. While it waits its caller holds the endpoint. -/
theorem HistoryFrom.portion {earlier during : List (Deed π)} {request : Request} {call : Pending}
    {progress : Progress}
    (history : HistoryFrom behaviour .confined tables (earlier ++ during) session)
    (span : CallSpan holder request during progress) (begins : request.pending? = some call)
    (loops : call.Loops)
    (ongoing : ∀ blocked, progress = .blocked blocked → session.finished = none) :
    Portion session.tables.pipes call (moved (tablesAfter tables earlier) call during) progress ∧
      ∀ blocked, progress = .blocked blocked → ∀ endpoint, call.endpoint? = some endpoint →
        ⟨endpoint, holder, true⟩ ∈ session.tables.pipes.holdings := by
  -- Attempts add their portions, and whatever others do in between adds nothing.
  refine history.span_induction (fun deeds session progress => Portion session.tables.pipes call
    (moved (tablesAfter tables earlier) call deeds) progress ∧ ∀ blocked,
      progress = .blocked blocked → ∀ endpoint, call.endpoint? = some endpoint →
        ⟨endpoint, holder, true⟩ ∈ session.tables.pipes.holdings) span ongoing ?_ ?_ ?_
  · intro before after progress past step
    cases step with
    | calls permitted performed =>
      rw [Tables.perform_of_pending begins] at performed
      have first := past.toHistory.steady.portion loops performed
      rw [← Tables.pipeCalls_of_pending begins] at first
      rw [← past.tables_eq, moved_singleton]
      exact first
  · intro deeds deed before after blocked past ⟨portion, held⟩ foreign further step
    have steady := past.toHistory.steady
    have nothing := moved_of_foreign steady.orderly.sound.numbered (held blocked rfl) foreign
      further
    rw [past.tables_eq, tablesAfter_append] at nothing
    rw [moved_append, nothing, List.append_nil]
    refine ⟨portion.waits _, fun _ _ endpoint used => ?_⟩
    exact step.holding_kept steady (held blocked rfl endpoint used)
      (Deed.not_affects foreign further)
  · intro deeds before after blocked progress past ⟨portion, _⟩ step
    cases step with
    | resumes permitted resumed =>
      obtain ⟨loopsToo, same, direction⟩ := portion.left
      obtain ⟨last, held⟩ := past.toHistory.steady.portion loopsToo resumed
      rw [same] at held
      refine ⟨?_, held⟩
      rw [direction, past.tables_eq, tablesAfter_append] at last
      rw [moved_append, moved_singleton]
      exact portion.trans last

/-- Whatever an instance holds it still holds after a call that can wait. -/
theorem HistoryFrom.holding_kept {earlier during : List (Deed π)} {request : Request}
    {call : Pending} {progress : Progress} {endpoint : Endpoint}
    (history : HistoryFrom behaviour .confined tables (earlier ++ during) session)
    (span : CallSpan holder request during progress) (begins : request.pending? = some call)
    (ongoing : ∀ blocked, progress = .blocked blocked → session.finished = none)
    (there : ⟨endpoint, holder, true⟩ ∈ (tablesAfter tables earlier).pipes.holdings) :
    ⟨endpoint, holder, true⟩ ∈ session.tables.pipes.holdings := by
  -- Such a call neither closes an end nor gives one away, and others cannot.
  refine history.span_induction (fun _ session _ =>
    ⟨endpoint, holder, true⟩ ∈ session.tables.pipes.holdings) span ongoing ?_ ?_ ?_
  · intro before after progress past step
    have sound := past.toHistory.steady.orderly.sound
    rw [← past.tables_eq] at there
    cases step with
    | calls permitted performed =>
      rw [Tables.perform_of_pending begins] at performed
      have same := ((Tables.Exchanges.of_resume performed).keeps sound).2.2.1
      exact same ▸ there
  · intro deeds deed before after blocked past held foreign further step
    exact step.holding_kept past.toHistory.steady held (Deed.not_affects foreign further)
  · intro deeds before after blocked progress past held step
    cases step with
    | resumes permitted resumed =>
      have sound := past.toHistory.steady.orderly.sound
      have same := ((Tables.Exchanges.of_resume resumed).keeps sound).2.2.1
      exact same ▸ held

end Session

end Progeny
