import Progeny.Proofs.Session.Parentage

/-! What is left of an instance that has ended: nothing that it held, and only what was asked for on
its behalf later, through a context that somebody kept. -/

namespace Progeny.Session

variable {π β σ : Type} {behaviour : Behaviour π β σ} {discipline : Discipline}
  {deeds more : List (Deed π)} {deed : Deed π} {session after : Session π β σ} {id : InstanceId}
  {endpoint : Endpoint} {holding : Holding}

/-- The instance on whose behalf a deed makes a call, or goes on with one. -/
def Deed.caller? : Deed π → Option InstanceId
  | .calls caller _ _ | .resumes caller _ _ => some caller
  | _ => none

/-- Whether calls are made for instances only that were started before. An instance gets its context
when it is started, and whoever keeps this may make calls at any later time. -/
def Contextual (deeds : List (Deed π)) : Prop :=
  ∀ earlier deed later, deeds = earlier ++ deed :: later → ∀ caller, deed.caller? = some caller →
    caller ∈ (starts earlier).map Launch.id

/-- Whether an instance created an endpoint by a call that was made after it had ended. -/
def CreatedLate (deeds : List (Deed π)) (endpoint : Endpoint) (creator : InstanceId) : Prop :=
  ∃ earlier deed later, deeds = earlier ++ deed :: later ∧ (endpoint, creator) ∈ deed.created ∧
    creator ∈ (endings earlier).map Prod.fst

/-- Whether an endpoint was created by a call that was made after its caller or the session had
ended. -/
def CreatedPosthumously (deeds : List (Deed π)) (endpoint : Endpoint) : Prop :=
  ∃ earlier deed later creator, deeds = earlier ++ deed :: later ∧
    (endpoint, creator) ∈ deed.created ∧
    (creator ∈ (endings earlier).map Prod.fst ∨ ∃ code, .finishes code ∈ earlier)

/-- Calls are made for started instances from the beginning. -/
theorem Contextual.before (contextual : Contextual (deeds ++ more)) : Contextual deeds := by
  intro earlier deed later same
  exact contextual earlier deed (later ++ more) (by simp [same])

/-- What an instance created late stays so. -/
theorem CreatedLate.further (late : CreatedLate deeds endpoint id) (more : List (Deed π)) :
    CreatedLate (deeds ++ more) endpoint id := by
  obtain ⟨earlier, deed, later, rfl, created, gone⟩ := late
  exact ⟨earlier, deed, later ++ more, by simp, created, gone⟩

/-- What was created posthumously stays so. -/
theorem CreatedPosthumously.further (posthumous : CreatedPosthumously deeds endpoint)
    (more : List (Deed π)) : CreatedPosthumously (deeds ++ more) endpoint := by
  obtain ⟨earlier, deed, later, creator, rfl, created, gone⟩ := posthumous
  exact ⟨earlier, deed, later ++ more, creator, by simp, created, gone⟩

/-- What an instance created late was created posthumously. -/
theorem CreatedLate.posthumous (late : CreatedLate deeds endpoint id) :
    CreatedPosthumously deeds endpoint := by
  obtain ⟨earlier, deed, later, same, created, gone⟩ := late
  exact ⟨earlier, deed, later, id, same, created, .inl gone⟩

/-- Whoever creates an endpoint makes a call. -/
theorem Deed.caller?_of_created (created : (endpoint, id) ∈ deed.created) :
    deed.caller? = some id := by
  unfold Deed.created at created
  split at created
  · simp only [List.mem_cons, Prod.mk.injEq, List.not_mem_nil, or_false] at created
    rcases created with ⟨-, rfl⟩ | ⟨-, rfl⟩ <;> rfl
  · simp at created

/-- Nobody but an instance that ends stops running. -/
theorem Deed.Records.running {before later : InstanceTable} (records : deed.Records before later)
    (running : id ∈ before.running) :
    id ∈ later.running ∨ ∃ result, deed = .ends id result := by
  cases records with
  | keeps => exact .inl running
  | enlists =>
    rw [InstanceTable.running_enlist]
    exact .inl (List.mem_append_left _ running)
  | @retires other result =>
    by_cases same : id = other
    · exact .inr ⟨result, by rw [same]⟩
    · rw [InstanceTable.running_retire]
      exact .inl (List.mem_filter.mpr ⟨running, by simpa using same⟩)

/-- Whoever has a record runs, or has ended. -/
theorem History.runs_or_ended (history : History behaviour discipline deeds session)
    (recorded : id ∈ session.tables.instances.records.map InstanceRecord.id) :
    id ∈ session.tables.instances.running ∨ id ∈ (endings deeds).map Prod.fst := by
  obtain ⟨record, there, rfl⟩ := List.mem_map.mp recorded
  cases history.accounted.told record there with
  | runs state =>
    refine .inl (List.mem_map_of_mem (List.mem_filter.mpr ⟨there, ?_⟩))
    simp [state, Lifecycle.isExited]
  | exited ended => exact .inr (List.mem_map_of_mem ended)

/-- Whoever makes a call runs, or has ended. -/
theorem Contextual.runs_or_ended (contextual : Contextual (deeds ++ [deed]))
    (history : History behaviour discipline deeds session) (calls : deed.caller? = some id) :
    id ∈ session.tables.instances.running ∨ id ∈ (endings deeds).map Prod.fst := by
  have started := contextual deeds deed [] rfl id calls
  obtain ⟨waiting, same, -⟩ := history.accounted.identities
  apply history.runs_or_ended
  rw [← same, List.map_append]
  exact List.mem_append_left _ started

/-- As an instance ends, all that it holds is closed, and nothing else. -/
theorem Step.releases {polled : Option InstanceId} {result : Except String Int8}
    (steady : Steady polled session)
    (step : Step behaviour discipline polled session (.ends id result) after) :
    after.tables.pipes = (session.tables.pipes.closeOwnedBy id).registry := by
  cases step with
  | ends acting =>
    show (session.tables.exit id result).pipes = _
    rw [Tables.exit_eq steady.orderly.sound (steady.running acting) result]

/-- An end that is open after a deed was open before with the same owner, who has not stopped
running, or it was handed to a child that runs, or it is new. -/
theorem Step.open_end {polled : Option InstanceId} (steady : Steady polled session)
    (step : Step behaviour discipline polled session deed after)
    (there : holding ∈ after.tables.pipes.holdings) (opened : holding.isOpen = true) :
    (holding ∈ session.tables.pipes.holdings ∧
      (holding.owner ∈ session.tables.instances.running →
        holding.owner ∈ after.tables.instances.running)) ∨
    (∃ parent, ⟨holding.endpoint, parent, true⟩ ∈ session.tables.pipes.holdings ∧
      holding.owner ∈ after.tables.instances.running) ∨
    (holding.endpoint, holding.owner) ∈ deed.created := by
  have sound := steady.orderly.sound
  have records := step.records steady
  obtain ⟨change, same, fates⟩ := step.rearranges steady
  have origin := there
  rw [same, List.mem_append] at origin
  rcases origin with older | new
  · obtain ⟨before, member, own⟩ := List.mem_map.mp older
    have fate := fates before member
    rw [own] at fate
    cases fate with
    | remains =>
      refine .inl ⟨member, fun running => (records.running running).resolve_right ?_⟩
      rintro ⟨result, rfl⟩
      -- Whoever ends has nothing open left.
      rw [step.releases steady] at there
      exact (sound.numbered.of_closeOwnedBy there opened).2 rfl
    | @passes child stillOpen hands =>
      refine .inr (.inl ⟨before.owner, ?_, ?_⟩)
      · rw [← stillOpen]
        exact member
      · obtain ⟨descriptor, argv, endpoints, -, rfl⟩ := hands
        generalize after.tables.instances = later at records
        cases records with
        | keeps unborn => simp [Deed.birth?] at unborn
        | enlists born =>
          simp only [Deed.birth?, Option.some.injEq, Prod.mk.injEq] at born
          rw [InstanceTable.running_enlist, ← born.1]
          simp
    | closes => simp at opened
  · obtain ⟨created, member, rfl⟩ := List.mem_map.mp new
    exact .inr (.inr member)

/-- Every open end belongs to an instance that runs, or that created it after it had ended. -/
theorem History.owners (history : History behaviour discipline deeds session)
    (contextual : Contextual deeds) (there : holding ∈ session.tables.pipes.holdings)
    (opened : holding.isOpen = true) :
    holding.owner ∈ session.tables.instances.running ∨
      CreatedLate deeds holding.endpoint holding.owner := by
  refine history.strong_induction (fun deeds session => Contextual deeds →
    ∀ holding ∈ session.tables.pipes.holdings, holding.isOpen = true →
      holding.owner ∈ session.tables.instances.running ∨
        CreatedLate deeds holding.endpoint holding.owner) ?_ ?_ contextual holding there opened
  · intro config load keepsEvents tables shared valid _ holding there
    obtain rfl := new_eq valid
    simp [ofTables, PipeRegistry.holdings] at there
  · intro earlier before next deed past owners step contextual holding there opened
    rcases step.open_end past.steady there opened with
      ⟨older, keeps⟩ | ⟨parent, -, running⟩ | created
    · have before := owners contextual.before holding older opened
      exact before.imp keeps fun late => late.further [deed]
    · exact .inl running
    · rcases contextual.runs_or_ended past (Deed.caller?_of_created created) with running | gone
      · refine .inl (((step.records past.steady).running running).resolve_right ?_)
        rintro ⟨result, rfl⟩
        simp [Deed.created] at created
      · exact .inr ⟨earlier, deed, [], rfl, created, gone⟩

/-- Once the session has ended, every open end was created after its creator or the session had. -/
theorem History.posthumous (history : History behaviour discipline deeds session)
    (contextual : Contextual deeds) (concluded : ∃ code, .finishes code ∈ deeds)
    (there : holding ∈ session.tables.pipes.holdings) (opened : holding.isOpen = true) :
    CreatedPosthumously deeds holding.endpoint := by
  refine history.strong_induction (fun deeds session => Contextual deeds →
    (∃ code, .finishes code ∈ deeds) → ∀ holding ∈ session.tables.pipes.holdings,
      holding.isOpen = true → CreatedPosthumously deeds holding.endpoint) ?_ ?_ contextual concluded
    holding there opened
  · intro config load keepsEvents tables shared valid _ concluded
    simp at concluded
  · intro earlier before next deed past posthumous step contextual ⟨code, concluded⟩ holding there
      opened
    rw [List.mem_append, List.mem_singleton] at concluded
    rcases concluded with already | now
    · -- After the end of the session, ends pass to children or are created.
      have since := posthumous contextual.before ⟨code, already⟩
      rcases step.open_end past.steady there opened with ⟨older, -⟩ | ⟨parent, older, -⟩ | created
      · exact (since holding older opened).further [deed]
      · exact (since _ older rfl).further [deed]
      · exact ⟨earlier, deed, [], holding.owner, rfl, created, .inr ⟨code, already⟩⟩
    · subst now
      -- Whoever runs is torn down, so the owner does not.
      cases step with
      | finishes idle ongoing booted exited =>
        obtain ⟨older, nobody⟩ :=
          past.steady.orderly.sound.open_of_foldl_teardown _ holding there opened
        rw [past.steady.orderly.population ongoing] at nobody
        have late := (past.owners contextual.before older opened).resolve_left nobody
        exact (late.further _).posthumous

/-- A child was created by its parent while this ran, or by a call after its parent had ended. -/
theorem History.parented (history : History behaviour discipline deeds session)
    {record : InstanceRecord} (there : record ∈ session.tables.instances.records)
    {parent : InstanceId} (own : record.parent = some parent) :
    ∃ earlier deed later before, deeds = earlier ++ deed :: later ∧
      deed.birth? = some (record.id, some parent) ∧
      History behaviour discipline earlier before ∧
      (parent ∈ before.tables.instances.running ∨ parent ∈ (endings earlier).map Prod.fst) := by
  have born : (record.id, some parent) ∈ births deeds := by
    rw [← history.family.born, ← own]
    exact List.mem_map_of_mem there
  obtain ⟨deed, member, birth⟩ := List.mem_filterMap.mp born
  obtain ⟨earlier, later, rfl⟩ := List.append_of_mem member
  obtain ⟨before, next, past, step⟩ := history.split
  refine ⟨earlier, deed, later, before, rfl, birth, past, past.runs_or_ended ?_⟩
  -- A new record stands below that of the parent.
  have records := step.records past.steady
  generalize next.tables.instances = after at records
  cases records with
  | keeps unborn => simp [unborn] at birth
  | enlists same _ places =>
    rw [same] at birth
    simp only [Option.some.injEq, Prod.mk.injEq] at birth
    obtain ⟨-, rfl⟩ := birth
    cases places with
    | below found =>
      have indexed := past.steady.orderly.sound.indexed
      rw [← indexed.id_of_find? found]
      exact List.mem_map_of_mem (List.mem_of_find?_eq_some found)
  | retires => simp [Deed.birth?] at birth

/-- As an instance ends, all that it holds is taken off the count of open ends, nothing is left to
it, and what it held stays closed for good. -/
theorem History.relinquished {earlier later : List (Deed π)} {result : Except String Int8}
    (history : History behaviour discipline (earlier ++ .ends id result :: later) session) :
    ∃ before next, History behaviour discipline earlier before ∧
      Step behaviour discipline (polling earlier) before (.ends id result) next ∧
      next.tables.pipes.openEndpoints + (before.tables.pipes.ownedBy id).length =
        before.tables.pipes.openEndpoints ∧
      next.tables.pipes.ownedBy id = [] ∧
      ∀ endpoint ∈ before.tables.pipes.ownedBy id,
        ⟨endpoint, id, false⟩ ∈ session.tables.pipes.holdings := by
  obtain ⟨before, next, past, step, rest⟩ := history.passes
  have sound := past.steady.orderly.sound
  have following := past.step step
  have released := step.releases past.steady
  refine ⟨before, next, past, step, ?_, ?_, fun endpoint listed => ?_⟩
  · rw [released]
    exact sound.counted.closeOwnedBy sound.numbered id
  · refine List.eq_nil_iff_forall_not_mem.mpr fun endpoint owned => ?_
    have there := following.steady.orderly.sound.numbered.mem_ownedBy_iff.mp owned
    rw [released] at there
    exact (sound.numbered.of_closeOwnedBy there rfl).2 rfl
  · refine following.stays_closed ?_ rfl rest
    have holding := List.mem_map_of_mem (f := Holding.shut (before.tables.pipes.ownedBy id))
      (sound.numbered.mem_ownedBy_iff.mp listed)
    rw [released]
    change _ ∈ (before.tables.pipes.closeAll _).1.holdings
    rw [sound.numbered.holdings_closeAll]
    simpa [Holding.shut, listed] using holding

/-- Whatever is done with the contexts of instances, also after these have ended: an open end
belongs to an instance that runs, or that created it after it had ended. A child was created while
its parent ran, or by a call after its parent had ended. What an instance holds as it ends is taken
off the count and stays closed. Once the session has ended, whatever is open was created after that,
or after its creator had ended, and without such calls nothing is open. -/
theorem exits_release (history : History behaviour .free deeds session)
    (contextual : Contextual deeds) :
    (∀ holding ∈ session.tables.pipes.holdings, holding.isOpen = true →
      holding.owner ∈ session.tables.instances.running ∨
        CreatedLate deeds holding.endpoint holding.owner) ∧
    (∀ record ∈ session.tables.instances.records, ∀ parent, record.parent = some parent →
      ∃ earlier deed later before, deeds = earlier ++ deed :: later ∧
        deed.birth? = some (record.id, some parent) ∧ History behaviour .free earlier before ∧
        (parent ∈ before.tables.instances.running ∨ parent ∈ (endings earlier).map Prod.fst)) ∧
    (∀ earlier id result later, deeds = earlier ++ .ends id result :: later →
      ∃ before next, History behaviour .free earlier before ∧
        Step behaviour .free (polling earlier) before (.ends id result) next ∧
        next.tables.pipes.openEndpoints + (before.tables.pipes.ownedBy id).length =
          before.tables.pipes.openEndpoints ∧
        next.tables.pipes.ownedBy id = [] ∧
        ∀ endpoint ∈ before.tables.pipes.ownedBy id,
          ⟨endpoint, id, false⟩ ∈ session.tables.pipes.holdings) ∧
    ((∃ code, .finishes code ∈ deeds) →
      (∀ holding ∈ session.tables.pipes.holdings, holding.isOpen = true →
        CreatedPosthumously deeds holding.endpoint) ∧
      ((∀ endpoint, ¬CreatedPosthumously deeds endpoint) →
        session.tables.pipes.openEndpoints = 0)) := by
  refine ⟨fun holding => history.owners contextual, fun record there parent =>
    history.parented there, ?_, fun concluded => ?_⟩
  · rintro earlier id result later rfl
    exact history.relinquished
  · have left : ∀ holding ∈ session.tables.pipes.holdings, holding.isOpen = true →
        CreatedPosthumously deeds holding.endpoint :=
      fun holding => history.posthumous contextual concluded
    refine ⟨left, fun none => ?_⟩
    rw [history.steady.orderly.sound.counted.eq_length, List.length_eq_zero_iff,
      List.filter_eq_nil_iff]
    exact fun holding there opened => none holding.endpoint (left holding there opened)

/-- Calls are made for started instances if each one is made for such an instance. -/
theorem contextual_of_take (each : ∀ number < deeds.length, ∀ deed ∈ deeds[number]?,
    ∀ caller ∈ deed.caller?, caller ∈ (starts (deeds.take number)).map Launch.id) :
    Contextual deeds := by
  rintro earlier deed later rfl caller calls
  have started := each earlier.length (by simp) deed (by simp) caller calls
  simpa using started

/-- A child exits, and then the first instance uses the context of the child: it creates a pipe and
a child on behalf of the one that is gone. Then the first instance exits as well. -/
def haunting (peer : Endpoint) : List (Deed Unit) :=
  [.boots { index := 0, source := 0 } [] (.ok .root), .starts ⟨.root, (), [], []⟩, .polls .root,
    .calls .root (.spawn { index := 0, source := 0 } [] []) (.finished (.ok (.instance ⟨1⟩))),
    .rests .root, .starts ⟨⟨1⟩, (), [], []⟩, .polls ⟨1⟩, .ends ⟨1⟩ (.ok 0), .polls .root,
    .calls ⟨1⟩ .pipe (.finished (.ok (.endpoints .first peer))),
    .calls ⟨1⟩ (.spawn { index := 0, source := 0 } [] []) (.finished (.ok (.instance ⟨2⟩))),
    .ends .root (.ok 0), .finishes 0]

/-- The end of that session, its pipe and its records. -/
theorem exists_haunting : ∃ session, History quiet .free (haunting ⟨2, by decide⟩) session ∧
    session.finished = some (.exited 0 3) ∧
    session.tables.pipes.openEndpoints = 2 ∧
    session.tables.pipes.pipes =
      [⟨⟨.first, ⟨1⟩, true, []⟩, ⟨⟨2, by decide⟩, ⟨1⟩, true, []⟩⟩] ∧
    session.tables.instances.records = [⟨.root, none, 0, .exited 0, none⟩,
      ⟨⟨1⟩, some .root, 1, .exited 0, none⟩, ⟨⟨2⟩, some ⟨1⟩, 2, .running, none⟩] := by
  have started := (history_solo quiet .free).step (.starts rfl rfl rfl)
  have polled := started.step (.polls rfl rfl (.head _))
  have spawned := polled.step (.calls trivial
    (rfl : Tables.perform _ .root (.spawn { index := 0, source := 0 } [] []) = _))
  have rested := spawned.step (.rests rfl () none)
  have followed := rested.step (.starts rfl rfl rfl)
  have again := followed.step (.polls rfl rfl (.tail _ (.head _)))
  have ended := again.step (.ends rfl (.ok 0))
  have last := ended.step (.polls rfl rfl (.head _))
  have connected := last.step (.calls trivial (rfl : Tables.perform _ ⟨1⟩ .pipe = _))
  have bore := connected.step (.calls trivial
    (rfl : Tables.perform _ ⟨1⟩ (.spawn { index := 0, source := 0 } [] []) = _))
  have exited := bore.step (.ends rfl (.ok 0))
  have history : History quiet .free (haunting ⟨2, by decide⟩) _ :=
    exited.step (.finishes rfl rfl rfl rfl)
  exact ⟨_, history, rfl, rfl, rfl, rfl⟩

/-- At the end of that session both ends of the pipe are open, though their owner has exited, and
the parent of the last child had exited before the child was created. -/
theorem ends_owned_by_exited : ∃ session, History quiet .free (haunting ⟨2, by decide⟩) session ∧
    Contextual (haunting ⟨2, by decide⟩) ∧ session.finished = some (.exited 0 3) ∧
    (∃ holding ∈ session.tables.pipes.holdings, holding.isOpen = true ∧
      holding.owner ∉ session.tables.instances.running) ∧
    (∃ earlier deed later, haunting ⟨2, by decide⟩ = earlier ++ deed :: later ∧
      deed.birth? = some (⟨2⟩, some ⟨1⟩) ∧ ⟨1⟩ ∈ (endings earlier).map Prod.fst) ∧
    session.tables.pipes.openEndpoints = 2 := by
  obtain ⟨session, history, finished, opened, pipes, records⟩ := exists_haunting
  refine ⟨session, history, contextual_of_take (by decide), finished,
    ⟨⟨.first, ⟨1⟩, true⟩, ?_, rfl, ?_⟩,
    ⟨(haunting ⟨2, by decide⟩).take 10, _, (haunting ⟨2, by decide⟩).drop 11, rfl, rfl, by decide⟩,
    opened⟩
  · rw [PipeRegistry.holdings, pipes]
    decide
  · rw [InstanceTable.running, records]
    decide

/-- One of these ends was created late, by the child that had exited. -/
theorem exits_release_of_haunting : ∃ session,
    History quiet .free (haunting ⟨2, by decide⟩) session ∧
    Contextual (haunting ⟨2, by decide⟩) ∧ ⟨.first, ⟨1⟩, true⟩ ∈ session.tables.pipes.holdings ∧
    CreatedLate (haunting ⟨2, by decide⟩) .first ⟨1⟩ ∧
    CreatedPosthumously (haunting ⟨2, by decide⟩) .first := by
  obtain ⟨session, history, -, -, pipes, records⟩ := exists_haunting
  have contextual : Contextual (haunting ⟨2, by decide⟩) := contextual_of_take (by decide)
  have there : ⟨.first, ⟨1⟩, true⟩ ∈ session.tables.pipes.holdings := by
    rw [PipeRegistry.holdings, pipes]
    decide
  have gone : ⟨1⟩ ∉ session.tables.instances.running := by
    rw [InstanceTable.running, records]
    decide
  obtain ⟨owners, -, -, after⟩ := exits_release history contextual
  exact ⟨session, history, contextual, there, (owners _ there rfl).resolve_left gone,
    (after ⟨0, List.mem_of_getLast? rfl⟩).1 _ there rfl⟩

end Progeny.Session
