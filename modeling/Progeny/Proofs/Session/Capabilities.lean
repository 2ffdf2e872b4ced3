import Progeny.Proofs.Session.Moves

/-! An endpoint is a capability: only its owner can do anything with it, only its owner can hand it
on, and only to a child of its own. -/

namespace Progeny

/-- Whether an instance was created by another, or by one that was, and so on. Every instance
descends from itself. -/
def InstanceTable.Descends (table : InstanceTable) : InstanceId → InstanceId → Prop :=
  Relation.ReflTransGen fun parent child =>
    ∃ record, table.find? child = some record ∧ record.parent = some parent

namespace Register

variable {register after : Register} {event : Event} {events : List Event}

/-- Whoever descends from an instance does so for good. -/
theorem Moves.descends (valid : register.Valid) (moves : Moves register events after)
    {ancestor heir : InstanceId} (descends : register.instances.Descends ancestor heir) :
    after.instances.Descends ancestor heir := by
  -- Every parent on the way up is still recorded.
  refine Relation.ReflTransGen.mono ?_ _ _ descends
  rintro parent child ⟨record, found, own⟩
  obtain ⟨-, later, there, same⟩ := moves.parent valid found
  exact ⟨later, there, same.trans own⟩

/-- A move leaves an end with its owner, or with a new child of its owner. -/
theorem Move.heir (valid : register.Valid) (move : Move register event after) {holding : Holding}
    (there : holding ∈ register.holdings) :
    ∃ later ∈ after.holdings, later.endpoint = holding.endpoint ∧
      after.instances.Descends holding.owner later.owner := by
  -- Only a spawn changes an owner.
  cases move with
  | @spawns parent depth endpoints named held =>
    refine ⟨_, List.mem_map_of_mem there, rfl, ?_⟩
    simp only [Holding.give]
    split
    · rename_i listed
      -- What is handed on was the parent's.
      obtain ⟨owner, same, own⟩ := held holding.endpoint listed
      have only := List.inj_on_of_nodup_map valid.distinct there own rfl
      obtain rfl : holding.owner = owner := congrArg Holding.owner only
      refine .single ⟨⟨⟨register.instances.nextId⟩, parent, depth, .running, none⟩, ?_, same⟩
      rw [valid.indexed.find?_enlist named, if_pos rfl]
    · exact .refl
  | exits | joins => exact ⟨holding, there, rfl, .refl⟩
  | connects => exact ⟨holding, List.mem_append_left _ there, rfl, .refl⟩
  | closes => exact ⟨_, List.mem_map_of_mem there, rfl, .refl⟩

/-- Some moves leave an end with a descendant of its owner. -/
theorem Moves.heir (valid : register.Valid) (moves : Moves register events after)
    {holding : Holding} (there : holding ∈ register.holdings) :
    after.Valid ∧ ∃ later ∈ after.holdings, later.endpoint = holding.endpoint ∧
      after.instances.Descends holding.owner later.owner := by
  -- Move by move the owner goes down the tree, and the way down to it stays.
  induction moves with
  | here => exact ⟨valid, holding, there, rfl, .refl⟩
  | further _ move ih =>
    obtain ⟨validToo, middle, still, same, descends⟩ := ih
    obtain ⟨later, last, sameToo, descendsToo⟩ := move.heir validToo still
    exact ⟨move.valid validToo, later, last, sameToo.trans same,
      (move.moves.descends validToo descends).trans descendsToo⟩

end Register

namespace Tables

variable {π : Type} {tables after : Tables π} {caller : InstanceId} {endpoint : Endpoint}

/-- Whether an instance is refused whatever it asks of an endpoint, with nothing changed. -/
structure Refuses (tables : Tables π) (caller : InstanceId) (endpoint : Endpoint) : Prop where
  /-- Reads and writes are refused with the endpoint. -/
  begun : ∀ request pending, request.pending? = some pending → pending.Uses endpoint →
    tables.perform caller request = (.finished (.error (.invalidEndpoint endpoint)), tables)
  /-- So are those that waited. -/
  resumed : ∀ pending : Pending, pending.Uses endpoint →
    tables.resume caller pending = (.finished (.error (.invalidEndpoint endpoint)), tables)
  /-- A child that is to take the endpoint is not created. -/
  handed : ∀ descriptor argv endpoints, endpoint ∈ endpoints → ∃ error,
    tables.perform caller (.spawn descriptor argv endpoints) = (.finished (.error error), tables)

/-- Whoever does not hold an open end is refused. -/
theorem Sound.refuses (sound : tables.Sound)
    (unheld : ⟨endpoint, caller, true⟩ ∉ tables.pipes.holdings) :
    tables.Refuses caller endpoint where
  begun request pending begins uses := by
    rw [perform_of_pending begins]
    exact resume_of_unheld sound uses unheld
  resumed pending uses := resume_of_unheld sound uses unheld
  handed descriptor argv endpoints listed := by
    have outcome := perform_case sound caller (.spawn descriptor argv endpoints)
    generalize tables.perform caller _ = result at outcome
    obtain ⟨progress, later⟩ := result
    cases outcome with
    | spawns _ held => exact absurd (held endpoint listed) unheld
    | refused => exact ⟨_, rfl⟩
    | exchanges begins => simp [Request.pending?] at begins

/-- Whoever does not own an end cannot close it. -/
theorem Sound.close_of_foreign (sound : tables.Sound)
    (foreign : ∀ isOpen, ⟨endpoint, caller, isOpen⟩ ∉ tables.pipes.holdings) :
    tables.perform caller (.close endpoint) =
      (.finished (.error (.invalidEndpoint endpoint)), tables) := by
  have outcome := sound.numbered.close_case caller endpoint
  simp only [perform, closeEndpoint]
  generalize tables.pipes.close caller endpoint = served at outcome ⊢
  cases outcome with
  | refused => simp [replyWith, settle_self, Except.map]
  | @repeated pipe found owned closed =>
    refine absurd (sound.numbered.mem_holdings.mpr ⟨pipe, found, ?_⟩) (foreign false)
    simp [PipeEnd.holding, sound.numbered.endpoint_of_found found, owned, closed]
  | @closes pipe holds =>
    exact absurd (sound.numbered.holds_iff.mp ⟨pipe, holds⟩) (foreign true)

/-- To tear down some instances shuts some ends and leaves all others as they were. -/
theorem Sound.holdings_foldl_teardown (sound : tables.Sound) (ids : List InstanceId) :
    ∃ endpoints, (ids.foldl teardown tables).pipes.holdings =
      tables.pipes.holdings.map (Holding.shut endpoints) := by
  -- The ends of the first instance are shut before those of the rest.
  induction ids generalizing tables with
  | nil => exact ⟨[], by simp⟩
  | cons id rest ih =>
    obtain ⟨endpoints, same⟩ := ih (sound.foldl_teardown [id]).1
    have closed : (tables.teardown id).pipes.holdings =
        tables.pipes.holdings.map (Holding.shut (tables.pipes.ownedBy id)) := by
      rw [teardown_eq]
      exact sound.numbered.holdings_closeAll _
    refine ⟨tables.pipes.ownedBy id ++ endpoints, same.trans ?_⟩
    change List.map _ (tables.teardown id).pipes.holdings = _
    rw [closed, List.map_map]
    exact List.map_congr_left fun holding _ => holding.shut_append _ _

end Tables

/-- An end that is shut was open before, or stays as it was. -/
theorem Holding.shut_cases (endpoints : List Endpoint) (holding : Holding) :
    holding.shut endpoints = holding ∨ holding.isOpen = true ∧ holding.endpoint ∈ endpoints ∧
      holding.shut endpoints = { holding with isOpen := false } := by
  obtain ⟨endpoint, owner, isOpen⟩ := holding
  by_cases listed : endpoint ∈ endpoints <;> cases isOpen <;> simp [shut, listed]

namespace Session

variable {π β σ : Type} {behaviour : Behaviour π β σ} {deeds more : List (Deed π)} {deed : Deed π}
  {session after : Session π β σ} {holding : Holding}

/-- The endpoints that a deed creates, each with its creator. -/
def Deed.created : Deed π → List (Endpoint × InstanceId)
  | .calls creator .pipe (.finished (.ok (.endpoints first second))) =>
    [(first, creator), (second, creator)]
  | _ => []

/-- The endpoints that some deeds create, each with its creator. -/
def origins (deeds : List (Deed π)) : List (Endpoint × InstanceId) :=
  deeds.flatMap Deed.created

/-- Whether a deed creates a child of an instance that is to take an endpoint. -/
def Deed.Hands (endpoint : Endpoint) (parent child : InstanceId) (deed : Deed π) : Prop :=
  ∃ descriptor argv endpoints, endpoint ∈ endpoints ∧
    deed = .calls parent (.spawn descriptor argv endpoints) (.finished (.ok (.instance child)))

/-- Whether a deed closes an endpoint for an instance, perhaps once more. -/
def Deed.Closes (endpoint : Endpoint) (caller : InstanceId) (deed : Deed π) : Prop :=
  deed = .calls caller (.close endpoint) (.finished (.ok .done))

/-- What a deed can make of an end. -/
inductive Fate (holding : Holding) (deed : Deed π) : Holding → Prop where
  /-- It stays with its owner. If it was asked to be closed, then by its owner and once more. -/
  | remains (kept : ∀ parent child, ¬deed.Hands holding.endpoint parent child)
      (again : ∀ caller, deed.Closes holding.endpoint caller →
        caller = holding.owner ∧ holding.isOpen = false) : Fate holding deed holding
  /-- Its owner hands it to a new child. -/
  | passes {child : InstanceId} (opened : holding.isOpen = true)
      (hands : deed.Hands holding.endpoint holding.owner child) :
    Fate holding deed { holding with owner := child }
  /-- It is closed by its owner, or as its owner ends, or at the end of the session. -/
  | closes (opened : holding.isOpen = true)
      (ending : deed.Closes holding.endpoint holding.owner ∨
        (∃ result, deed = .ends holding.owner result) ∨ ∃ code, deed = .finishes code) :
    Fate holding deed { holding with isOpen := false }

namespace Fate

/-- A deed that is no call of an instance leaves an end as it is, if it does not close it. -/
theorem of_no_call (other : ∀ caller request progress, deed ≠ .calls caller request progress) :
    Fate holding deed holding := by
  refine .remains (fun parent child hands => ?_) fun caller closes => ?_
  · obtain ⟨_, _, _, -, same⟩ := hands
    exact other _ _ _ same
  · exact absurd closes (other _ _ _)

/-- No deed changes the endpoint of an end. -/
theorem endpoint {later : Holding} (fate : Fate holding deed later) :
    later.endpoint = holding.endpoint := by
  cases fate <;> rfl

/-- No deed changes an end that is closed. -/
theorem of_closed {later : Holding} (fate : Fate holding deed later)
    (closed : holding.isOpen = false) : later = holding := by
  cases fate with
  | remains => rfl
  | passes opened | closes opened => simp [closed] at opened

end Fate

/-- What a deed makes of all ends: each has its fate, and those that it creates are added, open and
with their creator as their owner. -/
def Deed.Rearranges (deed : Deed π) (before after : List Holding) : Prop :=
  ∃ change : Holding → Holding,
    after = before.map change ++
      deed.created.map (fun (endpoint, creator) => ⟨endpoint, creator, true⟩) ∧
    ∀ holding ∈ before, Fate holding deed (change holding)

/-- A deed that is no call may leave all ends as they are. -/
theorem Deed.rearranges_of_no_call
    (other : ∀ caller request progress, deed ≠ .calls caller request progress)
    {before after : List Holding} (same : after = before) : deed.Rearranges before after := by
  have nothing : deed.created = [] := by
    cases deed with
    | calls caller request progress => exact absurd rfl (other caller request progress)
    | _ => rfl
  exact ⟨id, by simp [same, nothing], fun holding _ => .of_no_call other⟩

/-- What a call makes of all ends. -/
theorem Deed.rearranges_call {tables later : Tables π} (sound : tables.Sound)
    {caller : InstanceId} {request : Request} {progress : Progress}
    (outcome : Tables.CallCase tables caller request progress later) :
    (.calls caller request progress : Deed π).Rearranges tables.pipes.holdings
      later.pipes.holdings := by
  -- An endpoint stands for one end, whoever is said to own it.
  have only {holding : Holding} (there : holding ∈ tables.pipes.holdings) {owner : InstanceId}
      {isOpen : Bool} (member : ⟨holding.endpoint, owner, isOpen⟩ ∈ tables.pipes.holdings) :
      owner = holding.owner ∧ isOpen = holding.isOpen := by
    have same := sound.numbered.holding_unique member there rfl
    exact ⟨congrArg Holding.owner same, congrArg Holding.isOpen same⟩
  cases outcome with
  | @connects first second next numbers =>
    refine ⟨id, ?_, fun holding there =>
      .remains (by simp [Deed.Hands]) (by simp [Deed.Closes])⟩
    rw [List.map_id]
    exact PipeRegistry.holdings_extend _ _ _ _ _
  | @spawns descriptor argv endpoints program record loaded held found named =>
    refine ⟨Holding.give endpoints ⟨tables.instances.nextId⟩, ?_, fun holding there => ?_⟩
    · rw [← sound.numbered.holdings_transfer]
      exact (List.append_nil _).symm
    · by_cases listed : holding.endpoint ∈ endpoints
      · -- What the child takes was held by the caller.
        obtain ⟨rfl, opened⟩ := only there (held holding.endpoint listed)
        rw [Holding.give, if_pos listed]
        exact .passes opened.symm ⟨descriptor, argv, endpoints, listed, rfl⟩
      · rw [Holding.give, if_neg listed]
        refine .remains (fun parent child hands => ?_) (by simp [Deed.Closes])
        obtain ⟨_, _, _, member, same⟩ := hands
        simp only [Deed.calls.injEq, Request.spawn.injEq] at same
        exact listed (same.2.1.2.2 ▸ member)
  | @closes target pipe signals holds =>
    refine ⟨Holding.shut [target], ?_, fun holding there => ?_⟩
    · rw [← sound.numbered.holdings_shut holds]
      exact (List.append_nil _).symm
    · rcases holding.shut_cases [target] with same | ⟨opened, listed, same⟩
      · rw [same]
        refine .remains (by simp [Deed.Hands]) fun other closes => ?_
        -- What the caller held is not left as it was.
        simp only [Deed.Closes, Deed.calls.injEq, Request.close.injEq] at closes
        obtain ⟨-, rfl, -⟩ := closes
        have opened := (only there (sound.numbered.holds_iff.mp ⟨pipe, holds⟩)).2
        have shut := congrArg Holding.isOpen same
        simp [Holding.shut, ← opened] at shut
      · obtain rfl : holding.endpoint = target := by simpa using listed
        obtain ⟨rfl, -⟩ := only there (sound.numbered.holds_iff.mp ⟨pipe, holds⟩)
        rw [same]
        exact .closes opened (.inl rfl)
  | @repeats target closed =>
    refine ⟨id, by simp [Deed.created], fun holding there =>
      .remains (by simp [Deed.Hands]) fun other closes => ?_⟩
    simp only [Deed.Closes, Deed.calls.injEq, Request.close.injEq] at closes
    obtain ⟨rfl, rfl, -⟩ := closes
    exact ⟨(only there closed).1, (only there closed).2.symm⟩
  | refused immediate =>
    exact ⟨id, by simp [Deed.created], fun holding there =>
      .remains (by simp [Deed.Hands]) (by simp [Deed.Closes])⟩
  | exchanges begins exchanges =>
    obtain ⟨-, -, same, -⟩ := exchanges.keeps sound
    cases request with
    | pipe | spawn | close => simp [Request.pending?] at begins
    | join | read | readExact | readToEnd | write | writeAll =>
      exact ⟨id, by simp [Deed.created, same], fun holding there =>
        .remains (by simp [Deed.Hands]) (by simp [Deed.Closes])⟩

/-- What any deed makes of all ends. -/
theorem Step.rearranges {discipline : Discipline} {polled : Option InstanceId}
    (steady : Steady polled session) (step : Step behaviour discipline polled session deed after) :
    deed.Rearranges session.tables.pipes.holdings after.tables.pipes.holdings := by
  have sound := steady.orderly.sound
  -- Calls change ends by their cases, and the ends of instances shut those that were owned.
  cases step with
  | boots idle descriptor argv =>
    refine Deed.rearranges_of_no_call (by simp) ?_
    unfold boot
    rcases Tables.boot_case sound descriptor argv with ⟨error, same⟩ | ⟨_, _, _, _, same⟩
    · rw [same]
    · rw [same]
      rfl
  | starts =>
    refine Deed.rearranges_of_no_call (by simp) ?_
    rw [start_eq]
  | polls | stirs | rests => exact Deed.rearranges_of_no_call (by simp) rfl
  | @calls caller request progress tables _ performed =>
    exact Deed.rearranges_call sound (.of_perform sound performed)
  | @resumes caller pending progress tables _ resumed =>
    have exchanges := Tables.Exchanges.of_resume resumed
    exact Deed.rearranges_of_no_call (by simp) (exchanges.keeps sound).2.2.1
  | @ends id acting result =>
    have exited := Tables.exit_eq sound (steady.running acting) result
    refine ⟨Holding.shut (session.tables.pipes.ownedBy id), ?_, fun holding there => ?_⟩
    · change (session.tables.exit id result).pipes.holdings = _
      rw [exited, ← sound.numbered.holdings_closeAll]
      exact (List.append_nil _).symm
    · rcases holding.shut_cases (session.tables.pipes.ownedBy id) with
        same | ⟨opened, listed, same⟩
      · rw [same]
        exact .of_no_call (by simp)
      · have own := sound.numbered.holding_unique (sound.numbered.mem_ownedBy_iff.mp listed)
          there rfl
        rw [same]
        exact .closes opened (.inr (.inl ⟨result, by rw [← own]⟩))
  | @finishes root code idle ongoing booted exited =>
    obtain ⟨endpoints, same⟩ := sound.holdings_foldl_teardown
      (session.liveInstances ++ session.tables.launches.map Launch.id)
    refine ⟨Holding.shut endpoints, same.trans (List.append_nil _).symm, fun holding there => ?_⟩
    rcases holding.shut_cases endpoints with same | ⟨opened, listed, same⟩
    · rw [same]
      exact .of_no_call (by simp)
    · rw [same]
      exact .closes opened (.inr (.inr ⟨code, rfl⟩))

/-- Where a deed rearranges all ends, each of them has its fate. -/
theorem Deed.Rearranges.fate {before after : List Holding} (rearranges : deed.Rearranges before after)
    (there : holding ∈ before) : ∃ later ∈ after, Fate holding deed later := by
  obtain ⟨change, rfl, fates⟩ := rearranges
  exact ⟨_, List.mem_append_left _ (List.mem_map_of_mem there), fates holding there⟩

/-- Where a deed rearranges all ends, the endpoints stay, and those that it creates are added. -/
theorem Deed.Rearranges.endpoints {before after : List Holding}
    (rearranges : deed.Rearranges before after) :
    after.map Holding.endpoint = before.map Holding.endpoint ++ deed.created.map Prod.fst := by
  obtain ⟨change, rfl, fates⟩ := rearranges
  rw [List.map_append, List.map_map, List.map_map]
  congr 1
  exact List.map_congr_left fun holding there => (fates holding there).endpoint

/-- A closed end stays as it is, whatever happens. -/
theorem History.stays_closed {discipline : Discipline}
    (history : History behaviour discipline deeds session)
    (there : holding ∈ session.tables.pipes.holdings) (closed : holding.isOpen = false)
    (course : Course behaviour discipline deeds session more after) :
    holding ∈ after.tables.pipes.holdings := by
  -- Of a closed end every deed makes itself.
  induction course with
  | here => exact there
  | further course step ih =>
    have steady := (history.course course).steady
    obtain ⟨later, still, fate⟩ := (step.rearranges steady).fate ih
    exact fate.of_closed closed ▸ still

/-- Every endpoint was created by somebody, and its owner descends from its creator. -/
structure Originated (deeds : List (Deed π)) (session : Session π β σ) : Prop where
  created : (origins deeds).map Prod.fst = session.tables.pipes.holdings.map Holding.endpoint
  descends : ∀ endpoint creator, (endpoint, creator) ∈ origins deeds →
    ∃ holding ∈ session.tables.pipes.holdings, holding.endpoint = endpoint ∧
      session.tables.instances.Descends creator holding.owner

/-- Whatever happens, the owner of an endpoint descends from its creator. -/
theorem History.originated {discipline : Discipline}
    (history : History behaviour discipline deeds session) : Originated deeds session := by
  refine history.induction (fun deeds session => Originated deeds session) ?_ ?_
  · intro config load keepsEvents tables shared valid
    obtain rfl := new_eq valid
    exact ⟨rfl, by simp [origins]⟩
  · intro earlier before next deed steady originated step
    have rearranges := step.rearranges steady
    have grown : origins (earlier ++ [deed]) = origins earlier ++ deed.created := by
      simp [origins]
    refine ⟨?_, fun endpoint creator created => ?_⟩
    · rw [grown, List.map_append, originated.created, rearranges.endpoints]
    · rw [grown, List.mem_append] at created
      rcases created with older | new
      · -- What an owner passes on stays among its descendants.
        obtain ⟨holding, there, rfl, descends⟩ := originated.descends endpoint creator older
        obtain ⟨events, moves, -⟩ := step.reported steady
        obtain ⟨-, later, still, same, heir⟩ := moves.heir steady.orderly.sound.register there
        exact ⟨later, still, same,
          (moves.descends steady.orderly.sound.register descends).trans heir⟩
      · obtain ⟨change, same, -⟩ := rearranges
        refine ⟨⟨endpoint, creator, true⟩, ?_, rfl, .refl⟩
        rw [same]
        exact List.mem_append_right _ (List.mem_map_of_mem new)

/-- An endpoint that an instance created is good for its owner alone. -/
structure Secured (behaviour : Behaviour π β σ) (deeds : List (Deed π)) (session : Session π β σ)
    (creator : InstanceId) (holding : Holding) : Prop where
  /-- It has one owner. -/
  held : holding ∈ session.tables.pipes.holdings
  unique : ∀ other ∈ session.tables.pipes.holdings, other.endpoint = holding.endpoint →
    other = holding
  /-- The owner is the creator or descends from it. -/
  descends : session.tables.instances.Descends creator holding.owner
  /-- It passes from its owner to a child that its owner creates to take it, and in no other way. It
  is closed by its owner, or as its owner ends, or at the end of the session. -/
  fate : ∀ deed after, Step behaviour .free (polling deeds) session deed after →
    ∃ later ∈ after.tables.pipes.holdings, Fate holding deed later
  /-- Once it is closed it stays so, with its owner. -/
  closed : holding.isOpen = false → ∀ more after, Course behaviour .free deeds session more after →
    holding ∈ after.tables.pipes.holdings
  /-- Nobody but its owner uses it or hands it on, and not even the owner once it is closed. -/
  refused : ∀ caller, ¬(caller = holding.owner ∧ holding.isOpen = true) →
    session.tables.Refuses caller holding.endpoint
  /-- Nobody but its owner closes it. -/
  spared : ∀ caller, caller ≠ holding.owner →
    session.tables.perform caller (.close holding.endpoint) =
      (.finished (.error (.invalidEndpoint holding.endpoint)), session.tables)

/-- Whatever programs do in a session, every endpoint is created once, and is good for its owner
alone. -/
theorem endpoints_secured (history : History behaviour .free deeds session) :
    (origins deeds).map Prod.fst = session.tables.pipes.holdings.map Holding.endpoint ∧
      ((origins deeds).map Prod.fst).Nodup ∧
      ∀ endpoint creator, (endpoint, creator) ∈ origins deeds →
        ∃ holding, holding.endpoint = endpoint ∧
          Secured behaviour deeds session creator holding := by
  have sound := history.steady.orderly.sound
  have originated := history.originated
  refine ⟨originated.created, ?_, fun endpoint creator created => ?_⟩
  · rw [originated.created]
    exact sound.numbered.nodup_endpoints
  · obtain ⟨holding, there, own, descends⟩ := originated.descends endpoint creator created
    have unique : ∀ other ∈ session.tables.pipes.holdings, other.endpoint = holding.endpoint →
        other = holding :=
      fun other member same => sound.numbered.holding_unique member there same
    refine ⟨holding, own, {
      held := there
      unique := unique
      descends := descends
      fate := fun deed after step => (step.rearranges history.steady).fate there
      closed := fun closed more after course => history.stays_closed there closed course
      refused := fun caller foreign => sound.refuses fun member => foreign ?_
      spared := fun caller foreign => sound.close_of_foreign fun isOpen member => foreign ?_ }⟩
    · have same := unique _ member rfl
      exact ⟨congrArg Holding.owner same, (congrArg Holding.isOpen same).symm⟩
    · exact congrArg Holding.owner (unique _ member rfl)

/-- The end that was handed on is the child's, although the first instance created it. -/
theorem endpoints_secured_of_bequest :
    ∃ session, History quiet .free bequest session ∧
      Secured quiet bequest session .root ⟨⟨2, by decide⟩, ⟨1⟩, false⟩ := by
  obtain ⟨session, history, pipes, -⟩ := exists_bequest
  obtain ⟨holding, own, secured⟩ :=
    (endpoints_secured history).2.2 ⟨2, by decide⟩ .root (by decide)
  have there : ⟨⟨2, by decide⟩, ⟨1⟩, false⟩ ∈ session.tables.pipes.holdings := by
    rw [PipeRegistry.holdings, pipes]
    decide
  obtain rfl := secured.unique _ there own.symm
  exact ⟨session, history, secured⟩

end Session

end Progeny
