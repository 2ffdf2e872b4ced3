import Mathlib.Data.List.Induction
import Progeny.Proofs.Session.Moves

/-! The log of a session, read from its beginning: what it says of the instances and of the open
endpoints is what the tables hold, and no event stands in it without those that it rests on. -/

namespace Progeny

/-- What a log says of an instance. -/
structure Account where
  id : InstanceId
  parent : Option InstanceId
  state : Lifecycle
  fault : Option String
  deriving DecidableEq

/-- What a log says of all instances, and of the open endpoints with their owners. -/
structure Ledger where
  accounts : List Account := []
  holders : List (Endpoint × InstanceId) := []
  deriving DecidableEq

/-- What another event says. -/
def Ledger.read (ledger : Ledger) : Event → Ledger
  | .spawned id parent endpoints =>
    { accounts := ledger.accounts ++ [⟨id, parent, .running, none⟩]
      holders := ledger.holders.map fun (endpoint, owner) =>
        (endpoint, if endpoint ∈ endpoints then id else owner) }
  | .exited id code fault =>
    { ledger with accounts := ledger.accounts.map fun account =>
        if account.id = id then { account with state := .exited code, fault := fault }
        else account }
  | .joined .. => ledger
  | .pipeCreated id first second =>
    { ledger with holders := ledger.holders ++ [(first, id), (second, id)] }
  | .pipeClosed _ endpoint =>
    { ledger with holders := ledger.holders.filter fun (other, _) => other ≠ endpoint }

namespace Event

/-- The instance that an event adds. -/
def spawned? : Event → Option InstanceId
  | .spawned id _ _ => some id
  | _ => none

/-- The instance whose exit an event tells. -/
def exited? : Event → Option InstanceId
  | .exited id _ _ => some id
  | _ => none

/-- The endpoints that an event adds. -/
def created : Event → List Endpoint
  | .pipeCreated _ first second => [first, second]
  | _ => []

/-- The endpoint that an event removes. -/
def closed? : Event → Option Endpoint
  | .pipeClosed _ endpoint => some endpoint
  | _ => none

end Event

namespace Log

/-- What a log says from its beginning to its end. -/
def replay (log : List Event) : Ledger :=
  log.foldl Ledger.read {}

/-- The instances that were spawned, in this order. -/
def spawns (log : List Event) : List InstanceId :=
  log.filterMap Event.spawned?

/-- The instances that exited, in this order. -/
def exits (log : List Event) : List InstanceId :=
  log.filterMap Event.exited?

/-- The endpoints that were created, in this order. -/
def creations (log : List Event) : List Endpoint :=
  log.flatMap Event.created

/-- The endpoints that were closed, in this order. -/
def closures (log : List Event) : List Endpoint :=
  log.filterMap Event.closed?

/-- Whether an event has what it rests on: a new identity or new endpoints, an instance that runs or
has exited, or the owner of an open endpoint. -/
def Follows (earlier : List Event) : Event → Prop
  | .spawned id parent endpoints => id ∉ spawns earlier ∧ ∀ endpoint ∈ endpoints, ∃ owner,
      parent = some owner ∧ (endpoint, owner) ∈ (replay earlier).holders
  | .exited id _ _ => ∃ account ∈ (replay earlier).accounts,
      account.id = id ∧ account.state = .running
  | .joined _ target code => ∃ account ∈ (replay earlier).accounts,
      account.id = target ∧ account.state = .exited code
  | .pipeCreated _ first second => (creations earlier ++ [first, second]).Nodup
  | .pipeClosed id endpoint => (endpoint, id) ∈ (replay earlier).holders

/-- A log in which every event has what it rests on. -/
inductive Regular : List Event → Prop where
  | nil : Regular []
  | concat {earlier : List Event} {event : Event} (regular : Regular earlier)
      (follows : Follows earlier event) : Regular (earlier ++ [event])

variable {log earlier later : List Event} {event : Event}

@[simp] theorem replay_concat (log : List Event) (event : Event) :
    replay (log ++ [event]) = (replay log).read event := by
  simp [replay]

@[simp] theorem spawns_concat (log : List Event) (event : Event) :
    spawns (log ++ [event]) = spawns log ++ event.spawned?.toList := by
  cases event <;> simp [spawns, Event.spawned?]

@[simp] theorem exits_concat (log : List Event) (event : Event) :
    exits (log ++ [event]) = exits log ++ event.exited?.toList := by
  cases event <;> simp [exits, Event.exited?]

@[simp] theorem creations_concat (log : List Event) (event : Event) :
    creations (log ++ [event]) = creations log ++ event.created := by
  simp [creations]

@[simp] theorem closures_concat (log : List Event) (event : Event) :
    closures (log ++ [event]) = closures log ++ event.closed?.toList := by
  cases event <;> simp [closures, Event.closed?]

/-- Every instance that was spawned has an account. -/
theorem ids_replay (log : List Event) : (replay log).accounts.map Account.id = spawns log := by
  -- Exits change accounts in place.
  induction log using List.reverseRecOn with
  | nil => rfl
  | append_singleton log event ih =>
    rw [replay_concat, spawns_concat, ← ih]
    cases event with
    | spawned => simp [Ledger.read, Event.spawned?]
    | exited id code fault =>
      have same : Account.id ∘ (fun account : Account => if account.id = id then
          { account with state := .exited code, fault := fault } else account) = Account.id := by
        funext account
        simp only [Function.comp_apply]
        split <;> rfl
      simp [Ledger.read, Event.spawned?, same]
    | joined | pipeCreated | pipeClosed => simp [Ledger.read, Event.spawned?]

/-- An account tells of an exit only if the log does, with the same code and fault. -/
theorem exited_of_account {account : Account} {code : Int8}
    (there : account ∈ (replay log).accounts) (exited : account.state = .exited code) :
    .exited account.id code account.fault ∈ log := by
  -- New accounts run, and only an exit changes one.
  induction log using List.reverseRecOn generalizing account with
  | nil => simp [replay] at there
  | append_singleton log event ih =>
    rw [replay_concat] at there
    rw [List.mem_append, List.mem_singleton]
    cases event with
    | spawned id parent endpoints =>
      simp only [Ledger.read, List.mem_append, List.mem_singleton] at there
      rcases there with older | rfl
      · exact .inl (ih older exited)
      · simp at exited
    | exited id code fault =>
      simp only [Ledger.read, List.mem_map] at there
      obtain ⟨before, older, rfl⟩ := there
      -- The event speaks of this account, or it left the account as it was.
      split at exited <;> rename_i own
      · rw [if_pos own]
        simp_all
      · rw [if_neg own]
        exact .inl (ih older exited)
    | joined | pipeCreated | pipeClosed => exact .inl (ih there exited)

namespace Regular

/-- In a regular log every event has what it rests on. -/
theorem split (regular : Regular (earlier ++ event :: later)) :
    Regular earlier ∧ Follows earlier event := by
  -- The last event is the one in question, or it belongs to those that come later.
  generalize same : earlier ++ event :: later = whole at regular
  induction regular generalizing later with
  | nil => simp at same
  | @concat before last regular follows ih =>
    rcases List.eq_nil_or_concat later with rfl | ⟨shorter, final, rfl⟩
    · obtain ⟨rfl, alike⟩ := List.append_inj' same rfl
      obtain rfl := List.singleton_inj.mp alike
      exact ⟨regular, follows⟩
    · have regrouped : (earlier ++ event :: shorter) ++ [final] = before ++ [last] := by
        rw [← same]
        simp
      exact ih (List.append_inj' regrouped rfl).1

variable (regular : Regular log)
include regular

/-- Every instance is spawned once. -/
theorem nodup_spawns : (spawns log).Nodup := by
  -- Event by event: a spawn adds an identity that is not listed yet.
  induction regular with
  | nil => exact List.nodup_nil
  | @concat earlier event _ follows ih =>
    rw [spawns_concat]
    cases event with
    | spawned id parent endpoints => simpa [Event.spawned?] using ih.concat follows.1
    | exited | joined | pipeCreated | pipeClosed => simpa [Event.spawned?] using ih

/-- Whoever exits was spawned. -/
theorem exits_subset : exits log ⊆ spawns log := by
  -- An exit asks for an account, and accounts come from spawns.
  induction regular with
  | nil => exact List.Subset.refl _
  | @concat earlier event _ follows ih =>
    rw [exits_concat, spawns_concat]
    cases event with
    | exited id code fault =>
      obtain ⟨account, there, rfl, -⟩ := follows
      have spawned := List.mem_map_of_mem (f := Account.id) there
      rw [ids_replay] at spawned
      simpa [Event.exited?, Event.spawned?] using And.intro ih spawned
    | spawned | joined | pipeCreated | pipeClosed =>
      simpa [Event.exited?] using List.Subset.trans ih (List.subset_append_left _ _)

/-- An instance that runs by its account has not exited. -/
theorem running_notMem {account : Account} (there : account ∈ (replay log).accounts)
    (running : account.state = .running) : account.id ∉ exits log := by
  induction regular generalizing account with
  | nil => simp [replay] at there
  | @concat earlier event regular follows ih =>
    rw [replay_concat] at there
    rw [exits_concat]
    cases event with
    | spawned id parent endpoints =>
      simp only [Ledger.read, List.mem_append, List.mem_singleton] at there
      rcases there with older | rfl
      · simpa [Event.exited?] using ih older running
      · -- Nobody exits before being spawned.
        simpa [Event.exited?] using fun member => follows.1 (regular.exits_subset member)
    | exited id code fault =>
      simp only [Ledger.read, List.mem_map] at there
      obtain ⟨before, older, rfl⟩ := there
      split at running <;> rename_i own
      · simp at running
      · rw [if_neg own]
        simpa [Event.exited?, own] using ih older running
    | joined | pipeCreated | pipeClosed => simpa [Event.exited?] using ih there running

/-- Every instance exits at most once. -/
theorem nodup_exits : (exits log).Nodup := by
  -- An exit asks for an account that runs.
  induction regular with
  | nil => exact List.nodup_nil
  | @concat earlier event regular follows ih =>
    rw [exits_concat]
    cases event with
    | exited id code fault =>
      obtain ⟨account, there, rfl, running⟩ := follows
      simpa [Event.exited?] using ih.concat (regular.running_notMem there running)
    | spawned | joined | pipeCreated | pipeClosed => simpa [Event.exited?] using ih

/-- Every endpoint is created once. -/
theorem nodup_creations : (creations log).Nodup := by
  -- Only new endpoints are added.
  induction regular with
  | nil => exact List.nodup_nil
  | @concat earlier event _ follows ih =>
    rw [creations_concat]
    cases event with
    | pipeCreated id first second => exact follows
    | spawned | exited | joined | pipeClosed => simpa [Event.created] using ih

/-- The open endpoints are those that were created and not closed, and only what was created is
closed. -/
theorem endpoints_replay :
    (replay log).holders.map Prod.fst = (creations log).filter (· ∉ closures log) ∧
      closures log ⊆ creations log := by
  -- The second part is needed for the first: what is created was not closed before.
  induction regular with
  | nil => exact ⟨rfl, List.Subset.refl _⟩
  | @concat earlier event _ follows ih =>
    obtain ⟨same, before⟩ := ih
    rw [replay_concat, creations_concat, closures_concat]
    cases event with
    | spawned id parent endpoints =>
      simpa [Ledger.read, Event.created, Event.closed?, Function.comp_def] using And.intro same before
    | exited | joined => simpa [Ledger.read, Event.created, Event.closed?] using And.intro same before
    | pipeCreated id first second =>
      -- New endpoints were not closed before they were created.
      have fresh : ∀ endpoint ∈ [first, second], endpoint ∉ closures earlier :=
        fun endpoint new old => List.disjoint_of_nodup_append follows (before old) new
      refine ⟨?_, ?_⟩
      · simp [Ledger.read, Event.created, Event.closed?, List.filter_append, same,
          fresh first (by simp), fresh second (by simp)]
      · simpa [Event.closed?] using List.Subset.trans before (List.subset_append_left _ _)
    | pipeClosed id endpoint =>
      have own : endpoint ∈ (replay earlier).holders.map Prod.fst := List.mem_map_of_mem follows
      refine ⟨?_, ?_⟩
      · have others : ((replay earlier).read (.pipeClosed id endpoint)).holders.map Prod.fst =
            ((replay earlier).holders.map Prod.fst).filter (· ≠ endpoint) := by
          rw [List.filter_map]
          rfl
        rw [others, same, List.filter_filter]
        simp [Event.created, Event.closed?, and_comm]
      · rw [same] at own
        simpa [Event.created, Event.closed?] using ⟨before, (List.mem_filter.mp own).1⟩

/-- Every endpoint is closed at most once. -/
theorem nodup_closures : (closures log).Nodup := by
  -- A closure asks for an open endpoint, and what was closed is not open.
  induction regular with
  | nil => exact List.nodup_nil
  | @concat earlier event regular follows ih =>
    rw [closures_concat]
    cases event with
    | pipeClosed id endpoint =>
      have own : endpoint ∈ (replay earlier).holders.map Prod.fst := List.mem_map_of_mem follows
      rw [regular.endpoints_replay.1] at own
      simpa [Event.closed?] using ih.concat (by simpa using (List.mem_filter.mp own).2)
    | spawned | exited | joined | pipeCreated => simpa [Event.closed?] using ih

/-- Whatever was created is open or was closed. -/
theorem balance :
    (creations log).length = (closures log).length + (replay log).holders.length := by
  obtain ⟨same, closed⟩ := regular.endpoints_replay
  -- The closed ones among those that were created are all that were closed.
  have gone : ((creations log).filter (· ∈ closures log)).Perm (closures log) := by
    rw [List.perm_ext_iff_of_nodup (regular.nodup_creations.filter _) regular.nodup_closures]
    intro endpoint
    simpa using fun member => closed member
  have parts := List.length_eq_length_filter_add (l := creations log) (· ∈ closures log)
  have left : (replay log).holders.length =
      ((creations log).filter (· ∉ closures log)).length := by
    rw [← same, List.length_map]
  rw [parts, gone.length_eq, left]
  simp

end Regular

end Log

namespace Register

/-- The instances and the open ends with their owners. -/
def ledger (register : Register) : Ledger where
  accounts := register.instances.records.map fun record =>
    ⟨record.id, record.parent, record.state, record.fault⟩
  holders := (register.holdings.filter Holding.isOpen).map fun holding =>
    (holding.endpoint, holding.owner)

variable {register after : Register} {event : Event}

/-- What a move reports is what it does. -/
theorem Move.ledger (move : Move register event after) :
    after.ledger = register.ledger.read event := by
  -- Both sides change the same entries of the two lists.
  cases move with
  | @spawns parent depth endpoints named held =>
    simp [Register.ledger, Ledger.read, InstanceTable.enlist, List.filter_map, Function.comp_def,
      Holding.give]
  | @exits id code fault running =>
    simp only [Register.ledger, Ledger.read, InstanceTable.retire, List.map_map, Ledger.mk.injEq,
      and_true]
    refine List.map_congr_left fun record _ => ?_
    simp only [Function.comp_apply]
    split <;> rfl
  | joins exited => rfl
  | connects fresh => simp [Register.ledger, Ledger.read, Holding.both]
  | closes held =>
    simp [Register.ledger, Ledger.read, List.filter_map, List.filter_filter, Function.comp_def,
      Holding.shut, Bool.and_comm]

/-- An end is open exactly if the ledger names its owner. -/
theorem mem_holders {endpoint : Endpoint} {owner : InstanceId} :
    (endpoint, owner) ∈ register.ledger.holders ↔ ⟨endpoint, owner, true⟩ ∈ register.holdings := by
  simp only [ledger, List.mem_map, List.mem_filter, Prod.mk.injEq]
  constructor
  · rintro ⟨⟨_, _, _⟩, ⟨there, rfl⟩, rfl, rfl⟩
    exact there
  · exact fun there => ⟨_, ⟨there, rfl⟩, rfl, rfl⟩

/-- A record that is found has its account. -/
theorem Valid.mem_accounts (valid : register.Valid) {id : InstanceId} {record : InstanceRecord}
    (found : register.instances.find? id = some record) :
    ∃ account ∈ register.ledger.accounts, account.id = id ∧ account.state = record.state :=
  ⟨_, List.mem_map_of_mem (List.mem_of_find?_eq_some found), valid.indexed.id_of_find? found, rfl⟩

/-- A regular log that tells what there is, and which endpoints there ever were. -/
structure Told (log : List Event) (register : Register) : Prop where
  valid : register.Valid
  regular : Log.Regular log
  replayed : Log.replay log = register.ledger
  created : Log.creations log = register.holdings.map Holding.endpoint

namespace Told

variable {log events : List Event} (told : Told log register)
include told

/-- The log goes on with what a move reports. -/
theorem move (move : Move register event after) : Told (log ++ [event]) after where
  valid := move.valid told.valid
  regular := by
    refine told.regular.concat ?_
    -- What a move asks of the register the log tells of it.
    cases move with
    | spawns named held =>
      refine ⟨?_, fun endpoint listed => ?_⟩
      · rw [← Log.ids_replay, told.replayed]
        simpa [ledger, Function.comp_def] using told.valid.indexed.next_notMem
      · obtain ⟨owner, same, there⟩ := held endpoint listed
        exact ⟨owner, same, by rw [told.replayed]; exact mem_holders.mpr there⟩
    | exits running =>
      obtain ⟨record, found, state⟩ := told.valid.indexed.mem_running.mp running
      obtain ⟨account, there, own, same⟩ := told.valid.mem_accounts found
      exact ⟨account, by rw [told.replayed]; exact there, own, same.trans state⟩
    | @joins id target code exited =>
      obtain ⟨record, found, state⟩ := Option.bind_eq_some_iff.mp exited
      obtain ⟨account, there, own, same⟩ := told.valid.mem_accounts found
      refine ⟨account, by rw [told.replayed]; exact there, own, same.trans ?_⟩
      cases stage : record.state with
      | running => simp [stage, Lifecycle.exitCode] at state
      | exited other => simpa [stage, Lifecycle.exitCode] using state
    | connects fresh =>
      rw [List.map_append, ← told.created] at fresh
      exact fresh
    | closes held =>
      change _ ∈ (Log.replay log).holders
      rw [told.replayed]
      exact mem_holders.mpr held
  replayed := by rw [Log.replay_concat, told.replayed, move.ledger]
  created := by
    rw [Log.creations_concat, told.created]
    cases move with
    | spawns | closes => simp [Event.created, Function.comp_def]
    | exits | joins => simp [Event.created]
    | connects => simp [Event.created, Holding.both]

/-- The log goes on with what is reported of some moves. -/
theorem moves (moves : Moves register events after) : Told (log ++ events) after := by
  -- The events are appended one by one.
  induction moves with
  | here => simpa using told
  | further _ move ih =>
    rw [← List.append_assoc]
    exact ih.move move

end Told

end Register

namespace Session

variable {π β σ : Type} {behaviour : Behaviour π β σ} {deeds : List (Deed π)}
  {session : Session π β σ}

/-- If events are kept, they tell what the tables hold. -/
theorem History.told {discipline : Discipline}
    (history : History behaviour discipline deeds session)
    (kept : session.tables.journal.isKept = true) :
    session.tables.register.Told session.tables.journal.entries := by
  refine history.induction (fun _ session => session.tables.journal.isKept = true →
    session.tables.register.Told session.tables.journal.entries) ?_ ?_ kept
  · intro config load keepsEvents tables shared valid _
    obtain rfl := new_eq valid
    have orderly : (ofTables _ shared : Session π β σ).Orderly := orderly_ofTables valid shared
    exact ⟨orderly.sound.register, .nil, rfl, rfl⟩
  · -- Whatever the deed is, it is some moves with their events.
    intro earlier before next deed steady told step kept
    obtain ⟨events, moves, journal⟩ := step.reported steady
    rw [journal, Journal.isKept_addAll] at kept
    rw [journal, Journal.addAll_eq kept]
    exact (told kept).moves moves

/-- A log tells what some tables hold, and nothing that it does not account for. -/
structure Faithful (log : List Event) (tables : Tables π) : Prop where
  /-- Read from its beginning, the log gives every instance with its parent, its stage and its
  fault, and every open endpoint with its owner. -/
  replayed : Log.replay log = tables.register.ledger
  /-- Every instance is spawned once. -/
  spawned : Log.spawns log = tables.instances.records.map InstanceRecord.id ∧
    (Log.spawns log).Nodup
  /-- An instance exits at most once, and after it was spawned. -/
  exited : (Log.exits log).Nodup ∧ ∀ earlier id code fault later,
    log = earlier ++ .exited id code fault :: later → id ∈ Log.spawns earlier
  /-- Every endpoint is created once. -/
  created : Log.creations log = tables.pipes.holdings.map Holding.endpoint ∧
    (Log.creations log).Nodup
  /-- An endpoint is closed at most once, and by whoever owns it then. -/
  closed : (Log.closures log).Nodup ∧ ∀ earlier owner endpoint later,
    log = earlier ++ .pipeClosed owner endpoint :: later →
    (endpoint, owner) ∈ (Log.replay earlier).holders
  /-- Endpoints are handed on by their owner. -/
  handed : ∀ earlier id parent endpoints later,
    log = earlier ++ .spawned id parent endpoints :: later → ∀ endpoint ∈ endpoints,
    ∃ owner, parent = some owner ∧ (endpoint, owner) ∈ (Log.replay earlier).holders
  /-- What was created and not closed is open. -/
  balance : (Log.creations log).length = (Log.closures log).length + tables.pipes.openEndpoints
  /-- An exit code that was learnt is that of an exit before. -/
  joined : ∀ earlier id target code later, log = earlier ++ .joined id target code :: later →
    ∃ fault, .exited target code fault ∈ earlier

/-- Whatever programs do in a session, its log tells what its tables hold, if events are kept. -/
theorem log_faithful (history : History behaviour .free deeds session)
    (kept : session.tables.journal.isKept = true) :
    Faithful session.tables.journal.entries session.tables := by
  have told := history.told kept
  have follows {earlier later : List Event} {event : Event}
      (same : session.tables.journal.entries = earlier ++ event :: later) :
      Log.Regular earlier ∧ Log.Follows earlier event := (same ▸ told.regular).split
  exact {
    replayed := told.replayed
    spawned := by
      refine ⟨?_, told.regular.nodup_spawns⟩
      rw [← Log.ids_replay, told.replayed]
      simp [Register.ledger, Tables.register]
    exited := by
      refine ⟨told.regular.nodup_exits, fun earlier id code fault later same => ?_⟩
      obtain ⟨account, there, rfl, -⟩ := (follows same).2
      rw [← Log.ids_replay]
      exact List.mem_map_of_mem there
    created := ⟨told.created, told.regular.nodup_creations⟩
    closed := ⟨told.regular.nodup_closures, fun _ _ _ _ same => (follows same).2⟩
    handed := fun _ _ _ _ _ same => (follows same).2.2
    balance := by
      rw [told.regular.balance, told.replayed, history.steady.orderly.sound.counted.eq_length]
      simp [Register.ledger, Tables.register]
    joined := by
      intro earlier id target code later same
      obtain ⟨account, there, rfl, exited⟩ := (follows same).2
      exact ⟨_, Log.exited_of_account there exited⟩ }

/-- The log of a bequest. -/
theorem log_faithful_of_bequest :
    ∃ session, History quiet .free bequest session ∧ session.tables.journal.isKept = true ∧
      Log.exits session.tables.journal.entries = [⟨1⟩] ∧
      Faithful session.tables.journal.entries session.tables := by
  obtain ⟨session, history, -, journal⟩ := exists_bequest
  have kept : session.tables.journal.isKept = true := by rw [journal]
  exact ⟨session, history, kept, by rw [journal]; rfl, log_faithful history kept⟩

end Session

end Progeny
