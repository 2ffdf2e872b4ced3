import Progeny.Proofs.Workload.Exits

/-! Turns of instances of a workload. Each call either ends as it should, or the instance waits in
it with what is left, and in the end the instance exits with zero. -/

namespace Progeny

namespace Cast

open Workload Session

/-- An instance is to choose what to do: it closes an end that has moved all its bytes, or else does
what comes next. -/
inductive Ready (tree : SpawnTree) (sent : List Transmission) (cast : Cast) (id : InstanceId)
    (node : Nat) (actor : Actor) : Prop where
  | free (free : actor.closing = none) (plays : cast.Plays tree sent id node .choice actor)
  | closes {leg : Leg} {endpoint : Endpoint} (closing : actor.closing = some endpoint)
      (plays : cast.Plays tree sent id node (.move leg endpoint []) actor)

/-- An instance is in a call. By then it has created its pipes and spawned its children, and before
it joins a child it has moved all bytes. -/
inductive Engaged (tree : SpawnTree) (sent : List Transmission) (cast : Cast) (id : InstanceId)
    (node : Nat) (actor : Actor) : Pending → Prop where
  | joins {child : InstanceId} (errand : actor.errand = some .join) (free : actor.closing = none)
      (created : actor.pipes = []) (spawned : actor.spawns = []) (moved : actor.transfers = [])
      (plays : cast.Plays tree sent id node (.join child) actor) :
    Engaged tree sent cast id node actor (.join child)
  | sends {number : Nat} {endpoint : Endpoint} {rest : Bytes}
      (errand : actor.errand = some (.send endpoint))
      (created : actor.pipes = []) (spawned : actor.spawns = [])
      (plays : cast.Plays tree sent id node (.move (number, .second) endpoint rest) actor) :
    Engaged tree sent cast id node actor (.writeAll endpoint rest)
  | receives {number : Nat} {endpoint : Endpoint} {taken rest : Bytes}
      (errand : actor.errand = some (.receive endpoint (taken ++ rest)))
      (created : actor.pipes = []) (spawned : actor.spawns = [])
      (plays : cast.Plays tree sent id node (.move (number, .first) endpoint rest) actor) :
    Engaged tree sent cast id node actor (.readExact endpoint taken rest.length)

/-- What a call of an instance comes to, with the tables after it. -/
inductive Answer (tree : SpawnTree) (sent : List Transmission) (cast : Cast) (id : InstanceId)
    (node : Nat) (actor : Actor) : Progress × Tables Workload → Prop where
  | finished {after : Cast} {later : Tables Workload} {value : Value} {heir : Actor}
      (advances : Advances tree sent id node cast after later)
      (onwards : actor.next (.reply (.ok value)) = heir.choose)
      (ready : after.Ready tree sent id node heir) :
    Answer tree sent cast id node actor (.finished (.ok value), later)
  | blocked {after : Cast} {later : Tables Workload} {still : Blocked}
      (advances : Advances tree sent id node cast after later)
      (engaged : after.Engaged tree sent id node actor still.call) :
    Answer tree sent cast id node actor (.blocked still, later)

variable {tree : SpawnTree} {sent : List Transmission} {cast : Cast} {node : Nat}
  {tables : Tables Workload} {id : InstanceId} {actor : Actor}

/-- An instance that has created its pipes and spawned its children turns to its next leg, of which
it has the end. -/
theorem Plays.turn (suits : tree.Suits sent) (coherent : cast.Coherent tree sent)
    (plays : cast.Plays tree sent id node .choice actor) (created : actor.pipes = [])
    {transfer : Transfer} {rest : List Transfer} (waiting : actor.transfers = transfer :: rest)
    (errand : Endpoint → Errand) :
    ∃ number side endpoint, transfer = Workload.transfer sent (number, side) ∧
      actor.endpointOf (Transmission.pipeNumber number side) = .ok endpoint ∧
      cast.Plays tree sent id node (.move (number, side) endpoint (payload sent number))
        { actor with transfers := rest, errand := some (errand endpoint) } := by
  obtain ⟨past, future, legs, transfers, closed, fresh⟩ := plays.transfers
  rw [waiting] at transfers
  obtain ⟨⟨number, side⟩, later, rfl, rfl, rfl⟩ := List.map_eq_cons_iff.mp transfers.symm
  have own : (number, side) ∈ legsOf sent node := by simp [legs]
  obtain ⟨transmission, found, rfl⟩ := mem_legsOf.mp own
  have present := List.mem_of_getElem? plays.place
  have keeps := keeps_target suits found present
  -- The pipe is there: the node has created it, or the end was handed down to it.
  have served : number ∈ cast.edges := by
    rcases keeps.passed with meets | passes
    · by_contra unserved
      have member := (plays.pipes _).mpr ⟨number, transmission, found, meets.symm, rfl, unserved⟩
      simp [created] at member
    · exact coherent.needed found present passes
  have whole := fresh (number, side) (by simp)
  obtain ⟨endpoint, known, serves, same⟩ := plays.held found served keeps (by simp [whole])
  refine ⟨number, side, endpoint, rfl, by simp [Actor.endpointOf, known], ?_⟩
  refine ⟨plays.place, plays.alive, plays.code, plays.held, plays.pipesOnce, plays.pipes,
    plays.spawnsOnce, plays.spawns, ⟨past, later, legs, rfl, closed, fun leg member => ?_⟩, ?_,
    fun child under there => ?_, fun other listed => ?_⟩
  · exact fresh leg (by simp [member])
  · intro leg endpoint rest same
    obtain ⟨rfl, rfl, rfl⟩ := Pursuit.move.inj same
    exact ⟨whole, serves, ‹_›⟩
  · refine (plays.children child under there).imp_right ?_
    rintro ⟨other, placed, listed⟩
    exact ⟨other, placed, .inl (listed.resolve_right (by simp))⟩
  · exact plays.joined other (.inl (listed.resolve_right (by simp)))

/-- A call of an instance goes on as it should. -/
theorem Engaged.resume (suits : tree.Suits sent) (fits : cast.Fits tree sent tables)
    (apart : ∀ launch ∈ tables.launches, launch.id ≠ id) {call : Pending}
    (engaged : cast.Engaged tree sent id node actor call) :
    cast.Answer tree sent id node actor (tables.resume id call) := by
  -- Of each call it is known how it can come out; what remains is what the instance makes of it.
  cases engaged with
  | @joins child errand free created spawned moved plays =>
    obtain ⟨advances, outcome⟩ := fits.join suits apart plays
    unfold Tables.resume
    dsimp only
    generalize tables.join id child = result at advances outcome
    obtain ⟨progress, later⟩ := result
    rcases outcome with ⟨rfl, chooses⟩ | rfl
    · refine .finished advances ?_ (.free free chooses)
      have kept : actor.absorb .join (.code 0) = actor := by simp [Actor.absorb]
      unfold Actor.next
      rw [errand]
      exact congrArg Actor.choose kept
    · exact .blocked advances (.joins errand free created spawned moved plays)
  | @sends number endpoint rest errand created spawned plays =>
    obtain ⟨after, advances, outcome⟩ := fits.writeAll suits apart plays
    unfold Tables.resume
    dsimp only
    generalize tables.writeAll id endpoint rest = result at advances outcome
    obtain ⟨progress, later⟩ := result
    rcases outcome with ⟨rfl, moved⟩ | ⟨wait, left, rfl, moves⟩
    · refine .finished advances ?_ (.closes rfl (moved.errand actor.errand (some endpoint)))
      simp [Actor.next, errand, Actor.absorb]
    · exact .blocked advances (.sends errand created spawned moves)
  | @receives number endpoint taken rest errand created spawned plays =>
    obtain ⟨after, advances, outcome⟩ := fits.readExact suits apart rfl plays
    unfold Tables.resume
    dsimp only
    generalize tables.readExact id endpoint taken rest.length = result at advances outcome
    obtain ⟨progress, later⟩ := result
    rcases outcome with ⟨rfl, moved⟩ | ⟨wait, got, left, whole, rfl, moves⟩
    · refine .finished advances ?_ (.closes rfl (moved.errand actor.errand (some endpoint)))
      simp [Actor.next, errand, Actor.absorb]
    · exact .blocked advances (.receives (whole ▸ errand) created spawned moves)

/-- What an instance that is to choose chooses: it exits with zero and nothing left to do, or it
makes a call. -/
inductive Choice (tree : SpawnTree) (sent : List Transmission) (cast : Cast)
    (tables : Tables Workload) (id : InstanceId) (node : Nat) (actor : Actor) : Prop where
  | exits (chosen : actor.choose = .ok (.exit 0, actor)) (idle : actor.IsIdle)
      (plays : cast.Plays tree sent id node .choice actor)
  | calls {request : Request} {next : Actor} (chosen : actor.choose = .ok (.call request, next))
      (answer : cast.Answer tree sent id node next (tables.perform id request))

/-- With an end to close an instance closes it. -/
theorem Plays.choice_of_closing (suits : tree.Suits sent) (fits : cast.Fits tree sent tables)
    (apart : ∀ launch ∈ tables.launches, launch.id ≠ id) {leg : Leg} {endpoint : Endpoint}
    (closing : actor.closing = some endpoint)
    (plays : cast.Plays tree sent id node (.move leg endpoint []) actor) :
    cast.Choice tree sent tables id node actor := by
  refine .calls (Actor.Chooses.closes closing).choose ?_
  obtain ⟨after, advances, closed, chooses⟩ := fits.close suits apart plays
  unfold Tables.perform
  dsimp only
  generalize tables.closeEndpoint id endpoint = result at advances closed
  obtain ⟨_, later⟩ := result
  obtain rfl := closed
  exact .finished advances rfl (.free rfl (chooses.errand (some .close) none))

/-- With pipes to create an instance creates the first of them. -/
theorem Plays.choice_of_pipe (suits : tree.Suits sent) (fits : cast.Fits tree sent tables)
    (apart : ∀ launch ∈ tables.launches, launch.id ≠ id) (free : actor.closing = none)
    (plays : cast.Plays tree sent id node .choice actor) {plan : PipePlan} {pipes : List PipePlan}
    (waiting : actor.pipes = plan :: pipes) : cast.Choice tree sent tables id node actor := by
  refine .calls (Actor.Chooses.creates free waiting).choose ?_
  obtain ⟨after, first, second, advances, created, chooses⟩ :=
    fits.create suits apart plays waiting (some (.create plan))
  unfold Tables.perform
  dsimp only
  generalize tables.createPipe id = result at advances created
  obtain ⟨_, later⟩ := result
  obtain rfl := created
  exact .finished advances rfl (.free free chooses)

/-- With all pipes created an instance spawns the first of its children. -/
theorem Plays.choice_of_spawn (suits : tree.Suits sent) (fits : cast.Fits tree sent tables)
    (apart : ∀ launch ∈ tables.launches, launch.id ≠ id) (free : actor.closing = none)
    (created : actor.pipes = []) (plays : cast.Plays tree sent id node .choice actor)
    {plan : SpawnPlan} {spawns : List SpawnPlan} (waiting : actor.spawns = plan :: spawns) :
    cast.Choice tree sent tables id node actor := by
  obtain ⟨endpoints, held, after, later, heir, spawned, advances, chooses⟩ :=
    fits.spawn suits apart plays created waiting (some (.spawn plan))
  refine .calls (Actor.Chooses.spawns free created waiting held).choose ?_
  unfold Tables.perform
  dsimp only
  rw [spawned]
  exact .finished advances rfl (.free free chooses)

/-- With all children spawned an instance moves the bytes of its first leg. -/
theorem Plays.choice_of_transfer (suits : tree.Suits sent) (fits : cast.Fits tree sent tables)
    (apart : ∀ launch ∈ tables.launches, launch.id ≠ id) (free : actor.closing = none)
    (created : actor.pipes = []) (spawned : actor.spawns = [])
    (plays : cast.Plays tree sent id node .choice actor) {transfer : Transfer}
    {transfers : List Transfer} (waiting : actor.transfers = transfer :: transfers) :
    cast.Choice tree sent tables id node actor := by
  have turn := plays.turn suits fits.coherent created waiting
  -- Writing and reading differ in the call alone.
  cases transfer with
  | send pipe data =>
    obtain ⟨number, side, endpoint, same, held, moves⟩ := turn .send
    cases side with
    | first => simp [Workload.transfer] at same
    | second =>
      obtain ⟨rfl, rfl⟩ := Transfer.send.inj same
      refine .calls (Actor.Chooses.sends free created spawned waiting held).choose ?_
      exact Engaged.resume suits fits apart (@Engaged.sends _ _ _ _ _
        { actor with transfers := transfers, errand := some (.send endpoint) } _ _ _ rfl
        created spawned moves)
  | receive pipe expected =>
    obtain ⟨number, side, endpoint, same, held, moves⟩ :=
      turn fun endpoint => .receive endpoint expected
    cases side with
    | second => simp [Workload.transfer] at same
    | first =>
      obtain ⟨rfl, rfl⟩ := Transfer.receive.inj same
      refine .calls (Actor.Chooses.receives free created spawned waiting held).choose ?_
      exact Engaged.resume suits fits apart (@Engaged.receives _ _ _ _ _
        { actor with
          transfers := transfers
          errand := some (.receive endpoint (payload sent number)) } _ _ [] _ rfl
        created spawned moves)

/-- With all bytes moved an instance joins the first of its children. -/
theorem Plays.choice_of_join (suits : tree.Suits sent) (fits : cast.Fits tree sent tables)
    (apart : ∀ launch ∈ tables.launches, launch.id ≠ id) (free : actor.closing = none)
    (created : actor.pipes = []) (spawned : actor.spawns = []) (moved : actor.transfers = [])
    (plays : cast.Plays tree sent id node .choice actor) {child : InstanceId}
    {children : List InstanceId} (waiting : actor.children = child :: children) :
    cast.Choice tree sent tables id node actor := by
  refine .calls (Actor.Chooses.joins free created spawned moved waiting).choose ?_
  exact Engaged.resume suits fits apart (@Engaged.joins _ _ _ _ _
    { actor with children := children, errand := some .join } _ rfl free created spawned
    moved (plays.join waiting (some .join)))

/-- An instance never fails to choose, and no call of it fails. -/
theorem Ready.choice (suits : tree.Suits sent) (fits : cast.Fits tree sent tables)
    (apart : ∀ launch ∈ tables.launches, launch.id ≠ id)
    (ready : cast.Ready tree sent id node actor) :
    cast.Choice tree sent tables id node actor := by
  -- The cases are those of the choice, in the order of what comes first.
  cases ready with
  | closes closing plays => exact plays.choice_of_closing suits fits apart closing
  | free free plays =>
    cases created : actor.pipes with
    | cons plan pipes => exact plays.choice_of_pipe suits fits apart free created
    | nil =>
      cases spawned : actor.spawns with
      | cons plan spawns => exact plays.choice_of_spawn suits fits apart free created spawned
      | nil =>
        cases moved : actor.transfers with
        | cons transfer transfers =>
          exact plays.choice_of_transfer suits fits apart free created spawned moved
        | nil =>
          cases joined : actor.children with
          | cons child children =>
            exact plays.choice_of_join suits fits apart free created spawned moved joined
          | nil =>
            have chosen := (Actor.Chooses.exits free created spawned moved joined).choose
            rw [plays.code] at chosen
            exact .exits chosen ⟨created, spawned, moved, joined⟩ plays

/-- How the turn of an instance ends: it exits, or it waits in a call. -/
inductive Ending (tree : SpawnTree) (sent : List Transmission) (cast : Cast) (id : InstanceId)
    (node : Nat) : Turn (Except String Actor) → Prop where
  | exits {actor : Actor} (idle : actor.IsIdle)
      (plays : cast.Plays tree sent id node .choice actor) :
    Ending tree sent cast id node (.ended (.ok 0))
  | waits {actor : Actor} {still : Blocked}
      (engaged : cast.Engaged tree sent id node actor still.call) :
    Ending tree sent cast id node (.suspended (.ok actor) (some still))

/-- A turn of an instance that is to choose ends well. -/
theorem Ready.acts {σ : Type} (suits : tree.Suits sent) {state : Except String Actor}
    {notice : Notice} {session : Session Workload (Except String Actor) σ}
    {result : Turn (Except String Actor) × Session Workload (Except String Actor) σ}
    (acts : Acts (behaviour σ) id state notice session result)
    (onwards : state.bind (·.next notice) = actor.choose)
    (fits : cast.Fits tree sent session.tables)
    (apart : ∀ launch ∈ session.tables.launches, launch.id ≠ id)
    (ready : cast.Ready tree sent id node actor) :
    ∃ after, Advances tree sent id node cast after result.2.tables ∧
      after.Ending tree sent id node result.1 := by
  -- After each call that ends the instance is to choose again.
  induction acts generalizing cast actor with
  | exit chosen =>
    cases ready.choice suits fits apart with
    | exits choose idle plays =>
      rw [choose] at onwards
      simp only [behaviour, onwards, Prod.mk.injEq, Action.exit.injEq] at chosen
      obtain ⟨rfl, -, -⟩ := chosen
      exact ⟨cast, ⟨.refl tree sent node cast, fits, apart⟩, .exits idle plays⟩
    | calls choose answer =>
      rw [choose] at onwards
      simp [behaviour, onwards] at chosen
  | finish chosen performed rest ih =>
    cases ready.choice suits fits apart with
    | exits choose idle plays =>
      rw [choose] at onwards
      simp [behaviour, onwards] at chosen
    | calls choose answer =>
      rw [choose] at onwards
      simp only [behaviour, onwards, Prod.mk.injEq, Action.call.injEq] at chosen
      obtain ⟨rfl, rfl, -⟩ := chosen
      rw [performed] at answer
      cases answer with
      | finished advances onwards ready =>
        obtain ⟨after, advancesToo, ending⟩ := ih onwards advances.fits advances.apart ready
        exact ⟨after, advances.trans advancesToo, ending⟩
  | block chosen performed =>
    cases ready.choice suits fits apart with
    | exits choose idle plays =>
      rw [choose] at onwards
      simp [behaviour, onwards] at chosen
    | calls choose answer =>
      rw [choose] at onwards
      simp only [behaviour, onwards, Prod.mk.injEq, Action.call.injEq] at chosen
      obtain ⟨rfl, rfl, -⟩ := chosen
      rw [performed] at answer
      cases answer with
      | blocked advances engaged => exact ⟨_, advances, .waits engaged⟩
  | fault chosen | inspect chosen | wake chosen | step chosen | park chosen =>
    cases ready.choice suits fits apart with
    | exits choose | calls choose =>
      rw [choose] at onwards
      simp [behaviour, onwards] at chosen

end Cast

end Progeny
