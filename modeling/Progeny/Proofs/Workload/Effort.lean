import Mathlib.Algebra.Ring.Nat
import Progeny.Proofs.Session.Limits
import Progeny.Proofs.Session.Polls
import Progeny.Workload.Run

/-! How much an instance of a workload has still to do. Whatever it does next leaves less of it, so
that every turn of it comes to an end. -/

namespace Progeny

/-- What remains of a call that has to wait. -/
def Pending.effort : Pending → Nat
  | .readExact _ _ missing => missing + 1
  | .writeAll _ rest => rest.length + 1
  | _ => 1

/-- A call whose end comes with a known number of bytes, or that moves none. -/
def Pending.IsBounded : Pending → Prop
  | .join _ | .readExact .. | .writeAll .. => True
  | .read .. | .readToEnd .. | .write .. => False

namespace Tables

variable {π : Type} {tables after : Tables π} {caller : InstanceId}

/-- A call for a number of bytes that has to wait again either got some of them or changed
nothing. -/
theorem effort_readExact {endpoint : Endpoint} {taken : Bytes} {missing : Nat} {blocked : Blocked}
    (waits : tables.readExact caller endpoint taken missing = (.blocked blocked, after)) :
    blocked.call.IsBounded ∧ (blocked.call.effort < missing + 1 ∨
      blocked.call = .readExact endpoint taken missing ∧ after = tables) := by
  fun_induction readExact tables caller endpoint taken missing with
  | case1 | case2 | case4 => simp at waits
  | case3 tables taken missing some wait reached attempt =>
    obtain ⟨same, rfl⟩ := Prod.mk.inj waits
    obtain rfl := Progress.blocked.inj same
    exact ⟨trivial, .inr ⟨rfl, (tryRead_eq_wait.mp attempt).1⟩⟩
  | case5 tables taken missing some byte bytes reached attempt ih =>
    -- At least one byte was got, whatever came later.
    obtain ⟨bounded, less | ⟨same, -⟩⟩ := ih waits
    · exact ⟨bounded, .inl (by omega)⟩
    · refine ⟨bounded, .inl ?_⟩
      rw [same]
      simp only [Pending.effort]
      omega

/-- A call to write every byte that has to wait again either moved some of them or changed
nothing. -/
theorem effort_writeAll {endpoint : Endpoint} {rest : Bytes} {blocked : Blocked}
    (waits : tables.writeAll caller endpoint rest = (.blocked blocked, after)) :
    blocked.call.IsBounded ∧ (blocked.call.effort < rest.length + 1 ∨
      blocked.call = .writeAll endpoint rest ∧ after = tables) := by
  -- Whatever an attempt accepts, the rest is shorter by that.
  fun_induction writeAll tables caller endpoint rest with
  | case1 | case2 => simp at waits
  | case3 tables rest some wait reached attempt =>
    obtain ⟨same, rfl⟩ := Prod.mk.inj waits
    obtain rfl := Progress.blocked.inj same
    exact ⟨trivial, .inr ⟨rfl, (tryWrite_eq_wait.mp attempt).1⟩⟩
  | case4 tables rest some count reached attempt ih =>
    have moved := tryWrite_pos some attempt
    have offered := List.length_pos_iff.mpr some
    have shorter : (rest.drop count).length < rest.length := by
      rw [List.length_drop]
      omega
    obtain ⟨bounded, less | ⟨same, -⟩⟩ := ih waits
    · exact ⟨bounded, .inl (by omega)⟩
    · refine ⟨bounded, .inl ?_⟩
      rw [same]
      exact Nat.succ_lt_succ shorter

/-- A bounded call that goes on and has to wait again either came further or changed nothing. -/
theorem effort_resume {call : Pending} {blocked : Blocked} (bounded : call.IsBounded)
    (waits : tables.resume caller call = (.blocked blocked, after)) :
    blocked.call.IsBounded ∧ (blocked.call.effort < call.effort ∨
      blocked.call = call ∧ after = tables) := by
  -- A join waits without having done anything, so it waits as it did before.
  cases call with
  | read | readToEnd | write => exact bounded.elim
  | readExact endpoint taken missing => exact effort_readExact waits
  | writeAll endpoint rest => exact effort_writeAll waits
  | join target =>
    simp only [resume, join] at waits
    split at waits
    · simp at waits
    split at waits
    · simp at waits
    split at waits
    · obtain ⟨same, rfl⟩ := Prod.mk.inj waits
      obtain rfl := Progress.blocked.inj same
      exact ⟨trivial, .inr ⟨rfl, rfl⟩⟩
    · simp at waits

/-- A bounded call that is retried and still waits either came further, or nothing has changed and
what it waits for has not happened. -/
theorem effort_retry {blocked still : Blocked} (bounded : blocked.call.IsBounded)
    (retried : tables.retry caller blocked = (.blocked still, after)) :
    still.call.IsBounded ∧ (still.call.effort < blocked.call.effort ∨
      still.call = blocked.call ∧ after = tables ∧ tables.isOver still.wait = false) := by
  unfold retry at retried
  split at retried
  · obtain ⟨bounded, less | ⟨call, rfl⟩⟩ := effort_resume bounded retried
    · exact ⟨bounded, .inl less⟩
    · exact ⟨bounded, .inr ⟨call, rfl, (stuck_of_resume retried).isOver⟩⟩
  · rename_i waiting
    obtain ⟨same, rfl⟩ := Prod.mk.inj retried
    obtain rfl := Progress.blocked.inj same
    exact ⟨bounded, .inr ⟨rfl, rfl, by simpa using waiting⟩⟩

end Tables

/-- A call that an instance of a workload makes. -/
inductive Request.IsBounded : Request → Nat → Prop where
  | pipe : IsBounded .pipe 0
  | spawn (descriptor : Descriptor) (argv : List Bytes) (endpoints : List Endpoint) :
    IsBounded (.spawn descriptor argv endpoints) 0
  | close (endpoint : Endpoint) : IsBounded (.close endpoint) 0
  | join (target : InstanceId) : IsBounded (.join target) 1
  | readExact (endpoint : Endpoint) (count : Nat) :
    IsBounded (.readExact endpoint count) (count + 1)
  | writeAll (endpoint : Endpoint) (data : Bytes) :
    IsBounded (.writeAll endpoint data) (data.length + 1)

/-- What remains of a bounded call that has to wait is no more than there was. -/
theorem Request.IsBounded.effort {request : Request} {effort : Nat}
    (bounded : request.IsBounded effort) {π : Type} {tables after : Tables π} {caller : InstanceId}
    {blocked : Blocked} (waits : tables.perform caller request = (.blocked blocked, after)) :
    blocked.call.IsBounded ∧ blocked.call.effort ≤ effort := by
  -- A request that blocks is a call that was resumed.
  have resumed {call : Pending} (still : call.IsBounded)
      (waits : tables.resume caller call = (.blocked blocked, after)) :
      blocked.call.IsBounded ∧ blocked.call.effort ≤ call.effort := by
    obtain ⟨bounded, less | ⟨same, -⟩⟩ := Tables.effort_resume still waits
    · exact ⟨bounded, Nat.le_of_lt less⟩
    · exact ⟨bounded, Nat.le_of_eq (congrArg Pending.effort same)⟩
  cases bounded with
  | pipe | spawn | close => simp [Tables.perform, Tables.replyWith] at waits
  | join target => exact @resumed (.join target) trivial waits
  | readExact endpoint count => exact @resumed (.readExact endpoint [] count) trivial waits
  | writeAll endpoint data => exact @resumed (.writeAll endpoint data) trivial waits

/-- What a transfer takes: its bytes, the call, and the closing of the endpoint. -/
def Transfer.effort : Transfer → Nat
  | .send _ data => data.length + 3
  | .receive _ expected => expected.length + 3

/-- What will be left to do once the call for an errand has ended. -/
def Errand.effort : Errand → Nat
  | .spawn _ => 2
  | .send _ | .receive _ _ => 1
  | .create _ | .close | .join => 0

namespace Actor

/-- What an instance has yet to do by itself, its exit included. -/
def effort (actor : Actor) : Nat :=
  actor.pipes.length + 3 * actor.spawns.length + (actor.transfers.map Transfer.effort).sum +
    2 * actor.children.length + actor.closing.isSome.toNat + 1

/-- The errand of its last call may leave an instance with more to do. -/
def burden (actor : Actor) : Nat :=
  actor.effort + (actor.errand.map Errand.effort).getD 0

/-- What a call returns leaves an instance with no more to do than its errand allows for. -/
theorem effort_absorb (actor : Actor) (errand : Errand) (value : Value) :
    (actor.absorb errand value).effort ≤ actor.effort + errand.effort := by
  have closed : actor.closing.isSome.toNat ≤ 1 := Bool.toNat_le _
  fun_cases absorb actor errand value with
  -- What an instance holds and its code are no part of what it has to do.
  | case1 | case5 | case6 => exact Nat.le_add_right _ _
  | case2 plan id =>
    simp only [effort, Errand.effort, List.length_append, List.length_singleton]
    omega
  -- The end of a transfer that is over is yet to be closed.
  | case3 | case4 =>
    simp only [effort, Errand.effort, Option.isSome_some, Bool.toNat_true]
    omega

/-- What an instance may choose to do, and where that leaves it. -/
inductive Chooses (actor : Actor) : Action → Actor → Prop where
  | closes {endpoint : Endpoint} (closing : actor.closing = some endpoint) :
    Chooses actor (.call (.close endpoint))
      { actor with closing := none, errand := some .close }
  | creates {plan : PipePlan} {pipes : List PipePlan} (free : actor.closing = none)
      (waiting : actor.pipes = plan :: pipes) :
    Chooses actor (.call .pipe) { actor with pipes := pipes, errand := some (.create plan) }
  | spawns {plan : SpawnPlan} {spawns : List SpawnPlan} {endpoints : List Endpoint}
      (free : actor.closing = none) (created : actor.pipes = [])
      (waiting : actor.spawns = plan :: spawns)
      (held : plan.pipes.mapM actor.endpointOf = .ok endpoints) :
    Chooses actor
      (.call (.spawn descriptor (Arguments.write plan.child (plan.pipes.zip endpoints)) endpoints))
      { actor with spawns := spawns, errand := some (.spawn plan) }
  | sends {pipe : UInt64} {data : Bytes} {transfers : List Transfer} {endpoint : Endpoint}
      (free : actor.closing = none) (created : actor.pipes = []) (spawned : actor.spawns = [])
      (waiting : actor.transfers = .send pipe data :: transfers)
      (held : actor.endpointOf pipe = .ok endpoint) :
    Chooses actor (.call (.writeAll endpoint data))
      { actor with transfers := transfers, errand := some (.send endpoint) }
  | receives {pipe : UInt64} {expected : Bytes} {transfers : List Transfer} {endpoint : Endpoint}
      (free : actor.closing = none) (created : actor.pipes = []) (spawned : actor.spawns = [])
      (waiting : actor.transfers = .receive pipe expected :: transfers)
      (held : actor.endpointOf pipe = .ok endpoint) :
    Chooses actor (.call (.readExact endpoint expected.length))
      { actor with transfers := transfers, errand := some (.receive endpoint expected) }
  | joins {child : InstanceId} {children : List InstanceId} (free : actor.closing = none)
      (created : actor.pipes = []) (spawned : actor.spawns = []) (moved : actor.transfers = [])
      (waiting : actor.children = child :: children) :
    Chooses actor (.call (.join child))
      { actor with children := children, errand := some .join }
  | exits (free : actor.closing = none) (created : actor.pipes = []) (spawned : actor.spawns = [])
      (moved : actor.transfers = []) (joined : actor.children = []) :
    Chooses actor (.exit actor.code) actor

/-- An instance chooses what its lists say, in their order. -/
theorem chooses_of_choose {actor next : Actor} {action : Action}
    (chosen : actor.choose = .ok (action, next)) : Chooses actor action next := by
  -- The cases are those of the choice.
  unfold choose at chosen
  split at chosen
  · rename_i endpoint closing
    obtain ⟨rfl, rfl⟩ := Prod.mk.inj (Except.ok.inj chosen)
    exact .closes closing
  · rename_i plan pipes free waiting
    obtain ⟨rfl, rfl⟩ := Prod.mk.inj (Except.ok.inj chosen)
    exact .creates free waiting
  · rename_i plan spawns free created waiting
    cases held : plan.pipes.mapM actor.endpointOf with
    | error message => simp [held, bind, Except.bind] at chosen
    | ok endpoints =>
      rw [held] at chosen
      obtain ⟨rfl, rfl⟩ := Prod.mk.inj (Except.ok.inj chosen)
      exact .spawns free created waiting held
  · rename_i pipe data transfers free created spawned waiting
    cases held : actor.endpointOf pipe with
    | error message => simp [held, bind, Except.bind] at chosen
    | ok endpoint =>
      rw [held] at chosen
      obtain ⟨rfl, rfl⟩ := Prod.mk.inj (Except.ok.inj chosen)
      exact .sends free created spawned waiting held
  · rename_i pipe expected transfers free created spawned waiting
    cases held : actor.endpointOf pipe with
    | error message => simp [held, bind, Except.bind] at chosen
    | ok endpoint =>
      rw [held] at chosen
      obtain ⟨rfl, rfl⟩ := Prod.mk.inj (Except.ok.inj chosen)
      exact .receives free created spawned waiting held
  · rename_i child children free created spawned moved waiting
    obtain ⟨rfl, rfl⟩ := Prod.mk.inj (Except.ok.inj chosen)
    exact .joins free created spawned moved waiting
  · rename_i free created spawned moved joined
    obtain ⟨rfl, rfl⟩ := Prod.mk.inj (Except.ok.inj chosen)
    exact .exits free created spawned moved joined

/-- What an instance may choose to do is what it chooses. -/
theorem Chooses.choose {actor next : Actor} {action : Action}
    (chosen : Chooses actor action next) : actor.choose = .ok (action, next) := by
  -- Each case lists the checks in the order in which the choice makes them.
  cases chosen with
  | closes closing => simp [Actor.choose, send, closing]
  | creates free waiting => simp [Actor.choose, send, free, waiting]
  | spawns free created waiting held =>
    simp [Actor.choose, send, free, created, waiting, held, bind, Except.bind, pure, Except.pure]
  | sends free created spawned waiting held =>
    simp [Actor.choose, send, free, created, spawned, waiting, held, bind, Except.bind, pure,
      Except.pure]
  | receives free created spawned waiting held =>
    simp [Actor.choose, send, free, created, spawned, waiting, held, bind, Except.bind, pure,
      Except.pure]
  | joins free created spawned moved waiting =>
    simp [Actor.choose, send, free, created, spawned, moved, waiting]
  | exits free created spawned moved joined =>
    simp [Actor.choose, free, created, spawned, moved, joined]

/-- Whatever an instance chooses to do leaves it with less to do. -/
theorem Chooses.burden {actor next : Actor} {action : Action}
    (chosen : Chooses actor action next) :
    (∃ code, action = .exit code) ∨ ∃ request effort, action = .call request ∧
      request.IsBounded effort ∧ next.burden + effort < actor.effort := by
  -- What the errand still costs is less than what the plan cost while it was waiting.
  cases chosen with
  | exits => exact .inl ⟨_, rfl⟩
  | closes closing =>
    refine .inr ⟨_, 0, rfl, .close _, ?_⟩
    simp [Actor.burden, effort, closing, Errand.effort]
  | creates free waiting =>
    refine .inr ⟨_, 0, rfl, .pipe, ?_⟩
    simp [Actor.burden, effort, waiting, Errand.effort]
  | spawns free created waiting held =>
    refine .inr ⟨_, 0, rfl, .spawn _ _ _, ?_⟩
    simp [Actor.burden, effort, waiting, Errand.effort]
    omega
  | sends free created spawned waiting held =>
    refine .inr ⟨_, _, rfl, .writeAll _ _, ?_⟩
    simp [Actor.burden, effort, waiting, Errand.effort, Transfer.effort]
    omega
  | receives free created spawned waiting held =>
    refine .inr ⟨_, _, rfl, .readExact _ _, ?_⟩
    simp [Actor.burden, effort, waiting, Errand.effort, Transfer.effort]
    omega
  | joins free created spawned moved waiting =>
    refine .inr ⟨_, _, rfl, .join _, ?_⟩
    simp [Actor.burden, effort, waiting, Errand.effort]
    omega

/-- Whatever an instance does after a notice leaves it with less to do. -/
theorem burden_next {actor next : Actor} {notice : Notice} {action : Action}
    (chosen : actor.next notice = .ok (action, next)) :
    (∃ code, action = .exit code) ∨ ∃ request effort, action = .call request ∧
      request.IsBounded effort ∧ next.burden + effort < actor.burden := by
  -- To take in an answer costs nothing, so the choice that follows pays for the turn.
  have within {choosing : Actor} (less : choosing.effort ≤ actor.burden)
      (chosen : choosing.choose = .ok (action, next)) :
      (∃ code, action = .exit code) ∨ ∃ request effort, action = .call request ∧
        request.IsBounded effort ∧ next.burden + effort < actor.burden := by
    rcases (chooses_of_choose chosen).burden with exits | ⟨request, effort, call, bounded, left⟩
    · exact .inl exits
    · exact .inr ⟨request, effort, call, bounded, by omega⟩
  unfold Actor.next at chosen
  split at chosen
  · rename_i errand value pending
    refine within ?_ chosen
    rw [burden, pending]
    exact effort_absorb actor errand value
  · simp at chosen
  · exact within (Nat.le_add_right _ _) chosen

end Actor

namespace Workload

variable {σ : Type}

/-- What an instance has yet to do. One whose arguments made no sense has only to end. -/
def burdenOf : Except String Actor → Nat
  | .ok actor => actor.burden
  | .error _ => 1

/-- An instance of a workload ends, or it makes a call and is left with less to do. -/
theorem burden_behaviour {state next : Except String Actor} {shared last : σ} {notice : Notice}
    {action : Action} (chosen : (behaviour σ).next state shared notice = (action, next, last)) :
    (∃ code, action = .exit code) ∨ (∃ message, action = .fault message) ∨
      ∃ request effort, action = .call request ∧ request.IsBounded effort ∧
        burdenOf next + effort < burdenOf state := by
  -- An actor that never began only faults.
  simp only [behaviour] at chosen
  split at chosen
  · rename_i action actor stepped
    obtain ⟨rfl, rfl, rfl⟩ : action = _ ∧ Except.ok actor = next ∧ shared = last := by
      simpa using chosen
    cases state with
    | error message => simp [Except.bind] at stepped
    | ok before =>
      exact (Actor.burden_next stepped).imp_right .inr
  · rename_i message _
    exact .inr (.inl ⟨message, (congrArg Prod.fst chosen).symm⟩)

/-- Instances of a workload wait in calls only. -/
theorem isSequential : (behaviour σ).IsSequential := by
  intro state shared notice parks
  rcases burden_behaviour (Prod.ext parks rfl) with ⟨_, same⟩ | ⟨_, same⟩ | ⟨_, _, same, -⟩ <;>
    simp at same

/-- Every turn of an instance of a workload ends, for it has less to do after each action. -/
theorem exists_act (fuel : Nat) {id : InstanceId} {state : Except String Actor} {notice : Notice}
    {session : Session Workload (Except String Actor) σ} (enough : burdenOf state < fuel) :
    ∃ result, Session.act (behaviour σ) fuel id state notice session = some result := by
  -- Each request lowers the burden, which bounds the requests of the turn.
  induction fuel generalizing state notice session with
  | zero => simp at enough
  | succ fuel ih =>
    unfold Session.act
    split
    rename_i action next shared chosen
    rcases burden_behaviour chosen with ⟨_, rfl⟩ | ⟨_, rfl⟩ | ⟨request, effort, rfl, -, less⟩
    · exact ⟨_, rfl⟩
    · exact ⟨_, rfl⟩
    · dsimp only
      split
      · exact ih (by omega)
      · exact ⟨_, rfl⟩

/-- Every poll of an instance of a workload ends. -/
theorem pollsEnd : Session.PollsEnd (behaviour σ) :=
  Session.pollsEnd_of_act fun _ state _ _ => ⟨burdenOf state + 1, exists_act _ (Nat.lt_succ_self _)⟩

end Workload

end Progeny
