import Progeny.Session.Run

/-! Sessions of which only a part is seen. Where programs act by what is seen of their states alone,
what is seen of a session runs as a session does. -/

namespace Progeny

variable {π β γ σ τ : Type}

/-- What is seen of the states of programs is enough for the programs of another behaviour to act in
the same way. -/
structure Behaviour.SeenAs (behaviour : Behaviour π β σ) (plain : Behaviour π γ τ) (own : β → γ)
    (common : σ → τ) : Prop where
  start : ∀ program invocation,
    plain.start program invocation = own (behaviour.start program invocation)
  next : ∀ state shared notice, plain.next (own state) (common shared) notice =
    Prod.map id (Prod.map own common) (behaviour.next state shared notice)

/-- What is seen of a task. -/
def Task.seen (own : β → γ) (task : Task β) : Task γ :=
  ⟨task.id, own task.state, task.blocked⟩

namespace Session

/-- What is seen of where an instance stands. -/
def Turn.seen (own : β → γ) : Turn β → Turn γ
  | .ended result => .ended result
  | .suspended state blocked => .suspended (own state) blocked

/-- What is seen of a session. -/
def seen (own : β → γ) (common : σ → τ) (session : Session π β σ) : Session π γ τ where
  tables := session.tables
  shared := common session.shared
  tasks := session.tasks.map (Task.seen own)
  woken := session.woken
  root := session.root
  lastPolled := session.lastPolled
  consumedSteps := session.consumedSteps
  finished := session.finished

/-- What is seen of a round. -/
def Round.seen (own : β → γ) (common : σ → τ) : Round π β σ → Round π γ τ
  | .ends (result, session) => .ends (result, session.seen own common)
  | .further left session => .further left (session.seen own common)

variable (own : β → γ) (common : σ → τ) (session : Session π β σ)

@[simp] theorem tables_seen : (session.seen own common).tables = session.tables :=
  rfl

/-- Who is woken is seen. -/
theorem wake_seen (id : InstanceId) :
    (session.seen own common).wake id = (session.wake id).seen own common := by
  unfold wake seen
  dsimp only
  split <;> rfl

@[simp] theorem liveInstances_seen :
    (session.seen own common).liveInstances = session.liveInstances := by
  simp [liveInstances, seen, Task.seen]

@[simp] theorem task?_seen (id : InstanceId) :
    (session.seen own common).task? id = (session.task? id).map (Task.seen own) := by
  unfold task? seen
  rw [List.find?_map]
  rfl

/-- Who is ready is seen. -/
@[simp] theorem nextReady_seen : (session.seen own common).nextReady = session.nextReady := by
  have ready : (session.seen own common).ready = session.ready := by
    unfold ready seen
    rw [List.filter_map, List.map_map]
    rfl
  unfold nextReady
  rw [ready]
  rfl

/-- Where an instance stands after a poll is seen. -/
theorem settle_seen (id : InstanceId) (turn : Turn β) :
    (session.seen own common).settle id (turn.seen own) =
      (session.settle id turn).seen own common := by
  cases turn with
  | ended result =>
    simp only [settle, seen, Turn.seen, List.filter_map]
    rfl
  | suspended state blocked =>
    simp only [settle, seen, Turn.seen, List.map_map]
    congr 1
    refine List.map_congr_left fun task _ => ?_
    by_cases same : task.id = id <;> simp [Task.seen, same]

/-- The end of a session is seen. -/
theorem finish_seen (code : Int8) : (session.seen own common).finish code =
    ((session.finish code).1, (session.finish code).2.seen own common) := by
  simp only [finish, liveInstances_seen]
  rfl

section Behaviours

variable {own common} {behaviour : Behaviour π β σ} {plain : Behaviour π γ τ}
  (same : behaviour.SeenAs plain own common)
include same

/-- What is seen of new instances is how they start by what is seen. -/
theorem launch_seen : (session.seen own common).launch plain =
    (session.launch behaviour).seen own common := by
  -- Instances are started one after another.
  have each (launches : List (Launch π)) (session : Session π β σ) :
      launches.foldl (start plain) (session.seen own common) =
        (launches.foldl (start behaviour) session).seen own common := by
    induction launches generalizing session with
    | nil => rfl
    | cons launch rest ih =>
      rw [List.foldl_cons, List.foldl_cons, ← ih]
      congr 1
      simp only [start, same.start, ← wake_seen]
      simp [seen, Task.seen]
  exact each session.tables.launches
    { session with tables := { session.tables with launches := [] } }

/-- What is seen of what an instance does is what it does by what is seen. -/
theorem act_seen (fuel : Nat) (id : InstanceId) (state : β) (notice : Notice) :
    act plain fuel id (own state) notice (session.seen own common) =
      (act behaviour fuel id state notice session).map
        (Prod.map (Turn.seen own) (seen own common)) := by
  -- Both choose the same action, and what follows it is left to the induction.
  induction fuel generalizing state notice session with
  | zero => rfl
  | succ fuel ih =>
    unfold act
    rw [show (session.seen own common).shared = common session.shared from rfl, same.next]
    generalize behaviour.next state session.shared notice = result
    obtain ⟨action, next, shared⟩ := result
    dsimp only [Prod.map_apply, id_eq]
    cases action with
    | exit code | fault message | park => rfl
    | call request =>
      dsimp only [tables_seen]
      generalize session.tables.perform id request = outcome
      obtain ⟨progress, tables⟩ := outcome
      cases progress with
      | finished reply => exact ih { session with shared := shared, tables := tables } next _
      | blocked blocked => rfl
    | inspect | step => exact ih { session with shared := shared } next _
    | wake target =>
      have moved := wake_seen own common ({ session with shared := shared } : Session π β σ) target
      dsimp only
      rw [← ih, ← moved]
      rfl

/-- What is seen of a poll is the poll of what is seen. -/
theorem poll_seen (fuel : Nat) (task : Task β) :
    (session.seen own common).poll plain fuel (task.seen own) =
      (session.poll behaviour fuel task).map (seen own common) := by
  -- The poll proceeds alike, and where it leads to is settled alike.
  have proceeds (session : Session π β σ) :
      proceed plain fuel (task.seen own) (session.seen own common) =
        (proceed behaviour fuel task session).map (Prod.map (Turn.seen own) (seen own common)) := by
    unfold proceed
    rw [show (task.seen own).blocked = task.blocked from rfl]
    cases task.blocked with
    | none => exact act_seen session same fuel task.id task.state .go
    | some blocked =>
      dsimp only [tables_seen, Task.seen]
      generalize session.tables.retry task.id blocked = outcome
      obtain ⟨progress, tables⟩ := outcome
      cases progress with
      | finished reply =>
        exact act_seen { session with tables := tables } same fuel task.id task.state _
      | blocked still => rfl
  have proceeded := proceeds { session.unwake task.id with
    consumedSteps := session.consumedSteps + 1, lastPolled := some task.id }
  simp only [poll, Option.bind_eq_bind]
  refine (congrArg (Option.bind · _) proceeded).trans ?_
  generalize proceed behaviour fuel task _ = result
  cases result with
  | none => rfl
  | some result => exact congrArg some (settle_seen own common result.2 task.id result.1)

/-- What is seen of a round is the round of what is seen. -/
theorem round_seen (root : InstanceId) (fuel : Nat) (left : Option Nat) :
    (session.seen own common).round plain root fuel left =
      (session.round behaviour root fuel left).map (Round.seen own common) := by
  unfold round
  simp only [launch_seen session same, finish_seen, nextReady_seen, liveInstances_seen, task?_seen,
    tables_seen]
  cases session.tables.violation with
  | some violation => rfl
  | none =>
    cases session.tables.instances.exitCode root with
    | some code => rfl
    | none =>
      dsimp only
      split
      · rfl
      · cases (session.launch behaviour).nextReady with
        | none => rfl
        | some id =>
          dsimp only
          cases (session.launch behaviour).task? id with
          | none => rfl
          | some task =>
            dsimp only [Option.map_some]
            rw [poll_seen _ same, Option.map_map, Option.map_map]
            rfl

/-- What is seen of a run is the run of what is seen. -/
theorem run_seen (fuel : Nat) (mode : RunMode) : (session.seen own common).run plain fuel mode =
    (session.run behaviour fuel mode).map (Prod.map id (seen own common)) := by
  have turns (root : InstanceId) (fuel : Nat) (left : Option Nat) (session : Session π β σ) :
      rounds plain root fuel left (session.seen own common) =
        (rounds behaviour root fuel left session).map (Prod.map id (seen own common)) := by
    -- Round by round both go on in the same way.
    induction fuel generalizing left session with
    | zero => rfl
    | succ fuel ih =>
      simp only [rounds, round_seen session same, Option.bind_eq_bind]
      cases session.round behaviour root fuel left with
      | none => rfl
      | some result =>
        cases result with
        | ends run => rfl
        | further left middle => exact ih left middle
  unfold run
  rw [show (session.seen own common).finished = session.finished from rfl,
    show (session.seen own common).root = session.root from rfl]
  cases session.finished with
  | some outcome => rfl
  | none =>
    cases session.root with
    | none => rfl
    | some root => exact turns root fuel mode.limit? session

end Behaviours

end Session

end Progeny
