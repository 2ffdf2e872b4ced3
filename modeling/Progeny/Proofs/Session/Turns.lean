import Progeny.Session.Run

/-! A turn of an instance as a sequence of actions, without regard to fuel. Fuel only decides
whether there is a result: more of it never changes one. -/

namespace Progeny.Session

variable {π β σ : Type} {behaviour : Behaviour π β σ}

/-- The actions of an instance from one notice up to the end of its turn. -/
inductive Acts (behaviour : Behaviour π β σ) (id : InstanceId) :
    β → Notice → Session π β σ → Turn β × Session π β σ → Prop where
  | exit {state next : β} {notice : Notice} {session : Session π β σ} {shared : σ} {code : Int8}
      (chosen : behaviour.next state session.shared notice = (.exit code, next, shared)) :
    Acts behaviour id state notice session (.ended (.ok code), { session with shared := shared })
  | fault {state next : β} {notice : Notice} {session : Session π β σ} {shared : σ}
      {message : String}
      (chosen : behaviour.next state session.shared notice = (.fault message, next, shared)) :
    Acts behaviour id state notice session
      (.ended (.error message), { session with shared := shared })
  | finish {state next : β} {notice : Notice} {session : Session π β σ} {shared : σ}
      {request : Request} {reply : Reply} {tables : Tables π} {result : Turn β × Session π β σ}
      (chosen : behaviour.next state session.shared notice = (.call request, next, shared))
      (performed : session.tables.perform id request = (.finished reply, tables))
      (rest : Acts behaviour id next (.reply reply)
        { session with shared := shared, tables := tables } result) :
    Acts behaviour id state notice session result
  | block {state next : β} {notice : Notice} {session : Session π β σ} {shared : σ}
      {request : Request} {blocked : Blocked} {tables : Tables π}
      (chosen : behaviour.next state session.shared notice = (.call request, next, shared))
      (performed : session.tables.perform id request = (.blocked blocked, tables)) :
    Acts behaviour id state notice session
      (.suspended next (some blocked), { session with shared := shared, tables := tables })
  | inspect {state next : β} {notice : Notice} {session : Session π β σ} {shared : σ}
      {result : Turn β × Session π β σ}
      (chosen : behaviour.next state session.shared notice = (.inspect, next, shared))
      (rest : Acts behaviour id next (.view session.tables.pipes session.tables.instances)
        { session with shared := shared } result) :
    Acts behaviour id state notice session result
  | wake {state next : β} {notice : Notice} {session : Session π β σ} {shared : σ}
      {target : InstanceId} {result : Turn β × Session π β σ}
      (chosen : behaviour.next state session.shared notice = (.wake target, next, shared))
      (rest : Acts behaviour id next .go
        (({ session with shared := shared } : Session π β σ).wake target) result) :
    Acts behaviour id state notice session result
  | step {state next : β} {notice : Notice} {session : Session π β σ} {shared : σ}
      {result : Turn β × Session π β σ}
      (chosen : behaviour.next state session.shared notice = (.step, next, shared))
      (rest : Acts behaviour id next .go { session with shared := shared } result) :
    Acts behaviour id state notice session result
  | park {state next : β} {notice : Notice} {session : Session π β σ} {shared : σ}
      (chosen : behaviour.next state session.shared notice = (.park, next, shared)) :
    Acts behaviour id state notice session
      (.suspended next none, { session with shared := shared })

/-- What an instance does within its fuel is a sequence of actions. -/
theorem acts_of_act {fuel : Nat} {id : InstanceId} {state : β} {notice : Notice}
    {session : Session π β σ} {result : Turn β × Session π β σ}
    (acted : act behaviour fuel id state notice session = some result) :
    Acts behaviour id state notice session result := by
  -- Each unit of fuel pays for one action.
  induction fuel generalizing state notice session with
  | zero => simp [act] at acted
  | succ fuel ih =>
    unfold act at acted
    split at acted
    rename_i action next shared chosen
    dsimp only at acted
    cases action with
    | exit code =>
      obtain rfl := Option.some.inj acted
      exact .exit chosen
    | fault message =>
      obtain rfl := Option.some.inj acted
      exact .fault chosen
    | call request =>
      dsimp only at acted
      split at acted
      · rename_i reply tables performed
        exact .finish chosen performed (ih acted)
      · rename_i blocked tables performed
        obtain rfl := Option.some.inj acted
        exact .block chosen performed
    | inspect => exact .inspect chosen (ih acted)
    | wake target => exact .wake chosen (ih acted)
    | step => exact .step chosen (ih acted)
    | park =>
      obtain rfl := Option.some.inj acted
      exact .park chosen

/-- The session when an instance is about to be polled. -/
def counted (session : Session π β σ) (id : InstanceId) : Session π β σ :=
  { session.unwake id with
    consumedSteps := session.consumedSteps + 1
    lastPolled := some id }

/-- How an instance goes on from where it waits. -/
inductive Proceeds (behaviour : Behaviour π β σ) (task : Task β) (session : Session π β σ) :
    Turn β × Session π β σ → Prop where
  | free {result : Turn β × Session π β σ} (idle : task.blocked = none)
      (acts : Acts behaviour task.id task.state .go session result) :
    Proceeds behaviour task session result
  | answered {blocked : Blocked} {reply : Reply} {tables : Tables π}
      {result : Turn β × Session π β σ} (waits : task.blocked = some blocked)
      (retried : session.tables.retry task.id blocked = (.finished reply, tables))
      (acts : Acts behaviour task.id task.state (.reply reply)
        { session with tables := tables } result) :
    Proceeds behaviour task session result
  | stays {blocked still : Blocked} {tables : Tables π} (waits : task.blocked = some blocked)
      (retried : session.tables.retry task.id blocked = (.blocked still, tables)) :
    Proceeds behaviour task session
      (.suspended task.state (some still), { session with tables := tables })

/-- A poll of a task, with the session after it. -/
def Polls (behaviour : Behaviour π β σ) (task : Task β) (session after : Session π β σ) : Prop :=
  ∃ fuel, session.poll behaviour fuel task = some after

/-- A poll lets its instance go on and records where it stands then. -/
theorem Polls.proceeds {task : Task β} {session after : Session π β σ}
    (polled : Polls behaviour task session after) :
    ∃ turn middle, Proceeds behaviour task (session.counted task.id) (turn, middle) ∧
      after = middle.settle task.id turn := by
  -- A poll goes on from the notice, from the answer to its call, or not at all.
  obtain ⟨fuel, polled⟩ := polled
  simp only [poll, Option.bind_eq_bind, Option.bind_eq_some_iff] at polled
  obtain ⟨⟨turn, middle⟩, proceeded, rest⟩ := polled
  obtain rfl := Option.some.inj rest
  refine ⟨turn, middle, ?_, rfl⟩
  change proceed behaviour fuel task (session.counted task.id) = some (turn, middle) at proceeded
  unfold proceed at proceeded
  split at proceeded
  · rename_i idle
    exact .free idle (acts_of_act proceeded)
  · rename_i blocked waits
    split at proceeded
    · rename_i reply tables retried
      exact .answered waits retried (acts_of_act proceeded)
    · rename_i still tables retried
      obtain ⟨rfl, rfl⟩ := Prod.mk.inj (Option.some.inj proceeded)
      exact .stays waits retried

/-- The actions of an instance change the tables, the state that programs share, and who is ready,
but nothing else in a session. -/
theorem Acts.frame {id : InstanceId} {state : β} {notice : Notice} {session : Session π β σ}
    {result : Turn β × Session π β σ}
    (acts : Acts behaviour id state notice session result) :
    result.2 = { session with
      tables := result.2.tables, shared := result.2.shared, woken := result.2.woken } := by
  -- Actions touch tables, shared state, and who is made ready.
  induction acts with
  | exit | fault | block | park => rfl
  | finish _ _ _ ih | inspect _ _ ih | step _ _ ih => exact ih
  | wake chosen rest ih =>
    rw [ih]
    unfold Session.wake
    split <;> rfl

/-- A poll changes nothing but the tables, the tasks, and who is ready, beside its own count. -/
theorem Proceeds.frame {task : Task β} {session : Session π β σ}
    {result : Turn β × Session π β σ} (goes : Proceeds behaviour task session result) :
    result.2 = { session with
      tables := result.2.tables, shared := result.2.shared, woken := result.2.woken } := by
  -- A retry touches the tables only.
  cases goes with
  | free _ acts => exact acts.frame
  | answered _ _ acts => exact acts.frame
  | stays => rfl

/-- More fuel leaves a turn as it is. -/
theorem act_mono {fuel more : Nat} (enough : fuel ≤ more) {id : InstanceId} {state : β}
    {notice : Notice} {session : Session π β σ} {result : Turn β × Session π β σ}
    (acted : act behaviour fuel id state notice session = some result) :
    act behaviour more id state notice session = some result := by
  -- Both sides take the same action, and the rest has one unit less on either.
  induction fuel generalizing more state notice session with
  | zero => simp [act] at acted
  | succ fuel ih =>
    obtain ⟨more, rfl⟩ : ∃ rest, more = rest + 1 := ⟨more - 1, by omega⟩
    replace enough : fuel ≤ more := by omega
    unfold act at acted ⊢
    split at acted
    rename_i action next shared chosen
    dsimp only at acted ⊢
    cases action with
    | exit code | fault message | park => exact acted
    | inspect | wake target | step => exact ih enough acted
    | call request =>
      dsimp only at acted ⊢
      split at acted
      · exact ih enough acted
      · exact acted

/-- More fuel leaves a poll as it is. -/
theorem poll_mono {fuel more : Nat} (enough : fuel ≤ more) {task : Task β}
    {session after : Session π β σ} (polled : session.poll behaviour fuel task = some after) :
    session.poll behaviour more task = some after := by
  -- Only the turn within the poll spends fuel.
  simp only [poll, Option.bind_eq_bind, Option.bind_eq_some_iff] at polled ⊢
  obtain ⟨result, proceeded, rest⟩ := polled
  refine ⟨result, ?_, rest⟩
  unfold proceed at proceeded ⊢
  split at proceeded
  · exact act_mono enough proceeded
  · dsimp only at proceeded ⊢
    split at proceeded
    · exact act_mono enough proceeded
    · exact proceeded

end Progeny.Session
