import Progeny.Session.Basic

/-! A poll lets one instance act until it ends or has to wait. -/

namespace Progeny.Session

variable {π β σ : Type}

/-- Where an instance stands when a poll of it ends. -/
inductive Turn (β : Type) where
  /-- It ended, with a code or the message of a fault. -/
  | ended (result : Except String Int8)
  /-- It waits, in a call or until it is made ready. -/
  | suspended (state : β) (blocked : Option Blocked)

/-- Lets an instance act until it ends or has to wait. There is no result if it would take more
than `fuel` actions. -/
def act (behaviour : Behaviour π β σ) :
    Nat → InstanceId → β → Notice → Session π β σ → Option (Turn β × Session π β σ)
  | 0, _, _, _, _ => none
  | fuel + 1, id, state, notice, session =>
    let (action, state, shared) := behaviour.next state session.shared notice
    let session := { session with shared := shared }
    match action with
    | .exit code => some (.ended (.ok code), session)
    | .fault message => some (.ended (.error message), session)
    | .call request =>
      match session.tables.perform id request with
      | (.finished reply, tables) =>
        act behaviour fuel id state (.reply reply) { session with tables := tables }
      -- What the call did before it had to wait stays done.
      | (.blocked blocked, tables) =>
        some (.suspended state (some blocked), { session with tables := tables })
    | .inspect =>
      act behaviour fuel id state (.view session.tables.pipes session.tables.instances) session
    | .wake target => act behaviour fuel id state .go (session.wake target)
    | .step => act behaviour fuel id state .go session
    -- It is polled again once it is made ready, or at once if it has been already.
    | .park => some (.suspended state none, session)

/-- Lets an instance go on from where it waits. A call whose wait is not over stays as it is. -/
def proceed (behaviour : Behaviour π β σ) (fuel : Nat) (task : Task β)
    (session : Session π β σ) : Option (Turn β × Session π β σ) :=
  match task.blocked with
  | none => act behaviour fuel task.id task.state .go session
  | some blocked =>
    match session.tables.retry task.id blocked with
    | (.finished reply, tables) =>
      act behaviour fuel task.id task.state (.reply reply) { session with tables := tables }
    | (.blocked blocked, tables) =>
      some (.suspended task.state (some blocked), { session with tables := tables })

/-- Records where an instance stands after a poll. -/
def settle (session : Session π β σ) (id : InstanceId) : Turn β → Session π β σ
  | .ended result =>
    -- The identity may still be among those made ready, and is passed over later.
    { session with
      tasks := session.tasks.filter fun task => task.id ≠ id
      tables := session.tables.exit id result }
  | .suspended state blocked =>
    { session with tasks := session.tasks.map fun task =>
        if task.id = id then ⟨id, state, blocked⟩ else task }

/-- The instance is no longer among those made ready. -/
def unwake (session : Session π β σ) (id : InstanceId) : Session π β σ :=
  { session with woken := session.woken.filter (· ≠ id) }

/-- Polls a started instance once. -/
def poll (behaviour : Behaviour π β σ) (fuel : Nat) (task : Task β) (session : Session π β σ) :
    Option (Session π β σ) := do
  let counted : Session π β σ := { session.unwake task.id with
    consumedSteps := session.consumedSteps + 1
    lastPolled := some task.id }
  let (turn, session) ← proceed behaviour fuel task counted
  return session.settle task.id turn

end Progeny.Session
