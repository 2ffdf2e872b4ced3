import Progeny.Session.Behaviour
import Progeny.Session.Outcome

/-! A session: the shared tables, the instances that were started, and which of them are ready. -/

namespace Progeny

/-- A started instance that has not ended. -/
structure Task (β : Type) where
  id : InstanceId
  state : β
  /-- The call in which the instance waits, if it does. -/
  blocked : Option Blocked := none

/-- A session: the shared tables and the instances that take turns. -/
structure Session (π β σ : Type) where
  tables : Tables π
  /-- State that programs share beside the tables. -/
  shared : σ
  /-- Started instances, in the order of their identities. -/
  tasks : List (Task β) := []
  /-- Instances made ready other than by what their call waits for. Whoever is ready because a wait
  is over is not entered here; `ready` puts both together. -/
  woken : List InstanceId := []
  /-- The first instance, once it was created through this session. -/
  root : Option InstanceId := none
  /-- The instance that acted last. -/
  lastPolled : Option InstanceId := none
  /-- The number of polls so far. It has no bound here: a word of 64 bits holds it as well, since
  2 ^ 64 polls are out of reach. -/
  consumedSteps : Nat := 0
  /-- How the session ended. -/
  finished : Option RunOutcome := none

namespace Session

variable {π β σ : Type}

/-- A session on existing tables, without any started instance. -/
def ofTables (tables : Tables π) (shared : σ) : Session π β σ :=
  { tables := tables, shared := shared }

/-- Creates the first instance. -/
def boot (session : Session π β σ) (descriptor : Descriptor) (argv : List Bytes) :
    Except SessionError InstanceId × Session π β σ :=
  match session.tables.boot descriptor argv with
  | (.error error, tables) => (.error error, { session with tables := tables })
  | (.ok id, tables) => (.ok id, { session with tables := tables, root := some id })

/-- The started instances that have not ended. -/
def liveInstances (session : Session π β σ) : List InstanceId :=
  session.tasks.map Task.id

/-- The task of an instance. -/
def task? (session : Session π β σ) (id : InstanceId) : Option (Task β) :=
  session.tasks.find? (·.id = id)

/-- Makes an instance ready. -/
def wake (session : Session π β σ) (id : InstanceId) : Session π β σ :=
  if id ∈ session.woken then session else { session with woken := session.woken ++ [id] }

/-- Starts an instance, which is ready from then on. -/
def start (behaviour : Behaviour π β σ) (session : Session π β σ) (launch : Launch π) :
    Session π β σ :=
  let state := behaviour.start launch.program ⟨launch.id, launch.endpoints, launch.argv⟩
  let started : Session π β σ := { session with
    tasks := session.tasks ++ [⟨launch.id, state, none⟩] }
  started.wake launch.id

/-- Starts every instance that was created since the last time, oldest first. -/
def launch (behaviour : Behaviour π β σ) (session : Session π β σ) : Session π β σ :=
  session.tables.launches.foldl (start behaviour)
    { session with tables := { session.tables with launches := [] } }

/-- Whether what an instance waits for has happened. -/
def isReleased (session : Session π β σ) (task : Task β) : Bool :=
  match task.blocked with
  | none => false
  | some blocked => session.tables.isOver blocked.wait

/-- The instances that are to be polled: those made ready, and those whose wait is over. To signal
an end or to exit makes nobody ready by itself: that a wait is over shows in the counts and in the
records, so the ready instances are read off the state and no set of them is kept beside it. -/
def ready (session : Session π β σ) : List InstanceId :=
  session.woken ++ (session.tasks.filter session.isReleased).map Task.id

/-- The lesser of two identities, where one may be missing. -/
def lesser (id : InstanceId) : Option InstanceId → InstanceId
  | none => id
  | some other => if id.word ≤ other.word then id else other

/-- The least of some identities. -/
def least? : List InstanceId → Option InstanceId
  | [] => none
  | id :: rest => some (lesser id (least? rest))

/-- The next ready instance after the one that acted last, beginning again after the largest. -/
def nextReady (session : Session π β σ) : Option InstanceId :=
  match session.lastPolled with
  | none => least? session.ready
  | some last =>
    least? (session.ready.filter fun id => last.word < id.word) <|> least? session.ready

end Session

end Progeny
