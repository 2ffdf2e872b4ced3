import Progeny.Handle
import Progeny.Lifecycle

/-! What happens to instances and pipes in a session. -/

namespace Progeny

/-- A change that a session reports. -/
inductive Event where
  /-- An instance was created and holds the listed endpoints. The first one has no parent. -/
  | spawned (id : InstanceId) (parent : Option InstanceId) (endpoints : List Endpoint)
  /-- An instance ended, by itself or with a fault. -/
  | exited (id : InstanceId) (code : Int8) (fault : Option String)
  /-- An instance learnt the exit code of another. -/
  | joined (id target : InstanceId) (code : Int8)
  /-- An instance created a pipe with two endpoints. -/
  | pipeCreated (id : InstanceId) (first second : Endpoint)
  /-- An open endpoint of an instance was closed. -/
  | pipeClosed (id : InstanceId) (endpoint : Endpoint)
  deriving DecidableEq

namespace Event

/-- The name of the kind of an event. -/
def kind : Event → String
  | .spawned .. => "instance.spawned"
  | .exited .. => "instance.exited"
  | .joined .. => "instance.joined"
  | .pipeCreated .. => "pipe.created"
  | .pipeClosed .. => "pipe.closed"

/-- What an event says beside its kind. -/
def data : Event → Json
  | .spawned id parent endpoints =>
    .object [("instance", id.toJson), ("parent", .ofOption InstanceId.toJson parent),
      ("endpoints", .ofList Endpoint.toJson endpoints)]
  | .exited id code fault =>
    .object [("instance", id.toJson), ("exit_code", .integer code.toInt),
      ("fault", .ofOption .text fault)]
  | .joined id target code =>
    .object [("instance", id.toJson), ("target", target.toJson),
      ("exit_code", .integer code.toInt)]
  | .pipeCreated id first second =>
    .object [("instance", id.toJson),
      ("endpoints", .array [first.toJson, second.toJson])]
  | .pipeClosed id endpoint =>
    .object [("instance", id.toJson), ("endpoint", endpoint.toJson)]

end Event

end Progeny
