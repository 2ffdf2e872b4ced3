import Progeny.Error
import Progeny.Lifecycle

/-! The instances of a session, the running ones and those that have exited. -/

namespace Progeny

/-- What is known about an instance. -/
structure InstanceRecord where
  id : InstanceId
  /-- The instance that created this one; the first instance has none. -/
  parent : Option InstanceId := none
  /-- The number of generations above. -/
  depth : UInt32 := 0
  /-- Whether the instance runs, or with which code it exited. Whoever joins it waits on this very
  field, so what is recorded and what is announced can never differ. -/
  state : Lifecycle := .running
  /-- Why the instance ended, if it did not end by itself. -/
  fault : Option String := none
  deriving DecidableEq

/-- All instances ever created, with the budgets for creating more. -/
structure InstanceTable where
  maxInstances : UInt64
  maxDepth : UInt32
  /-- The identity of the next child. -/
  nextId : UInt64 := 0
  /-- Records in the order of their creation. -/
  records : List InstanceRecord := []
  deriving DecidableEq

/-- Why no child was created. -/
inductive AllocateError where
  /-- The request or a budget forbids it. -/
  | denied (error : CallError)
  /-- The table is inconsistent. -/
  | fatal (violation : Violation)
  deriving DecidableEq

namespace InstanceTable

/-- The record of an instance. -/
def find? (table : InstanceTable) (id : InstanceId) : Option InstanceRecord :=
  table.records.find? (·.id = id)

/-- The exit code of an instance that has exited. -/
def exitCode (table : InstanceTable) (id : InstanceId) : Option Int8 :=
  (table.find? id).bind (·.state.exitCode)

/-- The number of instances that have not exited. -/
def runningCount (table : InstanceTable) : Nat :=
  table.records.countP fun record => !record.state.isExited

/-- The children of an instance, in the order of their creation. -/
def childrenOf (table : InstanceTable) (parent : InstanceId) : List InstanceId :=
  (table.records.filter (·.parent = some parent)).map InstanceRecord.id

/-- Creates the first instance, to which no budget applies. -/
def allocateRoot (table : InstanceTable) : Except Violation (InstanceId × InstanceTable) :=
  if table.records = [] then
    .ok (.root, { table with nextId := 1, records := [⟨.root, none, 0, .running, none⟩] })
  else .error .duplicateRoot

/-- Creates a child of an instance, which may have exited. -/
def allocate (table : InstanceTable) (parent : InstanceId) :
    Except AllocateError (InstanceId × InstanceTable) :=
  match table.find? parent with
  | none => .error (.denied (.invalidInstance parent))
  | some record =>
    -- Only instances that run count, so the exit of one makes room for another.
    if table.maxInstances.toNat ≤ table.runningCount then
      .error (.denied (.exhausted .instances table.maxInstances))
    else
      let depth := record.depth + 1
      if table.maxDepth < depth then
        .error (.denied (.exhausted .depth table.maxDepth.toUInt64))
      else if table.nextId + 1 = 0 then
        -- The last word is never an identity, since none could follow it.
        .error (.denied (.exhausted .identities table.nextId))
      else
        let id : InstanceId := ⟨table.nextId⟩
        if (table.find? id).isSome then .error (.fatal (.identityCollision id))
        else
          .ok (id, { table with
            nextId := table.nextId + 1
            records := table.records ++ [⟨id, some parent, depth, .running, none⟩] })

/-- Records that an instance has exited, once. -/
def markExited (table : InstanceTable) (id : InstanceId) (code : Int8) (fault : Option String) :
    Except Violation InstanceTable :=
  match table.find? id with
  | none => .error (.unknownInstance id)
  | some record =>
    if record.state.isExited then .error (.doubleExit id)
    else
      .ok { table with records := table.records.map fun held =>
        if held.id = id then { held with state := .exited code, fault := fault } else held }

end InstanceTable

end Progeny
