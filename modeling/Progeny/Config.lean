import Progeny.Error

/-! The budgets of a session. -/

namespace Progeny

/-- How much of each resource a session may use. -/
structure Config where
  /-- Instances that may run at the same time, the first one included. -/
  maxInstances : UInt64 := 16
  /-- Endpoints that may be open at the same time. -/
  maxEndpoints : UInt64 := 64
  /-- Generations below the first instance. -/
  maxDepth : UInt32 := 8
  /-- Bytes that each direction of a pipe holds before its writers wait. -/
  pipeCapacity : UInt64 := 4096
  deriving DecidableEq, Inhabited

namespace Config

/-- Refuses budgets under which not even the first instance could run and write. -/
def validate (config : Config) : Except SessionError Unit :=
  if config.maxInstances = 0 then
    .error (.config "max_instances must allow the root instance")
  else if config.pipeCapacity = 0 then
    .error (.config "pipe_capacity must be at least one byte")
  else .ok ()

/-- The names of the budgets, in written order. -/
def fieldNames : List String :=
  ["max_instances", "max_endpoints", "max_depth", "pipe_capacity"]

/-- Budgets are written by name, all of them. -/
def toJson (config : Config) : Json :=
  .object [("max_instances", .ofWord config.maxInstances),
    ("max_endpoints", .ofWord config.maxEndpoints),
    ("max_depth", .ofNat config.maxDepth.toNat),
    ("pipe_capacity", .ofWord config.pipeCapacity)]

/-- Reads budgets; one that is not given has its default. -/
def ofJson? (value : Json) : Option Config := do
  let fields ← value.fields? fieldNames
  let defaults : Config := {}
  return {
    maxInstances := ← fields.defaulted? "max_instances" defaults.maxInstances Json.toWord?
    maxEndpoints := ← fields.defaulted? "max_endpoints" defaults.maxEndpoints Json.toWord?
    maxDepth := ← fields.defaulted? "max_depth" defaults.maxDepth Json.toHalfWord?
    pipeCapacity := ← fields.defaulted? "pipe_capacity" defaults.pipeCapacity Json.toWord? }

end Config

end Progeny
