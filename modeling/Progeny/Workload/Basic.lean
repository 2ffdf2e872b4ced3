import Progeny.Json.Decode
import Progeny.Json.Reader
import Progeny.Text.Base64
import Progeny.Text.Decimal

/-! Workloads: a tree of instances to spawn, and bytes that they send each other through pipes. -/

namespace Progeny

/-- An instance spawns another and hands it pipes. -/
structure SpawnPlan where
  parent : UInt64
  child : UInt64
  /-- The numbers of the pipes handed over, in order. -/
  pipes : List UInt64
  deriving DecidableEq

/-- An instance creates a pipe. -/
structure PipePlan where
  creator : UInt64
  /-- The number of the first end, which the reader uses. -/
  readPipe : UInt64
  /-- The number of the second end, which the writer uses. -/
  writePipe : UInt64
  deriving DecidableEq

/-- An instance sends bytes to another. -/
structure WritePlan where
  writer : UInt64
  writerPipe : UInt64
  reader : UInt64
  readerPipe : UInt64
  data : Bytes
  deriving DecidableEq

/-- All that the instances of a session are to do. -/
structure Workload where
  /-- Parents come before their children. -/
  spawns : List SpawnPlan := []
  pipes : List PipePlan := []
  /-- Every instance writes and reads in this order. -/
  writes : List WritePlan := []
  deriving DecidableEq, Inhabited

namespace SpawnPlan

/-- A spawn is written from the parent to the child. -/
def toJson (plan : SpawnPlan) : Json :=
  .object [("from", .ofWord plan.parent), ("child", .ofWord plan.child),
    ("pipes", .ofList .ofWord plan.pipes)]

/-- Reads a spawn. -/
def ofJson? (value : Json) : Option SpawnPlan := do
  let fields ← value.fields? ["from", "child", "pipes"]
  return {
    parent := ← fields.required? "from" Json.toWord?
    child := ← fields.required? "child" Json.toWord?
    pipes := ← fields.required? "pipes" (Json.toList? Json.toWord?) }

/-- The line that describes a spawn. -/
def line (plan : SpawnPlan) : String :=
  "VM " ++ Decimal.text plan.parent.toNat ++ " spawns VM " ++ Decimal.text plan.child.toNat ++
    ", passed pipes: [" ++
    String.intercalate ", " (plan.pipes.map fun pipe => Decimal.text pipe.toNat) ++ "]\n"

end SpawnPlan

namespace PipePlan

/-- The creation of a pipe is written with the numbers of both ends. -/
def toJson (plan : PipePlan) : Json :=
  .object [("vm", .ofWord plan.creator), ("read_pipe", .ofWord plan.readPipe),
    ("write_pipe", .ofWord plan.writePipe)]

/-- Reads the creation of a pipe. -/
def ofJson? (value : Json) : Option PipePlan := do
  let fields ← value.fields? ["vm", "read_pipe", "write_pipe"]
  return {
    creator := ← fields.required? "vm" Json.toWord?
    readPipe := ← fields.required? "read_pipe" Json.toWord?
    writePipe := ← fields.required? "write_pipe" Json.toWord? }

/-- The line that describes the creation of a pipe. -/
def line (plan : PipePlan) : String :=
  "VM " ++ Decimal.text plan.creator.toNat ++ " creates read pipe " ++
    Decimal.text plan.readPipe.toNat ++ ", write pipe " ++
    Decimal.text plan.writePipe.toNat ++ "\n"

end PipePlan

namespace WritePlan

/-- A transfer is written with its bytes in base64. -/
def toJson (plan : WritePlan) : Json :=
  .object [("from", .ofWord plan.writer), ("from_pipe", .ofWord plan.writerPipe),
    ("to", .ofWord plan.reader), ("to_pipe", .ofWord plan.readerPipe),
    ("data", .text (String.ofList (Base64.encode plan.data)))]

/-- Reads bytes in base64. -/
def dataOfJson? (value : Json) : Option Bytes :=
  value.toText?.bind fun text => Base64.decode? text.toList

/-- Reads a transfer. -/
def ofJson? (value : Json) : Option WritePlan := do
  let fields ← value.fields? ["from", "from_pipe", "to", "to_pipe", "data"]
  return {
    writer := ← fields.required? "from" Json.toWord?
    writerPipe := ← fields.required? "from_pipe" Json.toWord?
    reader := ← fields.required? "to" Json.toWord?
    readerPipe := ← fields.required? "to_pipe" Json.toWord?
    data := ← fields.required? "data" dataOfJson? }

/-- The line that describes a transfer of bytes. -/
def line (plan : WritePlan) : String :=
  "VM " ++ Decimal.text plan.writer.toNat ++ " writes " ++ Decimal.text plan.data.length ++
    " bytes to pipe " ++ Decimal.text plan.writerPipe.toNat ++ ", read by VM " ++
    Decimal.text plan.reader.toNat ++ " from pipe " ++
    Decimal.text plan.readerPipe.toNat ++ "\n"

end WritePlan

namespace Workload

/-- The number of instances, the first one included. -/
def instanceCount (workload : Workload) : Nat :=
  workload.spawns.length + 1

/-- A workload is written as its three lists of plans. -/
def toJson (workload : Workload) : Json :=
  .object [("spawns", .ofList SpawnPlan.toJson workload.spawns),
    ("pipes", .ofList PipePlan.toJson workload.pipes),
    ("writes", .ofList WritePlan.toJson workload.writes)]

/-- Reads a workload, in which all three lists are given. -/
def ofJson? (value : Json) : Option Workload := do
  let fields ← value.fields? ["spawns", "pipes", "writes"]
  return {
    spawns := ← fields.required? "spawns" (Json.toList? SpawnPlan.ofJson?)
    pipes := ← fields.required? "pipes" (Json.toList? PipePlan.ofJson?)
    writes := ← fields.required? "writes" (Json.toList? WritePlan.ofJson?) }

/-- Reads the text of a workload. -/
def parse? (text : List Char) : Option Workload :=
  (Json.parse? text).bind ofJson?

/-- A description of a workload, line by line: pipes, spawns, writes. -/
def display (workload : Workload) : String :=
  String.join (workload.pipes.map PipePlan.line ++ workload.spawns.map SpawnPlan.line ++
    workload.writes.map WritePlan.line)

end Workload

end Progeny
