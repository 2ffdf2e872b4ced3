import Progeny.Program.Descriptor

/-! Programs by source and index. -/

namespace Progeny

/-- A program as it is registered. -/
structure ProgramEntry (π : Type) where
  index : UInt64
  source : UInt64
  /-- The size of the image, where the program has one. -/
  imageSize : Option UInt64
  program : π

/-- The programs that a session can start, at most one for each source and index. -/
structure ProgramRegistry (π : Type) where
  entries : List (ProgramEntry π) := []

namespace ProgramRegistry

variable {π : Type}

/-- Whether an entry is registered under the source and index of a descriptor. -/
def isNamedBy (entry : ProgramEntry π) (descriptor : Descriptor) : Bool :=
  entry.source = descriptor.source && entry.index = descriptor.index

/-- The entry that a descriptor names. -/
def find? (registry : ProgramRegistry π) (descriptor : Descriptor) : Option (ProgramEntry π) :=
  registry.entries.find? (isNamedBy · descriptor)

/-- Registers a program in place of any other under its source and index. -/
def register (registry : ProgramRegistry π) (entry : ProgramEntry π) : ProgramRegistry π :=
  ⟨registry.entries.filter (fun held =>
    !(held.source = entry.source && held.index = entry.index)) ++ [entry]⟩

/-- The number of registered programs. -/
def size (registry : ProgramRegistry π) : Nat :=
  registry.entries.length

/-- A summary in one line. -/
def summary (registry : ProgramRegistry π) : String :=
  "ProgramRegistry \x7b programs: " ++ Decimal.text registry.size ++ " \x7d"

/-- Finds the program of a descriptor. Bounds are checked only where the image has a size. -/
def resolve (registry : ProgramRegistry π) (descriptor : Descriptor) : Except CallError π :=
  match registry.find? descriptor with
  | none => .error (.invalidProgram descriptor.index descriptor.source "no program registered")
  | some entry =>
    match entry.imageSize with
    | none => .ok entry.program
    | some imageSize =>
      match descriptor.bounds.within imageSize with
      | .error reason => .error (.invalidProgram descriptor.index descriptor.source reason)
      | .ok _ => .ok entry.program

end ProgramRegistry

end Progeny
