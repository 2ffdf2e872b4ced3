import Progeny.Text.Decimal

/-! A picture of a file tree: it tells whether a file can be written, and why not. -/

namespace Progeny.Cli

/-- Why a file cannot be written. -/
inductive WriteFailure where
  /-- A folder on the way does not exist. -/
  | missing
  /-- Something on the way is no folder. -/
  | notFolder
  /-- The path leads to a folder. -/
  | isFolder
  | noSpace
  | nameTooLong
  /-- Anything else that a system reports. -/
  | other (reason : String) (code : Nat)
  deriving DecidableEq

/-- The words of a system for a failure. -/
def WriteFailure.reason : WriteFailure → String
  | .missing => "No such file or directory"
  | .notFolder => "Not a directory"
  | .isFolder => "Is a directory"
  | .noSpace => "No space left on device"
  | .nameTooLong => "File name too long"
  | .other reason _ => reason

/-- The number of a system for a failure. -/
def WriteFailure.code : WriteFailure → Nat
  | .missing => 2
  | .notFolder => 20
  | .isFolder => 21
  | .noSpace => 28
  | .nameTooLong => 36
  | .other _ code => code

/-- What is told about a failure. -/
def WriteFailure.message (failure : WriteFailure) : String :=
  failure.reason ++ " (os error " ++ Decimal.text failure.code ++ ")"

/-- What stands somewhere in a file tree. -/
inductive Place where
  | folder
  | file
  /-- A device that takes nothing. -/
  | full
  deriving DecidableEq

/-- A file tree in which any folder takes new files. -/
structure Disk where
  /-- What stands where; a place is told by the names that lead to it from the root. -/
  places : List (List String × Place)
  /-- The folder in which a path without a leading slash begins. -/
  home : List String

namespace Disk

/-- The most bytes of one name. -/
def nameLimit : Nat := 255

/-- The most bytes of a path. -/
def pathLimit : Nat := 4095

/-- Enters the folder of a name. An empty name and a single dot stay, two dots go back. -/
def enter (disk : Disk) (folder : List String) (name : String) :
    Except WriteFailure (List String) :=
  if name = "" ∨ name = "." then .ok folder
  else if name = ".." then .ok folder.dropLast
  else if nameLimit < name.utf8ByteSize then .error .nameTooLong
  else match disk.places.lookup (folder ++ [name]) with
    | some .folder => .ok (folder ++ [name])
    | some _ => .error .notFolder
    | none => .error .missing

/-- Why a file of a name cannot be written in a folder, if so. A slash after the name asks for a
folder. -/
def failureAt? (disk : Disk) (folder : List String) (name : String) (asksFolder : Bool) :
    Option WriteFailure :=
  if asksFolder ∨ name ∈ ["", ".", ".."] then some .isFolder
  else if nameLimit < name.utf8ByteSize then some .nameTooLong
  else match disk.places.lookup (folder ++ [name]) with
    | some .folder => some .isFolder
    | some .full => some .noSpace
    | some .file | none => none

/-- Why a file cannot be written at a path, if so. -/
def failure? (disk : Disk) (path : String) : Option WriteFailure :=
  if pathLimit < path.utf8ByteSize then some .nameTooLong
  else
    let names := path.splitOn "/"
    let start := if names.head? = some "" then [] else disk.home
    -- The last name is the one before any slashes at the end.
    let backwards := names.reverse.dropWhile (· = "")
    match backwards.tail.reverse.foldlM disk.enter start with
    | .error failure => some failure
    | .ok folder =>
      disk.failureAt? folder (backwards.headD "") (names.getLast? = some "")

end Disk

end Progeny.Cli
