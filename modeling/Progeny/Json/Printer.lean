import Progeny.Json.Basic
import Progeny.Text.Decimal

/-! JSON text, either without blanks or with one member to a line. -/

namespace Progeny.Json

/-- One character of a string: quotes, backslashes and controls are escaped, all else is raw. -/
def escape (char : Char) : List Char :=
  if char = '"' then ['\\', '"']
  else if char = '\\' then ['\\', '\\']
  else if char = '\x08' then ['\\', 'b']
  else if char = '\x0c' then ['\\', 'f']
  else if char = '\n' then ['\\', 'n']
  else if char = '\r' then ['\\', 'r']
  else if char = '\t' then ['\\', 't']
  else if char.toNat < 0x20 then
    ['\\', 'u', '0', '0', Nat.digitChar (char.toNat / 16), Nat.digitChar (char.toNat % 16)]
  else [char]

/-- A string between quotes. -/
def writeText (text : String) : List Char :=
  '"' :: (text.toList.flatMap escape ++ ['"'])

/-- A value that is neither array nor object. -/
def writeScalar : Json → List Char
  | .bool true => ['t', 'r', 'u', 'e']
  | .bool false => ['f', 'a', 'l', 's', 'e']
  | .integer (.ofNat value) => Decimal.write value
  | .integer (.negSucc value) => '-' :: Decimal.write (value + 1)
  | .real numeral => numeral.toList
  | .text value => writeText value
  | _ => ['n', 'u', 'l', 'l']

mutual

/-- The text of a value without blanks. -/
def write : Json → List Char
  | .array items => '[' :: (writeItems items ++ [']'])
  | .object members => '\x7b' :: (writeMembers members ++ ['\x7d'])
  | value => writeScalar value

/-- Items with commas between them. -/
def writeItems : List Json → List Char
  | [] => []
  | item :: rest => write item ++ writeFurtherItems rest

/-- Items each after a comma. -/
def writeFurtherItems : List Json → List Char
  | [] => []
  | item :: rest => ',' :: (write item ++ writeFurtherItems rest)

/-- Members with commas between them. -/
def writeMembers : List (String × Json) → List Char
  | [] => []
  | (name, value) :: rest =>
    writeText name ++ (':' :: (write value ++ writeFurtherMembers rest))

/-- Members each after a comma. -/
def writeFurtherMembers : List (String × Json) → List Char
  | [] => []
  | (name, value) :: rest =>
    ',' :: (writeText name ++ (':' :: (write value ++ writeFurtherMembers rest)))

end

/-- A new line indented by two blanks for each level. -/
def newLine (level : Nat) : List Char :=
  '\n' :: List.replicate (2 * level) ' '

mutual

/-- The text of a value at an indentation level, with each item and member on a line of its own. -/
def writeIndented : Nat → Json → List Char
  | _, .array [] => ['[', ']']
  | level, .array (item :: rest) =>
    '[' :: (newLine (level + 1) ++ (writeIndented (level + 1) item ++
      (indentedItems (level + 1) rest ++ (newLine level ++ [']']))))
  | _, .object [] => ['\x7b', '\x7d']
  | level, .object ((name, value) :: rest) =>
    '\x7b' :: (newLine (level + 1) ++ (writeText name ++ (':' :: ' ' ::
      (writeIndented (level + 1) value ++
        (indentedMembers (level + 1) rest ++ (newLine level ++ ['\x7d']))))))
  | _, value => writeScalar value

/-- Further items, each after a comma and on a line of its own. -/
def indentedItems : Nat → List Json → List Char
  | _, [] => []
  | level, item :: rest =>
    ',' :: (newLine level ++ (writeIndented level item ++ indentedItems level rest))

/-- Further members, each after a comma and on a line of its own. -/
def indentedMembers : Nat → List (String × Json) → List Char
  | _, [] => []
  | level, (name, value) :: rest =>
    ',' :: (newLine level ++ (writeText name ++ (':' :: ' ' ::
      (writeIndented level value ++ indentedMembers level rest))))

end

/-- The compact text of a value. -/
def compact (value : Json) : String :=
  String.ofList (write value)

/-- The text of a value with two blanks of indentation for each level. -/
def pretty (value : Json) : String :=
  String.ofList (writeIndented 0 value)

end Progeny.Json
