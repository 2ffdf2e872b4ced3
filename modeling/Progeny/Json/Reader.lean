import Progeny.Json.Numeral
import Progeny.Text.Hex

/-! Reading JSON text: exactly one value, with blanks around its tokens. -/

namespace Progeny.Json

/-- Whether a character may stand between tokens. -/
def isBlank (char : Char) : Bool :=
  char = ' ' || char = '\t' || char = '\n' || char = '\r'

/-- The rest of the input from the next token on. -/
def skipBlanks (input : List Char) : List Char :=
  input.dropWhile isBlank

/-- The values of the escapes that name one character. -/
def shortEscape? (char : Char) : Option Char :=
  match char with
  | '"' => some '"'
  | '\\' => some '\\'
  | '/' => some '/'
  | 'b' => some '\x08'
  | 'f' => some '\x0c'
  | 'n' => some '\n'
  | 'r' => some '\r'
  | 't' => some '\t'
  | _ => none

/-- Reads a string up to its closing quote as code points, where an escape may name half of a
surrogate pair. -/
def readPoints : List Char → Option (List Nat × List Char)
  | [] => none
  | '"' :: rest => some ([], rest)
  | '\\' :: 'u' :: a :: b :: c :: d :: rest => do
    let point ← Hex.value? [a, b, c, d]
    let (points, rest) ← readPoints rest
    return (point :: points, rest)
  | '\\' :: char :: rest => do
    let char ← shortEscape? char
    let (points, rest) ← readPoints rest
    return (char.toNat :: points, rest)
  | char :: rest => do
    -- Controls stand in a string only as escapes.
    if char.toNat < 0x20 then none
    else
      let (points, rest) ← readPoints rest
      return (char.toNat :: points, rest)

/-- The text of code points, where two halves of a pair join; a half alone has no text. -/
def joinPoints : List Nat → Option (List Char)
  | [] => some []
  | [point] =>
    if 0xD800 ≤ point ∧ point < 0xE000 then none else some [Char.ofNat point]
  | point :: next :: rest =>
    if 0xD800 ≤ point ∧ point < 0xDC00 then
      if 0xDC00 ≤ next ∧ next < 0xE000 then do
        let chars ← joinPoints rest
        return Char.ofNat (0x10000 + (point - 0xD800) * 0x400 + (next - 0xDC00)) :: chars
      else none
    else if 0xDC00 ≤ point ∧ point < 0xE000 then none
    else do
      let chars ← joinPoints (next :: rest)
      return Char.ofNat point :: chars

/-- Reads a string after its opening quote; the text is missing where half of a pair stands
alone. -/
def readText (input : List Char) : Option (Option String × List Char) := do
  let (points, rest) ← readPoints input
  return ((joinPoints points).map String.ofList, rest)

/-- The object of members in which every name has a text. -/
def objectOf (members : List (Option String × Json)) : Json :=
  match members.mapM fun (name, value) => name.map (·, value) with
  | some members => .object members
  | none => .unreadable

mutual

/-- Reads one value after optional blanks. The first argument bounds the recursion. -/
def readValue : Nat → List Char → Option (Json × List Char)
  | 0, _ => none
  | fuel + 1, input =>
    match skipBlanks input with
    | 'n' :: 'u' :: 'l' :: 'l' :: rest => some (.null, rest)
    | 't' :: 'r' :: 'u' :: 'e' :: rest => some (.bool true, rest)
    | 'f' :: 'a' :: 'l' :: 's' :: 'e' :: rest => some (.bool false, rest)
    | '"' :: rest => do
      let (content, rest) ← readText rest
      return (content.elim .unreadable .text, rest)
    | '[' :: rest =>
      match skipBlanks rest with
      | ']' :: rest => some (.array [], rest)
      | _ => do
        let (items, rest) ← readItems fuel rest
        return (.array items, rest)
    | '\x7b' :: rest =>
      match skipBlanks rest with
      | '\x7d' :: rest => some (.object [], rest)
      | _ => do
        let (members, rest) ← readMembers fuel rest
        return (objectOf members, rest)
    | input => readNumber input

/-- Reads items up to the closing bracket. -/
def readItems : Nat → List Char → Option (List Json × List Char)
  | 0, _ => none
  | fuel + 1, input => do
    let (item, rest) ← readValue fuel input
    match skipBlanks rest with
    | ']' :: rest => return ([item], rest)
    | ',' :: rest =>
      let (items, rest) ← readItems fuel rest
      return (item :: items, rest)
    | _ => none

/-- Reads members up to the closing brace; the text of a name may be missing. -/
def readMembers : Nat → List Char → Option (List (Option String × Json) × List Char)
  | 0, _ => none
  | fuel + 1, input =>
    match skipBlanks input with
    | '"' :: rest => do
      let (name, rest) ← readText rest
      match skipBlanks rest with
      | ':' :: rest =>
        let (value, rest) ← readValue fuel rest
        match skipBlanks rest with
        | '\x7d' :: rest => return ([(name, value)], rest)
        | ',' :: rest =>
          let (members, rest) ← readMembers fuel rest
          return ((name, value) :: members, rest)
        | _ => none
      | _ => none
    | _ => none

end

/-- Reads a text that holds one value and nothing else. Each level of nesting takes at most two
steps for each character, so the bound is never met. -/
def parse? (input : List Char) : Option Json := do
  let (value, rest) ← readValue (2 * input.length + 2) input
  if skipBlanks rest = [] then return value else none

end Progeny.Json
