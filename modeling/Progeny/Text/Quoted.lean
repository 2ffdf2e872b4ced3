import Progeny.Text.Printable

/-! Quoted text for messages: printable characters stand for themselves, all others are escaped. -/

namespace Progeny.Quoted

/-- One character as it stands between the quotes. -/
def escape (char : Char) : List Char :=
  if char = '"' then ['\\', '"']
  else if char = '\\' then ['\\', '\\']
  else if char = '\n' then ['\\', 'n']
  else if char = '\r' then ['\\', 'r']
  else if char = '\t' then ['\\', 't']
  else if char = '\x00' then ['\\', '0']
  else if isPrintable char then [char]
  -- The code point stands in braces, in lowercase hexadecimal without leading zeros.
  else '\\' :: 'u' :: '\x7b' :: (Nat.toDigits 16 char.toNat ++ ['\x7d'])

/-- A text between double quotes. -/
def write (text : List Char) : List Char :=
  '"' :: (text.flatMap escape ++ ['"'])

end Progeny.Quoted
