import Clearance.Text.Unprintable

/-!
# Text quoted in a message

A message shows a text between double quotes. The quote, the backslash, the usual white space
escapes and NUL have their own escapes; a character without a shape of its own is shown by its
code point in hexadecimal.
-/

namespace Clearance.Text

/-- One character as a message shows it. -/
def shown (c : Char) : List Char :=
  if c = '"' then ['\\', '"']
  else if c = '\\' then ['\\', '\\']
  else if c = '\n' then ['\\', 'n']
  else if c = '\r' then ['\\', 'r']
  else if c = '\t' then ['\\', 't']
  else if c = '\x00' then ['\\', '0']
  else if isUnprintable c then
    ['\\', 'u', '\x7b'] ++ Nat.toDigits 16 c.toNat ++ ['\x7d']
  else [c]

/-- The text in double quotes. -/
def quoted (s : String) : String := String.ofList ('"' :: (s.toList.flatMap shown ++ ['"']))

end Clearance.Text
