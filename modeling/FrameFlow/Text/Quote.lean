/-
# Quoted texts in messages

A message shows a text between double quotes. Quotes, backslashes and the usual
control characters are escaped, and a character without a shape of its own is
shown by its code point.

Key definition:
* `quoted`: the text as a message shows it.
-/
import FrameFlow.Text.Invisible

namespace FrameFlow

/-- A character as it stands inside a quoted text. -/
def quotedChar (c : Char) : List Char :=
  if c = '\x00' then ['\\', '0']
  else if c = '\t' then ['\\', 't']
  else if c = '\r' then ['\\', 'r']
  else if c = '\n' then ['\\', 'n']
  else if c = '\\' then ['\\', '\\']
  else if c = '"' then ['\\', '"']
  else if isInvisible c then ['\\', 'u', '{'] ++ Nat.toDigits 16 c.toNat ++ ['}']
  else [c]

/-- A text between double quotes. -/
def quoted (s : String) : String :=
  String.ofList ('"' :: (s.toList.flatMap quotedChar ++ ['"']))

end FrameFlow
