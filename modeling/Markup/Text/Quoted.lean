import Markup.Text.Invisible

/-!
# Texts quoted in messages

A message shows a text between quotation marks. Quotation marks, backslashes, the common control
characters and characters that cannot be seen are written as escapes.
-/

namespace Markup.Text

/-- One character of a text in a message. -/
def messageChar (c : Char) : List Char :=
  if c = '\x00' then ['\\', '0']
  else if c = '\t' then ['\\', 't']
  else if c = '\r' then ['\\', 'r']
  else if c = '\n' then ['\\', 'n']
  else if c = '"' then ['\\', '"']
  else if c = '\\' then ['\\', '\\']
  else if isInvisible c then "\\u\x7b".toList ++ Nat.toDigits 16 c.toNat ++ ['\x7d']
  else [c]

/-- A text as messages show it. -/
def quotedInMessage (s : String) : String :=
  String.ofList ('"' :: s.toList.flatMap messageChar ++ ['"'])

end Markup.Text
