import RobotProgram.Text.Graphic

/-!
# Quoted text

A text in quotation marks, as notices and messages show paths and strings: quotation marks,
backslashes and the usual controls are written with a backslash, and every other character that is
not graphic by its code point in hexadecimal.

## Main definitions

* `Text.quoted`: the text in quotation marks.
-/

namespace RobotProgram.Text

/-- The lower-case hexadecimal digits of a natural, without leading zeros. -/
def hex (n : Nat) : List Char := Nat.toDigits 16 n

/-- How one character is written between quotation marks. -/
def quotedChar (c : Char) : List Char :=
  if c = '"' then ['\\', '"']
  else if c = '\\' then ['\\', '\\']
  else if c = '\n' then ['\\', 'n']
  else if c = '\r' then ['\\', 'r']
  else if c = '\t' then ['\\', 't']
  else if c = '\x00' then ['\\', '0']
  else if isGraphic c then [c]
  else '\\' :: 'u' :: '\x7b' :: hex c.toNat ++ ['\x7d']

/-- The text in quotation marks. -/
def quoted (s : String) : String :=
  String.ofList ('"' :: s.toList.flatMap quotedChar ++ ['"'])

end RobotProgram.Text
