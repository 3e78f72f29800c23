import Schemata.Json.Writer
import Schemata.Text.CodeRange
import Schemata.Text.HiddenRanges

/-!
# Texts listed in a line

`listing` writes a list of texts between brackets, each in quotation marks: apostrophes, or double
marks where a text has apostrophes and no double marks. Backslashes, the marks themselves and
characters that do not show are escaped.
-/

namespace Schemata.Text

/-- The last `width` hexadecimal digits of a number. -/
def hexDigits : Nat → Nat → List Char
  | 0, _ => []
  | width + 1, n => hexDigits width (n / 16) ++ [Json.hexDigit (n % 16)]

/-- The way a character is written between two marks. -/
def escapeListed (mark c : Char) : List Char :=
  if c = mark || c = '\\' then ['\\', c]
  else if c = '\n' then ['\\', 'n']
  else if c = '\t' then ['\\', 't']
  else if c = '\r' then ['\\', 'r']
  else if inRanges hiddenRanges c then
    if c.toNat < 0x100 then ['\\', 'x'] ++ hexDigits 2 c.toNat
    else if c.toNat < 0x10000 then ['\\', 'u'] ++ hexDigits 4 c.toNat
    else ['\\', 'U'] ++ hexDigits 8 c.toNat
  else [c]

/-- The mark for a text. -/
def markFor (s : List Char) : Char :=
  if s.contains '\'' && !s.contains '"' then '"' else '\''

/-- A text between quotation marks. -/
def listed (text : String) : String :=
  let s := text.toList
  let mark := markFor s
  String.ofList (mark :: s.flatMap (escapeListed mark) ++ [mark])

/-- Texts in a line, between brackets. -/
def listing (texts : List String) : String :=
  "[" ++ String.intercalate ", " (texts.map listed) ++ "]"

end Schemata.Text
