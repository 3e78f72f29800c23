import Schemata.Text.CodeRange
import Schemata.Text.WordRanges

/-!
# Word characters

Letters, numbers and the underscore: the characters that a diagram name may hold.
-/

namespace Schemata.Text

/-- Whether the character is a letter, a number or the underscore. -/
def isWord (c : Char) : Bool :=
  if c.toNat < 128 then c.isAlphanum || c == '_' else inRanges wordRanges c

/-- Whether the character is an ASCII letter or digit of lower case. -/
def isLowerAlphanum (c : Char) : Bool :=
  c.isLower || c.isDigit

/-- Whether the character belongs in a snake-case name. -/
def isSnake (c : Char) : Bool :=
  isLowerAlphanum c || c == '_'

/-- The longest start of the text that consists of word characters, and the rest. -/
def spanWord (s : List Char) : List Char × List Char :=
  s.span isWord

/-- Puts an underscore between a lower-case ASCII letter or digit and an upper-case ASCII letter
that follows it. -/
def splitCamel : List Char → List Char
  | a :: b :: s =>
    if isLowerAlphanum a && b.isUpper then a :: '_' :: splitCamel (b :: s)
    else a :: splitCamel (b :: s)
  | s => s

end Schemata.Text
