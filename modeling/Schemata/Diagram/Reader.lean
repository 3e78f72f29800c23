import Schemata.Diagram.Line
import Schemata.Text.Blank
import Schemata.Text.Case
import Schemata.Text.Line
import Schemata.Text.Word

/-!
# Reading diagrams

`readLines` reads the source of a diagram as lines. A line of the source may hold several
statements, which are cut apart at the braces (`cut`); every piece is then recognised by its form
(`Content.of`). Nothing is refused: what has no known form is an unknown line.

Braces between quotation marks do not cut. A quotation mark opens a quoted part only if another one
follows.
-/

namespace Schemata.Diagram

/-- The text without the blanks in front. -/
def skipBlanks (s : List Char) : List Char :=
  s.dropWhile Text.isBlank

/-! ## Relationships -/

/-- Reads a symbol. -/
def readSymbol : List Char → Option (Symbol × List Char)
  | '|' :: '|' :: s => some (.one, s)
  | '|' :: 'o' :: s => some (.optionalLeft, s)
  | 'o' :: '|' :: s => some (.optionalRight, s)
  | '\x7d' :: 'o' :: s => some (.manyLeft, s)
  | 'o' :: '\x7b' :: s => some (.manyRight, s)
  | '\x7d' :: '|' :: s => some (.someLeft, s)
  | '|' :: '\x7b' :: s => some (.someRight, s)
  | _ => none

/-- Reads the stroke between the symbols: whether it is a full one, and the rest. -/
def readStroke : List Char → Option (Bool × List Char)
  | '-' :: '-' :: s => some (true, s)
  | '-' :: s => some (true, s)
  | '.' :: '.' :: s => some (false, s)
  | '—' :: s => some (true, s)
  | '–' :: s => some (true, s)
  | _ => none

/-- The label taken where none is given. -/
def defaultLabel : List Char := "relates".toList

/-- The text between the quotation marks at both ends, if they are there. -/
def unquote (s : List Char) : List Char :=
  match s with
  | '"' :: cs => if cs.getLast? = some '"' then cs.dropLast else s
  | _ => s

/-- The label that a text spells: blanks and quotation marks around it do not count, and quotation
marks inside become apostrophes. -/
def readLabel : Option (List Char) → List Char
  | none => defaultLabel
  | some text =>
    let inner := unquote (Text.strip text)
    let label := Text.strip (inner.map fun c => if c = '"' then '\'' else c)
    if label.isEmpty then defaultLabel else label

/-- Reads the text of a label, if there is one, up to the end. -/
def readLabelText : List Char → Option (Option (List Char))
  | [] => some none
  | ':' :: s =>
    let text := skipBlanks s
    if text.contains '\n' then none else some (some text)
  | _ => none

/-- Reads a relationship from its left symbol on. -/
def readLinkFrom (source s : List Char) : Option Link := do
  let (left, s) ← readSymbol (skipBlanks s)
  let (identifying, s) ← readStroke (skipBlanks s)
  let (right, s) ← readSymbol (skipBlanks s)
  let (target, s) := Text.spanWord (skipBlanks s)
  if target.isEmpty then none
  else do
    let label ← readLabelText (skipBlanks s)
    return { source, left, right, target, label := readLabel label, identifying }

/-- Reads a relationship. A letter `o` at the end of the first name may belong to the symbol that
follows. -/
def readLink (s : List Char) : Option Link :=
  let (word, rest) := Text.spanWord s
  if word.isEmpty then none
  else match readLinkFrom word rest with
    | some link => some link
    | none =>
      if word.getLast? = some 'o' && 1 < word.length then readLinkFrom word.dropLast ('o' :: rest)
      else none

/-! ## Braces -/

/-- The characters of a text, each with whether it is a brace outside of quoted parts. `quoted`
says whether the text starts inside one. -/
def markBraces (quoted : Bool) : List Char → List (Char × Bool)
  | [] => []
  | c :: cs =>
    if quoted then (c, false) :: markBraces (c != '"') cs
    else if c = '"' then (c, false) :: markBraces (cs.contains '"') cs
    else (c, c == '\x7b' || c == '\x7d') :: markBraces false cs

/-- Whether a text has a brace outside of quoted parts. -/
def hasBraces (s : List Char) : Bool :=
  (markBraces false s).any (·.2)

/-- A text as a piece, unless it is blank. -/
def piece? (s : List Char) : List (List Char) :=
  let stripped := Text.strip s
  if stripped.isEmpty then [] else [stripped]

/-- Cuts a text behind each opening brace and on both sides of each closing one. `before` is what
stands in front of the text since the last cut, the last character first. -/
def cutAt (before : List Char) : List (Char × Bool) → List (List Char)
  | [] => piece? before.reverse
  | (c, false) :: s => cutAt (c :: before) s
  | (c, true) :: s =>
    if c = '\x7b' then Text.strip (Text.strip before.reverse ++ [' ', '\x7b']) :: cutAt [] s
    else piece? before.reverse ++ ['\x7d'] :: cutAt [] s

/-- The statements on a line, in order. Comments and relationships are never cut. -/
def cut (line : List Char) : List (List Char) :=
  let s := Text.strip line
  if commentStart.isPrefixOf s || (readLink s).isSome || !hasBraces s then [s]
  else cutAt [] (markBraces false s)

/-! ## Attributes -/

/-- Whether a character may stand inside the type of an attribute. -/
def isTypeChar (c : Char) : Bool :=
  Text.isWord c || c == '[' || c == ']' || c == '(' || c == ')'

/-- The first quoted part of a text: what stands before it, in it and behind it. -/
def firstQuoted? (s : List Char) : Option (List Char × List Char × List Char) :=
  let (before, opened) := s.span (· != '"')
  let (inside, closed) := (opened.drop 1).span (· != '"')
  if closed.isEmpty then none else some (before, inside, closed.drop 1)

/-- The mark that a word spells. -/
def readMark (word : List Char) : Option Mark :=
  [Mark.primary, .foreign, .unique].find? fun mark => mark.chars == Text.upper word

/-- The marks among the words of a text, each once. -/
def readMarks (s : List Char) : List Mark :=
  ((Text.wordsBy (fun c => Text.isBlank c || c == ',') s).filterMap readMark).eraseDups

/-- Whether a text is a single line, apart from a line feed at its end. -/
def isSingleLine (s : List Char) : Bool :=
  !(if s.getLast? = some '\n' then s.dropLast else s).contains '\n'

/-- Reads an attribute: a type, a name, and then marks and a comment, among which all else is passed
over. -/
def readAttribute (s : List Char) : Option Attribute :=
  if hasBraces s then none
  else
    let (type, afterType) := s.span isTypeChar
    let (name, rest) := Text.spanWord (skipBlanks afterType)
    let startsType := type.head?.any fun c => c.isAlpha || c == '_'
    let blankBetween := afterType.head?.any Text.isBlank
    if startsType && blankBetween && !name.isEmpty && isSingleLine rest then
      match firstQuoted? rest with
      | some (before, comment, behind) =>
        some { type, name, marks := readMarks (before ++ behind), comment := some comment }
      | none => some { type, name, marks := readMarks rest }
    else none

/-! ## Lines -/

/-- The name of the entity that a line opens. -/
def readEntity (s : List Char) : Option (List Char) :=
  let (name, rest) := Text.spanWord s
  if !name.isEmpty && skipBlanks rest == ['\x7b'] then some name else none

/-- What a piece of a line is. -/
def Content.of (s : List Char) : Content :=
  if s.isEmpty then .blank
  else if commentStart.isPrefixOf s then .comment s
  else if s = headerText then .header
  else if s = ['\x7d'] then .close
  else match readEntity s with
    | some name => .entity name
    | none => match readLink s with
      | some l => .link l
      | none => match readAttribute s with
        | some a => .attribute a
        | none => .unknown s

/-- The lines that the line of a number holds. -/
def readLine (number : Nat) (line : List Char) : List Line :=
  (cut line).map fun piece => ⟨.of piece, piece, number⟩

/-- The lines of a source, from a number on. -/
def readNumbered (number : Nat) : List (List Char) → List Line
  | [] => []
  | line :: lines => readLine number line ++ readNumbered (number + 1) lines

/-- The lines of a source. -/
def readLines (source : List Char) : List Line :=
  readNumbered 1 (Text.splitLines source)

end Schemata.Diagram
