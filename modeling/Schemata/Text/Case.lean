import Schemata.Text.CodeRange
import Schemata.Text.CaseRuns
import Schemata.Text.CasedRanges

/-!
# Letter case

The full case mappings of Unicode 14, which may change the length of a text: the capital dotted I
becomes an `i` with a combining dot, and the sharp s becomes `SS`. A capital sigma takes its final
form when a cased letter stands before it and none after it, case-ignorable characters skipped.

`lower` and `upper` map whole texts. `matchesFolded` compares a text with an upper-case ASCII
keyword without regard to case.
-/

namespace Schemata.Text

/-- The character with a code point, moved by the first run that holds it. -/
def moveBy (runs : List CaseRun) (c : Char) : Char :=
  match runs.findSome? (·.image? c.toNat) with
  | some n => Char.ofNat n
  | none => c

/-- The lower-case form of a character on its own. -/
def lowerChar (c : Char) : List Char :=
  if c.toNat < 128 then [c.toLower]
  else if c = 'İ' then ['i', '\u0307']
  else if c = 'Σ' then ['σ']
  else [moveBy lowerRuns c]

/-- The upper-case form of a character. -/
def upperChar (c : Char) : List Char :=
  if c.toNat < 128 then [c.toUpper]
  else match upperExpansions.lookup c.toNat with
    | some code => code.map Char.ofNat
    | none => [moveBy upperRuns c]

/-- Whether the first character that is not case-ignorable has a case. -/
def startsCased (s : List Char) : Bool :=
  match s.dropWhile (inRanges caseIgnorableRanges) with
  | c :: _ => inRanges casedRanges c
  | [] => false

/-- The lower-case form of a text. -/
def lower (s : List Char) : List Char :=
  go [] s
where
  /-- `before` holds the characters already passed, the last one first. -/
  go (before : List Char) : List Char → List Char
    | [] => []
    | c :: cs =>
      (if c = 'Σ' && startsCased before && !startsCased cs then ['ς'] else lowerChar c)
        ++ go (c :: before) cs

/-- The upper-case form of a text. -/
def upper (s : List Char) : List Char :=
  s.flatMap upperChar

/-- The ASCII capital that a character stands for when case is disregarded. The dotted and the
dotless I stand for `I`, and the long s for `S`. -/
def foldToCapital (c : Char) : Char :=
  if c = 'ı' || c = 'İ' then 'I' else if c = 'ſ' then 'S' else c.toUpper

/-- Whether a text spells an ASCII keyword in capitals, case disregarded. -/
def matchesFolded (keyword : String) (s : List Char) : Bool :=
  s.map foldToCapital == keyword.toList

example : lower "ΟΔΟΣ".toList = "οδος".toList := by decide +kernel

example : upper "straße".toList = "STRASSE".toList := by decide +kernel

end Schemata.Text
