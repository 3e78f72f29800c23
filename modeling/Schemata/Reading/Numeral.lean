import Schemata.Decimal.Binary64
import Schemata.Text.Blank
import Schemata.Text.Digit

/-!
# Numbers spelled in texts

People write numbers with blanks around them, a plus sign, zeros in front, a fraction of zeros, or
underscores between groups of figures. `Numeral.integer?` takes all of this off until a bare numeral
is left, and reads that. `Numeral.number?` reads a number with a point and a power of ten, or one of
the words for infinity and for no number.

`Numeral.count?` and `Numeral.pointed?` read figures without such liberties.
-/

namespace Schemata.Numeral

-- the test of the core library, whatever is imported
attribute [local instance (2000)] List.instDecidableIsInfixOfDecidableEq

/-! ## Figures -/

/-- The value of a numeral of ASCII digits. -/
def natOfDigits? (s : List Char) : Option Nat :=
  if !s.isEmpty && s.all Char.isDigit then
    some (s.foldl (fun n c => 10 * n + (c.toNat - 48)) 0)
  else none

/-- Splits off the sign of a numeral: whether it is a minus, and what follows. -/
def splitSign : List Char → Bool × List Char
  | '-' :: s => (true, s)
  | '+' :: s => (false, s)
  | s => (false, s)

/-- An integer of a size, negated if so marked. -/
def signed (negative : Bool) (n : Nat) : Int :=
  if negative then -(n : Int) else n

/-- The whole number that a sign, if any, and figures spell. -/
def count? (s : List Char) : Option Int :=
  let (negative, digits) := splitSign s
  (natOfDigits? digits).map (signed negative)

/-- A text without the underscores that separate groups. None may stand at an end or beside another:
such a text stays as it is. -/
def joinGroups (s : List Char) : List Char :=
  if s.head? == some '_' || s.getLast? == some '_' || decide (['_', '_'] <:+: s) then s
  else s.filter (· != '_')

/-! ## Whole numbers -/

/-- The whole number that a bare numeral spells: a minus sign, if any, and not too many figures, the
first of which is no zero unless it is the only one. -/
def bare? (s : List Char) : Option Int :=
  let (negative, digits) := match s with
    | '-' :: digits => (true, digits)
    | digits => (false, digits)
  if s.length ≤ Text.longestNumeral && (digits.head? != some '0' || digits.length == 1) then
    (natOfDigits? digits).map (signed negative)
  else none

/-- Whether a text begins with a bare numeral of too many figures. -/
def isOverlong (s : List Char) : Bool :=
  let (sign, digits) := s.span (· == '-')
  let figures := digits.takeWhile Char.isDigit
  sign.length ≤ 1 && figures.head? != some '0'
    && sign.length + figures.length > Text.longestNumeral

/-- What is left of a numeral without the zeros in front, `last` being the one read last.
Underscores between them go with them; a zero in front of a point stays, and so does the last
figure. -/
def dropZeros? (last : Char) : List Char → Option (List Char)
  | [] => some [last]
  | c :: s =>
    if c = '0' || c = '_' then dropZeros? c s
    else if c = '.' then some (last :: c :: s)
    else if c = '-' || c.isDigit then some (c :: s)
    else none

/-- A numeral without the zeros in front. It has to begin with a figure, minus signs aside. -/
def significant? : List Char → Option (List Char)
  | [] => none
  | '0' :: s => dropZeros? '0' s
  | '-' :: s => (significant? s).map ('-' :: ·)
  | c :: s => if c.isDigit then some (c :: s) else none

/-- A numeral without a fraction of zeros, of which there has to be one at least. -/
def dropFraction (s : List Char) : List Char :=
  match s.span (· != '.') with
  | (whole, '.' :: zero :: zeros) => if (zero :: zeros).all (· == '0') then whole else s
  | _ => s

/-- A numeral without a plus sign in front, behind which no other sign may stand. -/
def dropPlus? : List Char → Option (List Char)
  | '+' :: '-' :: _ => none
  | '+' :: s => some s
  | s => some s

/-- The whole number that a text spells. -/
def integer? (s : List Char) : Option Int := do
  let s ← significant? (← dropPlus? (Text.trim Text.isSpace s))
  bare? (joinGroups (dropFraction s))

example : integer? " +0_012.00 ".toList = some 12 := by decide +kernel

example : integer? "1__0".toList = none := by decide +kernel

example : integer? "2.".toList = none := by decide +kernel

/-! ## Numbers -/

/-- The power of ten that an exponent behind its mark spells; nothing is the power zero. -/
def powerOfTen? : List Char → Option Int
  | [] => some 0
  | mark :: s => if mark = 'e' || mark = 'E' then count? s else none

/-- The number that figures with a point and an exponent, each if given, spell. -/
def unsigned? (negative : Bool) (s : List Char) : Option Binary64 := do
  let (mantissa, power) := s.span fun c => c != 'e' && c != 'E'
  let (whole, point) := mantissa.span (· != '.')
  let fraction := point.drop 1
  let digits ← natOfDigits? (whole ++ fraction)
  let power ← powerOfTen? power
  return .ofDecimal negative digits (power - fraction.length)

/-- The number that a sign, if any, and figures with a point spell; an exponent may follow. -/
def pointed? (s : List Char) : Option Binary64 :=
  let (negative, s) := splitSign s
  if (s.dropWhile Char.isDigit).head? == some '.' then unsigned? negative s else none

/-- The number that a sign, if any, and a word or figures spell. Letter case does not matter. -/
def binary64? (s : List Char) : Option Binary64 :=
  let (negative, s) := splitSign s
  let word := s.map Char.toLower
  if word == "inf".toList || word == "infinity".toList then some (.infinite negative)
  else if word == "nan".toList then some .undefined
  else unsigned? negative s

/-- The number that a text spells: with blanks around it, or with underscores inside. -/
def number? (s : List Char) : Option Binary64 :=
  (binary64? (Text.trim Text.isSpace s)).or (binary64? (joinGroups s))

example : number? "1_0e1".toList = some (.ofInt 100) := by decide +kernel

example : pointed? ".1e2".toList = some (.ofInt 10) := by decide +kernel

example : pointed? "1e2".toList = none := by decide +kernel

end Schemata.Numeral
