import Schemata.Moment
import Schemata.Reading.Basic
import Schemata.Reading.Numeral
import Schemata.Text.Case

/-!
# Reading values without parts

Texts, truth values, numbers and moments are read generously: a truth value may be spelled as a
word or as one of the numbers zero and one, a number may stand in a text, and a moment may be
counted in seconds. What a whole number may stand for depends on its size and on the `Origin` of the
document.
-/

namespace Schemata

-- powers as the core library defines them, whatever is imported
attribute [local instance (2000)] instPowNat

/-- Reads a text. -/
def readText : Json.Value → Reading String
  | .text s => .read s
  | _ => .fault .notAText

/-! ## Whole numbers of a document -/

/-- Where a document comes from. Whole numbers of any size are kept, but how large one may be to
stand for something else depends on it. -/
inductive Origin where
  /-- The document was read from a text. -/
  | text
  /-- The document was handed over by a caller. -/
  | caller
deriving DecidableEq, Repr

/-- Whether a whole number is small enough to stand for a truth value or a count of seconds: from a
text those of eighteen digits, from a caller those of 64 bits with a sign. -/
def Origin.isSmall : Origin → Int → Bool
  | text, n => n.natAbs < 10 ^ (18 : Nat)
  | caller, n => -2 ^ (63 : Nat) ≤ n && n < 2 ^ (63 : Nat)

/-- The number for a whole number. From a caller it has to be finite. -/
def Origin.number? : Origin → Int → Option Binary64
  | text, n => some (.ofInt n)
  | caller, n => if (Binary64.ofInt n).isFinite then some (.ofInt n) else none

/-- Whether a whole number may stand for a number with a fraction of zeros. -/
def isWithinWord (n : Int) : Bool :=
  n.natAbs < 2 ^ (63 : Nat)

/-! ## Truth values -/

/-- The words for a truth value, in lower case. -/
def flagWords : List (String × Bool) :=
  [("0", false), ("off", false), ("f", false), ("false", false), ("n", false), ("no", false),
   ("1", true), ("on", true), ("t", true), ("true", true), ("y", true), ("yes", true)]

/-- Reads a number as a truth value. -/
def readFlagNumber (n : Int) : Reading Bool :=
  if n = 0 then .read false else if n = 1 then .read true else .fault .unreadableFlag

/-- Reads a truth value. -/
def readFlag (origin : Origin) : Json.Value → Reading Bool
  | .bool b => .read b
  | .text s =>
    match flagWords.lookup (String.ofList (Text.lower s.toList)) with
    | some b => .read b
    | none => .fault .unreadableFlag
  | .integer n => if origin.isSmall n then readFlagNumber n else .fault .notAFlag
  | .float x => match x.toInt?.filter isWithinWord with
    | some n => readFlagNumber n
    | none => .fault .notAFlag
  | _ => .fault .notAFlag

/-! ## Numbers -/

/-- Reads a whole number. -/
def readInteger : Json.Value → Reading Int
  | .integer n => .read n
  | .bool b => .read (if b then 1 else 0)
  | .text s =>
    if Numeral.isOverlong s.toList then .fault .oversizedInteger
    else match Numeral.integer? s.toList with
      | some n => .read n
      | none => .fault .unreadableInteger
  | .float x =>
    if x.isFinite then match x.toInt? with
      | some n => if isWithinWord n then .read n else .fault .oversizedInteger
      | none => .fault .fractional
    else .fault .notFinite
  | _ => .fault .notAnInteger

/-- Reads a number. -/
def readNumber (origin : Origin) : Json.Value → Reading Binary64
  | .float x => .read x
  | .integer n => match origin.number? n with
    | some x => .read x
    | none => .fault .notANumber
  | .bool b => .read (.ofInt (if b then 1 else 0))
  | .text s => match Numeral.number? s.toList with
    | some x => .read x
    | none => .fault .unreadableNumber
  | _ => .fault .notANumber

/-! ## Words and moments -/

/-- Reads one of a list of words. -/
def readChoice {α : Type} (choices : List (String × α)) : Json.Value → Reading α
  | .text s => match choices.lookup s with
    | some a => .read a
    | none => .fault .notAChoice
  | _ => .fault .notAChoice

/-- The moment that a text spells: in the notation of moments, or as a count of seconds. -/
def spelledMoment? (s : String) : Option Moment :=
  (Moment.read? s).or <| ((Numeral.count? s.toList).bind Moment.ofCount?).or <|
    (Numeral.pointed? s.toList).bind Moment.ofNumber?

/-- Reads a moment that was spelled or counted to, `otherwise` being the fault if there is none. The
year zero can be spelled, but has no moments. -/
def readFound (otherwise : Fault.Kind) : Option Moment → Reading Moment
  | some m => if m.year = 0 then .fault .momentOutOfRange else .read m
  | none => .fault otherwise

/-- Reads a moment: its notation, or a count of seconds as a number or as figures. -/
def readMoment (origin : Origin) : Json.Value → Reading Moment
  | .text s => readFound .unreadableMoment (spelledMoment? s)
  | .integer n =>
    if origin.isSmall n then readFound .momentOutOfRange (Moment.ofCount? n)
    else if origin = .caller ∧ (origin.number? n).isSome then .fault .momentOutOfRange
    else .fault .notAMoment
  | .float x => readFound .momentOutOfRange (Moment.ofNumber? x)
  | _ => .fault .notAMoment

/-! ## Loose texts -/

/-- The text of a scalar: truth values in capitals, numbers in decimal notation. -/
def scalarText? : Json.Value → Option String
  | .text s => some s
  | .bool b => some (if b then "TRUE" else "FALSE")
  | .integer n => some (toString n)
  | .float x => some (textNumber.render x)
  | _ => none

/-- Reads any scalar as a text. -/
def readScalarText (value : Json.Value) : Reading String :=
  match scalarText? value with
  | some s => .read s
  | none => .fault .notAText

/-- Reads a text or a number as a text. -/
def readNumeralText : Json.Value → Reading String
  | .bool _ => .fault .notAText
  | value => readScalarText value

end Schemata
