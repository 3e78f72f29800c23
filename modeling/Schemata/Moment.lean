import Schemata.Decimal.Shortest

/-!
# Moments

A `Moment` is a date with a time of day, to the microsecond, and the distance of its clock from
universal time if that is known. It is read from the international notation: a date, and behind a
separator the hour and minute, then seconds with a fraction and the distance, each if given. A date
alone is midnight. A number counts the seconds since the start of 1970, or their thousandths if it
is large (`Moment.ofCount?`, `Moment.ofNumber?`).

The notation has a year zero, which the calendar does not have: a moment of it is read, but no
document keeps one.

`Moment.document` and `Moment.header` write the notation back, the first with microseconds and the
second without; `Moment.long` spells a moment out in English.
-/

namespace Schemata

-- powers as the core library defines them, whatever is imported
attribute [local instance (2000)] instPowNat

/-- A date and a time of day. -/
structure Moment where
  /-- The year. -/
  year : Nat
  /-- The month, from 1. -/
  month : Nat
  /-- The day of the month, from 1. -/
  day : Nat
  /-- The hour of the day. -/
  hour : Nat := 0
  /-- The minute of the hour. -/
  minute : Nat := 0
  /-- The second of the minute. -/
  second : Nat := 0
  /-- The millionths of the second. -/
  microsecond : Nat := 0
  /-- Minutes ahead of universal time, if known. -/
  offset : Option Int := none
deriving DecidableEq, Repr

namespace Moment

/-- Whether a year has a day more. -/
def isLeap (year : Nat) : Bool :=
  year % 4 == 0 && (year % 100 != 0 || year % 400 == 0)

/-- The number of days of a month. -/
def daysIn (year month : Nat) : Nat :=
  if month = 2 then (if isLeap year then 29 else 28)
  else if [4, 6, 9, 11].contains month then 30
  else 31

/-- Whether the parts stand for a date and a time of day. -/
def isValid (m : Moment) : Bool :=
  1 ≤ m.month && m.month ≤ 12 && 1 ≤ m.day && m.day ≤ daysIn m.year m.month
    && m.hour ≤ 23 && m.minute ≤ 59 && m.second ≤ 59

/-! ## Reading -/

/-- Reads a number of exactly `count` ASCII digits. -/
def digits? : Nat → List Char → Option (Nat × List Char)
  | 0, s => some (0, s)
  | count + 1, c :: s =>
    if c.isDigit then
      (digits? count s).map fun (n, rest) => ((c.toNat - 48) * 10 ^ count + n, rest)
    else none
  | _ + 1, [] => none

/-- Reads one expected character. -/
def expect? (c : Char) : List Char → Option (List Char)
  | d :: s => if d = c then some s else none
  | [] => none

/-- The millionths that the digits of a fraction stand for; further digits are cut off. -/
def millionths (fraction : List Char) : Nat :=
  let six := (fraction ++ List.replicate 6 '0').take 6
  six.foldl (fun n c => 10 * n + (c.toNat - 48)) 0

/-- Reads the seconds and their fraction, if given. -/
def seconds? (s : List Char) : Option (Nat × Nat × List Char) :=
  match s with
  | ':' :: s => do
    let (second, s) ← digits? 2 s
    match s with
    | [] => some (second, 0, [])
    | point :: rest =>
      if point = '.' || point = ',' then
        let (fraction, rest) := rest.span Char.isDigit
        if fraction.isEmpty then none else some (second, millionths fraction, rest)
      else some (second, 0, s)
  | s => some (0, 0, s)

/-- Whether the sign puts a clock behind universal time. -/
def isBehind (sign : Char) : Bool :=
  sign == '-' || sign == '−'

/-- Reads the distance from universal time, if given, up to the end. -/
def offset? (s : List Char) : Option (Option Int) :=
  match s with
  | [] => some none
  | ['Z'] => some (some 0)
  | ['z'] => some (some 0)
  | sign :: s =>
    if sign = '+' || isBehind sign then do
      let (hours, s) ← digits? 2 s
      let s := match s with
        | ':' :: s => s
        | s => s
      let (minutes, s) ← digits? 2 s
      if s.isEmpty && hours ≤ 23 && minutes ≤ 59 then
        let distance : Int := 60 * hours + minutes
        some (some (if isBehind sign then -distance else distance))
      else none
    else none

/-- Whether a character may separate the date from the time. -/
def isSeparator (c : Char) : Bool :=
  c == 'T' || c == 't' || c == ' ' || c == '_'

/-- Reads a moment in the international notation. -/
def read? (text : String) : Option Moment := do
  let (year, s) ← digits? 4 text.toList
  let (month, s) ← digits? 2 (← expect? '-' s)
  let (day, s) ← digits? 2 (← expect? '-' s)
  let moment ← match s with
    | [] => some { year, month, day : Moment }
    | separator :: s => do
      if isSeparator separator then
        let (hour, s) ← digits? 2 s
        let (minute, s) ← digits? 2 (← expect? ':' s)
        let (second, microsecond, s) ← seconds? s
        let offset ← offset? s
        some { year, month, day, hour, minute, second, microsecond, offset : Moment }
      else none
  if moment.isValid then some moment else none

/-! ## Counting -/

/-- The date of a day by its number, the first day of 1970 being number zero. Years are counted from
the first of March, so that a day more comes last; `daysOfEra` days make up four hundred years, and
the count starts one such era before the year zero. -/
def ofDay (day : Int) : Moment :=
  let daysOfEra : Nat := 146097
  let shifted : Nat := (day + 719468 + daysOfEra).toNat
  let inEra := shifted % daysOfEra
  let yearInEra := (inEra - inEra / 1460 + inEra / 36524 - inEra / 146096) / 365
  let inYear := inEra - (365 * yearInEra + yearInEra / 4 - yearInEra / 100)
  let shiftedMonth := (5 * inYear + 2) / 153
  let month := if shiftedMonth < 10 then shiftedMonth + 3 else shiftedMonth - 9
  { year := shifted / daysOfEra * 400 + yearInEra + (if month ≤ 2 then 1 else 0) - 400
    month
    day := inYear - (153 * shiftedMonth + 2) / 5 + 1 }

/-- The moment a number of seconds and millionths after the start of 1970, in universal time. -/
def ofSeconds (seconds : Int) (microsecond : Nat) : Moment :=
  let inDay := (seconds % 86400).toNat
  { ofDay (seconds / 86400) with
    hour := inDay / 3600
    minute := inDay % 3600 / 60
    second := inDay % 60
    microsecond
    offset := some 0 }

/-- The moment a number of seconds and millionths after the start of 1970. Only the years from 0 to
9999 are counted to. -/
def ofSeconds? (seconds : Int) (millionths : Nat) : Option Moment :=
  let whole := seconds + millionths / 1000000
  if -62167219200 ≤ whole && whole ≤ 253402300799 then
    some (ofSeconds whole (millionths % 1000000))
  else none

/-- The size up to which a count stands for seconds; a greater one stands for thousandths. -/
def secondsLimit : Int := 20000000000

/-- The moment that a whole number counts to. -/
def ofCount? (count : Int) : Option Moment :=
  if -secondsLimit ≤ count && count ≤ secondsLimit then ofSeconds? count 0
  else ofSeconds? (count / 1000) ((count % 1000).toNat * 1000)

/-- The moment that a number counts to. The part of a second is multiplied out in floating-point
arithmetic before it is rounded to millionths. -/
def ofNumber? (x : Binary64) : Option Moment := do
  let (floor, num, den) ← x.split?
  if -secondsLimit ≤ floor && (floor < secondsLimit || (floor == secondsLimit && num == 0)) then
    ofSeconds? floor ((Binary64.ofRatio false num den).timesNat 1000000).roundSize
  else
    ofSeconds? (floor / 1000)
      ((floor % 1000).toNat * 1000 + Binary64.roundUpQuotient (num * 1000) den)

example : ofDay 0 = { year := 1970, month := 1, day := 1 } := by decide

example : ofDay 19782 = { year := 2024, month := 2, day := 29 } := by decide

example : ofDay (-719528) = { year := 0, month := 1, day := 1 } := by decide

example : ofCount? (-1) =
    some ⟨1969, 12, 31, 23, 59, 59, 0, some 0⟩ := by decide

/-! ## Writing -/

/-- Date and time of day in the international notation, without a fraction. -/
def stamp (m : Moment) : String :=
  let two := DecimalStyle.padded 2
  DecimalStyle.padded 4 m.year ++ "-" ++ two m.month ++ "-" ++ two m.day ++ "T" ++ two m.hour
    ++ ":" ++ two m.minute ++ ":" ++ two m.second

/-- A distance from universal time as a signed number of hours and minutes. -/
def signedOffset (minutes : Int) : String :=
  (if minutes < 0 then "-" else "+") ++ DecimalStyle.padded 2 (minutes.natAbs / 60) ++ ":"
    ++ DecimalStyle.padded 2 (minutes.natAbs % 60)

/-- The moment as a document holds it: a fraction of six digits unless it is zero, and the letter
for universal time. -/
def document (m : Moment) : String :=
  let fraction :=
    if m.microsecond = 0 then "" else "." ++ DecimalStyle.padded 6 m.microsecond
  let zone := match m.offset with
    | none => ""
    | some minutes => if minutes = 0 then "Z" else signedOffset minutes
  m.stamp ++ fraction ++ zone

/-- The moment to the second, universal time written as a distance too. -/
def header (m : Moment) : String :=
  m.stamp ++ (m.offset.map signedOffset).getD ""

/-- The English names of the months. -/
def monthNames : List String :=
  ["January", "February", "March", "April", "May", "June", "July", "August", "September",
   "October", "November", "December"]

/-- The moment spelled out, to the minute of a clock with twelve hours. -/
def long (m : Moment) : String :=
  let two := DecimalStyle.padded 2
  let hour := if m.hour % 12 = 0 then 12 else m.hour % 12
  (monthNames[m.month - 1]?).getD "" ++ " " ++ two m.day ++ ", " ++ toString m.year ++ " "
    ++ two hour ++ ":" ++ two m.minute ++ (if m.hour < 12 then " AM" else " PM")

end Moment

end Schemata
