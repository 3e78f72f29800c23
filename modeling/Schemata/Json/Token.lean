import Schemata.Json.Basic

/-!
# Tokens of a document

`tokens?` cuts the text of a document into brackets, separators, texts, numbers and words. The words
spell null, the truth values, and the numbers that are not finite. It fails on a text or a number
that is not well formed and on any other character. It goes through the characters one at a time and
keeps what it has read of the current token.

Escaped code units are put together to characters at the end of a text; half of a surrogate pair
on its own makes the text ill-formed.
-/

namespace Schemata.Json

/-- A token of a document. -/
inductive Token where
  /-- An opening square bracket. -/
  | openList
  /-- A closing square bracket. -/
  | closeList
  /-- An opening curly bracket. -/
  | openObject
  /-- A closing curly bracket. -/
  | closeObject
  /-- A colon. -/
  | colon
  /-- A comma. -/
  | comma
  /-- A text. -/
  | text (s : String)
  /-- A value without parts that is no text. -/
  | scalar (value : Value)

/-! ## Texts -/

/-- Puts escaped code units and plain characters together. -/
def joinUnits : List (Char ⊕ Nat) → Option (List Char)
  | [] => some []
  | .inl c :: rest => (joinUnits rest).map (c :: ·)
  | .inr high :: .inr low :: rest =>
    if 0xD800 ≤ high && high < 0xDC00 then
      if 0xDC00 ≤ low && low < 0xE000 then
        (joinUnits rest).map
          (Char.ofNat (0x10000 + (high - 0xD800) * 0x400 + (low - 0xDC00)) :: ·)
      else none
    else if 0xDC00 ≤ high && high < 0xE000 then none
    else (joinUnits (.inr low :: rest)).map (Char.ofNat high :: ·)
  | .inr unit :: rest =>
    if 0xD800 ≤ unit && unit < 0xE000 then none
    else (joinUnits rest).map (Char.ofNat unit :: ·)

/-- The character that a letter behind a backslash stands for. -/
def unescape? : Char → Option Char
  | '"' => some '"'
  | '\\' => some '\\'
  | '/' => some '/'
  | 'b' => some '\x08'
  | 'f' => some '\x0c'
  | 'n' => some '\n'
  | 'r' => some '\r'
  | 't' => some '\t'
  | _ => none

/-- The value of a hexadecimal digit of either case. -/
def hexValue? (c : Char) : Option Nat :=
  if c.isDigit then some (c.toNat - 48)
  else if 'a' ≤ c && c ≤ 'f' then some (c.toNat - 87)
  else if 'A' ≤ c && c ≤ 'F' then some (c.toNat - 55)
  else none

/-! ## Numbers and words -/

/-- Splits off a run of at least one digit. -/
def takeDigits? (s : List Char) : Option (List Char × List Char) :=
  match s.span Char.isDigit with
  | ([], _) => none
  | (digits, rest) => some (digits, rest)

/-- The number that a run of digits spells. -/
def digitsValue (digits : List Char) : Nat :=
  digits.foldl (fun n c => 10 * n + (c.toNat - 48)) 0

/-- Reads the exponent of a number: a mark, a sign if any, and digits. -/
def exponent? : List Char → Option Int
  | mark :: rest =>
    if mark = 'e' || mark = 'E' then
      let (negative, digits) := match rest with
        | '+' :: digits => (false, digits)
        | '-' :: digits => (true, digits)
        | digits => (false, digits)
      match takeDigits? digits with
      | some (digits, []) =>
        some (if negative then -(digitsValue digits : Int) else digitsValue digits)
      | _ => none
    else none
  | [] => none

/-- Reads a number without its sign. A fraction or an exponent makes it a floating-point number. -/
def unsigned? (negative : Bool) (s : List Char) : Option Value := do
  let (whole, rest) ← takeDigits? s
  if whole.length > 1 && whole.head? == some '0' then none
  else match rest with
    | [] => some (.integer (if negative then -(digitsValue whole : Int) else digitsValue whole))
    | '.' :: rest => do
      let (fraction, rest) ← takeDigits? rest
      let power ← if rest.isEmpty then some 0 else exponent? rest
      let digits := digitsValue (whole ++ fraction)
      return .float (.ofDecimal negative digits (power - fraction.length))
    | rest => do
      let power ← exponent? rest
      return .float (.ofDecimal negative (digitsValue whole) power)

/-- The number of characters in front of the fraction and the exponent of a number. -/
def wholeLength : List Char → Nat
  | '-' :: s => (s.takeWhile Char.isDigit).length + 1
  | s => (s.takeWhile Char.isDigit).length

/-- Reads a number. -/
def number? : List Char → Option Value
  | '-' :: s => unsigned? true s
  | s => unsigned? false s

/-- The words that spell a value. -/
def words : List (String × Value) :=
  [("null", .null), ("true", .bool true), ("false", .bool false), ("NaN", .float .undefined),
   ("Infinity", .float (.infinite false)), ("-Infinity", .float (.infinite true))]

/-- Reads a word or a number. -/
def scalar? (limits : Limits) (s : List Char) : Option Value :=
  match words.lookup (String.ofList s) with
  | some value => some value
  | none => if Limits.keeps limits.whole (wholeLength s) then number? s else none

/-! ## Scanning -/

/-- What has been read of the current token, the last character first. -/
inductive Scan where
  /-- Between tokens. -/
  | between
  /-- Inside a number or a word. -/
  | bare (read : List Char)
  /-- Inside a text. -/
  | quoted (read : List (Char ⊕ Nat))
  /-- Behind a backslash. -/
  | escaped (read : List (Char ⊕ Nat))
  /-- Inside the digits of a code unit, of which `missing` are missing. -/
  | hex (read : List (Char ⊕ Nat)) (unit missing : Nat)

/-- The token that a single character is. -/
def punctuation? : Char → Option Token
  | '[' => some .openList
  | ']' => some .closeList
  | '\x7b' => some .openObject
  | '\x7d' => some .closeObject
  | ':' => some .colon
  | ',' => some .comma
  | _ => none

/-- Whether the character may stand between tokens. -/
def isGap (c : Char) : Bool :=
  c == ' ' || c == '\t' || c == '\n' || c == '\r'

variable (limits : Limits)

/-- Scans the rest of a document. -/
def scan : Scan → List Char → Option (List Token)
  | .between, [] => some []
  | .bare read, [] => (scalar? limits read.reverse).map ([.scalar ·])
  | _, [] => none
  | .between, c :: cs =>
    if isGap c then scan .between cs
    else match punctuation? c with
      | some token => (scan .between cs).map (token :: ·)
      | none => if c = '"' then scan (.quoted []) cs else scan (.bare [c]) cs
  | .bare read, c :: cs =>
    if isGap c then do
      let value ← scalar? limits read.reverse
      (scan .between cs).map (.scalar value :: ·)
    else match punctuation? c with
      | some token => do
        let value ← scalar? limits read.reverse
        (scan .between cs).map ([.scalar value, token] ++ ·)
      | none => if c = '"' then none else scan (.bare (c :: read)) cs
  | .quoted read, c :: cs =>
    if c = '"' then do
      let chars ← joinUnits read.reverse
      (scan .between cs).map (.text (String.ofList chars) :: ·)
    else if c = '\\' then scan (.escaped read) cs
    else if c.toNat < 32 then none
    else scan (.quoted (.inl c :: read)) cs
  | .escaped read, c :: cs =>
    if c = 'u' then scan (.hex read 0 4) cs
    else match unescape? c with
      | some plain => scan (.quoted (.inl plain :: read)) cs
      | none => none
  | .hex read unit missing, c :: cs =>
    match hexValue? c with
    | some digit =>
      let unit := 16 * unit + digit
      if missing ≤ 1 then scan (.quoted (.inr unit :: read)) cs
      else scan (.hex read unit (missing - 1)) cs
    | none => none

/-- The tokens of a document. -/
def tokens? (s : String) : Option (List Token) :=
  scan limits .between s.toList

end Schemata.Json
