import Schemata.Decimal.Shortest
import Schemata.Json.Basic

/-!
# Writing documents

`Value.compact` writes a document without blanks, and `Value.indented` with one member or item a
line. Quotation marks, backslashes and control characters are escaped in texts; all other
characters stand for themselves. Numbers that are not finite are written as null.
-/

namespace Schemata.Json

/-- The hexadecimal digit of a number below sixteen. -/
def hexDigit (n : Nat) : Char :=
  if n < 10 then Char.ofNat (48 + n) else Char.ofNat (87 + n)

/-- A code unit as an escape sequence. -/
def escapeUnit (n : Nat) : List Char :=
  ['\\', 'u', hexDigit (n / 4096 % 16), hexDigit (n / 256 % 16), hexDigit (n / 16 % 16),
   hexDigit (n % 16)]

/-- The way a character is written inside a text. -/
def escapeChar (c : Char) : List Char :=
  if c = '"' then ['\\', '"']
  else if c = '\\' then ['\\', '\\']
  else if c = '\n' then ['\\', 'n']
  else if c = '\t' then ['\\', 't']
  else if c = '\r' then ['\\', 'r']
  else if c = '\x08' then ['\\', 'b']
  else if c = '\x0c' then ['\\', 'f']
  else if c.toNat < 32 then escapeUnit c.toNat
  else [c]

/-- A text between quotation marks. -/
def quoteText (s : String) : String :=
  "\"" ++ String.ofList (s.toList.flatMap escapeChar) ++ "\""

/-- A number, or null if it is not finite. -/
def writeFloat (x : Binary64) : String :=
  if x.isFinite then documentNumber.render x else "null"

/-- Where the parts of a list or an object stand. -/
inductive Layout where
  /-- Without blanks. -/
  | compact
  /-- A line each, indented by `width` for each level. -/
  | lines (width : Nat)
deriving DecidableEq, Repr

/-- The break before a part at a depth. -/
def Layout.break : Layout → Nat → String
  | .compact, _ => ""
  | .lines width, depth => "\n" ++ String.ofList (List.replicate (width * depth) ' ')

/-- What stands between a name and its value. -/
def Layout.colon : Layout → String
  | .compact => ":"
  | .lines _ => ": "

/-- Parts between brackets, `depth` being that of the brackets. -/
def Layout.enclose (layout : Layout) (depth : Nat) (left right : String) (parts : List String) :
    String :=
  if parts.isEmpty then left ++ right
  else
    let start := layout.break (depth + 1)
    left ++ start ++ String.intercalate ("," ++ start) parts ++ layout.break depth ++ right

mutual

/-- The text of a document at a depth. -/
def Value.render (layout : Layout) (depth : Nat) : Value → String
  | .null => "null"
  | .bool b => if b then "true" else "false"
  | .integer n => toString n
  | .float x => writeFloat x
  | .text s => quoteText s
  | .list items => layout.enclose depth "[" "]" (Value.renderItems layout (depth + 1) items)
  | .object members =>
    layout.enclose depth "\x7b" "\x7d" (Value.renderMembers layout (depth + 1) members)

/-- The texts of the items of a list. -/
def Value.renderItems (layout : Layout) (depth : Nat) : List Value → List String
  | [] => []
  | item :: items => item.render layout depth :: Value.renderItems layout depth items

/-- The texts of the members of an object. -/
def Value.renderMembers (layout : Layout) (depth : Nat) : List (String × Value) → List String
  | [] => []
  | (name, value) :: members =>
    (quoteText name ++ layout.colon ++ value.render layout depth)
      :: Value.renderMembers layout depth members

end

/-- The text of a document without blanks. -/
def Value.compact (value : Value) : String :=
  value.render .compact 0

/-- The text of a document with a line for each part, indented by `width` for each level. -/
def Value.indented (width : Nat) (value : Value) : String :=
  value.render (.lines width) 0

end Schemata.Json
