import Schemata.Sql.Name
import Schemata.Text.Digit

/-!
# Default values in a script

The default value of a column is given as free text. `DefaultValue.ofText` decides what it stands
for: a truth value, the moment of the insertion, another key word, an expression or number to be
taken as it is, or a text. `DefaultValue.render` writes it in a dialect.
-/

namespace Schemata.Sql

/-- What the text of a default value stands for. -/
inductive DefaultValue where
  /-- A truth value. -/
  | truth (b : Bool)
  /-- The moment of the insertion. -/
  | moment
  /-- A key word, written as it is. -/
  | keyword (word : String)
  /-- A number, a call or a text constant, written as it is. -/
  | verbatim (text : String)
  /-- A text. -/
  | text (value : String)
deriving DecidableEq, Repr

/-- The words that are no texts, in capitals. -/
def defaultKeywords : List String :=
  ["CURRENT_TIMESTAMP", "CURRENT_DATE", "CURRENT_TIME", "NOW()", "NULL", "TRUE", "FALSE"]

/-- Whether a text is a decimal numeral: digits with a minus in front, if any, and with a fraction,
if any. -/
def isNumeral (s : List Char) : Bool :=
  let unsigned := match s with
    | '-' :: cs => cs
    | cs => cs
  let (whole, rest) := unsigned.span Text.isDecimal
  !whole.isEmpty && match rest with
    | [] => true
    | c :: fraction => c == '.' && !fraction.isEmpty && fraction.all Text.isDecimal

/-- Whether a text stands between quotation marks. -/
def isQuoted (s : List Char) : Bool :=
  s.head? == some '\'' && s.getLast? == some '\'' && 2 ≤ s.length

namespace DefaultValue

/-- What a key word stands for. -/
def ofKeyword (word : String) : DefaultValue :=
  match word with
  | "TRUE" => .truth true
  | "FALSE" => .truth false
  | "NOW()" => .moment
  | "CURRENT_TIMESTAMP" => .moment
  | word => .keyword word

/-- What a text stands for, blanks around it removed. -/
def ofText (spelled : String) : DefaultValue :=
  let s := Text.strip spelled.toList
  if defaultKeywords.any (Text.matchesFolded · s) then ofKeyword (String.ofList (Text.upper s))
  else if isNumeral s || s.getLast? == some ')' || isQuoted s then .verbatim (String.ofList s)
  else .text (String.ofList s)

/-- The default value in a dialect. -/
def render (d : Dialect) : DefaultValue → String
  | .truth b =>
    match d with
    | .mysql => if b then "TRUE" else "FALSE"
    | .postgresql => if b then "TRUE" else "FALSE"
    | .sqlite => if b then "1" else "0"
    | .sqlserver => if b then "1" else "0"
  | .moment => if d = .sqlserver then "SYSDATETIME()" else "CURRENT_TIMESTAMP"
  | .keyword word => word
  | .verbatim spelled => spelled
  | .text value => quoteText value

end DefaultValue

end Schemata.Sql
