import Schemata.Sql.Dialect
import Schemata.Text.Word

/-!
# Names and texts in a script

`quoteName` writes the name of a table or column and `quoteText` a text constant.
-/

namespace Schemata.Sql

/-- The words that cannot stand for a name as they are. -/
def reservedWords : List String :=
  ["add", "all", "alter", "and", "as", "asc", "between", "by", "case", "check", "column",
   "constraint", "create", "cross", "current", "database", "default", "delete", "desc",
   "distinct", "drop", "else", "end", "exists", "foreign", "from", "full", "grant", "group",
   "having", "in", "index", "inner", "insert", "into", "is", "join", "key", "left", "like",
   "limit", "not", "null", "offset", "on", "or", "order", "outer", "primary", "references",
   "right", "rows", "select", "set", "table", "then", "to", "trigger", "union", "unique",
   "update", "user", "using", "values", "view", "when", "where", "with"]

/-- Whether a text consists of lower-case ASCII letters, digits and underscores and starts with no
digit. -/
def isPlainName : List Char → Bool
  | [] => false
  | c :: cs => (c.isLower || c == '_') && cs.all Text.isSnake

/-- The text without a line feed at its end. -/
def dropFinalBreak (s : List Char) : List Char :=
  if s.getLast? = some '\n' then s.dropLast else s

/-- Whether a name is written without quotation marks. A line feed at its end does not count. -/
def isBareName (name : String) : Bool :=
  isPlainName (dropFinalBreak name.toList) && !reservedWords.contains name

namespace Dialect

/-- The marks between which a name is quoted. -/
def nameMarks : Dialect → String × String
  | mysql => ("`", "`")
  | postgresql => ("\"", "\"")
  | sqlite => ("\"", "\"")
  | sqlserver => ("[", "]")

/-- A name as it is written in a script. -/
def quoteName (d : Dialect) (name : String) : String :=
  if isBareName name then name else d.nameMarks.1 ++ name ++ d.nameMarks.2

/-- Names as a list in a script. -/
def quoteNames (d : Dialect) (names : List String) : String :=
  String.intercalate ", " (names.map d.quoteName)

end Dialect

/-- The characters of a text with every quotation mark doubled. -/
def doubleQuotes (s : List Char) : List Char :=
  s.flatMap fun c => if c = '\'' then ['\'', '\''] else [c]

/-- A text constant. -/
def quoteText (s : String) : String :=
  "'" ++ String.ofList (doubleQuotes s.toList) ++ "'"

/-- Text constants as a list in a script. -/
def quoteTexts (texts : List String) : String :=
  String.intercalate ", " (texts.map quoteText)

end Schemata.Sql
