import Schemata.Sql.Script
import Schemata.Text.Blank

/-!
# The layout of scripts

The statements of a script stand one after another with an empty line between them. The statements
that allow it may be laid out anew, by whatever function of their texts does so
(`Script.renderWith`). The one in use, `tidyDrop`, removes needless blanks and semicolons from a
statement that drops a table or a view of a plain name; all other statements stay as they are
written.
-/

namespace Schemata.Sql

/-- The text of a script from the texts of its statements. -/
def joinStatements (texts : List String) : String :=
  String.intercalate "\n\n" texts ++ "\n"

/-- Whether a word is a name without quotation marks, in letters of either case. -/
def isPlainWord : List Char → Bool
  | [] => false
  | c :: cs => (c.isAlpha || c == '_') && cs.all fun c => c.isAlphanum || c == '_'

/-- The words of a statement, without the semicolons at its end. -/
def statementWords (text : String) : List (List Char) :=
  let stripped := Text.strip text.toList
  Text.wordsBy Text.isBlank ((stripped.reverse.dropWhile (· == ';')).reverse)

/-- A statement that drops a table or a view of a plain name, laid out anew. -/
def tidyDrop? (text : String) : Option String :=
  match statementWords text with
  | [drop, what, condition, exist, name] =>
    let capitals := [drop, what, condition, exist].map fun word =>
      String.ofList (word.map Char.toUpper)
    if isPlainWord name && (capitals == ["DROP", "TABLE", "IF", "EXISTS"]
        || capitals == ["DROP", "VIEW", "IF", "EXISTS"]) then
      some (String.intercalate " " (capitals ++ [String.ofList name]) ++ ";")
    else none
  | _ => none

/-- A statement laid out anew if it drops a table or a view of a plain name, else as it is. -/
def tidyDrop (text : String) : String :=
  (tidyDrop? text).getD text

/-- A statement in its final layout: `layout` makes it, if `formattable` says that it may be laid
out anew. -/
def layOut (layout : String → String) (formattable : Bool) (text : String) : String :=
  if formattable then layout text else text

/-- A statement in the layout in use, `formattable` saying whether it may be laid out anew. -/
def tidy (formattable : Bool) (text : String) : String :=
  layOut tidyDrop formattable text

namespace Script

/-- The text of a script, the statements that allow it laid out anew by `layout` if that is asked
for. -/
def renderWith (layout : String → String) (script : Script) (pretty : Bool) : String :=
  joinStatements (script.statements.map fun statement =>
    layOut layout (pretty && statement.isFormattable) (statement.render script.dialect))

/-- The text of a script, laid out anew if that is asked for. -/
def render (script : Script) (pretty : Bool) : String :=
  joinStatements (script.statements.map fun statement =>
    tidy (pretty && statement.isFormattable) (statement.render script.dialect))

theorem render_eq_renderWith (script : Script) (pretty : Bool) :
    script.render pretty = script.renderWith tidyDrop pretty := rfl

end Script

end Schemata.Sql
