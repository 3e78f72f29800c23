import Schemata.Docs.Markdown
import Schemata.Docs.Page
import Schemata.Notice

/-!
# Formats of documentation

Documentation is written in Markdown or as a page. `Format.resolve` knows the names of the formats;
Markdown stands in for every other one.
-/

namespace Schemata.Docs

/-- A format of documentation. -/
inductive Format where
  /-- Markdown. -/
  | markdown
  /-- A page of marked-up text. -/
  | html
deriving DecidableEq, Repr

namespace Format

/-- The names of the formats. Paged documents are not written; Markdown stands in for them. -/
def names : List (String × Format) :=
  [("markdown", markdown), ("md", markdown), ("pdf", markdown), ("html", html)]

/-- The format of a name, blanks and letter case disregarded. -/
def ofName? (name : String) : Option Format :=
  names.lookup (String.ofList (Text.lower (Text.strip name.toList)))

/-- The format taken where none is asked for. -/
def default : Format := markdown

/-- The format that is asked for, and what is told if it is not known. -/
def resolve (name : Option String) : Format × List Notice :=
  match name.filter (!·.isEmpty) with
  | none => (default, [])
  | some name =>
    match ofName? name with
    | some format => (format, [])
    | none =>
      (markdown,
        [.warning s!"Unsupported documentation format '{name}', rendering markdown instead"])

end Format

/-- The text of a document in a format. -/
def Document.render (d : Document) : Format → String
  | .markdown => d.markdown
  | .html => d.html

end Schemata.Docs
