import Schemata.Diagram.Reader

/-!
# The layout of diagrams

`format` writes a diagram in its canonical layout: a statement a line, relationships and the braces
of entities indented once and attributes twice, and an empty line behind every entity that something
follows. The words of the source that mean nothing are left out.
-/

namespace Schemata.Diagram

/-- The blanks by which a line is indented at a depth. -/
def indent (depth : Nat) : List Char :=
  List.replicate (4 * depth) ' '

/-- Whether a line says nothing that the layout does not say. -/
def Content.isLayout : Content → Bool
  | header => true
  | blank => true
  | _ => false

/-- The lines of a canonical source behind its first. `inside` says whether they start inside of an
entity, and `closed` whether they stand behind one. -/
def layout (inside closed : Bool) : List Content → List (List Char)
  | [] => []
  | content :: contents =>
    if content.isLayout then layout inside closed contents
    else
      let gap := if closed then [[]] else []
      match content with
      | .entity _ => gap ++ (indent 1 ++ content.render) :: layout true false contents
      | .close => gap ++ (indent 1 ++ content.render) :: layout false true contents
      | _ =>
        gap ++ (indent (if inside then 2 else 1) ++ content.render) :: layout inside false contents

/-- Lines with a line feed behind each. -/
def unlines : List (List Char) → List Char
  | [] => []
  | line :: lines => line ++ '\n' :: unlines lines

/-- The canonical source with the given lines. -/
def formatLines (lines : List Line) : List Char :=
  unlines (headerText :: layout false false (lines.map (·.content)))

/-- `format` on characters. -/
def formatChars (source : List Char) : List Char :=
  formatLines (readLines source)

/-- The source of a diagram in its canonical layout. -/
def format (source : String) : String :=
  String.ofList (formatChars source.toList)

end Schemata.Diagram
