import Schemata.Extraction.Basic
import Schemata.Normalize.Attribute
import Schemata.Schema.Basic

/-!
# Loose words for relationships

The kind of a relationship, its participations and its multiplicities are given as free text.
`RelationshipKind.ofText?`, `Participation.ofText` and `Multiplicity.ofText?` recognise the usual
spellings.
-/

namespace Schemata

/-- The spellings of the kinds, in capitals with underscores for blanks and hyphens. -/
def RelationshipKind.spellings : List (String × RelationshipKind) :=
  [("ONE_TO_ONE", .oneToOne), ("1_TO_1", .oneToOne), ("1:1", .oneToOne),
   ("ONE_TO_MANY", .oneToMany), ("1_TO_MANY", .oneToMany), ("1:N", .oneToMany),
   ("MANY_TO_ONE", .manyToOne), ("MANY_TO_1", .manyToOne), ("N:1", .manyToOne),
   ("MANY_TO_MANY", .manyToMany), ("N:M", .manyToMany), ("M:N", .manyToMany)]

/-- The kind that a text spells, letter case, blanks and hyphens disregarded. -/
def RelationshipKind.ofText? (text : String) : Option RelationshipKind :=
  let capitals := Text.upper (Text.strip text.toList)
  let joined := Text.replaceRuns (fun c => Text.isBlank c || c == '-') '_' capitals
  spellings.lookup (String.ofList joined)

/-- The kind for a text that may be missing or spell none, and whether it had to be assumed. -/
def RelationshipKind.assumed (text : Option String) : RelationshipKind × Bool :=
  match (Extraction.given? text).bind ofText? with
  | some kind => (kind, false)
  | none => (.oneToMany, true)

/-- The participation for a text: total if it says so, and partial otherwise. -/
def Participation.ofText (text : Option String) : Participation :=
  if String.ofList (Text.upper (Text.strip (text.getD "").toList)) = "TOTAL" then .total
  else .partly

/-- The multiplicity that a text spells, letter case disregarded. -/
def Multiplicity.ofText? (text : String) : Option Multiplicity :=
  words.lookup (String.ofList (Text.lower text.toList))

/-- The multiplicities of the sides that are spelled, if any is. -/
def Multiplicities.ofSides? (sides : Extraction.Sides) : Option Multiplicities :=
  let source := sides.source.bind Multiplicity.ofText?
  let target := sides.target.bind Multiplicity.ofText?
  if source.isNone && target.isNone then none else some ⟨source, target⟩

end Schemata
