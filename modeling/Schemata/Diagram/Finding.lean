import Schemata.Diagram.Layout

/-!
# Findings

`findings` says what is amiss in a diagram: blocks that are not closed or not opened, lines that
cannot be read, relationships whose entities are not defined, and more entities or relationships
than are easily drawn. The numbers in them are those of the lines of the canonical source.
-/

namespace Schemata.Diagram

-- the test of the core library, whatever is imported
attribute [local instance (2000)] List.instDecidableIsInfixOfDecidableEq

/-- What can be amiss in a diagram. -/
inductive Finding where
  /-- There is neither entity nor relationship. -/
  | empty
  /-- A closing brace has no opening one. -/
  | unexpectedClose (number : Nat)
  /-- A relationship stands inside an entity. -/
  | enclosedLink (number : Nat)
  /-- An attribute stands outside of entities. -/
  | strayAttribute (number : Nat) (text : String)
  /-- A line inside an entity cannot be read. -/
  | malformedAttribute (number : Nat) (entity text : String)
  /-- A line outside of entities cannot be read. -/
  | malformedLink (number : Nat) (text : String)
  /-- An entity is not closed. -/
  | unclosed (entity : String) (number : Nat)
  /-- An entity is defined more than once. -/
  | repeatedEntity (entity : String) (count : Nat)
  /-- There are many entities. -/
  | manyEntities (count : Nat)
  /-- There are many relationships. -/
  | manyLinks (count : Nat)
  /-- An end of a relationship is no entity. -/
  | undefinedEnd (side entity : String)
  /-- The entities that may have been meant. -/
  | suggestion (entities : List String)
deriving DecidableEq, Repr

/-- The finding in a line. -/
def Finding.message : Finding → String
  | empty => "Empty diagram: No entities or relationships defined"
  | unexpectedClose number =>
    s!"Unexpected closing brace on line {number} with no matching opening brace"
  | enclosedLink number =>
    s!"Relationship defined inside entity block at line {number}. "
      ++ "Close the entity definition first."
  | strayAttribute number text => s!"Attribute outside entity block on line {number}: \"{text}\""
  | malformedAttribute number entity text =>
    s!"Malformed attribute on line {number} in entity \"{entity}\": \"{text}\""
  | malformedLink number text =>
    s!"Malformed relationship on line {number}: \"{text}\". "
      ++ "Expected \"source <symbol>--<symbol> target : label\"."
  | unclosed entity number =>
    s!"Unclosed entity definition for '{entity}' started on line {number}"
  | repeatedEntity entity count =>
    s!"Duplicate entity definition: '{entity}' defined {count} times"
  | manyEntities count =>
    s!"Warning: Diagram contains {count} entities. Large diagrams may have rendering issues."
  | manyLinks count =>
    s!"Warning: Diagram contains {count} relationships. "
      ++ "Complex layouts may have rendering issues."
  | undefinedEnd side entity => s!"Relationship references undefined {side} entity: {entity}"
  | suggestion entities =>
    "Did you mean one of these? " ++ String.intercalate ", " entities

/-- The numbers of entities and relationships above which a diagram is large. -/
structure Limits where
  /-- The number of entities. -/
  entities : Int := 20
  /-- The number of relationships. -/
  links : Int := 30
deriving DecidableEq, Repr

/-! ## Names -/

/-- A name without its underscores. -/
def squash (name : List Char) : List Char :=
  name.filter (· != '_')

/-- Whether one of two names contains the other, underscores disregarded. -/
def isSimilar (name entity : List Char) : Bool :=
  decide (entity <:+: name) || decide (name <:+: entity)
    || decide (squash name <:+: squash entity) || decide (squash entity <:+: squash name)

/-- The entities whose names are similar to a name. -/
def suggestions (name : String) (entities : List String) : List String :=
  entities.filter fun entity => isSimilar name.toList entity.toList

/-! ## Structure -/

/-- What is known of a diagram after some of its lines. -/
structure Survey where
  /-- The entities that are open, the innermost first, each with the number of its line. -/
  openBlocks : List (List Char × Nat) := []
  /-- The entities, in order. -/
  entities : List (List Char) := []
  /-- The relationships outside of entities, in order. -/
  links : List Link := []
  /-- What was found amiss. -/
  findings : List Finding := []
deriving Repr

/-- Takes a line into account. -/
def Survey.step (s : Survey) (line : Line) : Survey :=
  let text := String.ofList line.text
  match line.content, s.openBlocks with
  | .entity name, _ =>
    { s with
      entities := s.entities ++ [name]
      openBlocks := (name, line.number) :: s.openBlocks }
  | .close, [] => { s with findings := s.findings ++ [.unexpectedClose line.number] }
  | .close, _ :: blocks => { s with openBlocks := blocks }
  | .link link, [] => { s with links := s.links ++ [link] }
  | .link _, _ :: _ => { s with findings := s.findings ++ [.enclosedLink line.number] }
  | .attribute _, [] => { s with findings := s.findings ++ [.strayAttribute line.number text] }
  | .unknown _, [] => { s with findings := s.findings ++ [.malformedLink line.number text] }
  | .unknown _, (entity, _) :: _ =>
    { s with
      findings := s.findings ++ [.malformedAttribute line.number (String.ofList entity) text] }
  | _, _ => s

/-- Takes all lines of a diagram into account. -/
def survey (lines : List Line) : Survey :=
  lines.foldl Survey.step {}

/-- The entities defined more than once, in order. -/
def repeatedEntities (entities : List (List Char)) : List Finding :=
  (entities.eraseDups.filter fun entity => 1 < entities.count entity).map fun entity =>
    .repeatedEntity (String.ofList entity) (entities.count entity)

/-- What is amiss with an end of a relationship, `names` being those of the entities. -/
def endFindings (names : List (List Char)) (side : String) (name : List Char) : List Finding :=
  if names.contains name || (names.map squash).contains (squash name) then []
  else
    let similar := names.filter (isSimilar name)
    .undefinedEnd side (String.ofList name)
      :: if similar.isEmpty then [] else [.suggestion (similar.map String.ofList)]

/-- What is amiss with the ends of a relationship, letter case disregarded. -/
def linkFindings (names : List (List Char)) (link : Link) : List Finding :=
  endFindings names "source" (Text.lower link.source)
    ++ endFindings names "target" (Text.lower link.target)

/-- What is amiss in a diagram as a whole. -/
def Survey.conclude (s : Survey) (limits : Limits) : List Finding :=
  s.findings
    ++ s.openBlocks.reverse.map (fun (name, number) => .unclosed (String.ofList name) number)
    ++ repeatedEntities s.entities
    ++ (if limits.entities < s.entities.length then [.manyEntities s.entities.length] else [])
    ++ (if limits.links < s.links.length then [.manyLinks s.links.length] else [])
    ++ s.links.flatMap (linkFindings (s.entities.map Text.lower))

/-- Whether a line defines something. -/
def Content.isDefinition : Content → Bool
  | entity _ => true
  | link _ => true
  | _ => false

/-- What is amiss in a diagram, told on characters. -/
def findingsOf (source : List Char) (limits : Limits) : List Finding :=
  let lines := readLines (formatChars source)
  if lines.any (·.content.isDefinition) then (survey lines).conclude limits else [.empty]

/-- What is amiss in a diagram. -/
def findings (source : String) (limits : Limits) : List Finding :=
  findingsOf source.toList limits

/-- Comment lines that list findings. -/
def findingComments (findings : List Finding) : String :=
  if findings.isEmpty then ""
  else
    let lines := "    %% Validation Warnings:"
      :: findings.map fun finding => "    %% - " ++ finding.message
    String.intercalate "\n" lines ++ "\n"

end Schemata.Diagram
