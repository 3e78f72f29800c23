import Schemata.Diagram.Basic
import Schemata.Docs.Format
import Schemata.Path
import Schemata.Reading.Scalar
import Schemata.Schema.Lookup
import Schemata.Settings.EnvFile
import Schemata.Sql.Dialect

/-!
# Settings

`Settings` is what a run takes where its caller asks for nothing else. `Settings.of` reads them from
three sources, the first of which to name a setting counts: the values given by the caller, the
environment, and an environment file. The letter case of names does not matter.
-/

namespace Schemata

/-- What a run takes where its caller asks for nothing else. -/
structure Settings where
  /-- The dialect of scripts. -/
  dialect : String := Sql.Dialect.default.name
  /-- The format of documentation. -/
  docFormat : String := "markdown"
  /-- Whether scripts are laid out anew. -/
  tidyScripts : Bool := true
  /-- How many columns of its own a small table has at most. -/
  smallTable : Int := smallTableSize
  /-- From which size on a diagram counts as large. -/
  diagramLimits : Diagram.Limits := {}
  /-- The directory into which files are written. -/
  outputDirectory : String := "output"
  /-- The level from which on records are logged. -/
  logLevel : String := "INFO"
  /-- A file to log to. -/
  logFile : Option String := none
deriving DecidableEq, Repr

/-- Reads a path. -/
def readPath : Json.Value → Reading String
  | .text s => .read (Path.normalize s)
  | _ => .fault .notAPath

/-- Where settings come from. -/
structure Settings.Sources where
  /-- The values given by the caller. -/
  given : Json.Members := []
  /-- The environment. -/
  environment : List (String × String) := []
  /-- The text of an environment file. -/
  file : Option String := none

/-- The files in which an environment file is looked for, from a directory on: in itself and in
the three directories above it. -/
def EnvFile.places (directory : String) : List String :=
  ((Path.ancestry directory).take 4).map (Path.join · ".env")

namespace Settings

/-- Members with others put over them, under names in lower case. Of several spellings of a name the
last one counts. -/
def override (members others : Json.Members) : Json.Members :=
  others.foldl
    (fun members (name, value) => members.set (String.ofList (Text.lower name.toList)) value)
    members

/-- The environment and the bindings of the file. -/
def Sources.bindings (sources : Sources) : Json.Members :=
  let environment := match sources.file with
    | some content => EnvFile.extend sources.environment content
    | none => sources.environment
  override [] (environment.map fun (name, value) => (name, .text value))

/-- Why the bindings of the file are refused, if they are; the first one refused tells. -/
def Sources.refusal? (sources : Sources) : Option EnvFile.Refusal :=
  sources.file.bind fun content =>
    (EnvFile.additions sources.environment content).findSome? EnvFile.refusal?

/-- The value that counts for each name. -/
def Sources.members (sources : Sources) : Json.Members :=
  override sources.bindings sources.given

/-- Reads settings from members, each of which may be left out. -/
def read (members : Json.Members) : Reading Settings :=
  let standard : Settings := {}
  let field {α : Type} (name : String) (default : α) (reader : Json.Value → Reading α) :
      Reading α :=
    members.fieldD (.single name) default reader
  (fun dialect docFormat tidyScripts smallTable entities links outputDirectory logLevel logFile =>
      { dialect, docFormat, tidyScripts, smallTable, diagramLimits := ⟨entities, links⟩,
        outputDirectory, logLevel, logFile })
    <$> field "default_dialect" standard.dialect readText
    <*> field "default_doc_format" standard.docFormat readText
    <*> field "sql_pretty_print" standard.tidyScripts (readFlag .caller)
    <*> field "lookup_max_non_system_columns" standard.smallTable readInteger
    <*> field "mermaid_max_entities" standard.diagramLimits.entities readInteger
    <*> field "mermaid_max_relationships" standard.diagramLimits.links readInteger
    <*> field "output_dir" standard.outputDirectory readPath
    <*> field "log_level" standard.logLevel readText
    <*> field "log_file" standard.logFile (readNullable readPath)

/-- The settings that come from the sources. -/
def of (sources : Sources) : Reading Settings :=
  read sources.members

/-- The settings under their names. -/
def members (s : Settings) : Json.Members :=
  [("default_dialect", .text s.dialect), ("default_doc_format", .text s.docFormat),
   ("sql_pretty_print", .bool s.tidyScripts),
   ("lookup_max_non_system_columns", .integer s.smallTable),
   ("mermaid_max_entities", .integer s.diagramLimits.entities),
   ("mermaid_max_relationships", .integer s.diagramLimits.links),
   ("output_dir", .text s.outputDirectory), ("log_level", .text s.logLevel),
   ("log_file", .ofText? s.logFile)]

/-- Settings as a document. -/
def toJson (s : Settings) : Json.Value :=
  .object s.members

end Settings

end Schemata
