import Schemata.Command.Basic
import Schemata.Diagram.Basic
import Schemata.Docs.Format
import Schemata.Loading
import Schemata.Schema.Document
import Schemata.Settings.Basic
import Schemata.Sql.Layout

/-!
# Actions

`Command.actions` is what is done for a command, step by step, once the file it reads has been
read: what is printed, what is written to files and what is told. The steps end with a failure or
with the end of the work.
-/

namespace Schemata

/-- Why a command cannot be carried out. -/
inductive Failure where
  /-- The file that it reads cannot be loaded. -/
  | load (kind : FileKind) (path : String) (e : LoadError)
  /-- The schema has no script. -/
  | script (e : Sql.ScriptError)

/-- The failure in words. -/
def Failure.message : Failure → String
  | load kind path e => e.message kind path
  | script e => e.message

/-- A step of a command. -/
inductive Action where
  /-- Prints a text. -/
  | print (text : String)
  /-- Writes a text to a file, the directories above which are made if need be. -/
  | write (path text : String)
  /-- Tells what came up. -/
  | tell (notice : Notice)
  /-- Gives up. -/
  | fail (failure : Failure)

namespace Command

/-- The file that a command reads. -/
def source : Command → String
  | normalize source _ _ => source
  | sql source _ _ _ => source
  | diagram source _ => source
  | docs source _ _ => source
  | everything source _ _ _ _ => source

/-- Prints a line. -/
def say (line : String) : Action :=
  .print (line ++ "\n")

/-- What is done before the file is read. -/
def opening : Command → List Action
  | normalize source _ _ => [say s!"Loading extraction from {source}"]
  | _ => []

/-- Puts a text where it is wanted: into a file, or out as it is. -/
def emit (text : String) : Option String → List Action
  | none => [.print text]
  | some path => [.write path text, say s!"✓ Written to {path}"]

/-- Tells notices. -/
def tell (notices : List Notice) : List Action :=
  notices.map .tell

/-- Goes on with what was loaded from a file. -/
def loaded {α : Type} (kind : FileKind) (path : String) (go : α → List Action) :
    Except LoadError α → List Action
  | .ok a => go a
  | .error e => [.fail (.load kind path e)]

/-- Goes on with the script for a schema. -/
def scripted (d : Sql.Dialect) (now : Moment) (tidy : Bool) (s : Schema)
    (go : String → List Action) : List Action :=
  match Sql.Script.of d now s with
  | .ok script => tell script.notices ++ go (script.render tidy)
  | .error e => [.fail (.script e)]

/-- A text, or the one that settings hold in place of none or an empty one. -/
def orSetting (text : Option String) (setting : String) : String :=
  (text.filter (!·.isEmpty)).getD setting

/-- Goes on with the documentation of a schema in the format of a name. -/
def documented (format : String) (now : Moment) (s : Schema) (go : String → List Action) :
    List Action :=
  let (format, notices) := Docs.Format.resolve (some format)
  tell notices ++ go ((Docs.Document.of s now).render format)

/-- Goes on with the diagram of a schema. -/
def drawn (limits : Diagram.Limits) (s : Schema) (go : String → List Action) : List Action :=
  let (text, notices) := Diagram.of s limits
  tell notices ++ go text

/-- The line for a warning. -/
def warningLine (d : Diagnostic) : Action :=
  say ("  warning [" ++ d.code ++ "] " ++ d.location ++ ": " ++ d.message)

/-- Writes a schema, and says where. -/
def writeSchema (n : Normalization) (out : String) : List Action :=
  let tables := n.schema.tables.length
  let relationships := n.schema.relationships.length
  n.warnings.map warningLine
    ++ [.write out (n.schema.toJson.indented 2),
      say s!"✓ Complete! {tables} tables, {relationships} relationships written to {out}"]

/-- The ending of the name of a file of documentation. -/
def docsEnding (format : String) : String :=
  if format = "html" then "html" else "md"

/-- Writes a schema and all that can be made of it into a directory. -/
def writeEverything (settings : Settings) (now : Moment) (s : Schema) (directory : String)
    (dialect format : Option String) : List Action :=
  let file (ending : String) : String := Path.join directory ("schema." ++ ending)
  let written (what text path : String) : List Action :=
    [.write path text, say s!"Writing {what} to {path}"]
  let (d, notices) := Sql.Dialect.resolve (orSetting dialect settings.dialect)
  let format := String.ofList (Text.lower (orSetting format settings.docFormat).toList)
  written "schema" (s.toJson.indented 2) (file "json") ++ tell notices
    ++ scripted d now settings.tidyScripts s fun script =>
      written s!"{d.name} SQL" script (file "sql")
        ++ drawn settings.diagramLimits s fun diagram =>
          written "diagram" diagram (file "mmd")
            ++ documented format now s fun docs =>
              written "documentation" docs (file (docsEnding format))
                ++ [say s!"✓ Complete! Output directory: {directory}"]

/-- What is done once the file has been read, `content` being its text, if it is there. -/
def actions (settings : Settings) (now : Moment) (content : Option String) :
    Command → List Action
  | normalize source out heading =>
    loaded .extraction source
      (fun e =>
        let n := e.normalize heading settings.smallTable now
        tell n.notices ++ writeSchema n out)
      (loadExtraction content)
  | sql source dialect tidy out =>
    loaded .schema source
      (fun s =>
        let (d, notices) := Sql.Dialect.resolve (dialect.getD settings.dialect)
        tell notices ++ scripted d now tidy s (emit · out))
      (loadSchema now content)
  | diagram source out =>
    loaded .schema source (fun s => drawn settings.diagramLimits s (emit · out))
      (loadSchema now content)
  | docs source format out =>
    loaded .schema source
      (fun s => documented (orSetting format settings.docFormat) now s (emit · out))
      (loadSchema now content)
  | everything source directory name dialect format =>
    loaded .extraction source
      (fun e =>
        let n := e.normalize ⟨name, ""⟩ settings.smallTable now
        tell n.notices
          ++ writeEverything settings now n.schema (directory.getD settings.outputDirectory)
            dialect format)
      (loadExtraction content)

end Command

end Schemata
