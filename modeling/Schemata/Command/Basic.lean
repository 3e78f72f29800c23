import Schemata.Command.Word
import Schemata.Normalize.Basic
import Schemata.Path

/-!
# Commands

What the program can be asked to do. `Invocation.ofWords` reads a command line: a command is called
by its name, and its arguments stand behind it.
-/

namespace Schemata

/-- What the program is asked to do. Every command reads one file. -/
inductive Command where
  /-- Make a schema of an extraction and write it. -/
  | normalize (source out : String) (heading : Heading)
  /-- Write the script for a schema. -/
  | sql (source : String) (dialect : Option String) (tidy : Bool) (out : Option String)
  /-- Draw a schema. -/
  | diagram (source : String) (out : Option String)
  /-- Document a schema. -/
  | docs (source : String) (format out : Option String)
  /-- Make a schema of an extraction and write it into a directory, with all that can be made
  of it. -/
  | everything (source : String) (directory : Option String) (name : String)
      (dialect format : Option String)
deriving DecidableEq, Repr

namespace Command

/-- How a command is called. -/
structure Form where
  /-- Its name. -/
  name : String
  /-- Its options. -/
  options : List (String × Meaning)
  /-- What its plain words are, those that may be left out behind the others. -/
  usage : String
  /-- The command for its plain words and options, if the number of the words is right. -/
  build? : List String → List Entry → Option Command

/-- The options that a form has if it takes the texts on some topics. -/
def textOptions (topics : List Topic) : List (String × Meaning) :=
  let spelled : List (String × Topic) :=
    [("--name", .name), ("--description", .description), ("--dialect", .dialect),
     ("--format", .format), ("-f", .format), ("--out", .out)]
  (spelled.filter fun (_, topic) => topics.contains topic).map fun (name, topic) =>
    (name, .text topic)

/-- The name that the schema is to have. -/
def schemaName (entries : List Entry) : String :=
  (text? entries .name).getD defaultSchemaName

/-- The file to write to, if one is given. -/
def out? (entries : List Entry) : Option String :=
  (text? entries .out).map Path.normalize

/-- The forms of all commands. -/
def forms : List Form :=
  [{ name := "normalize"
     options := textOptions [.name, .description]
     usage := "EXTRACTION OUT [--name TEXT] [--description TEXT]"
     build? := fun
       | [source, out], entries =>
         some (.normalize (Path.normalize source) (Path.normalize out)
           ⟨schemaName entries, (text? entries .description).getD ""⟩)
       | _, _ => none },
   { name := "sql"
     options := textOptions [.dialect, .out]
       ++ [("--pretty", .tidy true), ("--no-pretty", .tidy false)]
     usage := "SCHEMA [--dialect TEXT] [--out FILE] [--pretty | --no-pretty]"
     build? := fun
       | [source], entries =>
         some (.sql (Path.normalize source) (text? entries .dialect)
           ((tidy? entries).getD true) (out? entries))
       | _, _ => none },
   { name := "diagram"
     options := textOptions [.out]
     usage := "SCHEMA [--out FILE]"
     build? := fun
       | [source], entries => some (.diagram (Path.normalize source) (out? entries))
       | _, _ => none },
   { name := "docs"
     options := textOptions [.format, .out]
     usage := "SCHEMA [-f | --format TEXT] [--out FILE]"
     build? := fun
       | [source], entries =>
         some (.docs (Path.normalize source) (text? entries .format) (out? entries))
       | _, _ => none },
   { name := "export"
     options := textOptions [.name, .dialect, .format]
     usage := "EXTRACTION [DIRECTORY] [--name TEXT] [--dialect TEXT] [-f | --format TEXT]"
     build? := fun
       | [source], entries =>
         some (.everything (Path.normalize source) none (schemaName entries)
           (text? entries .dialect) (text? entries .format))
       | [source, directory], entries =>
         some (.everything (Path.normalize source) (some (Path.normalize directory))
           (schemaName entries) (text? entries .dialect) (text? entries .format))
       | _, _ => none }]

/-- The lines that say how the commands are called. -/
def usage : String :=
  String.join (forms.map fun form => s!"{form.name} {form.usage}\n")

end Command

/-- What a command line asks for. -/
inductive Invocation where
  /-- To carry out a command. -/
  | run (command : Command)
  /-- To say how the commands are called. -/
  | help
  /-- Nothing that is known. -/
  | misuse
deriving DecidableEq, Repr

namespace Invocation

/-- What the words behind the name of a command ask for. -/
def ofArguments (form : Command.Form) (arguments : List String) : Invocation :=
  match Command.readEntries? (("--help", .help) :: form.options) arguments with
  | none => .misuse
  | some entries =>
    if entries.contains .help then .help
    else match form.build? (Command.words entries) entries with
      | some command => .run command
      | none => .misuse

/-- What a command line asks for. -/
def ofWords (line : List String) : Invocation :=
  match if line.head? = some "--" then line.drop 1 else line with
  | [] => .misuse
  | name :: arguments =>
    if line.head? = some "--help" then .help
    else match Command.forms.find? (·.name == name) with
      | some form => ofArguments form arguments
      | none => .misuse

end Invocation

end Schemata
