import Schemata.Command.Action
import Schemata.Log
import Std.Time.DateTime.Timestamp

/-!
# The program

Carries out the command that a command line asks for. All decisions are those of
`Command.actions`; what happens here is reading, writing and printing.
-/

namespace Schemata.Program

/-- The text of a file, if it is there. -/
def readFile? (path : String) : IO (Option String) := do
  try
    return some (← IO.FS.readFile path)
  catch
    | .noFileOrDirectory .. => return none
    | e => throw e

/-- Makes the directory in which a file lies. -/
def makeParent (path : String) : IO Unit :=
  IO.FS.createDirAll (Path.parent path)

/-- The text of the first file that is there. -/
def firstFile? : List String → IO (Option String)
  | [] => return none
  | path :: paths => do
    match ← readFile? path with
    | some content => return some content
    | none => firstFile? paths

/-- The variables of the environment with some names. -/
def valuesOf (names : List String) : IO (List (String × String)) :=
  names.filterMapM fun name => return (← IO.getEnv name).map (name, ·)

/-- What the settings in the working directory come from, apart from a caller. -/
def sources : IO Settings.Sources := do
  let file ← firstFile? (EnvFile.places (← IO.currentDir).toString)
  let names := ({} : Settings).members.map (·.1)
  let bound := ((file.map EnvFile.read).getD []).map (·.1)
  let spellings := names ++ names.map (fun name => name.map Char.toUpper) ++ bound
  return { environment := ← valuesOf spellings.eraseDups, file }

/-- The moment of the call. -/
def now : IO Moment := do
  let elapsed := (← Std.Time.Timestamp.now).toNanosecondsSinceUnixEpoch.toInt.toNat
  return .ofSeconds (elapsed / 1000000000) (elapsed / 1000 % 1000000)

/-- Writes a notice to the log. -/
def record (log : Log) (notice : Notice) : IO Unit := do
  let line := log.text [⟨Log.root, notice.severity.level, notice.message⟩]
  IO.print line
  if let some path := log.file then
    IO.FS.withFile path .append (·.putStr line)

/-- Takes the steps one after another, up to the first failure. -/
def perform (log : Log) : List Action → IO UInt32
  | [] => return 0
  | .print text :: rest => do
    IO.print text
    perform log rest
  | .write path text :: rest => do
    makeParent path
    IO.FS.writeFile path text
    perform log rest
  | .tell notice :: rest => do
    record log notice
    perform log rest
  | .fail failure :: _ => do
    IO.eprintln ("Error: " ++ failure.message)
    return 1

/-- Carries out a command. -/
def run (command : Command) : IO UInt32 := do
  let sources ← sources
  if let some refusal := sources.refusal? then
    IO.eprintln ("Error: " ++ refusal.message)
    return 1
  match Settings.of sources with
  | .faulty faults =>
    IO.eprintln s!"Error: {countFaults faults.length} for Settings"
    return 1
  | .read settings =>
    match Log.open? settings none none none with
    | none =>
      IO.eprintln s!"Error: unknown log level {settings.logLevel}"
      return 1
    | some log =>
      if let some path := log.file then
        makeParent path
      let begun ← perform log command.opening
      let content ← readFile? command.source
      if begun = 0 then perform log (command.actions settings (← now) content) else return begun

end Schemata.Program

/-- Runs the program. -/
def main (line : List String) : IO UInt32 := do
  match Schemata.Invocation.ofWords line with
  | .run command => Schemata.Program.run command
  | .help =>
    IO.print Schemata.Command.usage
    return 0
  | .misuse =>
    IO.eprint Schemata.Command.usage
    return 2
