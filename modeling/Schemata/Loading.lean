import Schemata.Extraction.Reader
import Schemata.Json.Reader
import Schemata.Schema.Reader
import Schemata.Text.Digit

/-!
# Loading documents

Extractions and schemas are kept in files. `loadExtraction` and `loadSchema` read the text of such a
file, which may be missing, blank or faulty. Blanks around the document do not count.
-/

namespace Schemata

/-- What a file holds. -/
inductive FileKind where
  /-- An extraction. -/
  | extraction
  /-- A schema. -/
  | schema
deriving DecidableEq, Repr

/-- The word for what a file holds. -/
def FileKind.label : FileKind → String
  | extraction => "Extraction"
  | schema => "Schema"

/-- The name of the form that a file has to have. -/
def FileKind.form : FileKind → String
  | extraction => "ExtractionResult"
  | schema => "Schema"

/-- Why a file cannot be loaded. -/
inductive LoadError where
  /-- There is no such file. -/
  | missing
  /-- The file holds nothing. -/
  | blank
  /-- The file does not have the form it should have. -/
  | faulty (faults : List Fault)
deriving DecidableEq, Repr

/-- The number of faults in words. -/
def countFaults (n : Nat) : String :=
  if n = 1 then "1 validation error" else s!"{n} validation errors"

/-- The error of a file in a line. -/
def LoadError.message (kind : FileKind) (path : String) : LoadError → String
  | missing => s!"{kind.label} file not found: {path}"
  | blank =>
    s!"{kind.label} file is empty or corrupted: {path}. "
      ++ "The file exists but contains no valid JSON data."
  | faulty faults =>
    s!"Failed to load {kind.label} from {path}: {countFaults faults.length} for {kind.form}"

/-- The limits of the documents in files. -/
def fileLimits : Json.Limits := ⟨some 200, some Text.longestNumeral⟩

/-- Reads a value from the text of a document. -/
def readDocument {α : Type} (read : Json.Value → Reading α) (text : String) : Reading α :=
  match Json.Value.read? fileLimits text with
  | none => .fault .notADocument
  | some value => read value

/-- Loads a value from the text of a file, if the file is there. -/
def load {α : Type} (read : Json.Value → Reading α) (content : Option String) :
    Except LoadError α :=
  match content with
  | none => .error .missing
  | some text =>
    let stripped := String.ofList (Text.strip text.toList)
    if stripped.isEmpty then .error .blank
    else (readDocument read stripped).toExcept.mapError .faulty

/-- Loads an extraction from the text of a file. -/
def loadExtraction (content : Option String) : Except LoadError Extraction :=
  load Extraction.read content

/-- Loads a schema from the text of a file, `now` being the moment of loading. -/
def loadSchema (now : Moment) (content : Option String) : Except LoadError Schema :=
  load (Schema.read .text now) content

end Schemata
