/-!
# Notices

What a run has to tell beside its result: a `Notice` is a line of text and how much it matters.
-/

namespace Schemata

/-- How much a notice matters. -/
inductive Notice.Severity where
  /-- Something was mended or left out. -/
  | warning
  /-- The run cannot go on. -/
  | error
deriving DecidableEq, Repr

/-- A line told beside the result. -/
structure Notice where
  /-- How much it matters. -/
  severity : Notice.Severity
  /-- What is told. -/
  message : String
deriving DecidableEq, Repr

/-- The word for a severity. -/
def Notice.Severity.word : Notice.Severity → String
  | .warning => "WARNING"
  | .error => "ERROR"

/-- A warning. -/
def Notice.warning (message : String) : Notice := ⟨.warning, message⟩

/-- An error. -/
def Notice.error (message : String) : Notice := ⟨.error, message⟩

end Schemata
