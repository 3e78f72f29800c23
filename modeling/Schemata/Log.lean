import Schemata.Settings.Basic

/-!
# Logs

A log is written while a run goes on: records with a level and a message, each by a named logger.
The loggers form a tree under one root; `Log.text` is what the log of that tree holds of some
records, each laid out by a pattern on a line of its own.
-/

namespace Schemata

/-- How much a record matters. -/
inductive Log.Level where
  /-- No level of its own: that of the loggers around the tree holds, which is `warning`. -/
  | inherited
  /-- Of use in the search for errors. -/
  | debug
  /-- The run gets on. -/
  | info
  /-- Something was mended or left out. -/
  | warning
  /-- Something failed. -/
  | error
  /-- The run cannot go on. -/
  | critical
deriving DecidableEq, Repr

/-- A line of a log. -/
structure Log.Record where
  /-- The name of the logger. -/
  logger : String
  /-- How much the record matters. -/
  level : Log.Level
  /-- What is said. -/
  message : String
deriving DecidableEq, Repr

namespace Log

namespace Level

/-- The words for the levels. -/
def word : Level → String
  | inherited => "NOTSET"
  | debug => "DEBUG"
  | info => "INFO"
  | warning => "WARNING"
  | error => "ERROR"
  | critical => "CRITICAL"

/-- The number of a level, higher where a record matters more. -/
def number : Level → Nat
  | inherited => 0
  | debug => 10
  | info => 20
  | warning => 30
  | error => 40
  | critical => 50

/-- The names of the levels. Two of them have a second name. -/
def names : List (String × Level) :=
  [("WARN", warning), ("FATAL", critical)]
    ++ [inherited, debug, info, warning, error, critical].map fun level => (level.word, level)

/-- The level of a name, letter case disregarded. -/
def ofName? (name : String) : Option Level :=
  names.lookup (String.ofList (Text.upper name.toList))

/-- The level from which on records are kept. -/
def threshold : Level → Level
  | inherited => warning
  | level => level

end Level

/-! ## Loggers -/

/-- The logger at the root of the tree. -/
def root : String := "nl2schema"

/-- The full name of a logger: it stands under the root, unless its name says so itself. -/
def loggerName (name : String) : String :=
  if root.toList.isPrefixOf name.toList then name else root ++ "." ++ name

/-- Whether a logger belongs to the tree. -/
def isInTree (logger : String) : Bool :=
  logger == root || (root ++ ".").toList.isPrefixOf logger.toList

/-! ## Patterns -/

/-- What a pattern shows of a record. -/
inductive Field where
  /-- The name of the logger. -/
  | logger
  /-- The word for the level. -/
  | level
  /-- The number of the level. -/
  | levelNumber
  /-- The message. -/
  | message
deriving DecidableEq, Repr

/-- The spelling of the fields in a pattern. -/
def Field.names : List (String × Field) :=
  [("name", logger), ("levelname", level), ("levelno", levelNumber), ("message", message)]

/-- What a field shows of a record. -/
def Field.text (r : Record) : Field → String
  | logger => r.logger
  | level => r.level.word
  | levelNumber => toString r.level.number
  | message => r.message

/-- A piece of a pattern. -/
inductive Piece where
  /-- A character that stands for itself. -/
  | char (c : Char)
  /-- A field, filled up with spaces to a width, on its right or on its left. -/
  | field (f : Field) (left : Bool) (width : Nat)
deriving DecidableEq, Repr

/-- Fills a text up to a width. -/
def fill (left : Bool) (width : Nat) (text : String) : String :=
  let spaces := String.ofList (List.replicate (width - text.length) ' ')
  if left then text ++ spaces else spaces ++ text

/-- What a piece shows of a record. -/
def Piece.text (r : Record) : Piece → String
  | char c => c.toString
  | field f left width => fill left width (f.text r)

/-- Reads a field behind its opening parenthesis: its name, a minus sign for text to the left, a
width and the letter that ends it. -/
def readField? (s : List Char) : Option (Piece × List Char) := do
  let (name, s) := s.span (· != ')')
  let field ← Field.names.lookup (String.ofList name)
  let (left, s) := match s.drop 1 with
    | '-' :: s => (true, s)
    | s => (false, s)
  let (width, s) := s.span Char.isDigit
  match s with
  | c :: s =>
    if c = 's' ∨ (c = 'd' ∧ field = .levelNumber) then
      some (.field field left ((Text.readDecimal? width).getD 0), s)
    else none
  | [] => none

/-- Reads a pattern: a percent sign opens a field, and two of them stand for one. -/
def readPieces? (s : List Char) : Option (List Piece) :=
  match s with
  | [] => some []
  | '%' :: '%' :: s => (readPieces? s).map (.char '%' :: ·)
  | '%' :: '(' :: s => do
    let (piece, rest) ← readField? s
    if _h : rest.length < s.length then
      let pieces ← readPieces? rest
      some (piece :: pieces)
    else none
  | c :: s => if c = '%' then none else (readPieces? s).map (.char c :: ·)
termination_by s.length

end Log

/-! ## The log of a tree -/

/-- How the log of a tree is kept. -/
structure Log where
  /-- The level of the tree. -/
  level : Log.Level
  /-- The pattern of its lines. -/
  pattern : String
  /-- A file to which lines are written too. -/
  file : Option String
deriving DecidableEq, Repr

namespace Log

/-- The pattern taken where none is asked for. -/
def defaultPattern : String := "%(name)s - %(levelname)s - %(message)s"

/-- A text, unless it is not given or empty. -/
def given? (text : Option String) : Option String :=
  text.filter (!·.isEmpty)

/-- The log that is asked for, settings filling the gaps; none, if no level has the name. -/
def open? (settings : Settings) (level file pattern : Option String) : Option Log := do
  let level ← Level.ofName? ((given? level).getD settings.logLevel)
  some ⟨level, (given? pattern).getD defaultPattern, file.or settings.logFile⟩

/-- How many places the lines are written to. -/
def places (log : Log) : Nat :=
  if log.file.isSome then 2 else 1

/-- Whether a record is kept. -/
def keeps (log : Log) (r : Record) : Bool :=
  isInTree r.logger && log.level.threshold.number ≤ r.level.number

/-- The line of a record, if its pattern can be read. -/
def line? (log : Log) (r : Record) : Option String :=
  (readPieces? log.pattern.toList).map fun pieces =>
    String.join (pieces.map (·.text r)) ++ "\n"

/-- What the log holds of some records. -/
def text (log : Log) (records : List Record) : String :=
  String.join ((records.filter log.keeps).filterMap log.line?)

end Log

example : (Log.mk .info "%(levelname)s: %(message)s" none).text
    [⟨"nl2schema.sql", .info, "a"⟩, ⟨"other", .error, "b"⟩, ⟨"nl2schema", .debug, "c"⟩] =
    "INFO: a\n" := by decide +kernel

/-- The level at which a notice is logged. -/
def Notice.Severity.level : Notice.Severity → Log.Level
  | warning => .warning
  | error => .error

end Schemata
