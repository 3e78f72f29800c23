import Schemata.Text.Blank
import Schemata.Text.Line

/-!
# Environment files

An environment file gives values to names, a binding a line: `NAME=value`, with `export` in front if
one likes. Values may be quoted, in which case they may span lines and hold escaped characters. A
hash sign starts a comment. A name alone takes the value away that was bound to it before.
`EnvFile.read` takes the bindings of a file in order; lines that are no bindings are passed over.

`${NAME}` in a value stands for the value of another name; `EnvFile.expand` puts it in.
-/

namespace Schemata.EnvFile

/-- Whether the character is a blank inside of a line. -/
def isLineBlank (c : Char) : Bool :=
  Text.isBlank c && c != '\n'

/-- Reads on behind an opening mark: the text up to the closing mark, and what follows. A mark
behind a backslash does not close; a backslash behind a backslash is none of this kind. -/
def quoted? (mark : Char) : List Char → Option (List Char × List Char)
  | [] => none
  | '\\' :: c :: s => (quoted? mark s).map fun (value, rest) => ('\\' :: c :: value, rest)
  | c :: s =>
    if c = mark then some ([], s)
    else (quoted? mark s).map fun (value, rest) => (c :: value, rest)

/-- The characters that may be escaped between apostrophes. -/
def plainEscapes : List (Char × Char) :=
  [('\\', '\\'), ('\'', '\'')]

/-- The characters that may be escaped between double marks. -/
def richEscapes : List (Char × Char) :=
  plainEscapes ++ [('"', '"'), ('a', '\x07'), ('b', '\x08'), ('f', '\x0c'), ('n', '\n'),
    ('r', '\r'), ('t', '\t'), ('v', '\x0b')]

/-- A text with its escaped characters put in. -/
def unescape (escapes : List (Char × Char)) : List Char → List Char
  | '\\' :: c :: s =>
    match escapes.lookup c with
    | some d => d :: unescape escapes s
    | none => '\\' :: unescape escapes (c :: s)
  | c :: s => c :: unescape escapes s
  | [] => []

/-- A value without the comment behind it, which starts with a hash sign behind a blank. -/
def dropComment : List Char → List Char
  | c :: '#' :: s => if Text.isBlank c then [] else c :: dropComment ('#' :: s)
  | c :: s => c :: dropComment s
  | [] => []

/-- Reads a value and gives what follows it. The blanks in front of a value are not part of it, but
may set off a comment in its place. -/
def value? (s : List Char) : Option (List Char × List Char) :=
  match s.dropWhile isLineBlank with
  | '\'' :: cs => (quoted? '\'' cs).map fun (v, rest) => (unescape plainEscapes v, rest)
  | '"' :: cs => (quoted? '"' cs).map fun (v, rest) => (unescape richEscapes v, rest)
  | _ =>
    let (line, rest) := s.span (· != '\n')
    some (Text.strip (dropComment line), rest)

/-- Reads a name, quoted or not. A comment has none. -/
def name? (s : List Char) : Option (Option (List Char) × List Char) :=
  match s with
  | '#' :: _ => some (none, s)
  | '\'' :: cs =>
    let (name, rest) := cs.span (· != '\'')
    if name.isEmpty || rest.isEmpty then none else some (some name, rest.drop 1)
  | _ =>
    let (name, rest) := s.span fun c => c != '=' && c != '#' && !Text.isBlank c
    if name.isEmpty then none else some (some name, rest)

/-- Reads the end of a line, a comment in front of it included. -/
def lineEnd? (s : List Char) : Option (List Char) :=
  let s := s.dropWhile isLineBlank
  let s := if s.head? = some '#' then s.dropWhile (· != '\n') else s
  match s with
  | [] => some []
  | c :: rest => if c = '\n' then some rest else none

/-- What follows the line in which reading failed. -/
def nextLine (s : List Char) : List Char :=
  (s.dropWhile (· != '\n')).drop 1

/-- The text without the word that marks a name for export. -/
def dropExport (s : List Char) : List Char :=
  let word := "export".toList
  if word.isPrefixOf s && (s.drop word.length).head?.any isLineBlank then
    (s.drop word.length).dropWhile isLineBlank
  else s

/-- A binding of a name to a value, if there is one. -/
abbrev Binding := List Char × Option (List Char)

/-- Reads the value behind a name, if there is one. -/
def assignment? (s : List Char) : Option (Option (List Char) × List Char) :=
  match s.dropWhile isLineBlank with
  | '=' :: rest => (value? rest).map fun (v, rest) => (some v, rest)
  | rest => some (none, rest)

/-- Reads a binding, if the next line holds one, and gives what follows it. -/
def binding (s : List Char) : Option Binding × List Char :=
  let start := dropExport s
  match name? start with
  | none => (none, nextLine start)
  | some (name, afterName) =>
    match assignment? afterName with
    | none => (none, nextLine afterName)
    | some (value, afterValue) =>
      match lineEnd? afterValue with
      | none => (none, nextLine afterValue)
      | some rest => (name.map fun name => (name, value), rest)

/-- The bindings of a text, in order. Reading stops if a step does not get on. -/
def bindings (s : List Char) : List Binding :=
  match s.dropWhile Text.isBlank with
  | [] => []
  | c :: cs =>
    let (first, rest) := binding (c :: cs)
    if _h : rest.length < s.length then first.toList ++ bindings rest else first.toList
termination_by s.length

/-- A text without the byte order mark in front. -/
def dropMark : List Char → List Char
  | '\uFEFF' :: s => s
  | s => s

/-- The bindings of a file, in order; every line break counts as the same. -/
def read (content : String) : List (String × Option String) :=
  (bindings (Text.unifyLineBreaks (dropMark content.toList))).map fun (name, value) =>
    (String.ofList name, value.map String.ofList)

example : read "export A='x' # note\n\nB=\"1\\n\"\nC\n" =
    [("A", some "x"), ("B", some "1\n"), ("C", none)] := by decide +kernel

/-! ## References to other names -/

/-- Reads a reference behind its opening brace: the name, the text that stands in for it, and what
follows. -/
def reference? (s : List Char) : Option (List Char × List Char × List Char) :=
  let (name, rest) := s.span fun c => c != '\x7d' && c != ':'
  match rest with
  | '\x7d' :: rest => some (name, [], rest)
  | ':' :: '-' :: rest =>
    let (otherwise, rest) := rest.span (· != '\x7d')
    if rest.isEmpty then none else some (name, otherwise, rest.drop 1)
  | _ => none

/-- A value with references put in. -/
def expandChars (value? : String → Option String) (s : List Char) : List Char :=
  match s with
  | [] => []
  | '$' :: '\x7b' :: s =>
    match reference? s with
    | some (name, otherwise, rest) =>
      let put := ((value? (String.ofList name)).map String.toList).getD otherwise
      if _h : rest.length < s.length + 2 then put ++ expandChars value? rest else put
    | none => '$' :: expandChars value? ('\x7b' :: s)
  | c :: s => c :: expandChars value? s
termination_by s.length

/-- Binds a name anew, or for the first time. -/
def bind {α : Type} (bindings : List (String × α)) (name : String) (value : α) :
    List (String × α) :=
  if bindings.any (·.1 == name) then
    bindings.map fun b => if b.1 == name then (name, value) else b
  else bindings ++ [(name, value)]

/-- What a reference stands for: a value of the environment before one of the bindings in front of
it. A name without a value stands for nothing. -/
def referent? (environment : List (String × String)) (before : List (String × Option String))
    (name : String) : Option String :=
  (environment.lookup name).or ((before.lookup name).map (·.getD ""))

/-- Bindings with references put in; every name is bound once, to the last of its values. -/
def expand (environment : List (String × String)) (bindings : List (String × Option String)) :
    List (String × Option String) :=
  bindings.foldl
    (fun before (name, value) =>
      bind before name (value.map fun value =>
        String.ofList (expandChars (referent? environment before) value.toList)))
    []

/-- The bindings of a file that an environment takes on. What it has already stays. -/
def additions (environment : List (String × String)) (content : String) :
    List (String × String) :=
  (expand environment (read content)).filterMap fun (name, value) =>
    if environment.any (·.1 == name) then none else value.map (name, ·)

/-- An environment with the bindings of a file. -/
def extend (environment : List (String × String)) (content : String) : List (String × String) :=
  environment ++ additions environment content

/-! ## Bindings that are refused -/

/-- Why no environment takes a binding. -/
inductive Refusal where
  /-- Name or value holds the character with the number zero, which ends a binding. -/
  | zero
  /-- The name holds an equals sign, which ends a name. -/
  | equals
deriving DecidableEq, Repr

/-- What is said of a refusal. -/
def Refusal.message : Refusal → String
  | zero => "embedded null byte"
  | equals => "illegal environment variable name"

/-- Why a binding is refused, if it is. -/
def refusal? : String × String → Option Refusal
  | (name, value) =>
    if (name ++ value).toList.contains '\x00' then some .zero
    else if name.toList.contains '=' then some .equals
    else none

end Schemata.EnvFile
