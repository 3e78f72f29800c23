/-!
# Words of a command line

Behind the name of a command stand plain words and options, in any order. An option that takes a
text is followed by it; the text may also be attached, behind an equals sign if the name of the
option is long. Two dashes end the options.

`readEntries?` tells the plain words from the options; it gives nothing if an option is not known,
lacks its text, or is given one it does not take.
-/

namespace Schemata.Command

/-- What an option with a text is about. -/
inductive Topic where
  /-- The name of the schema. -/
  | name
  /-- The description of the schema. -/
  | description
  /-- The dialect of the script. -/
  | dialect
  /-- The format of the documentation. -/
  | format
  /-- The file to write to. -/
  | out
deriving DecidableEq, Repr

/-- What an option means. -/
inductive Meaning where
  /-- It takes a text. -/
  | text (topic : Topic)
  /-- It turns the layout of scripts on or off. -/
  | tidy (on : Bool)
  /-- It asks for help. -/
  | help
deriving DecidableEq, Repr

/-- The part of a command line that a word, or an option with its text, makes up. -/
inductive Entry where
  /-- A plain word. -/
  | word (word : String)
  /-- An option with its text. -/
  | text (topic : Topic) (text : String)
  /-- An option that turns the layout of scripts on or off. -/
  | tidy (on : Bool)
  /-- An option that asks for help. -/
  | help
deriving DecidableEq, Repr

/-- The entry for an option without a text, if it takes none. -/
def Meaning.entry? : Meaning → Option Entry
  | text _ => none
  | tidy on => some (.tidy on)
  | help => some .help

/-- Whether a word is an option: a dash with something behind it. -/
def isOption (word : String) : Bool :=
  match word.toList with
  | '-' :: _ :: _ => true
  | _ => false

/-- The name of an option and the text attached to it. The name is long if it starts with two
dashes; otherwise it is one letter behind a dash. -/
def splitOption (word : String) : String × Option String :=
  match word.toList with
  | '-' :: '-' :: s =>
    let (name, attached) := s.span (· != '=')
    (String.ofList ('-' :: '-' :: name),
      if attached.isEmpty then none else some (String.ofList (attached.drop 1)))
  | '-' :: c :: s => (String.ofList ['-', c], if s.isEmpty then none else some (String.ofList s))
  | s => (String.ofList s, none)

example : splitOption "--name=a=b" = ("--name", some "a=b") := by decide +kernel

example : splitOption "-fhtml" = ("-f", some "html") := by decide +kernel

/-- Reads the words of a command line as entries, by the options that are known. -/
def readEntries? (options : List (String × Meaning)) : List String → Option (List Entry)
  | [] => some []
  | word :: rest =>
    if word = "--" then some (rest.map .word)
    else if isOption word then
      let (name, attached) := splitOption word
      match options.lookup name, attached with
      | some (.text topic), some text => (readEntries? options rest).map (.text topic text :: ·)
      | some (.text topic), none =>
        match rest with
        | text :: rest => (readEntries? options rest).map (.text topic text :: ·)
        | [] => none
      | some meaning, none => do
        let entry ← meaning.entry?
        let entries ← readEntries? options rest
        return entry :: entries
      | some _, some _ => none
      | none, _ => none
    else (readEntries? options rest).map (.word word :: ·)

/-- The plain words among entries. -/
def words (entries : List Entry) : List String :=
  entries.filterMap fun
    | .word word => some word
    | _ => none

/-- The text given for a topic; the last one, if there are several. -/
def text? (entries : List Entry) (topic : Topic) : Option String :=
  (entries.filterMap fun
    | .text other text => if other = topic then some text else none
    | _ => none).getLast?

/-- Whether scripts are to be laid out, if anything is said about it; the last word counts. -/
def tidy? (entries : List Entry) : Option Bool :=
  (entries.filterMap fun
    | .tidy on => some on
    | _ => none).getLast?

end Schemata.Command
