import Schemata.Json.Basic

/-!
# Reading values out of documents

A `Reading` is what comes of reading a document as a value of the library: the value, or every
fault that was found on the way. Parts are read side by side, so that the faults of all of them are
reported, in the order of the parts. A fault says what was wrong and where.

Fields of an object may be given under two spellings, in camel case or with underscores; if both
are there, the first counts.
-/

namespace Schemata

/-- A step into a document. -/
inductive Step where
  /-- To the member of an object with this name. -/
  | member (name : String)
  /-- To the item of a list at this place. -/
  | item (index : Nat)
deriving DecidableEq, Repr

/-- What can be wrong with a part of a document. -/
inductive Fault.Kind where
  /-- A required member is not there. -/
  | missing
  /-- No object. -/
  | notAnObject
  /-- No list. -/
  | notAList
  /-- No text. -/
  | notAText
  /-- No truth value, nor a kind of value that could spell one. -/
  | notAFlag
  /-- A text or a number that spells no truth value. -/
  | unreadableFlag
  /-- No whole number, nor a kind of value that could spell one. -/
  | notAnInteger
  /-- A text that spells no whole number. -/
  | unreadableInteger
  /-- A number with a fraction in place of a whole number. -/
  | fractional
  /-- A number beyond all bounds in place of a whole number. -/
  | notFinite
  /-- A whole number too large to be read as one. -/
  | oversizedInteger
  /-- No number, nor a kind of value that could spell one. -/
  | notANumber
  /-- A text that spells no number. -/
  | unreadableNumber
  /-- None of the words allowed. -/
  | notAChoice
  /-- No text in the place of a moment. -/
  | notAMoment
  /-- A text that spells no moment. -/
  | unreadableMoment
  /-- A moment of the year zero, or a number beyond the moments that are counted. -/
  | momentOutOfRange
  /-- No text in the place of a path. -/
  | notAPath
  /-- No document at all. -/
  | notADocument
deriving DecidableEq, Repr

/-- A fault and its place, from the outside in. -/
structure Fault where
  /-- What is wrong. -/
  kind : Fault.Kind
  /-- Where. -/
  path : List Step
deriving DecidableEq, Repr

/-- The outcome of reading. -/
inductive Reading (α : Type) where
  /-- The value that was read. -/
  | read (value : α)
  /-- The faults found. -/
  | faulty (faults : List Fault)
deriving Repr

namespace Reading

variable {α β : Type}

/-- A single fault at the place where the reading started. -/
def fault (kind : Fault.Kind) : Reading α :=
  .faulty [⟨kind, []⟩]

/-- Changes the value that was read. -/
def map (f : α → β) : Reading α → Reading β
  | .read a => .read (f a)
  | .faulty faults => .faulty faults

/-- Reads two parts side by side. -/
def both (f : Reading (α → β)) (a : Reading α) : Reading β :=
  match f, a with
  | .read f, .read a => .read (f a)
  | .read _, .faulty faults => .faulty faults
  | .faulty faults, .read _ => .faulty faults
  | .faulty first, .faulty second => .faulty (first ++ second)

instance : Applicative Reading where
  pure := .read
  map := map
  seq f a := both f (a ())

@[simp] theorem map_read (f : α → β) (a : α) : f <$> (Reading.read a) = .read (f a) := rfl

@[simp] theorem read_seq_read (f : α → β) (a : α) :
    (Reading.read f) <*> (Reading.read a) = .read (f a) := rfl

/-- Puts a step in front of the places of all faults. -/
def under (step : Step) : Reading α → Reading α
  | .read a => .read a
  | .faulty faults => .faulty (faults.map fun fault => { fault with path := step :: fault.path })

/-- The value, if there was no fault. -/
def value? : Reading α → Option α
  | .read a => some a
  | .faulty _ => none

/-- The value, or the faults as an error. -/
def toExcept : Reading α → Except (List Fault) α
  | .read a => .ok a
  | .faulty faults => .error faults

/-- Reads a list of parts side by side, from an index on. -/
def items {γ : Type} (read : γ → Reading α) (index : Nat) : List γ → Reading (List α)
  | [] => .read []
  | item :: rest => List.cons <$> (read item).under (.item index) <*> items read (index + 1) rest

/-- Reads the values of members side by side. -/
def members (read : Json.Value → Reading α) : Json.Members → Reading (List (String × α))
  | [] => .read []
  | (name, value) :: rest =>
    (fun a rest => (name, a) :: rest) <$> (read value).under (.member name) <*> members read rest

end Reading

/-! ## Fields -/

/-- The two spellings of a field. -/
structure FieldName where
  /-- The spelling in camel case. -/
  camel : String
  /-- The spelling with underscores. -/
  snake : String
deriving DecidableEq, Repr

/-- A field whose spellings agree. -/
def FieldName.single (name : String) : FieldName := ⟨name, name⟩

namespace Json.Members

/-- The spelling under which a field is given, and its value. -/
def field? (members : Members) (name : FieldName) : Option (String × Value) :=
  match members.get? name.camel with
  | some value => some (name.camel, value)
  | none => (members.get? name.snake).map (name.snake, ·)

variable {α : Type}

/-- Reads a field that may be left out. -/
def fieldD (members : Members) (name : FieldName) (default : α) (read : Value → Reading α) :
    Reading α :=
  match members.field? name with
  | some (spelling, value) => (read value).under (.member spelling)
  | none => .read default

/-- Reads a field that has to be there. -/
def field (members : Members) (name : FieldName) (read : Value → Reading α) : Reading α :=
  match members.field? name with
  | some (spelling, value) => (read value).under (.member spelling)
  | none => (Reading.fault .missing).under (.member name.camel)

end Json.Members

/-- Reads an object through its members. -/
def readObject {α : Type} (read : Json.Members → Reading α) : Json.Value → Reading α
  | .object members => read members
  | _ => .fault .notAnObject

/-- Reads a list item by item. -/
def readList {α : Type} (read : Json.Value → Reading α) : Json.Value → Reading (List α)
  | .list items => Reading.items read 0 items
  | _ => .fault .notAList

/-- Reads null as nothing. -/
def readNullable {α : Type} (read : Json.Value → Reading α) : Json.Value → Reading (Option α)
  | .null => .read none
  | value => some <$> read value

end Schemata
