import Schemata.Json.Token

/-!
# Reading documents

`Value.read?` reads a document in the standard notation, or fails. Of members with the same name
the last one counts, in the place of the first. A document beyond the limits is not read.

The reader takes one token after another and keeps the lists and objects that are still open, the
innermost first.
-/

namespace Schemata.Json

/-- A list or an object that is still open. -/
inductive Frame where
  /-- A list with the items read, the last one first. -/
  | list (items : List Value)
  /-- An object with the members read and the name whose value is read now. -/
  | object (members : Members) (name : String)

/-- What the reader waits for. -/
inductive Awaiting where
  /-- A value. -/
  | value
  /-- A value or the end of the list just opened. -/
  | firstItem
  /-- A name or the end of the object just opened. -/
  | firstName
  /-- A name of the object with these members. -/
  | name (members : Members)
  /-- The colon behind a name. -/
  | colon (members : Members) (name : String)
  /-- What follows a complete value. -/
  | next (value : Value)

/-- The reader between two tokens. -/
structure ReaderState where
  /-- The open lists and objects around the place of `awaiting`. -/
  stack : List Frame
  /-- What is waited for. -/
  awaiting : Awaiting

/-- Starts reading a value at a token. -/
def ReaderState.startValue (stack : List Frame) : Token → Option ReaderState
  | .openList => some ⟨stack, .firstItem⟩
  | .openObject => some ⟨stack, .firstName⟩
  | .text s => some ⟨stack, .next (.text s)⟩
  | .scalar value => some ⟨stack, .next value⟩
  | _ => none

/-- Opens a list or an object inside of the open ones, if the limits allow for one more. -/
def Frame.open? (limits : Limits) (frame : Frame) (stack : List Frame) : Option (List Frame) :=
  if Limits.keeps limits.depth (stack.length + 1) then some (frame :: stack) else none

/-- Reads one token. -/
def ReaderState.step (limits : Limits) (state : ReaderState) (token : Token) :
    Option ReaderState :=
  match state.awaiting, token with
  | .value, token => startValue state.stack token
  | .firstItem, .closeList => some ⟨state.stack, .next (.list [])⟩
  | .firstItem, token =>
    (Frame.open? limits (.list []) state.stack).bind fun stack => startValue stack token
  | .firstName, .closeObject => some ⟨state.stack, .next (.object [])⟩
  | .firstName, .text name => some ⟨state.stack, .colon [] name⟩
  | .name members, .text name => some ⟨state.stack, .colon members name⟩
  | .colon members name, .colon =>
    (Frame.open? limits (.object members name) state.stack).map (⟨·, .value⟩)
  | .next value, token =>
    match state.stack, token with
    | .list items :: stack, .comma => some ⟨.list (value :: items) :: stack, .value⟩
    | .list items :: stack, .closeList => some ⟨stack, .next (.list (value :: items).reverse)⟩
    | .object members name :: stack, .comma => some ⟨stack, .name (members.set name value)⟩
    | .object members name :: stack, .closeObject =>
      some ⟨stack, .next (.object (members.set name value))⟩
    | _, _ => none
  | _, _ => none

/-- The document within the limits that a text spells. -/
def Value.read? (limits : Limits) (s : String) : Option Value := do
  let tokens ← tokens? limits s
  let state ← tokens.foldlM (ReaderState.step limits) ⟨[], .value⟩
  match state with
  | ⟨[], .next value⟩ => some value
  | _ => none

end Schemata.Json
