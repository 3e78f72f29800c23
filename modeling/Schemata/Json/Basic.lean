import Schemata.Decimal.Binary64

/-!
# Documents

A `Json.Value` is a document as read: whole numbers and floating-point numbers are told apart, and
the members of an object keep their order.
-/

namespace Schemata.Json

/-- A document. -/
inductive Value where
  /-- Nothing. -/
  | null
  /-- A truth value. -/
  | bool (b : Bool)
  /-- A whole number of any size. -/
  | integer (n : Int)
  /-- A number written with a fraction or an exponent. -/
  | float (x : Binary64)
  /-- A text. -/
  | text (s : String)
  /-- A list of documents. -/
  | list (items : List Value)
  /-- An object, as its members in order. -/
  | object (members : List (String × Value))

instance : Inhabited Value := ⟨.null⟩

/-- The members of an object. -/
abbrev Members := List (String × Value)

/-- The value of a member. -/
def Members.get? (members : Members) (name : String) : Option Value :=
  members.lookup name

/-- Sets a member: in its place if the name is there already, at the end otherwise. -/
def Members.set (members : Members) (name : String) (value : Value) : Members :=
  if members.any (·.1 == name) then
    members.map fun member => if member.1 == name then (name, value) else member
  else members ++ [(name, value)]

/-- A text, or null for none. -/
def Value.ofText? : Option String → Value
  | some s => .text s
  | none => .null

/-- How large a document may be. What has no bound may have any size. -/
structure Limits where
  /-- The number of lists and objects that may lie in one another, empty ones not counted. -/
  depth : Option Nat := none
  /-- The number of characters that a number may have in front of its fraction. -/
  whole : Option Nat := none
deriving DecidableEq, Repr

/-- Whether a size keeps to a bound. -/
def Limits.keeps (bound : Option Nat) (size : Nat) : Bool :=
  bound.all (size ≤ ·)

/-- Whether the value is null. -/
def Value.isNull : Value → Bool
  | .null => true
  | _ => false

end Schemata.Json
