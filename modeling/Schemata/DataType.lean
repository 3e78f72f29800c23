import Schemata.Text.Blank
import Schemata.Text.Case
import Schemata.Text.Line

/-!
# Data types

A column type is written as a base name with an optional argument list in parentheses.
`DataType.ofString` splits the text: the base name starts with an ASCII letter, holds ASCII
letters, digits, underscores and blanks, and is kept in upper case with single blanks; the argument
list runs to the last parenthesis. A text of another form is a base name as it stands, in upper
case.

The arguments of an enumeration are quoted values in which a quote is written twice.
-/

namespace Schemata

/-- A column type: a base name and the text between its parentheses. -/
structure DataType where
  /-- The base name, in upper case. -/
  base : String
  /-- The argument list, if parentheses were written. -/
  arguments : Option String
deriving DecidableEq, Repr

namespace DataType

/-- Whether a character may stand inside a base name. -/
def isBaseChar (c : Char) : Bool :=
  c.isAlphanum || c == '_' || c == ' '

/-- The base name that a text spells: a letter, then base characters, blanks after it ignored. -/
def readBase? (s : List Char) : Option (List Char) :=
  match Text.stripRight s with
  | c :: cs =>
    if c.isAlpha && cs.all isBaseChar then
      some (Text.upper (Text.replaceRuns Text.isBlank ' ' (c :: cs)))
    else none
  | [] => none

/-- The argument list of a text that follows an opening parenthesis and ends, blanks ignored, with
a closing one. -/
def readArguments? (s : List Char) : Option (List Char) :=
  match (Text.stripRight s).reverse with
  | ')' :: rest => if rest.contains '\n' then none else some (Text.strip rest.reverse)
  | _ => none

/-- Splits the characters of a type text that has the form of a base name with optional
arguments. -/
def read? (s : List Char) : Option (List Char × Option (List Char)) :=
  let text := s.dropWhile Text.isBlank
  match text.dropWhile (· != '(') with
  | [] => (readBase? text).map (·, none)
  | _ :: tail => do
    let base ← readBase? (text.takeWhile (· != '('))
    let arguments ← readArguments? tail
    return (base, some arguments)

/-- The type that a text denotes. -/
def ofString (text : String) : DataType :=
  match read? text.toList with
  | some (base, arguments) => ⟨String.ofList base, arguments.map String.ofList⟩
  | none => ⟨String.ofList (Text.upper text.toList), none⟩

/-- The arguments, if there are any and they are not empty. -/
def arguments? (t : DataType) : Option String :=
  t.arguments.filter (!·.isEmpty)

/-- Whether the type is an enumeration. -/
def isEnumeration (t : DataType) : Bool :=
  t.base == "ENUM"

/-- Whether the type is one of the integer types. -/
def isInteger (t : DataType) : Bool :=
  ["INTEGER", "INT", "BIGINT", "SMALLINT", "TINYINT", "MEDIUMINT", "SERIAL", "BIGSERIAL"].contains
    t.base

end DataType

/-! ## Quoted values -/

/-- Reads on behind an opening quote: the value up to the closing quote, and what follows. Two
quotes are one quote of the value, unless no closing quote follows them; then the first of them
closes. -/
def quotedValue? : List Char → Option (List Char × List Char)
  | [] => none
  | '\'' :: '\'' :: cs =>
    match quotedValue? cs with
    | some (value, rest) => some ('\'' :: value, rest)
    | none => some ([], '\'' :: cs)
  | c :: cs =>
    if c = '\'' then some ([], cs)
    else (quotedValue? cs).map fun (value, rest) => (c :: value, rest)

theorem length_lt_of_quotedValue? {s value rest : List Char}
    (h : quotedValue? s = some (value, rest)) : rest.length < s.length := by
  fun_induction quotedValue? s generalizing value rest with
  | case1 => simp at h
  | case2 cs value' rest' hq ih =>
    simp only [Option.some.injEq, Prod.mk.injEq] at h
    have := ih hq
    rw [← h.2]
    simp only [List.length_cons]
    omega
  | case3 cs hq =>
    simp only [Option.some.injEq, Prod.mk.injEq] at h
    simp [← h.2]
  | case4 c cs =>
    simp only [Option.some.injEq, Prod.mk.injEq] at h
    simp [← h.2]
  | case5 c cs _ _ ih =>
    simp only [Option.map_eq_some_iff, Prod.exists, Prod.mk.injEq] at h
    obtain ⟨value', rest', hq, -, rfl⟩ := h
    have := ih hq
    simp only [List.length_cons]
    omega

/-- The quoted values of a text, in order. -/
def quotedValues : List Char → List (List Char)
  | [] => []
  | c :: cs =>
    if c = '\'' then
      match _h : quotedValue? cs with
      | some (value, rest) => value :: quotedValues rest
      | none => []
    else quotedValues cs
termination_by s => s.length
decreasing_by
  · have := length_lt_of_quotedValue? _h
    simp only [List.length_cons]
    omega
  · simp

/-- The values of an enumeration: the quoted values of the argument list or, if there is none, its
parts between commas that are not blank. -/
def enumValues (arguments : Option String) : List String :=
  let text := (arguments.getD "").toList
  let values := match quotedValues text with
    | [] => ((Text.splitAt ',' text).map Text.strip).filter (· ≠ [])
    | values => values
  values.map String.ofList

/-- The values of an enumeration type. -/
def DataType.values (t : DataType) : List String :=
  enumValues t.arguments

end Schemata
