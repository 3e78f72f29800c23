import Schemata.Text.Case

/-!
# Types and tables told by their names

Where an extraction gives no type, the name of an attribute decides: `inferType` goes through a
list of rules and takes the first that applies. Likewise the name of a table can say that it holds
a fixed set of values, such as states or roles: `lookupKeyword?` finds the word that tells.
-/

namespace Schemata

-- the test of the core library, whatever is imported
attribute [local instance (2000)] List.instDecidableIsInfixOfDecidableEq

/-- The type of a column about which nothing is known. -/
def defaultType : String := "VARCHAR(255)"

/-- How a name is compared with the keywords of a rule. -/
inductive NameTest where
  /-- The name ends in a keyword. -/
  | endsWith
  /-- The name contains a keyword. -/
  | contains
  /-- The name is a keyword. -/
  | equals
deriving DecidableEq, Repr

/-- Whether a name passes the test with a keyword. -/
def NameTest.passes (test : NameTest) (keyword name : List Char) : Bool :=
  match test with
  | .endsWith => keyword.isSuffixOf name
  | .contains => decide (keyword <:+: name)
  | .equals => keyword == name

/-- Gives a type to the names that pass a test with one of the keywords. -/
structure TypeRule where
  /-- How names are compared. -/
  test : NameTest
  /-- The words looked for. -/
  keywords : List String
  /-- The type given. -/
  type : String
deriving Repr

/-- Whether the rule applies to a name. -/
def TypeRule.applies (rule : TypeRule) (name : List Char) : Bool :=
  rule.keywords.any fun keyword => rule.test.passes keyword.toList name

/-- The rules, in order of precedence. -/
def typeRules : List TypeRule :=
  [⟨.endsWith, ["id"], "INTEGER"⟩,
   ⟨.contains, ["uuid", "guid"], "VARCHAR(36)"⟩,
   ⟨.contains, ["date", "time"], "TIMESTAMP"⟩,
   ⟨.contains, ["price", "cost", "amount", "fee", "salary", "budget"], "DECIMAL(10,2)"⟩,
   ⟨.contains, ["is_", "has_", "_flag"], "BOOLEAN"⟩,
   ⟨.equals, ["active", "enabled", "status"], "BOOLEAN"⟩,
   ⟨.contains, ["description", "content", "text", "comment", "notes"], "TEXT"⟩,
   ⟨.contains, ["email"], "VARCHAR(255)"⟩,
   ⟨.contains, ["password", "hash"], "VARCHAR(255)"⟩,
   ⟨.contains, ["phone", "fax", "mobile"], "VARCHAR(20)"⟩,
   ⟨.contains, ["url", "link", "website"], "VARCHAR(512)"⟩,
   ⟨.contains, ["code", "key"], "VARCHAR(50)"⟩,
   ⟨.contains, ["count", "quantity", "number", "total", "age"], "INTEGER"⟩,
   ⟨.contains, ["percent", "rate", "ratio"], "DECIMAL(5,2)"⟩,
   ⟨.contains, ["image", "file", "avatar", "picture", "photo"], "VARCHAR(512)"⟩,
   ⟨.contains, ["json", "data"], "TEXT"⟩,
   ⟨.contains, ["ip"], "VARCHAR(45)"⟩,
   ⟨.contains, ["color"], "VARCHAR(20)"⟩,
   ⟨.contains, ["currency", "language"], "VARCHAR(10)"⟩]

/-- The type that a name suggests. -/
def inferType (name : String) : String :=
  let lowered := Text.lower name.toList
  match typeRules.find? (·.applies lowered) with
  | some rule => rule.type
  | none => defaultType

/-- The words in a table name that tell a lookup table. -/
def lookupKeywords : List String :=
  ["status", "type", "category", "state", "priority", "role", "permission", "gender", "country",
   "language"]

/-- The first of the keywords that a table name contains. -/
def lookupKeyword? (name : String) (keywords : List String) : Option String :=
  let lowered := Text.lower name.toList
  keywords.find? fun keyword => decide (keyword.toList <:+: lowered)

end Schemata
