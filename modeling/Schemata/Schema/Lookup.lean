import Schemata.Inference
import Schemata.Schema.Key

/-!
# Lookup tables

A lookup table holds a small, fixed set of values, such as states or roles. `Table.looksLikeLookup`
tells it by its name or by its size, provided that one of its columns holds names or codes.
-/

namespace Schemata

/-- The names of columns that hold the name of a value. -/
def valueNameColumns : List String := ["name", "title", "label", "value"]

/-- The names of columns that hold the code of a value. -/
def valueCodeColumns : List String := ["code", "key", "shortname", "abbreviation"]

/-- The columns that every table has. -/
def systemColumns : List String := defaultKeyName :: stampNames

/-- The number of other columns up to which a table is small. -/
def smallTableSize : Int := 3

namespace Table

/-- The name of the first column whose name, in lower case, is one of the given ones. -/
def columnAmong? (t : Table) (names : List String) : Option String :=
  (t.columns.map (·.name)).find? fun name => String.ofList (Text.lower name.toList) ∈ names

/-- The column that holds the names of the values. -/
def nameColumn? (t : Table) : Option String :=
  t.columnAmong? valueNameColumns

/-- The column that holds the codes of the values. -/
def codeColumn? (t : Table) : Option String :=
  t.columnAmong? valueCodeColumns

/-- Whether a table seems to be a lookup table: it has a key and a column for names or codes, and
its name contains a keyword or it has at most `small` columns of its own. -/
def looksLikeLookup (t : Table) (small : Int) (keywords : List String) : Bool :=
  !t.isJunctionTable && !t.keyColumns.isEmpty
    && (t.nameColumn?.isSome || t.codeColumn?.isSome)
    && ((lookupKeyword? t.name keywords).isSome
      || decide ((t.columns.countP fun c => c.name ∉ systemColumns : Int) ≤ small))

end Table

end Schemata
