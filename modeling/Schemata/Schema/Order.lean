import Schemata.Schema.Basic

/-!
# The order of tables

`CreationOrder.of` puts tables into an order in which each one comes after the tables it refers to.
It goes round by round: every round takes the tables, in their given order, whose references all
lead to tables of earlier rounds. Tables on a cycle of references, and those behind one, follow at
the end in their given order; their references to tables that come later are deferred.
-/

namespace Schemata

/-- An order of tables. -/
structure CreationOrder where
  /-- The tables in order. -/
  tables : List Table
  /-- The references, as names of table and column, that lead to a later table. -/
  deferred : List (String × String)
deriving DecidableEq, Repr

namespace CreationOrder

/-- The names of the other tables among `names` to which a table refers. -/
def dependencies (names : List String) (t : Table) : List String :=
  (t.foreignKeys.map (·.2.table)).filter fun name => name ∈ names && name != t.name

/-- The names on which a name depends: those of the last table of the name. -/
def dependsOn (tables : List Table) (name : String) : List String :=
  match tables.reverse.find? (·.name == name) with
  | some t => dependencies (tables.map (·.name)) t
  | none => []

/-- Whether all tables on which a table depends have been placed. -/
def isReady (tables : List Table) (placed : List String) (t : Table) : Bool :=
  (dependsOn tables t.name).all (· ∈ placed)

/-- The remaining tables that can be placed next. -/
def readyTables (tables placed remaining : List Table) : List Table :=
  remaining.filter (isReady tables (placed.map (·.name)))

/-- The remaining tables that share no name with a placed one. -/
def unplaced (placed remaining : List Table) : List Table :=
  remaining.filter fun t => t.name ∉ placed.map (·.name)

theorem length_unplaced_lt {tables placed remaining : List Table}
    (h : readyTables tables placed remaining ≠ []) :
    (unplaced (placed ++ readyTables tables placed remaining) remaining).length
      < remaining.length := by
  obtain ⟨t, ht⟩ := List.exists_mem_of_ne_nil _ h
  refine List.length_filter_lt_length_iff_exists.2 ⟨t, (List.mem_filter.1 ht).1, ?_⟩
  simpa using fun _ => ⟨t, ht, rfl⟩

/-- The tables that can be placed one round after another, and those that remain. -/
def rounds (tables placed remaining : List Table) : List Table × List Table :=
  if _h : readyTables tables placed remaining = [] then (placed, remaining)
  else
    let placed' := placed ++ readyTables tables placed remaining
    rounds tables placed' (unplaced placed' remaining)
termination_by remaining.length
decreasing_by exact length_unplaced_lt _h

/-- The references of a table to others that have not been placed. -/
def forwardReferences (placed : List String) (t : Table) : List (String × String) :=
  (t.foreignKeys.filter fun (_, reference) =>
    reference.table ≠ t.name ∧ reference.table ∉ placed).map fun (c, _) => (t.name, c.name)

/-- The references that lead to later tables, `remaining` being placed one by one. -/
def deferredOf (placed : List String) : List Table → List (String × String)
  | [] => []
  | t :: ts => forwardReferences placed t ++ deferredOf (placed ++ [t.name]) ts

/-- The order of tables. -/
def of (tables : List Table) : CreationOrder :=
  let (placed, remaining) := rounds tables [] tables
  { tables := placed ++ remaining
    deferred := (deferredOf (placed.map (·.name)) remaining).eraseDups }

end CreationOrder

/-- The tables in an order in which they can be dropped: each before the tables it refers to. -/
def dropOrder (tables : List Table) : List Table :=
  (CreationOrder.of tables).tables.reverse

end Schemata
