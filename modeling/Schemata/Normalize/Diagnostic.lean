/-!
# Diagnostics

Whatever is added to an extraction, changed in it or left out of it on the way to a schema is told
by a `Diagnostic`. The ones about losses are warnings, the others are for information.
-/

namespace Schemata

/-- Something that was decided on the way from an extraction to a schema. -/
inductive Diagnostic where
  /-- The entity at an index has no usable name. -/
  | unnamedTable (index : Nat)
  /-- A table was renamed, since its name was taken. -/
  | renamedTable (table wanted : String)
  /-- A table has no attributes and got columns by default. -/
  | defaultColumns (table : String)
  /-- The attribute at an index has no usable name. -/
  | unnamedColumn (table : String) (index : Nat)
  /-- An attribute was left out, since its name is taken. -/
  | droppedColumn (table column : String)
  /-- A table got a key column. -/
  | keyAdded (table : String)
  /-- A column was made the key. -/
  | keyPromoted (table : String)
  /-- An attribute that should refer to a table refers to none. -/
  | unresolvedColumn (table column : String)
  /-- A relationship without source or target was left out. -/
  | missingEnd (relationship : Option String)
  /-- A relationship was left out, since there is no table for one of its ends. -/
  | unresolvedEnd (relationship : Option String) (source target : String)
      (sourceFound targetFound : Bool)
  /-- The kind of a relationship is not known. -/
  | unknownKind (source target kind : String)
  /-- A table cannot be identified through itself. -/
  | selfIdentifying (table : String)
  /-- A table is identified through another. -/
  | weakEntity (table owner : String)
  /-- A table got a column that completes its key. -/
  | partialKeyAdded (table : String)
  /-- A reference to a table whose key has several columns was moved to another of them. -/
  | retargeted (table column target key : String)
  /-- A table was recognised as a lookup table. -/
  | lookupDetected (table : String)
deriving DecidableEq, Repr

namespace Diagnostic

/-- Whether something was lost or doubtful. -/
def isWarning : Diagnostic → Bool
  | unnamedTable _ => true
  | renamedTable .. => true
  | defaultColumns _ => false
  | unnamedColumn .. => true
  | droppedColumn .. => true
  | keyAdded _ => false
  | keyPromoted _ => false
  | unresolvedColumn .. => true
  | missingEnd _ => true
  | unresolvedEnd .. => true
  | unknownKind .. => true
  | selfIdentifying _ => true
  | weakEntity .. => false
  | partialKeyAdded _ => false
  | retargeted .. => false
  | lookupDetected _ => false

/-- The word for the level of a diagnostic. -/
def level (d : Diagnostic) : String :=
  if d.isWarning then "warning" else "info"

/-- A short word for the kind of diagnostic. -/
def code : Diagnostic → String
  | unnamedTable _ => "UNNAMED_TABLE"
  | renamedTable .. => "DUPLICATE_TABLE"
  | defaultColumns _ => "DEFAULT_COLUMNS"
  | unnamedColumn .. => "UNNAMED_COLUMN"
  | droppedColumn .. => "DUPLICATE_COLUMN"
  | keyAdded _ => "PK_ADDED"
  | keyPromoted _ => "PK_PROMOTED"
  | unresolvedColumn .. => "FK_UNRESOLVED"
  | missingEnd _ => "REL_MISSING_ENDPOINT"
  | unresolvedEnd .. => "REL_UNRESOLVED"
  | unknownKind .. => "REL_TYPE_DEFAULTED"
  | selfIdentifying _ => "WEAK_ENTITY"
  | weakEntity .. => "WEAK_ENTITY"
  | partialKeyAdded _ => "PARTIAL_KEY_ADDED"
  | retargeted .. => "FK_RETARGETED"
  | lookupDetected _ => "LOOKUP_DETECTED"

/-- A label that is not empty. -/
def label? (label : Option String) : Option String :=
  label.filter (!·.isEmpty)

/-- Where the decision was taken. -/
def location : Diagnostic → String
  | unnamedTable index => s!"entities[{index}]"
  | renamedTable table _ => table
  | defaultColumns table => table
  | unnamedColumn table index => s!"{table}[{index}]"
  | droppedColumn table column => s!"{table}.{column}"
  | keyAdded table => table
  | keyPromoted table => table
  | unresolvedColumn table column => s!"{table}.{column}"
  | missingEnd relationship => (label? relationship).getD "relationship"
  | unresolvedEnd relationship source target _ _ =>
    (label? relationship).getD (source ++ "->" ++ target)
  | unknownKind source target _ => source ++ "->" ++ target
  | selfIdentifying table => table
  | weakEntity table _ => table
  | partialKeyAdded table => table
  | retargeted table column _ _ => s!"{table}.{column}"
  | lookupDetected table => table

/-- The word for an answer to a question. -/
def answer (b : Bool) : String :=
  if b then "True" else "False"

/-- The decision in a sentence. -/
def message : Diagnostic → String
  | unnamedTable index => s!"Entity #{index} has no usable name; using 'unnamed_table'"
  | renamedTable table wanted => s!"Table name '{wanted}' already used; renamed to '{table}'"
  | defaultColumns table => s!"{table}: no attributes supplied; using default columns"
  | unnamedColumn table index =>
    s!"{table}: attribute #{index} has no name; using 'unnamed_column'"
  | droppedColumn table column => s!"{table}: duplicate column '{column}' dropped"
  | keyAdded table => s!"{table}: added primary key 'id'"
  | keyPromoted table => s!"{table}: promoted existing 'id' column to primary key"
  | unresolvedColumn table column =>
    s!"{table}.{column}: foreign key target not found; treated as a plain column"
  | missingEnd relationship =>
    "Relationship '" ++ (label? relationship).getD ""
      ++ "' is missing its source or target entity; dropped"
  | unresolvedEnd _ source target sourceFound targetFound =>
    s!"Relationship {source} -> {target} refers to missing tables (source found: "
      ++ s!"{answer sourceFound}, target found: {answer targetFound}); dropped"
  | unknownKind _ _ kind => s!"Unknown relationship type '{kind}'; using ONE_TO_MANY"
  | selfIdentifying table => s!"{table}: self-referencing identifying relationship ignored"
  | weakEntity table owner => s!"{table}: weak entity identified by {owner}"
  | partialKeyAdded table => s!"{table}: added 'partial_id' to complete the composite key"
  | retargeted table column target key =>
    s!"{table}.{column}: now references {target}.{key} ({target} has a composite key)"
  | lookupDetected table => s!"{table}: detected as lookup table"

end Diagnostic

/-! ## Values with diagnostics -/

/-- A value and what was decided on the way to it. -/
structure Noted (α : Type) where
  /-- The value. -/
  value : α
  /-- The decisions, in order. -/
  notes : List Diagnostic

namespace Noted

variable {α β σ : Type}

instance : Monad Noted where
  pure a := ⟨a, []⟩
  bind x f := ⟨(f x.value).value, x.notes ++ (f x.value).notes⟩

/-- Tells a decision. -/
def note (d : Diagnostic) : Noted Unit := ⟨(), [d]⟩

/-- Tells a decision if a condition holds. -/
def noteIf (condition : Bool) (d : Diagnostic) : Noted Unit := ⟨(), if condition then [d] else []⟩

@[simp] theorem value_pure (a : α) : (pure a : Noted α).value = a := rfl

@[simp] theorem notes_pure (a : α) : (pure a : Noted α).notes = [] := rfl

@[simp] theorem value_bind (x : Noted α) (f : α → Noted β) :
    (x >>= f).value = (f x.value).value := rfl

@[simp] theorem notes_bind (x : Noted α) (f : α → Noted β) :
    (x >>= f).notes = x.notes ++ (f x.value).notes := rfl

@[simp] theorem notes_note (d : Diagnostic) : (note d).notes = [d] := rfl

@[simp] theorem notes_noteIf (b : Bool) (d : Diagnostic) :
    (noteIf b d).notes = if b then [d] else [] := rfl

/-- The values of a list, one after another. -/
def each (f : α → Noted β) : List α → Noted (List β)
  | [] => ⟨[], []⟩
  | a :: as =>
    let first := f a
    let rest := each f as
    ⟨first.value :: rest.value, first.notes ++ rest.notes⟩

@[simp] theorem value_each (f : α → Noted β) (as : List α) :
    (each f as).value = as.map fun a => (f a).value := by
  induction as with
  | nil => rfl
  | cons a as ih => simp [each, ih]

@[simp] theorem notes_each (f : α → Noted β) (as : List α) :
    (each f as).notes = as.flatMap fun a => (f a).notes := by
  induction as with
  | nil => rfl
  | cons a as ih => simp [each, ih]

/-- Goes through a list with a state. -/
def fold (f : σ → α → Noted σ) (s : σ) : List α → Noted σ
  | [] => ⟨s, []⟩
  | a :: as =>
    let step := f s a
    let rest := fold f step.value as
    ⟨rest.value, step.notes ++ rest.notes⟩

@[simp] theorem value_fold (f : σ → α → Noted σ) (s : σ) (as : List α) :
    (fold f s as).value = as.foldl (fun s a => (f s a).value) s := by
  induction as generalizing s with
  | nil => rfl
  | cons a as ih => simp [fold, ih]

end Noted

end Schemata
