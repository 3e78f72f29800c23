import Schemata.Proofs.Normalize.Entity
import Schemata.Proofs.Schema.Unique

/-!
# The columns of the tables built from entities

`BuiltColumns` tells the columns of the table for an entity by the attributes of the entity: which
names there are apart from those that every table has, and which of them belong to the key
(`Extraction.Entity.IsKey`). All key columns are unique at this point.
-/

namespace Schemata

namespace Extraction.Entity

/-- An attribute of the entity becomes a column of the name. -/
def HasAttribute (entity : Extraction.Entity) (column : String) : Prop :=
  ∃ a ∈ entity.attributes, columnName a.name = column

/-- The entity brings a column of the name: an attribute becomes one, or the entity has no attributes
and the name is that of a default column. -/
def Brings (entity : Extraction.Entity) (column : String) : Prop :=
  entity.HasAttribute column ∨ entity.attributes = [] ∧ column ∈ Column.defaults.map (·.name)

theorem brings_iff {entity : Extraction.Entity} {column : String}
    (h : column ∉ Column.defaults.map (·.name)) :
    entity.Brings column ↔ entity.HasAttribute column :=
  or_iff_left fun hdefault => h hdefault.2

/-- The names of the default columns are those of all tables and one more. -/
theorem notMem_systemColumns {column : String} (h : column ∉ Column.defaults.map (·.name)) :
    column ∉ systemColumns := by
  have hsub : ∀ column ∈ systemColumns, column ∈ Column.defaults.map (·.name) := by decide
  exact mt (hsub column) h

/-- The entity declares the column of a name a part of its key: the first of its attributes that
becomes a column of the name does so. -/
def DeclaresKey (entity : Extraction.Entity) (column : String) : Prop :=
  ∃ a, entity.attributes.find? (fun a => columnName a.name == column) = some a ∧
    a.isPrimaryKey = true

/-- The column of a name belongs to the key that the entity brings: it is declared so or, in an
entity that declares none, called `id`. -/
def IsKey (entity : Extraction.Entity) (column : String) : Prop :=
  entity.DeclaresKey column ∨ column = defaultKeyName ∧ ∀ other, ¬entity.DeclaresKey other

end Extraction.Entity

namespace Normalize

/-- The columns of a table that was built from an entity. -/
structure BuiltColumns (entity : Extraction.Entity) (t : Table) : Prop where
  keyNames : ∀ column, column ∈ t.keyNames ↔ entity.IsKey column
  isUnique : ∀ key ∈ t.keyColumns, key.isUnique = true
  hasColumn : ∀ column ∉ systemColumns, t.hasColumn column = true ↔ entity.Brings column
  stamps : ∀ name ∈ stampNames, t.hasColumn name = true

/-- The columns for the attributes of an entity, or the default ones. -/
theorem start_spec {t : Table} {entity : Extraction.Entity}
    (h : t.columns = if entity.attributes.isEmpty then Column.defaults
      else (columnsFor t.name entity.attributes).value) :
    (∀ column, column ∈ t.keyNames ↔
        entity.DeclaresKey column ∨ entity.attributes = [] ∧ column = defaultKeyName) ∧
      (∀ key ∈ t.keyColumns, key.isUnique = true) ∧
      ∀ column, t.hasColumn column = true ↔ entity.Brings column := by
  split at h
  · rename_i hempty
    rw [List.isEmpty_iff] at hempty
    have hkeys : t.keyColumns = [.defaultKey] := by
      rw [Table.keyColumns, h]
      rfl
    refine ⟨fun column => ?_, ?_, fun column => ?_⟩
    · simp [Table.keyNames, hkeys, Extraction.Entity.DeclaresKey, hempty, Column.defaultKey]
    · simp [hkeys, Column.defaultKey]
    · rw [← Table.mem_columnNames, Table.columnNames, h]
      simp [Extraction.Entity.Brings, Extraction.Entity.HasAttribute, hempty]
  · rename_i hne
    rw [List.isEmpty_iff] at hne
    refine ⟨fun column => ?_, fun key hkey => ?_, fun column => ?_⟩
    · have hdeclares := exists_columnsFor h (fun c => c.isPrimaryKey = true) column
      rw [or_iff_left fun h => hne h.1]
      refine Iff.trans ?_ hdeclares
      simp only [Table.keyNames, List.mem_map, Table.mem_keyColumns, and_assoc]
    · obtain ⟨hmem, hprimary⟩ := Table.mem_keyColumns.1 hkey
      obtain ⟨a, -, rfl⟩ :=
        (exists_columnsFor h (fun c => c = key) key.name).1 ⟨key, hmem, rfl, rfl⟩
      exact Bool.or_eq_true_iff.2 (.inr hprimary)
    · have hexists := exists_columnsFor h (fun _ => True) column
      simp only [true_and, and_true] at hexists
      rw [Table.hasColumn_iff, hexists, ← Option.isSome_iff_exists, List.find?_isSome]
      simp [Extraction.Entity.Brings, Extraction.Entity.HasAttribute, hne]

/-- **The columns of the table for an entity.** -/
theorem builtColumns_buildTable (taken : List String) (entity : Extraction.Entity) (index : ℕ) :
    BuiltColumns entity (buildTable taken entity index).value := by
  obtain ⟨t, -, hcolumns, hvalue⟩ := value_buildTable taken entity index
  obtain ⟨hkeys, hunique, hattributes⟩ := start_spec hcolumns
  have hcolumn : ∀ name, (buildTable taken entity index).value.hasColumn name = true ↔
      (t.withPrimaryKey.1.hasColumn name = true ∨ name = createdAtName) ∨ name = updatedAtName := by
    intro name
    rw [hvalue, Table.withStamps, Table.hasColumn_withStamp, Table.hasColumn_withStamp]
  have hkeyColumns : (buildTable taken entity index).value.keyColumns =
      t.withPrimaryKey.1.keyColumns := by
    rw [hvalue, Table.withStamps, Table.keyColumns_withStamp, Table.keyColumns_withStamp]
  -- the table starts without a key only if no attribute is declared one
  have hnone : entity.attributes = [] ∨ t.keyColumns = [] ↔ ∀ other, ¬entity.DeclaresKey other := by
    have hnil : t.keyColumns = [] ↔ ∀ name, name ∉ t.keyNames := by
      rw [← List.eq_nil_iff_forall_not_mem, ← not_iff_not]
      exact Table.keyNames_ne_nil.symm
    simp only [hnil, hkeys]
    by_cases hempty : entity.attributes = []
    · simp [hempty, Extraction.Entity.DeclaresKey]
    · simp [hempty]
  refine ⟨fun column => ?_, ?_, fun column hname => ?_, fun name hname => ?_⟩
  · have hkeyNames : (buildTable taken entity index).value.keyNames =
        t.withPrimaryKey.1.keyNames := congrArg (·.map (·.name)) hkeyColumns
    rw [hkeyNames, Table.mem_keyNames_withPrimaryKey, hkeys, Extraction.Entity.IsKey, ← hnone]
    tauto
  · rw [hkeyColumns]
    exact Table.isUnique_withPrimaryKey hunique
  · have hne : column ≠ createdAtName ∧ column ≠ updatedAtName ∧ column ≠ defaultKeyName := by
      refine ⟨?_, ?_, ?_⟩ <;> rintro rfl <;> exact hname (by decide)
    rw [hcolumn, or_iff_left hne.2.1, or_iff_left hne.1, Table.hasColumn_withPrimaryKey hne.2.2,
      hattributes column]
  · rw [hcolumn]
    rcases List.mem_cons.1 hname with rfl | hname
    · exact .inl (.inr rfl)
    · exact .inr (List.mem_singleton.1 hname)

end Normalize

end Schemata
