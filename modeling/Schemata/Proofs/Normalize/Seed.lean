import Schemata.Proofs.Normalize.Account
import Schemata.Proofs.Normalize.Diagram
import Schemata.Proofs.Normalize.Key
import Schemata.Proofs.Sql.Seed

/-!
# The values of the lookup tables of extractions

A column of a normalized table that is no reference and not added by the normalization goes back to
the first attribute of its name, or is a default column (`exists_attribute_normalize`). The columns
into which the values of a lookup table are put are of this kind, whence `seeds_normalize` tells
which of them are keys and which have a type for texts: just as the attributes say. An entity may
well number its rows by an attribute that is called like a code; then the codes are put into the key
of its table (`not_isCharacterType_states`).
-/

namespace Schemata

open Normalize
open Sql (Seed)

/-- If a name does not repeat, there is one column of it. -/
theorem Table.eq_of_count_le_one {t : Table} {c d : Column} (h : t.columnNames.count c.name ≤ 1)
    (hc : c ∈ t.columns) (hd : d ∈ t.columns) (hname : d.name = c.name) : d = c := by
  have hlength : (t.columns.filter (·.name == c.name)).length ≤ 1 := by
    rw [Table.columnNames, List.count, List.countP_map, List.countP_eq_length_filter] at h
    exact h
  have hmem : c ∈ t.columns.filter (·.name == c.name) := List.mem_filter.2 ⟨hc, by simp⟩
  have hmem' : d ∈ t.columns.filter (·.name == c.name) := List.mem_filter.2 ⟨hd, by simp [hname]⟩
  obtain ⟨only, honly⟩ :=
    List.length_eq_one_iff.1 (Nat.le_antisymm hlength (List.length_pos_of_mem hmem))
  rw [honly, List.mem_singleton] at hmem hmem'
  rw [hmem, hmem']

/-- If its name does not repeat, a column belongs to the key just if its name does. -/
theorem Table.isPrimaryKey_iff {t : Table} {c : Column} (h : t.columnNames.count c.name ≤ 1)
    (hc : c ∈ t.columns) : c.isPrimaryKey = true ↔ c.name ∈ t.keyNames := by
  refine ⟨fun hkey => List.mem_map_of_mem (Table.mem_keyColumns.2 ⟨hc, hkey⟩), fun hname => ?_⟩
  obtain ⟨d, hd, hname⟩ := List.mem_map.1 hname
  obtain ⟨hd, hkey⟩ := Table.mem_keyColumns.1 hd
  exact Table.eq_of_count_le_one h hc hd hname ▸ hkey

namespace Extraction

variable {e : Extraction} {heading : Heading} {small : ℤ} {now : Moment} {i : ℕ} {t : Table}
  {entity : Extraction.Entity} {c : Column}

/-! ## Columns and attributes -/

/-- The table for an entity without attributes carries the default columns. -/
theorem exists_default_normalize
    (ht : (e.normalize heading small now).schema.tables[i]? = some t)
    (hentity : e.entities[i]? = some entity) (hempty : entity.attributes = []) {d : Column}
    (hd : d ∈ Column.defaults) (hapart : IsApart (e.built.map (·.name)) d.name) :
    ∃ c ∈ t.columns, d.Retains c := by
  obtain ⟨taken, index, hcarries⟩ := e.exists_carries_buildTable ht hentity
  obtain ⟨u, -, hcolumns, hvalue⟩ := value_buildTable taken entity index
  have hdefaults : u.columns = Column.defaults := by
    rw [hcolumns, hempty]
    rfl
  have hdistinct : u.Distinct := by
    rw [Table.Distinct, hdefaults]
    decide
  have hbuilt : u.Carries (IsApart (e.built.map (·.name))) (buildTable taken entity index).value :=
    hvalue ▸ Table.carries_withStamps hdistinct
  exact (hbuilt.trans hcarries).retains d (hdefaults ▸ hd) hapart

/-- The names of the columns of a table are those that its entity brings, as far as they are not
called like references. -/
theorem brings_of_hasColumn
    (ht : (e.normalize heading small now).schema.tables[i]? = some t)
    (hentity : e.entities[i]? = some entity) {column : String}
    (hapart : IsApart (e.built.map (·.name)) column) (hpartial : column ≠ partialKeyName)
    (hsystem : column ∉ systemColumns) (h : t.hasColumn column = true) : entity.Brings column := by
  obtain ⟨p, w, hstages, rfl⟩ := exists_stages ht hentity
  obtain ⟨owners, hrun, -⟩ := hstages.owners
  have hforeign : ¬w.HasForeignKey column := by
    rw [← Table.hasForeignKey_withContiguousKey]
    rintro ⟨c, hc, hyes, rfl⟩
    obtain ⟨hlinked, hconsistent⟩ := e.ordered_spec.1
    have hordered : w.withContiguousKey ∈ e.ordered := List.mem_map_of_mem hstages.identified
    rw [← e.names_ordered] at hapart
    rw [hlinked.isForeignKey_of_isApart hconsistent hordered hc hapart] at hyes
    contradiction
  rw [← Table.mem_columnNames, columnNames_finish,
    (Table.perm_columnNames_withContiguousKey w).mem_iff, Table.mem_columnNames] at h
  rcases (hrun.namesKept hstages.distinct).origin column h with h | h | ⟨h, -⟩
  · refine ((hstages.hasColumn column hsystem).1 h).resolve_right fun h => hforeign ?_
    exact hrun.hasForeignKey.2 (.inl h)
  · exact absurd h hforeign
  · exact absurd h hpartial

/-- **A column that is no reference goes back to an attribute**, unless the normalization has added
it. -/
theorem exists_attribute_normalize
    (ht : (e.normalize heading small now).schema.tables[i]? = some t)
    (hentity : e.entities[i]? = some entity) (hc : c ∈ t.columns)
    (hapart : IsApart (e.built.map (·.name)) c.name) (hpartial : c.name ≠ partialKeyName)
    (hsystem : c.name ∉ systemColumns) :
    (∃ a, entity.attributes.find? (columnName ·.name == c.name) = some a ∧ a.column.Retains c) ∨
      entity.attributes = [] ∧ ∃ d ∈ Column.defaults, d.Retains c := by
  have honly : ∀ d ∈ t.columns, d.name = c.name → d = c := fun d hd =>
    Table.eq_of_count_le_one (count_columnNames_normalize (List.mem_of_getElem? ht) hpartial) hc hd
  cases hfind : entity.attributes.find? (columnName ·.name == c.name) with
  | some a =>
    obtain ⟨d, hd, hretains, -⟩ := (exists_column_normalize e ht hentity hfind).2 hapart
    have hname : a.column.name = c.name := by
      rw [name_column]
      simpa using List.find?_some hfind
    exact .inl ⟨a, rfl, honly d hd (hretains.name_eq.trans hname) ▸ hretains⟩
  | none =>
    have hbrings := brings_of_hasColumn ht hentity hapart hpartial hsystem
      (Table.hasColumn_iff.2 ⟨c, hc, rfl⟩)
    obtain ⟨hempty, hname⟩ := hbrings.resolve_left fun ⟨a, ha, hname⟩ =>
      List.find?_eq_none.1 hfind a ha (by simpa using hname)
    obtain ⟨d, hd, hname⟩ := List.mem_map.1 hname
    obtain ⟨d', hd', hretains⟩ := exists_default_normalize ht hentity hempty hd (hname ▸ hapart)
    exact .inr ⟨hempty, d, hd, honly d' hd' (hretains.name_eq.trans hname) ▸ hretains⟩

/-- Where the key is a single column, it is the one that the entity brings. -/
theorem mem_keyNames_of_single
    (ht : (e.normalize heading small now).schema.tables[i]? = some t)
    (hentity : e.entities[i]? = some entity) (hsingle : t.keyColumns.length = 1) (name : String) :
    name ∈ t.keyNames ↔ entity.IsKey name := by
  obtain ⟨p, w, hstages, rfl⟩ := exists_stages ht hentity
  obtain ⟨owners, hrun, -⟩ := hstages.owners
  have hsame := sameKeys_finish small e.ordered w.withContiguousKey
  have hone : w.keyColumns.length = 1 := by
    rwa [hsame.length_keyColumns, Table.keyColumns_withContiguousKey, List.length_map] at hsingle
  have hnone : owners = [] := by
    by_contra hne
    have hmany := hrun.one_lt_length hne
    omega
  subst hnone
  obtain rfl : w = p := by
    cases hrun
    rfl
  have hnames : w.withContiguousKey.keyNames = w.keyNames := by
    rw [Table.keyNames, Table.keyColumns_withContiguousKey, List.map_map, Table.keyNames]
    exact List.map_congr_left fun c _ => Table.settledKey_name w c
  rw [hsame.keyNames, hnames, hstages.keyNames]

/-! ## The columns that get values -/

/-- The type that an attribute states, blanks around it removed, which is empty if it states none. -/
def Attribute.statedType (a : Attribute) : String :=
  String.ofList (Text.strip (a.dataType.getD "").toList)

end Extraction

/-- The base names of types for texts. -/
def characterTypes : List String :=
  ["VARCHAR", "CHAR", "STRING", "TEXT", "TINYTEXT", "MEDIUMTEXT", "LONGTEXT"]

/-- The type is one for texts. -/
def IsCharacterType (dataType : String) : Prop :=
  (DataType.ofString dataType).base ∈ characterTypes

instance (dataType : String) : Decidable (IsCharacterType dataType) :=
  inferInstanceAs (Decidable ((DataType.ofString dataType).base ∈ characterTypes))

/-- The names of columns that may get values. -/
def valueColumns : List String :=
  valueNameColumns ++ valueCodeColumns

/-- Columns that may get values are not called as a normalization calls its own, and their names
suggest types for texts. -/
theorem valueColumns_spec : ∀ name ∈ valueColumns, name ≠ partialKeyName ∧ name ∉ systemColumns ∧
    name.toList.getLast? ≠ some 'd' ∧ IsCharacterType (inferType name) := by
  decide +kernel

theorem isApart_of_mem_valueColumns {name : String} (h : name ∈ valueColumns)
    (names : List String) : IsApart names name := by
  rintro table - rfl
  refine (valueColumns_spec _ h).2.2.1 ?_
  rw [foreignKeyName, String.toList_append]
  exact List.getLast?_append_of_ne_nil _ (by decide)

/-- The type of the column for an attribute whose name suggests a type for texts. -/
theorem isCharacterType_column {a : Extraction.Attribute} (h : columnName a.name ∈ valueColumns) :
    IsCharacterType a.column.dataType ↔ a.statedType = "" ∨ IsCharacterType a.statedType := by
  have htype : a.column.dataType = Extraction.typeFor a.dataType (columnName a.name) := by
    rw [Extraction.Attribute.column]
  rw [htype, Extraction.typeFor]
  split
  · rename_i hempty
    exact iff_of_true (valueColumns_spec _ h).2.2.2 (.inl (String.isEmpty_iff.1 hempty))
  · rename_i hstated
    exact (or_iff_right fun hempty => hstated (String.isEmpty_iff.2 hempty)).symm

/-- **The values of the lookup tables of an extraction** fit their tables as far as names go. The
columns that get them are no references; one is a key just if its entity declares it so, and it has
a type for texts unless its attribute states another one. -/
theorem seeds_normalize {e : Extraction} {heading : Heading} {small : ℤ} {now : Moment} {i : ℕ}
    {t : Table} {entity : Extraction.Entity}
    (ht : (e.normalize heading small now).schema.tables[i]? = some t)
    (hentity : e.entities[i]? = some entity) {seed : Seed} {notices : List Notice}
    (h : Seed.of t = (some seed, notices)) :
    seed.Fits t ∧ ∀ c ∈ t.columns, c.name ∈ seed.columns →
      c.isForeignKey = false ∧
      (c.isPrimaryKey = true ↔ entity.DeclaresKey c.name) ∧
      (IsCharacterType c.dataType ↔
        ∀ a, entity.attributes.find? (columnName ·.name == c.name) = some a →
          a.statedType = "" ∨ IsCharacterType a.statedType) := by
  have hmem := List.mem_of_getElem? ht
  obtain ⟨rfl, -, hfree⟩ := Seed.of_eq_some h
  refine ⟨Seed.of_fits h, fun c hc htarget => ?_⟩
  have hvalue : c.name ∈ valueColumns := by
    have hplain : Plain c.name :=
      e.hasPlainNames_normalize heading small now t hmem c.name (Table.hasColumn_iff.2 ⟨c, hc, rfl⟩)
    have hlower := (Seed.hasColumn_of_mem_targets htarget).2
    rwa [Text.lower_of_isSnake hplain, String.ofList_toList] at hlower
  obtain ⟨hpartial, hsystem, -, -⟩ := valueColumns_spec _ hvalue
  have hapart := isApart_of_mem_valueColumns hvalue
  have hsound := tablesAndRelationships_spec small e
  refine ⟨hsound.linked.isForeignKey_of_isApart hsound.consistent hmem hc (hapart _), ?_, ?_⟩
  · obtain ⟨⟨key, hkey, hgenerated⟩, -⟩ := Seed.obstacle?_eq_none hfree
    obtain ⟨hkeyMem, hprimary⟩ := Table.mem_keyColumns.1 hkey
    obtain ⟨hone, -⟩ := Table.isGeneratedKey_of_isPrimaryKey hkey hgenerated hkeyMem hprimary
    have hsingle : t.keyColumns.length = 1 := by rw [hone, List.length_singleton]
    rw [Table.isPrimaryKey_iff (count_columnNames_normalize hmem hpartial) hc,
      Extraction.mem_keyNames_of_single ht hentity hsingle, Extraction.Entity.IsKey, or_iff_left]
    exact fun h => hsystem (h.1 ▸ List.mem_cons_self)
  · rcases Extraction.exists_attribute_normalize ht hentity hc (hapart _) hpartial hsystem with
      ⟨a, ha, hretains⟩ | ⟨hempty, d, hd, hretains⟩
    · have hname : columnName a.name = c.name := by simpa using List.find?_some ha
      rw [hretains.dataType_eq, isCharacterType_column (hname ▸ hvalue), ha]
      simp
    · have hdefaults : ∀ d ∈ Column.defaults, d.name ∈ valueColumns →
          IsCharacterType d.dataType := by
        decide +kernel
      refine iff_of_true (hretains.dataType_eq ▸ hdefaults d hd (hretains.name_eq ▸ hvalue)) ?_
      simp [hempty]

/-- The states of an order, with what they mean. -/
def orderStates : Extraction where
  entities :=
    [{ name := some "Order Status"
       attributes :=
         [{ name := some "id", dataType := some "INTEGER", isPrimaryKey := true },
          { name := some "meaning" }, { name := some "Code" },
          { name := some "name", dataType := some "VARCHAR(40)" }] }]

theorem seeds_orderStates :
    let s := (orderStates.normalize {} 3 { year := 2024, month := 1, day := 1 }).schema
    ∃ t, s.tables[0]? = some t ∧ ∃ seed notices, Seed.of t = (some seed, notices) ∧
      seed.columns = ["name", "code"] ∧ seed.Fits t ∧
        ∀ c ∈ t.columns, c.name ∈ seed.columns →
          c.isPrimaryKey = false ∧ IsCharacterType c.dataType := by
  intro s
  have htargets : (s.tables[0]?.bind fun t => (Seed.of t).1.map (·.columns)) =
      some ["name", "code"] := by
    decide +kernel
  obtain ⟨t, ht, hcolumns⟩ := Option.bind_eq_some_iff.1 htargets
  obtain ⟨seed, hseed, hcolumns : seed.columns = _⟩ := Option.map_eq_some_iff.1 hcolumns
  obtain ⟨entity, hentity, hattributes⟩ : ∃ entity ∈ orderStates.entities[0]?,
      ∀ column ∈ ["name", "code"], ∀ a ∈ entity.attributes.find? (columnName ·.name == column),
        a.isPrimaryKey = false ∧ (a.statedType = "" ∨ IsCharacterType a.statedType) := by
    decide +kernel
  have hof : Seed.of t = (some seed, (Seed.of t).2) := Prod.ext hseed rfl
  obtain ⟨hfits, hspec⟩ := seeds_normalize ht hentity hof
  refine ⟨t, ht, seed, _, hof, hcolumns, hfits, fun c hc hname => ?_⟩
  obtain ⟨-, hkey, htype⟩ := hspec c hc hname
  rw [hcolumns] at hname
  refine ⟨?_, htype.2 fun a ha => (hattributes c.name hname a ha).2⟩
  rw [Bool.eq_false_iff, ne_eq, hkey]
  rintro ⟨a, ha, hdeclared⟩
  exact Bool.false_ne_true ((hattributes c.name hname a ha).1.symm.trans hdeclared)

/-- States that are numbered by their code. -/
def states : Extraction where
  entities :=
    [{ name := some "Status"
       attributes := [{ name := some "code", dataType := some "INTEGER", isPrimaryKey := true }] }]

/-- The codes of the states are put into the key, which holds numbers. -/
theorem not_isCharacterType_states :
    let s := (states.normalize {} 3 { year := 2024, month := 1, day := 1 }).schema
    ∃ t ∈ s.tables, ∃ seed ∈ (Seed.of t).1, seed.rows = [["ACTIVE"], ["INACTIVE"], ["PENDING"]] ∧
      ∃ c ∈ t.columns, c.name ∈ seed.columns ∧ c.isPrimaryKey = true ∧
        ¬IsCharacterType c.dataType := by
  decide +kernel

end Schemata
