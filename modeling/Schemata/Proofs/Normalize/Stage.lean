import Schemata.Normalize.Basic
import Schemata.Proofs.Normalize.Attribute
import Schemata.Proofs.Normalize.Run

/-!
# The stages of a normalization

The tables of a normalized extraction are built from its entities (`Extraction.built`), get the
references that are declared (`Extraction.resolved`), the foreign keys of the relationships
(`Extraction.placed`) and the owners through which they are identified (`Extraction.identified`).
Then their keys are put in front (`Extraction.ordered`), references are moved and lookup tables
marked (`Normalize.finish`).

Each stage changes the tables one by one. `exists_stages` follows a table of the schema back to its
entity, and says what the stages did to its names and its key.
-/

namespace Schemata

open Normalize

namespace Extraction

/-- The tables built from the entities. -/
def built (e : Extraction) : List Table :=
  (buildTables e.entities).value

/-- The tables with the references that are declared. -/
def resolved (e : Extraction) : List Table :=
  (resolveDeclared e.built).value

/-- The relationships that are kept. -/
def kept (e : Extraction) : List Schemata.Relationship :=
  (placeAll e.resolved e.relationships).value.2

/-- The tables with the foreign keys of the relationships. -/
def placed (e : Extraction) : List Table :=
  (placeAll e.resolved e.relationships).value.1

/-- The tables with the owners through which they are identified. -/
def identified (e : Extraction) : List Table :=
  (identifyAll e.placed e.kept).value

/-- The tables with their keys in front. -/
def ordered (e : Extraction) : List Table :=
  e.identified.map (·.withContiguousKey)

end Extraction

namespace Normalize

/-- A table after its references have been moved and its kind has been recognised. -/
def finish (small : ℤ) (tables : List Table) (t : Table) : Table :=
  (detectLookup small (markUnique tables (moved tables t))).value

/-- The column of a name is the one that references to the table have been moved to. -/
def IsMarked (tables : List Table) (t : Table) (name : String) : Prop :=
  isReferenced tables t.name = true ∧ ∃ key, ownTarget? tables t.name = some key ∧ key.name = name

/-- What becomes of a column `c` of a table: its reference has been moved, and it is unique if
references have been moved to it. -/
structure Finished (tables : List Table) (t : Table) (c d : Column) : Prop where
  name_eq : d.name = c.name
  isPrimaryKey_eq : d.isPrimaryKey = c.isPrimaryKey
  isForeignKey_eq : d.isForeignKey = c.isForeignKey
  isNullable_eq : d.isNullable = c.isNullable
  dataType_eq : d.dataType = (retargetColumn tables t.name c).value.dataType
  references_eq : d.references = (retargetColumn tables t.name c).value.references
  defaultValue_eq : d.defaultValue = c.defaultValue
  isUnique_iff : d.isUnique = true ↔ c.isUnique = true ∨ IsMarked tables t c.name

/-- Moving a reference changes nothing of a column but its type and its reference. -/
theorem retargetColumn_keeps (tables : List Table) (table : String) (c : Column) :
    (retargetColumn tables table c).value.name = c.name ∧
      (retargetColumn tables table c).value.isPrimaryKey = c.isPrimaryKey ∧
      (retargetColumn tables table c).value.isForeignKey = c.isForeignKey ∧
      (retargetColumn tables table c).value.isNullable = c.isNullable ∧
      (retargetColumn tables table c).value.isUnique = c.isUnique := by
  rcases value_retargetColumn tables table c with ⟨heq, -⟩ | ⟨r, key, -, -, heq⟩ <;> rw [heq] <;>
    exact ⟨rfl, rfl, rfl, rfl, rfl⟩

theorem defaultValue_retargetColumn (tables : List Table) (table : String) (c : Column) :
    (retargetColumn tables table c).value.defaultValue = c.defaultValue := by
  rcases value_retargetColumn tables table c with ⟨heq, -⟩ | ⟨r, key, -, -, heq⟩ <;> rw [heq]

/-- A column that is no reference stays as it is. -/
theorem retargetColumn_of_plain {tables : List Table} {table : String} {c : Column}
    (hconsistent : c.IsConsistent) (hplain : c.isForeignKey = false) :
    (retargetColumn tables table c).value = c := by
  have hnone : c.references = none := by
    rw [Column.IsConsistent, hplain] at hconsistent
    simpa using hconsistent.symm
  rw [retargetColumn, hnone]
  rfl

theorem finished_of_isUnique {tables : List Table} {t : Table} {c : Column} {unique : Bool}
    (hunique : unique = true ↔ c.isUnique = true ∨ IsMarked tables t c.name) :
    Finished tables t c
      { (retargetColumn tables t.name c).value with isUnique := unique } := by
  obtain ⟨hname, hprimary, hforeign, hnullable, -⟩ := retargetColumn_keeps tables t.name c
  exact ⟨hname, hprimary, hforeign, hnullable, rfl, rfl,
    defaultValue_retargetColumn tables t.name c, hunique⟩

/-- Moving a reference does not change the table that it leads to. -/
theorem table_retargetColumn (tables : List Table) (table : String) (c : Column) :
    (retargetColumn tables table c).value.references.map (·.table) =
      c.references.map (·.table) := by
  rcases value_retargetColumn tables table c with ⟨heq, -⟩ | ⟨r, key, hr, -, heq⟩ <;> rw [heq]
  simp only [hr, Option.map_some]

theorem Finished.isConsistent {tables : List Table} {t : Table} {c d : Column}
    (h : Finished tables t c d) (hc : c.IsConsistent) : d.IsConsistent := by
  have htable := congrArg Option.isSome (table_retargetColumn tables t.name c)
  rw [Option.isSome_map, Option.isSome_map] at htable
  rw [Column.IsConsistent, h.isForeignKey_eq, h.references_eq, htable]
  exact hc

/-- **The last stages change a table column by column.** -/
theorem exists_finished (small : ℤ) (tables : List Table) (t : Table) :
    ∃ f : Column → Column, (finish small tables t).columns = t.columns.map f ∧
      ∀ c, Finished tables t c (f c) := by
  have hlookup : ∀ u, (detectLookup small u).value.columns = u.columns := by
    intro u
    unfold detectLookup
    split <;> rfl
  have hplain : ∀ c, ¬IsMarked tables t c.name →
      Finished tables t c (retargetColumn tables t.name c).value := fun c hno =>
    finished_of_isUnique (by rw [(retargetColumn_keeps tables t.name c).2.2.2.2, or_iff_left hno])
  rw [finish, hlookup, markUnique]
  cases htarget : ownTarget? tables (moved tables t).name with
  | none =>
    refine ⟨_, rfl, fun c => hplain c ?_⟩
    rintro ⟨-, key, hkey, -⟩
    exact absurd (htarget.symm.trans hkey) (by simp)
  | some key =>
    dsimp only
    split
    · rename_i hreferenced
      refine ⟨_, List.map_map, fun c => ?_⟩
      have hmarked : IsMarked tables t c.name ↔ c.name = key.name := by
        constructor
        · rintro ⟨-, key', hkey, hname⟩
          rw [← hname, Option.some.inj (htarget.symm.trans hkey)]
        · exact fun hname => ⟨hreferenced, key, htarget, hname.symm⟩
      rw [Function.comp_apply]
      split
      · rename_i hname
        rw [beq_iff_eq, (retargetColumn_keeps tables t.name c).1] at hname
        exact finished_of_isUnique (iff_of_true rfl (.inr (hmarked.2 hname)))
      · rename_i hname
        rw [beq_iff_eq, (retargetColumn_keeps tables t.name c).1] at hname
        exact hplain c fun h => hname (hmarked.1 h)
    · rename_i hno
      exact ⟨_, rfl, fun c => hplain c fun h => hno h.1⟩

theorem sameKeys_finish (small : ℤ) (tables : List Table) (t : Table) :
    Table.SameKeys t (finish small tables t) := by
  obtain ⟨f, hcolumns, hf⟩ := exists_finished small tables t
  refine ⟨?_, f, hcolumns, fun c _ => ⟨(hf c).name_eq, (hf c).isPrimaryKey_eq,
    (hf c).isForeignKey_eq⟩⟩
  rw [finish, (alike_detectLookup small _).name_eq, (alike_markUnique tables _).name_eq]
  rfl

theorem grows_finish (small : ℤ) {tables : List Table} (h : Linked tables) {t : Table}
    (ht : t ∈ tables) : Table.Grows tables t (finish small tables t) := by
  obtain ⟨f, hcolumns, hf⟩ := exists_finished small tables t
  refine .of_sameKeys (sameKeys_finish small tables t) (fun hconsistent d hd => ?_)
    fun d hd r hr => ?_ <;> rw [hcolumns] at hd <;> obtain ⟨c, hc, rfl⟩ := List.mem_map.1 hd
  · exact (hf c).isConsistent (hconsistent c hc)
  · have hname := (retargetColumn_keeps tables t.name c).1
    rw [(hf c).name_eq, ← hname]
    exact (grows_moved h ht).references _ (List.mem_map_of_mem hc) r ((hf c).references_eq ▸ hr)

theorem columnNames_finish (small : ℤ) (tables : List Table) (t : Table) :
    (finish small tables t).columnNames = t.columnNames := by
  obtain ⟨f, hcolumns, hf⟩ := exists_finished small tables t
  rw [Table.columnNames, hcolumns, List.map_map]
  exact List.map_congr_left fun c _ => (hf c).name_eq

theorem distinct_finish {small : ℤ} {tables : List Table} {t : Table} :
    (finish small tables t).Distinct ↔ t.Distinct := by
  rw [Table.Distinct, ← Table.columnNames, columnNames_finish]
  rfl

end Normalize

variable (e : Extraction) (heading : Heading) (small : ℤ) (now : Moment)

theorem tables_normalize : (e.normalize heading small now).schema.tables =
    e.ordered.map (finish small e.ordered) := by
  change (detectLookups small (retarget e.ordered).value).value = _
  rw [value_retarget, detectLookups, Noted.value_each, List.map_map, List.map_map]
  rfl

theorem relationships_normalize :
    (e.normalize heading small now).schema.relationships = e.kept :=
  rfl

/-! ## The stages -/

namespace Extraction

theorem built_spec : (e.built.map (·.name)).Nodup ∧
    List.Forall₂ (fun entity b => Built entity b ∧ BuiltColumns entity b) e.entities e.built := by
  obtain ⟨hnames, hbuilt⟩ := forall₂_buildTables e.entities
  refine ⟨hnames, hbuilt.imp ?_⟩
  rintro entity _ ⟨taken, index, rfl⟩
  exact ⟨(built_buildTable taken entity index).2, builtColumns_buildTable taken entity index⟩

theorem exists_built {b : Table} (hb : b ∈ e.built) : ∃ entity, Built entity b :=
  exists_entity (buildTables_spec e.entities).2 hb

variable {e} in
theorem exists_buildTable {b : Table} (hb : b ∈ e.built) :
    ∃ taken entity index, (buildTable taken entity index).value = b := by
  have hbuilt := (forall₂_buildTables e.entities).2
  obtain ⟨i, hi, rfl⟩ := List.getElem_of_mem hb
  obtain ⟨taken, index, heq⟩ := hbuilt.get (by rw [hbuilt.length_eq]; exact hi) hi
  exact ⟨taken, _, index, heq⟩

theorem placed_resolved : Placed e.resolved := by
  obtain ⟨hlinked, hconsistent, hdistinct⟩ := linked_resolveDeclared e.built_spec.1
    (fun b hb => (e.exists_built hb).elim fun _ h => h.plain)
    (fun b hb => (e.exists_built hb).elim fun _ h => h.keyed)
    (fun b hb => (e.exists_built hb).elim fun _ h => h.fresh)
  exact ⟨hlinked, hconsistent, hdistinct⟩

theorem placed_spec : Placed e.placed ∧ (∀ r ∈ e.kept, r.Joins (e.placed.map (·.name))) ∧
    Changes (fun table column => ∃ r ∈ e.kept, r.Holds table column) e.resolved e.placed := by
  obtain ⟨hplaced, hjoins, hholds⟩ := placeAll_spec e.placed_resolved e.relationships
  refine ⟨hplaced, fun r hr => ?_, hholds⟩
  rw [placed, hholds.names_eq]
  exact hjoins r hr

theorem identified_spec : (Linked e.identified ∧ Consistent e.identified) ∧
    Changes (fun table column => ∃ r ∈ e.kept, r.Identifies table column)
      e.placed e.identified := by
  obtain ⟨hplaced, hjoins, -⟩ := e.placed_spec
  exact identifyAll_spec hplaced.linked hplaced.consistent hjoins

theorem ordered_spec : (Linked e.ordered ∧ Consistent e.ordered) ∧
    Changes (fun _ _ => False) e.identified e.ordered :=
  contiguous_spec e.identified_spec.1.1 e.identified_spec.1.2

/-! ## Table by table -/

/-- The table that refers to where its declared references lead. -/
def resolve (e : Extraction) (b : Table) : Table :=
  { b with columns := b.columns.map fun c => (resolveColumn e.built b.name c).value }

theorem resolved_eq : e.resolved = e.built.map e.resolve :=
  value_resolveDeclared e.built

theorem names_resolved : e.resolved.map (·.name) = e.built.map (·.name) := by
  rw [e.resolved_eq]
  exact map_name fun t _ => rfl

theorem names_ordered : e.ordered.map (·.name) = e.built.map (·.name) := by
  rw [e.ordered_spec.2.names_eq, e.identified_spec.2.names_eq, e.placed_spec.2.2.names_eq,
    e.names_resolved]

/-- No stage changes the names of the tables. -/
theorem tableNames_normalize :
    (e.normalize heading small now).schema.tableNames = e.built.map (·.name) := by
  rw [Schema.tableNames, tables_normalize,
    map_name fun t _ => (sameKeys_finish small e.ordered t).name_eq, names_ordered]

variable {e} in
/-- Resolving references leaves the names of columns and the key alone. -/
theorem resolve_spec {b : Table} (hb : b ∈ e.built) : (e.resolve b).name = b.name ∧
    (e.resolve b).columnNames = b.columnNames ∧ (e.resolve b).keyNames = b.keyNames ∧
      ((∀ key ∈ b.keyColumns, key.isUnique = true) →
        ∀ key ∈ (e.resolve b).keyColumns, key.isUnique = true) := by
  obtain ⟨entity, hbuilt⟩ := e.exists_built hb
  have hkept : ∀ c ∈ b.columns, (resolveColumn e.built b.name c).value.name = c.name ∧
      (resolveColumn e.built b.name c).value.isPrimaryKey = c.isPrimaryKey ∧
      (resolveColumn e.built b.name c).value.isUnique = c.isUnique := by
    intro c hc
    rcases value_resolveColumn e.built b.name c (hbuilt.fresh.bare c hc) with
      ⟨-, heq⟩ | ⟨-, ⟨u, -, -, heq⟩ | ⟨-, heq⟩⟩ <;> rw [heq] <;> exact ⟨rfl, rfl, rfl⟩
  have hcolumns : (e.resolve b).columns =
      b.columns.map fun c => (resolveColumn e.built b.name c).value := rfl
  have hkeys := Table.keyColumns_of_map hcolumns fun c hc => (hkept c hc).2.1
  refine ⟨rfl, ?_, ?_, fun hunique => ?_⟩
  · rw [Table.columnNames, resolve, List.map_map]
    exact List.map_congr_left fun c hc => (hkept c hc).1
  · rw [Table.keyNames, hkeys, List.map_map]
    exact List.map_congr_left fun c hc => (hkept c (Table.mem_keyColumns.1 hc).1).1
  · simp only [hkeys, List.forall_mem_map]
    intro key hkey
    rw [(hkept key (Table.mem_keyColumns.1 hkey).1).2.2]
    exact hunique key hkey

theorem exists_placed : ∃ f : Table → Table, e.placed = e.resolved.map f ∧
    ∀ t ∈ e.resolved, Table.Extends t (f t) := by
  obtain ⟨heq, hjoins⟩ := value_placeAll e.placed_resolved e.relationships
  rw [placed, heq]
  exact e.placed_resolved.exists_extends hjoins

theorem exists_identified : ∃ f : Table → Table, e.identified = e.placed.map f ∧
    ∀ t ∈ e.placed, ∃ owners, t.Owned owners (f t) ∧ ∀ name, name ∈ owners ↔
      ∃ r ∈ e.kept, r.sourceTable = name ∧ r.Identifies t.name (foreignKeyName name) := by
  obtain ⟨hplaced, hjoins, -⟩ := e.placed_spec
  exact exists_owned hplaced.linked hplaced.consistent hjoins

/-- The entity of a table declares a column of a name a foreign key. -/
def DeclaresIn (e : Extraction) (table column : String) : Prop :=
  ∃ b ∈ e.built, b.name = table ∧ b.HasForeignKey column

/-- What the stages make of the table for an entity: `p` is the table when all foreign keys have
been placed, and `w` the one when it has been identified through its owners. -/
structure Stages (e : Extraction) (entity : Extraction.Entity) (p w : Table) : Prop where
  placed : p ∈ e.placed
  identified : w ∈ e.identified
  distinct : p.Distinct
  keyNames : ∀ column, column ∈ p.keyNames ↔ entity.IsKey column
  soleUnique : p.SoleUnique
  stamps : ∀ name ∈ stampNames, p.hasColumn name = true
  hasColumn : ∀ column ∉ systemColumns,
    p.hasColumn column = true ↔ entity.Brings column ∨ p.HasForeignKey column
  declares : ∀ column, e.DeclaresIn p.name column ↔ entity.Declares column
  owners : ∃ owners, p.Owned owners w ∧ ∀ name, name ∈ owners ↔
    ∃ r ∈ e.kept, r.sourceTable = name ∧ r.Identifies p.name (foreignKeyName name)

/-- The tables go through the stages one by one. -/
theorem exists_stages_built : ∃ f g : Table → Table,
    e.ordered = e.built.map (fun b => (g b).withContiguousKey) ∧
      ∀ b ∈ e.built, ∀ entity, Built entity b → BuiltColumns entity b →
        Stages e entity (f b) (g b) := by
  obtain ⟨f, hplaced, hf⟩ := e.exists_placed
  obtain ⟨g, hidentified, hg⟩ := e.exists_identified
  refine ⟨fun b => f (e.resolve b), fun b => g (f (e.resolve b)), ?_,
    fun b hb entity hbuilt hcolumns => ?_⟩
  · rw [ordered, hidentified, hplaced, resolved_eq, List.map_map, List.map_map, List.map_map]
    rfl
  · have hresolved : e.resolve b ∈ e.resolved := e.resolved_eq ▸ List.mem_map_of_mem hb
    have hmem : f (e.resolve b) ∈ e.placed := hplaced ▸ List.mem_map_of_mem hresolved
    have hextends := hf _ hresolved
    obtain ⟨-, hnames, hkeys, hunique⟩ := resolve_spec hb
    have hhas : ∀ name, (e.resolve b).hasColumn name = true ↔ b.hasColumn name = true :=
      fun name => by rw [← Table.mem_columnNames, hnames, Table.mem_columnNames]
    exact
      { placed := hmem
        identified := hidentified ▸ List.mem_map_of_mem hmem
        distinct := e.placed_spec.1.distinct _ hmem
        keyNames := fun column => by
          rw [hextends.keyNames_eq, hkeys]
          exact hcolumns.keyNames column
        soleUnique := hextends.soleUnique fun key hkey =>
          hunique hcolumns.isUnique key (by simp [hkey])
        stamps := fun name hname =>
          (hextends.hasColumn name).2 (.inl ((hhas name).2 (hcolumns.stamps name hname)))
        hasColumn := fun column hcolumn => by
          rw [hextends.hasColumn, hhas, hcolumns.hasColumn column hcolumn]
        declares := fun column => by
          rw [← hbuilt.hasForeignKey, hextends.name_eq]
          constructor
          · rintro ⟨b', hb', hname, hforeign⟩
            rwa [← List.inj_on_of_nodup_map e.built_spec.1 hb' hb hname]
          · exact fun hforeign => ⟨b, hb, rfl, hforeign⟩
        owners := hg _ hmem }

variable {e heading small now}

theorem Stages.name_eq {entity : Extraction.Entity} {p w : Table} (h : Stages e entity p w) :
    (finish small e.ordered w.withContiguousKey).name = p.name := by
  obtain ⟨owners, hrun, -⟩ := h.owners
  rw [(sameKeys_finish small e.ordered _).name_eq, Table.withContiguousKey_name, hrun.name_eq]

/-- **A table of the schema goes back to its entity.** -/
theorem exists_stages {i : ℕ} {t : Table} {entity : Extraction.Entity}
    (ht : (e.normalize heading small now).schema.tables[i]? = some t)
    (hentity : e.entities[i]? = some entity) :
    ∃ p w, Stages e entity p w ∧ t = finish small e.ordered w.withContiguousKey := by
  obtain ⟨f, g, hordered, hstages⟩ := e.exists_stages_built
  rw [tables_normalize, List.getElem?_map] at ht
  obtain ⟨u, hu, rfl⟩ := Option.map_eq_some_iff.1 ht
  rw [hordered, List.getElem?_map] at hu
  obtain ⟨b, hb, rfl⟩ := Option.map_eq_some_iff.1 hu
  obtain ⟨hi, rfl⟩ := List.getElem?_eq_some_iff.1 hb
  obtain ⟨hi', rfl⟩ := List.getElem?_eq_some_iff.1 hentity
  obtain ⟨hbuilt, hcolumns⟩ := e.built_spec.2.get hi' hi
  exact ⟨f e.built[i], g e.built[i], hstages _ (List.getElem_mem hi) _ hbuilt hcolumns, rfl⟩

/-- There is a table for every entity. -/
theorem length_normalize :
    (e.normalize heading small now).schema.tables.length = e.entities.length := by
  obtain ⟨f, g, hordered, -⟩ := e.exists_stages_built
  rw [tables_normalize, hordered, List.length_map, List.length_map, e.built_spec.2.length_eq]

/-- There is an entity for every table. -/
theorem exists_stages_of_mem {t : Table}
    (ht : t ∈ (e.normalize heading small now).schema.tables) :
    ∃ entity p w, Stages e entity p w ∧ t = finish small e.ordered w.withContiguousKey := by
  obtain ⟨i, hi, rfl⟩ := List.getElem_of_mem ht
  have hi' : i < e.entities.length := length_normalize ▸ hi
  exact ⟨_, exists_stages (List.getElem?_eq_getElem hi) (List.getElem?_eq_getElem hi')⟩

end Extraction

end Schemata
