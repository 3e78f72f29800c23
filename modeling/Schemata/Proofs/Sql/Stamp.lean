import Schemata.Proofs.Schema.Expansion
import Schemata.Proofs.Schema.Retain
import Schemata.Proofs.Sql.ForeignKey

/-!
# The moment of the last change in scripts

A script keeps up the column `updated_at` of a table (`Maintains`): in MySQL by the definition of
the column, elsewhere by a trigger. Every table that has the column and a key gets its trigger
(`maintains_of_hasColumn`), whereas MySQL looks at the type of the column and at its default value
(`maintains_mysql_iff`). Junctions are made with a column that it accepts
(`keepsUp_expandManyToMany`).
-/

namespace Schemata

open Sql (followsChanges)

/-! ## Columns that follow the changes of their rows -/

/-- What MySQL asks of a column does not go beyond its name, type and default value. -/
theorem Column.Retains.followsChanges_eq {c d : Column} (h : c.Retains d) :
    followsChanges d = followsChanges c := by
  rw [followsChanges, followsChanges, h.name_eq, h.dataType_eq, h.defaultValue_eq]

theorem followsChanges_stamp : followsChanges (.stamp updatedAtName) = true := by
  decide +kernel

theorem name_of_followsChanges {c : Column} (h : followsChanges c = true) :
    c.name = updatedAtName := by
  rw [followsChanges, Bool.and_eq_true, Bool.and_eq_true] at h
  simpa [updatedAtName] using h.1.1

namespace Table

variable {t : Table}

/-- A column of the table follows the changes of its row in MySQL. -/
def KeepsUp (t : Table) : Prop :=
  ∃ c ∈ t.columns, followsChanges c = true

theorem KeepsUp.hasColumn (h : t.KeepsUp) : t.hasColumn updatedAtName = true := by
  obtain ⟨c, hc, hfollows⟩ := h
  exact hasColumn_iff.2 ⟨c, hc, name_of_followsChanges hfollows⟩

/-- Where one column has the name, the table keeps up just if this column follows the changes. -/
theorem keepsUp_iff (hcount : t.columnNames.count updatedAtName = 1) {c : Column}
    (hname : c.name = updatedAtName) (hretains : ∃ d ∈ t.columns, c.Retains d) :
    t.KeepsUp ↔ followsChanges c = true := by
  obtain ⟨d, hd, hcd⟩ := hretains
  rw [← hcd.followsChanges_eq]
  refine ⟨fun ⟨d', hd', hfollows⟩ => ?_, fun hfollows => ⟨d, hd, hfollows⟩⟩
  -- the columns of the name make a list of one element
  have hmem : ∀ c ∈ t.columns, c.name = updatedAtName →
      c ∈ t.columns.filter (·.name == updatedAtName) := fun c hc hname =>
    List.mem_filter.2 ⟨hc, by simpa using hname⟩
  have hlength : (t.columns.filter (·.name == updatedAtName)).length = 1 := by
    rw [← List.countP_eq_length_filter, ← hcount, columnNames, List.count, List.countP_map]
    rfl
  obtain ⟨only, honly⟩ := List.length_eq_one_iff.1 hlength
  rw [honly] at hmem
  have heq := List.mem_singleton.1 (hmem d hd (hcd.name_eq.trans hname))
  have heq' := List.mem_singleton.1 (hmem d' hd' (name_of_followsChanges hfollows))
  rwa [heq, ← heq']

/-- A column that becomes unique follows changes as before. -/
theorem keepsUp_referenceable : t.referenceable.KeepsUp ↔ t.KeepsUp := by
  obtain ⟨isUnique, hcolumns, -⟩ := t.exists_columns_referenceable
  have hfollows : ∀ c : Column,
      followsChanges { c with isUnique := isUnique c } = followsChanges c := fun _ => rfl
  simp only [KeepsUp, hcolumns, List.mem_map, exists_exists_and_eq_and, hfollows]

theorem isJunctionTable_referenceable (t : Table) :
    t.referenceable.isJunctionTable = t.isJunctionTable := by
  unfold referenceable
  split <;> rfl

theorem keepsUp_junctionTable (r : Relationship) (source target : Table) :
    (junctionTable r source target).KeepsUp :=
  ⟨.stamp updatedAtName, List.mem_append_right _ (List.mem_map_of_mem (by decide)),
    followsChanges_stamp⟩

end Table

/-- **What becomes of the moment of the last change when junctions are made**: if all tables keep
one, the junctions do as well, in such a way that MySQL keeps it up. -/
theorem keepsUp_expandManyToMany {s expanded : Schema} (hnames : s.tableNames.Nodup)
    (hcolumn : ∀ t ∈ s.tables, t.hasColumn updatedAtName = true)
    (hplain : ∀ t ∈ s.tables, t.isJunctionTable = false)
    (h : s.expandManyToMany = .ok expanded) :
    (∀ t ∈ expanded.tables, t.hasColumn updatedAtName = true) ∧
      ∀ t ∈ expanded.tables, t.isJunctionTable = true → t.KeepsUp := by
  refine forall₂_and.1 (Schema.forall_expandManyToMany hnames (fun t ht => ⟨hcolumn t ht, ?_⟩)
    (fun t ht => ⟨?_, ?_⟩) (fun r source target => ?_) h)
  · rw [hplain t ht]
    exact fun hjunction => absurd hjunction Bool.false_ne_true
  · exact (Table.alike_referenceable t).sameKeys.hasColumn ht.1
  · rw [Table.keepsUp_referenceable, Table.isJunctionTable_referenceable]
    exact ht.2
  · have hnew := Table.keepsUp_junctionTable r source target
    exact ⟨hnew.hasColumn, fun _ => hnew⟩

namespace Sql

/-! ## Scripts -/

/-- Statements keep up the moment of the last change of the rows of a table: in MySQL by a column of
the table, elsewhere by a trigger. -/
def Maintains (d : Dialect) (statements : List Statement) (table : String) : Prop :=
  match d with
  | .mysql => ∃ definition, .createTable definition ∈ statements ∧ definition.name = table ∧
      ∃ c ∈ definition.columns, c.name = "updated_at" ∧ c.isStamped = true
  | _ => ∃ key, .createStampTrigger table key ∈ statements

variable {d : Dialect} {order : CreationOrder} {head : List Statement} {script : Script} {t : Table}

theorem Script.mem_batches_of_mem {statements : List Statement} {statement : Statement}
    (h : statement ∈ statements) : statement ∈ batches statements := by
  have hne : statements.isEmpty = false := by
    rw [List.isEmpty_eq_false_iff]
    exact List.ne_nil_of_mem h
  rw [batches, hne]
  exact List.mem_append_left _ (List.mem_flatMap.2 ⟨statement, h, by simp⟩)

/-- **A table with the column and a key has its trigger**, but in MySQL. -/
theorem maintains_of_hasColumn (hd : d ≠ .mysql) (h : Script.ofTables d head order = .ok script)
    (ht : t ∈ order.tables) (hcolumn : t.hasColumn updatedAtName = true)
    (hkeyed : t.keyColumns ≠ []) : Maintains d script.statements t.name := by
  obtain ⟨definitions, procedures, -, -, hstatements⟩ := Script.ofTables_eq_ok h
  have hstamped : t ∈ Script.stamped order.tables := List.mem_filter.2 ⟨ht, hcolumn⟩
  have hfilter : t ∈ (Script.stamped order.tables).filter fun t => !t.keyColumns.isEmpty :=
    List.mem_filter.2 ⟨hstamped, by simpa using hkeyed⟩
  have htrigger : Script.stampTrigger t ∈ Script.triggers d order.tables := by
    cases d with
    | mysql => contradiction
    | postgresql =>
      unfold Script.triggers
      dsimp only
      rw [if_neg (by simpa using List.ne_nil_of_mem hstamped)]
      exact List.mem_cons_of_mem _ (List.mem_map_of_mem hstamped)
    | sqlite => exact List.mem_map_of_mem hfilter
    | sqlserver => exact Script.mem_batches_of_mem (List.mem_map_of_mem hfilter)
  have hmem : Statement.createStampTrigger t.name (t.keyColumns.map (·.name)) ∈
      script.statements := by
    rw [hstatements, Script.behindIndexes]
    exact List.mem_append_right _ (List.mem_append_left _ (List.mem_append_left _
      (List.mem_append_right _ htrigger)))
  cases d with
  | mysql => contradiction
  | postgresql | sqlite | sqlserver => exact ⟨_, hmem⟩

/-- **MySQL keeps up the moment of the last change** of a table with a column that follows the
changes of its row. -/
theorem maintains_mysql_iff (hhead : head.all Statement.isOther = true)
    (h : Script.ofTables .mysql head order = .ok script)
    (hnames : (order.tables.map (·.name)).Nodup) (ht : t ∈ order.tables) :
    Maintains .mysql script.statements t.name ↔ t.KeepsUp := by
  constructor
  · rintro ⟨definition, hmem, hname, column, hcolumn, -, hstamped⟩
    obtain ⟨u, hu, hof⟩ := Script.of_createTable_mem hhead h hmem
    obtain ⟨columns, hcolumns, rfl⟩ := TableDefinition.of_eq_ok hof
    obtain rfl := List.inj_on_of_nodup_map hnames hu ht hname
    obtain ⟨c, hc, hdefined⟩ := mem_of_mapM_ok hcolumns hcolumn
    obtain ⟨-, -, heq⟩ := ColumnDefinition.of_eq_ok hdefined
    rw [hstamped] at heq
    exact ⟨c, hc, by simpa using heq.symm⟩
  · rintro ⟨c, hc, hfollows⟩
    obtain ⟨definition, hof, hmem⟩ := Script.createTable_mem h ht
    obtain ⟨columns, hcolumns, rfl⟩ := TableDefinition.of_eq_ok hof
    obtain ⟨column, hcolumn, hdefined⟩ := exists_mem_of_mapM_ok hcolumns hc
    obtain ⟨hname, -, hstamped⟩ := ColumnDefinition.of_eq_ok hdefined
    refine ⟨_, hmem, rfl, column, hcolumn, hname.trans (name_of_followsChanges hfollows), ?_⟩
    rw [hstamped, hfollows]
    rfl

/-! ## Scripts that can be written -/

/-- A column has a definition unless it is a text column of SQL Server, whose length may be
unreadable. -/
theorem ColumnDefinition.exists_of {c : Column} (h : d ≠ .sqlserver ∨
    (DataType.ofString c.dataType).base ∉ ["CHAR", "VARCHAR", "NVARCHAR", "STRING"]) (t : Table) :
    ∃ definition, ColumnDefinition.of d t c = .ok definition := by
  have htype : ∃ type, d.columnType t c = .ok type := by
    cases d with
    | mysql | postgresql | sqlite => exact ⟨_, rfl⟩
    | sqlserver =>
      have htext : (DataType.ofString c.dataType).base ∉ ["CHAR", "VARCHAR", "NVARCHAR", "STRING"] :=
        h.resolve_left (by simp)
      rw [List.mem_cons, not_or] at htext
      rw [Dialect.columnType, sqlserverType, if_neg htext.1,
        if_neg (List.contains_iff_mem.not.2 htext.2)]
      dsimp only
      split <;> exact ⟨_, rfl⟩
  obtain ⟨type, htype⟩ := htype
  exact ⟨_, bind_eq_ok.2 ⟨type, htype, rfl⟩⟩

theorem exists_ofTables (hd : d ≠ .sqlserver) (head : List Statement) (order : CreationOrder) :
    ∃ script, Script.ofTables d head order = .ok script := by
  have htable : ∀ t, ∃ definition, TableDefinition.of d order.deferred t = .ok definition := by
    intro t
    obtain ⟨columns, hcolumns⟩ := exists_mapM_ok fun c (_ : c ∈ t.columns) =>
      ColumnDefinition.exists_of (c := c) (.inl hd) t
    exact ⟨_, bind_eq_ok.2 ⟨columns, hcolumns, rfl⟩⟩
  obtain ⟨definitions, hdefinitions⟩ := exists_mapM_ok fun t (_ : t ∈ order.tables) => htable t
  have hprocedures : Script.procedures d order.tables = .ok [] := if_neg hd
  exact ⟨_, bind_eq_ok.2 ⟨definitions, hdefinitions, bind_eq_ok.2 ⟨[], hprocedures, rfl⟩⟩⟩

end Sql

/-- A closed schema has a script in every dialect but SQL Server, where the length of a column may
be unreadable. -/
theorem Schema.Closed.exists_script {s : Schema} (h : s.Closed) {d : Sql.Dialect}
    (hd : d ≠ .sqlserver) (now : Moment) : ∃ script, Sql.Script.of d now s = .ok script := by
  obtain ⟨expanded, heq, hclosed⟩ := h.expandManyToMany
  obtain ⟨script, hscript⟩ :=
    Sql.exists_ofTables hd (Sql.Script.heading d s now) (.of expanded.tables)
  exact ⟨script, bind_eq_ok.2 ⟨expanded, mapError_eq_ok.2 heq, bind_eq_ok.2 ⟨(),
    mapError_eq_ok.2 hclosed.check, mapError_eq_ok.2 hscript⟩⟩⟩

end Schemata
