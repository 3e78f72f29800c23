import Schemata.Proofs.Schema.Reorder
import Schemata.Proofs.Sql.ForeignKey

/-!
# Scripts of schemas with their tables in another order

`statements_script_perm` says that the order in which the tables of a schema are given changes
nothing of what its script does: the statements are the same, in another order. Every part of a
script is made table by table, and what it says about a table depends on the other tables only by
their names; so each part has its lemma, and `Script.ofTables_perm` puts them together.

The one exception are the references that a cycle leaves to be added later, since it depends on the
order which ones they are. In SQLite none is added and in SQL Server all are, in whatever order the
tables are made (`isInline_eq`); elsewhere there must be no cycle.
-/

namespace Schemata.Sql

open CreationOrder (Acyclic)

variable {d : Dialect} {tables tables' : List Table}

/-! ## References that are written with their tables -/

/-- Where references make no cycle, the order of the tables does not change which ones are written
with them; in SQLite and SQL Server it never does. -/
theorem isInline_eq (h : (tables.map (·.name)).Nodup) (hperm : tables.Perm tables')
    (hacyclic : d = .mysql ∨ d = .postgresql → Acyclic tables) :
    isInline d (CreationOrder.of tables).deferred =
      isInline d (CreationOrder.of tables').deferred := by
  cases d with
  | mysql | postgresql =>
    have hacyclic := hacyclic (by simp)
    rw [CreationOrder.deferred_of_acyclic hacyclic h,
      CreationOrder.deferred_of_acyclic (hacyclic.perm hperm) ((hperm.map _).nodup_iff.1 h)]
  | sqlite | sqlserver => rfl

theorem TableDefinition.of_congr {deferred deferred' : List (String × String)}
    (h : isInline d deferred = isInline d deferred') :
    TableDefinition.of d deferred = TableDefinition.of d deferred' := by
  funext t
  rw [TableDefinition.of, TableDefinition.of, h]

/-! ## The parts of a script -/

namespace Script

variable (d)

theorem dropOrder_perm (h : (tables.map (·.name)).Nodup) (hperm : tables.Perm tables') :
    (dropOrder tables).Perm (dropOrder tables') := by
  have hdrop : ∀ ts : List Table, (ts.map (·.name)).Nodup → (dropOrder ts).Perm ts :=
    fun ts hts => (List.reverse_perm _).trans (CreationOrder.perm_of hts)
  exact (hdrop tables h).trans (hperm.trans (hdrop tables' ((hperm.map _).nodup_iff.1 h)).symm)

theorem enumTypes_perm (hperm : tables.Perm tables') :
    (enumTypes tables).Perm (enumTypes tables') :=
  hperm.flatMap_right _

theorem dropping_perm (h : (tables.map (·.name)).Nodup) (hperm : tables.Perm tables') :
    (dropping d tables).Perm (dropping d tables') := by
  have hviews : (if hasViews d then (junctions tables).map fun t =>
        Statement.dropView (viewName t.name) else []).Perm
      (if hasViews d then (junctions tables').map fun t => .dropView (viewName t.name) else []) := by
    split
    · exact (hperm.filter _).map _
    · rfl
  have htables := (dropOrder_perm h hperm).map fun t => Statement.dropTable t.name
  cases d with
  | mysql | sqlite => exact ((hviews.append htables).cons _).append_right _
  | postgresql => exact (hviews.append htables).append ((enumTypes_perm hperm).map _)
  | sqlserver => exact ((hperm.filter _).map _).append htables

theorem types_perm (hperm : tables.Perm tables') : (types d tables).Perm (types d tables') := by
  unfold types
  split
  · exact (enumTypes_perm hperm).map _
  · rfl

theorem addedKeys_perm {deferred deferred' : List (String × String)} (hperm : tables.Perm tables')
    (hinline : isInline d deferred = isInline d deferred') :
    (addedKeys d deferred tables).Perm (addedKeys d deferred' tables') := by
  rw [addedKeys, addedKeys, hinline]
  exact hperm.flatMap_right _

/-- A junction is shown with the same sides, since these are found by their names. -/
theorem view_perm (h : (tables.map (·.name)).Nodup) (hperm : tables.Perm tables') :
    JunctionView.of? tables = JunctionView.of? tables' := by
  funext junction
  have hsides : referredSides tables junction = referredSides tables' junction := by
    unfold referredSides
    simp only [find?_perm h hperm]
  rw [JunctionView.of?, JunctionView.of?, hsides]

theorem views_perm (h : (tables.map (·.name)).Nodup) (hperm : tables.Perm tables') :
    (views d tables).Perm (views d tables') := by
  rw [views, views, view_perm h hperm]
  split
  · exact ((hperm.filter _).filterMap _).map _
  · rfl

theorem batches_perm {statements statements' : List Statement}
    (hperm : statements.Perm statements') : (batches statements).Perm (batches statements') := by
  rw [batches, batches, hperm.isEmpty_eq]
  split
  · rfl
  · exact (hperm.flatMap_right _).append_right _

theorem procedures_perm (hperm : tables.Perm tables') {made : List Statement}
    (h : procedures d tables = .ok made) :
    ∃ made', procedures d tables' = .ok made' ∧ made.Perm made' := by
  unfold procedures at h ⊢
  split
  · rename_i hd
    rw [if_pos hd] at h
    obtain ⟨results, hresults, h⟩ := bind_eq_ok.1 h
    obtain rfl := Except.ok.inj h
    obtain ⟨results', hresults', hsame⟩ := exists_mapM_perm hperm hresults
    exact ⟨_, bind_eq_ok.2 ⟨results', hresults', rfl⟩, batches_perm (hsame.filterMap _)⟩
  · rename_i hd
    rw [if_neg hd] at h
    obtain rfl := Except.ok.inj h
    exact ⟨[], rfl, .refl _⟩

theorem triggers_perm (hperm : tables.Perm tables') :
    (triggers d tables).Perm (triggers d tables') := by
  have hstamped : (stamped tables).Perm (stamped tables') := hperm.filter _
  have hkeyed := (hstamped.filter fun t => !t.keyColumns.isEmpty).map stampTrigger
  cases d with
  | mysql => rfl
  | postgresql =>
    unfold triggers
    dsimp only
    rw [hstamped.isEmpty_eq]
    split
    · rfl
    · exact (hstamped.map _).cons _
  | sqlite => exact hkeyed
  | sqlserver => exact batches_perm hkeyed

theorem seeds_perm (hperm : tables.Perm tables') :
    (((seeds tables).map (·.1)).reduceOption.map Statement.insertRows).Perm
      (((seeds tables').map (·.1)).reduceOption.map Statement.insertRows) :=
  ((((hperm.filter _).map _).map _).filterMap _).map _

/-- **Scripts for the same tables in two orders** consist of the same statements, if the same
references are written with the tables. -/
theorem ofTables_perm {head : List Statement} {order order' : CreationOrder} {script : Script}
    (h : (order.tables.map (·.name)).Nodup) (hperm : order.tables.Perm order'.tables)
    (hinline : isInline d order.deferred = isInline d order'.deferred)
    (hscript : ofTables d head order = .ok script) :
    ∃ script', ofTables d head order' = .ok script' ∧
      script.statements.Perm script'.statements := by
  rw [ofTables] at hscript
  obtain ⟨definitions, hdefinitions, hscript⟩ := bind_eq_ok.1 hscript
  obtain ⟨procedures, hprocedures, hscript⟩ := bind_eq_ok.1 hscript
  obtain rfl := Except.ok.inj hscript
  rw [TableDefinition.of_congr hinline] at hdefinitions
  obtain ⟨definitions', hdefinitions', hsame⟩ := exists_mapM_perm hperm hdefinitions
  obtain ⟨procedures', hprocedures', hsame'⟩ := procedures_perm d hperm hprocedures
  refine ⟨_, bind_eq_ok.2 ⟨definitions', hdefinitions', bind_eq_ok.2 ⟨procedures', hprocedures',
    rfl⟩⟩, ?_⟩
  have hdropped := (dropping_perm d h hperm).append_left head
  have hmade := (hdropped.append (types_perm d hperm)).append (hsame.map .createTable)
  have hreferred := hmade.append (addedKeys_perm d hperm hinline)
  have hshown := (hreferred.append (hperm.flatMap_right indexes)).append (views_perm d h hperm)
  have hkept := (hshown.append hsame').append (triggers_perm d hperm)
  exact (hkept.append (seeds_perm hperm)).append_right _

end Script

/-- **The order of the tables does not matter to a script.** A schema has the same statements in its
script, in some order, when its tables are given in another order, provided that in MySQL and
PostgreSQL no table of the expanded schema refers to itself by way of others. -/
theorem statements_script_perm {s : Schema} {now : Moment} {script : Script}
    (hnames : s.tableNames.Nodup) (hperm : s.tables.Perm tables')
    (hacyclic : d = .mysql ∨ d = .postgresql → ∀ expanded, s.expandManyToMany = .ok expanded →
      Acyclic expanded.tables)
    (h : Script.of d now s = .ok script) :
    ∃ script', Script.of d now { s with tables := tables' } = .ok script' ∧
      script'.statements.Perm script.statements := by
  obtain ⟨expanded, hexpanded, hcheck, hscript⟩ := Script.of_eq_ok h
  have hdistinct : expanded.tableNames.Nodup := Schema.nodup_expandManyToMany hnames hexpanded
  obtain ⟨ts, hexpanded', hts⟩ := Schema.expandManyToMany_perm hnames hperm hexpanded
  have hcheck' := Schema.check_perm hdistinct hts hcheck
  have hdistinct' : (ts.map (·.name)).Nodup := (hts.map _).nodup_iff.1 hdistinct
  have horder : (CreationOrder.of expanded.tables).tables.Perm (CreationOrder.of ts).tables :=
    (CreationOrder.perm_of hdistinct).trans (hts.trans (CreationOrder.perm_of hdistinct').symm)
  have hordered : ((CreationOrder.of expanded.tables).tables.map (·.name)).Nodup :=
    ((CreationOrder.perm_of hdistinct).map _).nodup_iff.2 hdistinct
  have hinline := isInline_eq hdistinct hts fun hd => hacyclic hd expanded hexpanded
  obtain ⟨script', hscript', hsame⟩ := Script.ofTables_perm d hordered horder hinline hscript
  refine ⟨script', ?_, hsame.symm⟩
  rw [Script.of]
  exact bind_eq_ok.2 ⟨_, mapError_eq_ok.2 hexpanded', bind_eq_ok.2 ⟨(), mapError_eq_ok.2 hcheck',
    mapError_eq_ok.2 hscript'⟩⟩

/-- Courses that are given by teachers, and taken by pupils. -/
def school : Schema where
  tables :=
    [{ name := "course"
       columns := [.defaultKey,
        { name := "teacher_id", isForeignKey := true
          references := some ⟨"teacher", "id", "", ""⟩ },
        { name := "level", dataType := "ENUM('low','high')" }] },
     { name := "teacher", columns := Column.defaults },
     { name := "pupil"
       columns := [.defaultKey,
        { name := "pupil_id", isForeignKey := true
          references := some ⟨"pupil", "id", "", ""⟩ }] }]
  relationships :=
    [{ name := "takes", sourceTable := "pupil", targetTable := "course", sourceEntity := "Pupil"
       targetEntity := "Course", kind := .manyToMany }]
  createdAt := { year := 2024, month := 1, day := 1 }
  updatedAt := { year := 2024, month := 1, day := 1 }

theorem statements_script_perm_school :
    ∃ script script', Script.of .postgresql school.createdAt school = .ok script ∧
      Script.of .postgresql school.createdAt { school with tables := school.tables.reverse } =
        .ok script' ∧
      (script.statements.flatMap Statement.tables).map (·.name) =
        ["teacher", "pupil", "course", "pupil_course"] ∧
      script'.statements.Perm script.statements := by
  have hnames : school.tableNames.Nodup := by decide +kernel
  have ⟨script, hscript, htables⟩ :
      ∃ script ∈ (Script.of .postgresql school.createdAt school).toOption,
        (script.statements.flatMap Statement.tables).map (·.name) =
          ["teacher", "pupil", "course", "pupil_course"] := by
    decide +kernel
  have h := mem_toOption.1 hscript
  let rank (name : String) : ℕ := ["teacher", "pupil", "course", "pupil_course"].idxOf name
  have hdown : ∀ expanded ∈ school.expandManyToMany.toOption, ∀ t ∈ expanded.tables,
      ∀ key ∈ t.foreignKeys, t.name ≠ key.2.table → rank key.2.table < rank t.name := by
    decide +kernel
  have hacyclic : ∀ expanded, school.expandManyToMany = .ok expanded →
      Acyclic expanded.tables := fun expanded hexpanded =>
    CreationOrder.acyclic_of_lt rank (hdown expanded (mem_toOption.2 hexpanded))
  obtain ⟨script', h', hsame⟩ := statements_script_perm hnames
    (List.reverse_perm school.tables).symm (fun _ => hacyclic) h
  exact ⟨script, script', h, h', htables, hsame⟩

end Schemata.Sql
