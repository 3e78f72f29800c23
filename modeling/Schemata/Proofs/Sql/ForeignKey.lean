import Mathlib.Data.List.ReduceOption
import Schemata.Proofs.Result
import Schemata.Proofs.Schema.Order
import Schemata.Sql.Script

/-!
# Where a script writes its foreign keys

A script makes all tables, then adds constraints, and does other things before and after
(`Script.builds_ofTables`). Between the two, every constraint of the tables is written once: with
its table, or as a constraint added later. `foreignKeys_script` tells how the dialects divide them,
and that a constraint written with its table refers to a table that is there by then.
-/

namespace Schemata.Sql

namespace Statement

/-- The constraint that a statement adds to a table. -/
def addedKeys : Statement → List ForeignKey
  | addForeignKey key => [key]
  | _ => []

/-- The table that a statement makes. -/
def tables : Statement → List TableDefinition
  | createTable t => [t]
  | _ => []

/-- Whether a statement neither makes a table nor adds a constraint. -/
def isOther : Statement → Bool
  | createTable _ => false
  | addForeignKey _ => false
  | _ => true

/-- Whether a statement makes neither a table nor anything that is named after a column. -/
def isBare : Statement → Bool
  | createType .. => false
  | createIndex .. => false
  | statement => statement.isOther

theorem isOther_of_isBare {statement : Statement} (h : statement.isBare = true) :
    statement.isOther = true := by
  cases statement <;> first | rfl | contradiction

theorem tables_eq_nil {statement : Statement} (h : statement.isOther = true) :
    statement.tables = [] := by
  cases statement <;> first | rfl | contradiction

theorem mem_tables {statements : List Statement} {t : TableDefinition} :
    t ∈ statements.flatMap tables ↔ createTable t ∈ statements := by
  rw [List.mem_flatMap]
  constructor
  · rintro ⟨statement, hmem, ht⟩
    cases statement with
    | createTable u =>
      rw [List.mem_singleton.1 ht]
      exact hmem
    | _ => contradiction
  · exact fun hmem => ⟨_, hmem, List.mem_singleton_self t⟩

end Statement

/-! ## Definitions of tables -/

theorem ColumnDefinition.of_eq_ok {d : Dialect} {t : Table} {c : Column}
    {column : ColumnDefinition} (h : ColumnDefinition.of d t c = .ok column) :
    column.name = c.name ∧ d.columnType t c = .ok column.type ∧
      column.isStamped = (d = .mysql && followsChanges c) := by
  rw [ColumnDefinition.of] at h
  obtain ⟨type, htype, h⟩ := bind_eq_ok.1 h
  obtain rfl := Except.ok.inj h
  exact ⟨rfl, htype, rfl⟩

/-- The definition of a table has the definitions of its columns, and those of its constraints that
are written with it. -/
theorem TableDefinition.of_eq_ok {d : Dialect} {deferred : List (String × String)} {t : Table}
    {definition : TableDefinition} (h : TableDefinition.of d deferred t = .ok definition) :
    ∃ columns, t.columns.mapM (ColumnDefinition.of d t) = .ok columns ∧
      definition = ⟨t.name, columns, keyNames d t, valueChecks d t,
        (constraints t).filter (isInline d deferred)⟩ := by
  rw [TableDefinition.of] at h
  obtain ⟨columns, hcolumns, h⟩ := bind_eq_ok.1 h
  exact ⟨columns, hcolumns, (Except.ok.inj h).symm⟩

/-- The definitions of tables tell their names and the constraints that are written with them. -/
def Defines (d : Dialect) (order : CreationOrder) (definitions : List TableDefinition) : Prop :=
  definitions.map (fun t => (t.name, t.foreignKeys)) = order.tables.map fun t =>
    (t.name, (constraints t).filter (isInline d order.deferred))

variable {d : Dialect} {order : CreationOrder} {definitions : List TableDefinition}

theorem defines_of_mapM (h : order.tables.mapM (TableDefinition.of d order.deferred) =
    .ok definitions) : Defines d order definitions := by
  refine map_of_mapM_ok (fun t definition hdefinition => ?_) h
  obtain ⟨columns, -, rfl⟩ := TableDefinition.of_eq_ok hdefinition
  rfl

theorem Defines.foreignKeys_eq (h : Defines d order definitions) :
    definitions.flatMap (·.foreignKeys) =
      order.tables.flatMap fun t => (constraints t).filter (isInline d order.deferred) := by
  have hkeys := congrArg (List.flatMap Prod.snd) h
  rwa [List.flatMap_map, List.flatMap_map] at hkeys

theorem Defines.names_eq (h : Defines d order definitions) :
    definitions.map (·.name) = order.tables.map (·.name) := by
  have hnames := congrArg (List.map Prod.fst) h
  rwa [List.map_map, List.map_map] at hnames

/-- A constraint is written with the table that holds it. -/
theorem Defines.table_eq (h : Defines d order definitions) {t : TableDefinition}
    (ht : t ∈ definitions) {key : ForeignKey} (hkey : key ∈ t.foreignKeys) :
    key.table = t.name := by
  obtain ⟨u, -, hu⟩ := List.mem_map.1 (h ▸ List.mem_map_of_mem ht)
  obtain ⟨hname, hkeys⟩ := Prod.mk.inj hu
  rw [← hkeys] at hkey
  obtain ⟨k, -, rfl⟩ := List.mem_map.1 (List.mem_filter.1 hkey).1
  exact hname

theorem notMem_of_isInline {deferred : List (String × String)} {key : ForeignKey}
    (hd : d.hasAddedKeys = true) (h : isInline d deferred key = true) :
    (key.table, key.column) ∉ deferred := by
  rw [isInline, hd, Bool.true_and, Bool.and_eq_true, Bool.not_eq_true'] at h
  simpa using h.2

/-- **A constraint that is written with its table leads to that table or to an earlier one**, where
the others can be added later. -/
theorem Defines.target (h : Defines d order definitions) (hd : d.hasAddedKeys = true)
    {names : List String} (hfollows : CreationOrder.Follows names order.deferred [] order.tables)
    (hnames : ∀ u ∈ order.tables, ∀ k ∈ u.foreignKeys, k.2.table ∈ names)
    {ds es : List TableDefinition} {t : TableDefinition} (hsplit : definitions = ds ++ t :: es)
    {key : ForeignKey} (hkey : key ∈ t.foreignKeys) :
    key.target = t.name ∨ key.target ∈ ds.map (·.name) := by
  rw [Defines, hsplit, List.map_append, List.map_cons] at h
  obtain ⟨ts, rest, htables, hts, hrest⟩ := List.map_eq_append_iff.1 h.symm
  obtain ⟨u, us, rfl, hu, -⟩ := List.map_eq_cons_iff.1 hrest
  obtain ⟨hname, hkeys⟩ := Prod.mk.inj hu
  rw [← hkeys] at hkey
  obtain ⟨hkey, hin⟩ := List.mem_filter.1 hkey
  obtain ⟨k, hk, rfl⟩ := List.mem_map.1 hkey
  have hmem : u ∈ order.tables := by
    rw [htables]
    exact List.mem_append_right _ List.mem_cons_self
  have hnames_eq : ts.map (·.name) = ds.map (·.name) := by
    have hfst := congrArg (List.map Prod.fst) hts
    rwa [List.map_map, List.map_map] at hfst
  rw [htables] at hfollows
  rcases hfollows.mem k hk (hnames u hmem k hk) with hself | hearlier | hdeferred
  · exact .inl (hself.trans hname)
  · rw [List.nil_append, hnames_eq] at hearlier
    exact .inr hearlier
  · exact absurd hdeferred (notMem_of_isInline hd hin)

/-! ## The statements of a script -/

namespace Script

open Statement (isOther isBare)

variable {α : Type} {tables : List Table}

theorem isOther_map {f : α → Statement} (hf : ∀ a, isOther (f a) = true) (as : List α) :
    (as.map f).all isOther = true := by
  rw [List.all_map, List.all_eq_true]
  exact fun a _ => hf a

theorem isBare_map {f : α → Statement} (hf : ∀ a, isBare (f a) = true) (as : List α) :
    (as.map f).all isBare = true := by
  rw [List.all_map, List.all_eq_true]
  exact fun a _ => hf a

theorem all_isOther {statements : List Statement} (h : statements.all isBare = true) :
    statements.all isOther = true :=
  List.all_eq_true.2 fun _ hmem => Statement.isOther_of_isBare (List.all_eq_true.1 h _ hmem)

theorem isBare_heading (s : Schema) (now : Moment) : (heading d s now).all isBare = true := by
  cases d <;> rfl

theorem isOther_heading (s : Schema) (now : Moment) : (heading d s now).all isOther = true :=
  all_isOther (isBare_heading s now)

theorem isBare_dropping (d : Dialect) (tables : List Table) :
    (dropping d tables).all isBare = true := by
  cases d <;> simp [dropping, hasViews, isBare, isOther, Function.comp_def]

theorem isOther_types (d : Dialect) (tables : List Table) :
    (types d tables).all isOther = true := by
  unfold types
  split
  · exact isOther_map (fun _ => rfl) _
  · rfl

theorem isOther_indexes (tables : List Table) : (tables.flatMap indexes).all isOther = true := by
  rw [List.all_flatMap, List.all_eq_true]
  exact fun t _ => isOther_map (fun _ => rfl) _

theorem isBare_views (d : Dialect) (tables : List Table) :
    (views d tables).all isBare = true := by
  unfold views
  split
  · exact isBare_map (fun _ => rfl) _
  · rfl

theorem isBare_batches {statements : List Statement} (h : statements.all isBare = true) :
    (batches statements).all isBare = true := by
  unfold batches
  split
  · rfl
  · rw [List.all_append, List.all_flatMap, Bool.and_eq_true]
    exact ⟨by simpa [isBare, isOther] using h, rfl⟩

theorem isBare_procedure? {t : Table} {result : Option Statement}
    (h : procedure? d t = .ok result) : result.all isBare = true := by
  unfold procedure? at h
  split at h
  · split at h
    · obtain rfl := Except.ok.inj h
      rfl
    · obtain ⟨type, -, rfl⟩ := map_eq_ok.1 h
      rfl
  · obtain rfl := Except.ok.inj h
    rfl

theorem isBare_procedures {procedures : List Statement}
    (h : Script.procedures d tables = .ok procedures) : procedures.all isBare = true := by
  unfold Script.procedures at h
  split at h
  · obtain ⟨results, hresults, h⟩ := bind_eq_ok.1 h
    obtain rfl := Except.ok.inj h
    have hall := of_mem_of_mapM_ok (fun t result => isBare_procedure? (t := t)) hresults
    refine isBare_batches (List.all_eq_true.2 fun statement hstatement => ?_)
    exact hall (some statement) (List.reduceOption_mem_iff.1 hstatement)
  · obtain rfl := Except.ok.inj h
    rfl

theorem isBare_triggers (d : Dialect) (tables : List Table) :
    (triggers d tables).all isBare = true := by
  have htriggers (ts : List Table) : (ts.map stampTrigger).all isBare = true :=
    isBare_map (fun _ => rfl) ts
  cases d with
  | mysql => rfl
  | postgresql =>
    unfold triggers
    dsimp only
    split
    · rfl
    · exact htriggers _
  | sqlite => exact htriggers _
  | sqlserver => exact isBare_batches (htriggers _)

theorem isBare_ending (d : Dialect) : (ending d).all isBare = true := by
  cases d <;> rfl

/-- What a script for tables says behind the indexes. -/
def behindIndexes (d : Dialect) (tables : List Table) (procedures : List Statement) :
    List Statement :=
  views d tables ++ procedures ++ triggers d tables
    ++ ((seeds tables).map (·.1)).reduceOption.map .insertRows ++ ending d

theorem isBare_behindIndexes {procedures : List Statement}
    (h : Script.procedures d tables = .ok procedures) :
    (behindIndexes d tables procedures).all isBare = true := by
  have hseeds : (((seeds tables).map (·.1)).reduceOption.map
      Statement.insertRows).all isBare = true := isBare_map (fun _ => rfl) _
  simp only [behindIndexes, List.all_append, isBare_views, isBare_procedures h, isBare_triggers,
    hseeds, isBare_ending, Bool.and_self]

/-! ## Tables and constraints -/

/-- Statements that make tables, then add constraints, and do other things before and after. -/
def Builds (statements : List Statement) (definitions : List TableDefinition)
    (added : List ForeignKey) : Prop :=
  ∃ before after, before.all isOther = true ∧ after.all isOther = true ∧
    statements = before ++ (definitions.map .createTable ++ (added.map .addForeignKey ++ after))

namespace Builds

variable {statements : List Statement} {definitions : List TableDefinition}
  {added : List ForeignKey}

/-- What only tables and added constraints contribute to. -/
theorem flatMap_eq (h : Builds statements definitions added) {f : Statement → List α}
    (hf : ∀ statement, statement.isOther = true → f statement = []) :
    statements.flatMap f = definitions.flatMap (fun t => f (.createTable t)) ++
      added.flatMap fun key => f (.addForeignKey key) := by
  obtain ⟨before, after, hbefore, hafter, rfl⟩ := h
  have hother (others : List Statement) (hothers : others.all isOther = true) :
      others.flatMap f = [] :=
    List.flatMap_eq_nil_iff.2 fun statement hmem => hf _ (List.all_eq_true.1 hothers _ hmem)
  rw [List.flatMap_append, List.flatMap_append, List.flatMap_append, hother _ hbefore,
    hother _ hafter, List.nil_append, List.append_nil, List.flatMap_map, List.flatMap_map]

theorem tables_eq (h : Builds statements definitions added) :
    statements.flatMap Statement.tables = definitions := by
  rw [h.flatMap_eq fun _ => Statement.tables_eq_nil]
  simp [Statement.tables]

end Builds

/-- **The parts of a script for tables.** -/
theorem ofTables_eq_ok {head : List Statement} {order : CreationOrder} {script : Script}
    (h : ofTables d head order = .ok script) : ∃ definitions procedures,
      order.tables.mapM (TableDefinition.of d order.deferred) = .ok definitions ∧
      Script.procedures d order.tables = .ok procedures ∧
      script.statements = head ++ dropping d order.tables ++ types d order.tables ++
        definitions.map .createTable ++ addedKeys d order.deferred order.tables ++
        order.tables.flatMap indexes ++ behindIndexes d order.tables procedures := by
  rw [ofTables] at h
  obtain ⟨definitions, hdefinitions, h⟩ := bind_eq_ok.1 h
  obtain ⟨procedures, hprocedures, h⟩ := bind_eq_ok.1 h
  obtain rfl := Except.ok.inj h
  exact ⟨definitions, procedures, hdefinitions, hprocedures,
    by simp only [behindIndexes, List.append_assoc]⟩

theorem exists_builds {head : List Statement} {order : CreationOrder} {script : Script}
    (hhead : head.all isOther = true) (h : ofTables d head order = .ok script) :
    ∃ definitions, order.tables.mapM (TableDefinition.of d order.deferred) = .ok definitions ∧
      Builds script.statements definitions
        (order.tables.flatMap fun t =>
          (constraints t).filter fun key => !isInline d order.deferred key) := by
  obtain ⟨definitions, procedures, hdefinitions, hprocedures, hstatements⟩ := ofTables_eq_ok h
  refine ⟨definitions, hdefinitions, head ++ dropping d order.tables ++ types d order.tables,
    order.tables.flatMap indexes ++ behindIndexes d order.tables procedures, ?_, ?_, ?_⟩
  · rw [List.all_append, List.all_append, hhead, all_isOther (isBare_dropping d _),
      isOther_types]
    rfl
  · rw [List.all_append, isOther_indexes, all_isOther (isBare_behindIndexes hprocedures)]
    rfl
  · simp only [hstatements, addedKeys, List.map_flatMap, List.append_assoc]

/-- **What a script for tables is made of.** -/
theorem builds_ofTables {head : List Statement} {order : CreationOrder} {script : Script}
    (hhead : head.all isOther = true) (h : ofTables d head order = .ok script) :
    ∃ definitions, Builds script.statements definitions
        (order.tables.flatMap fun t =>
          (constraints t).filter fun key => !isInline d order.deferred key) ∧
      Defines d order definitions := by
  obtain ⟨definitions, hdefinitions, hbuilds⟩ := exists_builds hhead h
  exact ⟨definitions, hbuilds, defines_of_mapM hdefinitions⟩

/-- Every table that is made is one of those in the order of creation. -/
theorem of_createTable_mem {head : List Statement} {order : CreationOrder} {script : Script}
    (hhead : head.all isOther = true) (h : ofTables d head order = .ok script)
    {definition : TableDefinition} (hmem : .createTable definition ∈ script.statements) :
    ∃ t ∈ order.tables, TableDefinition.of d order.deferred t = .ok definition := by
  obtain ⟨definitions, hdefinitions, hbuilds⟩ := exists_builds hhead h
  have hdefinition := Statement.mem_tables.2 hmem
  rw [hbuilds.tables_eq] at hdefinition
  exact mem_of_mapM_ok hdefinitions hdefinition

/-- The tables in the order of creation are made. -/
theorem createTable_mem {head : List Statement} {order : CreationOrder} {script : Script}
    (h : ofTables d head order = .ok script) {t : Table} (ht : t ∈ order.tables) :
    ∃ definition, TableDefinition.of d order.deferred t = .ok definition ∧
      .createTable definition ∈ script.statements := by
  obtain ⟨definitions, procedures, hdefinitions, -, hstatements⟩ := ofTables_eq_ok h
  obtain ⟨definition, hmem, heq⟩ := exists_mem_of_mapM_ok hdefinitions ht
  refine ⟨definition, heq, ?_⟩
  simp only [hstatements, List.mem_append, List.mem_map_of_mem hmem, true_or, or_true]

/-- A script is made of the expanded tables in an order of creation. -/
theorem of_eq_ok {s : Schema} {now : Moment} {script : Script}
    (h : Script.of d now s = .ok script) :
    ∃ expanded, s.expandManyToMany = .ok expanded ∧ expanded.check = .ok () ∧
      ofTables d (heading d s now) (.of expanded.tables) = .ok script := by
  rw [Script.of] at h
  obtain ⟨expanded, hexpanded, h⟩ := bind_eq_ok.1 h
  obtain ⟨_, hcheck, hscript⟩ := bind_eq_ok.1 h
  exact ⟨expanded, mapError_eq_ok.1 hexpanded, mapError_eq_ok.1 hcheck, mapError_eq_ok.1 hscript⟩

end Script

/-- Every constraint is written with its table or added later. -/
theorem perm_constraints (p : ForeignKey → Bool) (tables : List Table) :
    ((tables.flatMap fun t => (constraints t).filter p) ++
      tables.flatMap fun t => (constraints t).filter fun key => !p key).Perm
      (tables.flatMap constraints) :=
  (List.flatMap_append_perm tables _ _).trans
    (List.Perm.flatMap_left tables fun t _ => List.filter_append_perm p (constraints t))

end Schemata.Sql
