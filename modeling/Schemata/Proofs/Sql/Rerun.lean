import Schemata.Proofs.Sql.ForeignKey

/-!
# Scripts can be run again

A script first drops what an earlier run of it has made. Its statements fall into two parts
(`Script.exists_parts`): nothing is made in the first one, which ends with `Script.dropping`, and
nothing is dropped in the second, whose statements make no table, view, type or procedure that the
first one does not drop (`Remakes`). There is one lemma for each group of statements.

`rerun_script` puts this together with the order of the tables: they are dropped in the opposite
order of that in which they are made, because tables that are in order stay as they are
(`CreationOrder.of_tables_of`).
-/

namespace Schemata.Sql

/-- What a script makes and drops. -/
inductive Object where
  /-- A table. -/
  | table (name : String)
  /-- The view of a junction. -/
  | view (name : String)
  /-- The type of an enumeration. -/
  | type (name : String)
  /-- A procedure. -/
  | procedure (name : String)
deriving DecidableEq, Repr

/-- The word for the kind of an object. -/
def Object.word : Object → String
  | table _ => "TABLE"
  | view _ => "VIEW"
  | type _ => "TYPE"
  | procedure _ => "PROCEDURE"

/-- The name of an object. -/
def Object.name : Object → String
  | table name => name
  | view name => name
  | type name => name
  | procedure name => name

namespace Statement

/-- The object that a statement makes. -/
def creates? : Statement → Option Object
  | createTable t => some (.table t.name)
  | createView v => some (.view (viewName v.junction))
  | createType name _ => some (.type name)
  | createProcedure table _ _ => some (.procedure (procedureName table))
  | _ => none

/-- The object that a statement drops. -/
def drops? : Statement → Option Object
  | dropTable name => some (.table name)
  | dropView name => some (.view name)
  | dropType name => some (.type name)
  | dropProcedure name => some (.procedure name)
  | _ => none

/-- The names of the table that a statement drops. -/
def droppedTables : Statement → List String
  | dropTable name => [name]
  | _ => []

/-- Whether a statement makes something: an object, an index, a function or a trigger. -/
def isCreation : Statement → Bool
  | createIndex .. => true
  | createStampFunction => true
  | createStampTrigger .. => true
  | statement => statement.creates?.isSome

/-- A statement that drops an object names it, and does no harm if it is not there. -/
theorem render_of_drops? {statement : Statement} {o : Object} (h : statement.drops? = some o)
    (d : Dialect) : statement.render d =
      "DROP " ++ o.word ++ " IF EXISTS " ++ d.quoteName o.name ++ dropTail d := by
  cases statement with
  | dropTable name | dropView name | dropType name | dropProcedure name =>
    obtain rfl := Option.some.inj h
    rfl
  | _ => contradiction

theorem droppedTables_eq_nil {statement : Statement} (h : statement.drops? = none) :
    statement.droppedTables = [] := by
  cases statement <;> first | rfl | contradiction

/-- A statement that makes an object is one that makes something. -/
theorem isCreation_of_creates? {statement : Statement} {o : Object}
    (h : statement.creates? = some o) : statement.isCreation = true := by
  cases statement <;> first | rfl | contradiction

end Statement

/-- The statement drops nothing, and what it makes is dropped by one of the statements in front. -/
structure Remakes (front : List Statement) (statement : Statement) : Prop where
  drops : statement.drops? = none
  creates : ∀ o, statement.creates? = some o → ∃ earlier ∈ front, earlier.drops? = some o

namespace Script

open Statement

variable {d : Dialect} {tables : List Table} {statement : Statement}

/-! ## The first part -/

theorem isCreation_heading (s : Schema) (now : Moment) :
    (heading d s now).any isCreation = false := by
  cases d <;> rfl

theorem isCreation_dropping (d : Dialect) (tables : List Table) :
    (dropping d tables).any isCreation = false := by
  cases d <;> simp [dropping, hasViews, isCreation, creates?, Function.comp_def]

theorem droppedTables_heading (s : Schema) (now : Moment) :
    (heading d s now).flatMap droppedTables = [] := by
  cases d <;> rfl

/-- The tables are dropped in their order; views, types and procedures are none of them. -/
theorem droppedTables_dropping (d : Dialect) (tables : List Table) :
    (dropping d tables).flatMap droppedTables = (dropOrder tables).map (·.name) := by
  have htables : (dropOrder tables).flatMap (fun t => droppedTables (dropTable t.name)) =
      (dropOrder tables).map (·.name) := List.map_eq_flatMap.symm
  have hnone (α : Type) (f : α → Statement) (hf : ∀ a, (f a).droppedTables = []) (as : List α) :
      as.flatMap (fun a => (f a).droppedTables) = [] :=
    List.flatMap_eq_nil_iff.2 fun a _ => hf a
  have hviews := hnone _ (fun t : Table => dropView (viewName t.name)) (fun _ => rfl)
  have htypes := hnone _ (fun type : String × List String => dropType type.1) (fun _ => rfl)
  have hprocedures := hnone _ (fun t : Table => dropProcedure (procedureName t.name)) fun _ => rfl
  have hcheck (on : Bool) : droppedTables (.checkReferences on) = [] := rfl
  have hstart : droppedTables .startTransaction = [] := rfl
  cases d <;>
    simp [dropping, hasViews, List.flatMap_map, hviews, htypes, hprocedures,
      htables, hcheck, hstart]

theorem sublist_dropping (d : Dialect) (tables : List Table) :
    ((dropOrder tables).map fun t => dropTable t.name).Sublist (dropping d tables) := by
  cases d with
  | mysql | sqlite =>
    exact ((List.sublist_append_right _ _).trans (List.sublist_cons_self _ _)).trans
      (List.sublist_append_left _ _)
  | postgresql => exact (List.sublist_append_right _ _).trans (List.sublist_append_left _ _)
  | sqlserver => exact List.sublist_append_right _ _

theorem dropTable_mem {t : Table} (ht : t ∈ dropOrder tables) (d : Dialect) :
    dropTable t.name ∈ dropping d tables :=
  (sublist_dropping d tables).subset (List.mem_map_of_mem ht)

theorem dropView_mem {t : Table} (ht : t ∈ junctions tables) (hd : hasViews d = true) :
    dropView (viewName t.name) ∈ dropping d tables := by
  have hmem : dropView (viewName t.name) ∈ (junctions tables).map fun t =>
      dropView (viewName t.name) := List.mem_map_of_mem ht
  cases d with
  | mysql | postgresql => simp [dropping, hasViews, hmem]
  | sqlite | sqlserver => contradiction

theorem dropType_mem {type : String × List String} (h : type ∈ enumTypes tables) :
    dropType type.1 ∈ dropping .postgresql tables :=
  List.mem_append_right _ (List.mem_map_of_mem h)

theorem dropProcedure_mem {t : Table} (ht : t ∈ tables) (h : hasProcedure t = true) :
    dropProcedure (procedureName t.name) ∈ dropping .sqlserver tables :=
  List.mem_append_left _ (List.mem_map_of_mem (List.mem_filter.2 ⟨ht, h⟩))

/-! ## The second part -/

/-- A statement that neither makes nor drops an object. -/
theorem remakes_of_none {front : List Statement} (hdrops : statement.drops? = none)
    (hcreates : statement.creates? = none) : Remakes front statement :=
  ⟨hdrops, fun o ho => by simp [hcreates] at ho⟩

theorem remakes_types (h : statement ∈ types d tables) :
    Remakes (dropping d tables) statement := by
  unfold types at h
  split at h
  · rename_i hd
    subst hd
    obtain ⟨type, htype, rfl⟩ := List.mem_map.1 h
    exact ⟨rfl, fun o ho => ⟨_, dropType_mem htype, ho⟩⟩
  · contradiction

/-- The tables that are made are dropped, if they are among those in the order of dropping. -/
theorem remakes_definitions {order : CreationOrder} {definitions : List TableDefinition}
    (hdefines : Defines d order definitions)
    (hdrop : ∀ t ∈ order.tables, t ∈ dropOrder order.tables)
    (h : statement ∈ definitions.map .createTable) :
    Remakes (dropping d order.tables) statement := by
  obtain ⟨definition, hdefinition, rfl⟩ := List.mem_map.1 h
  obtain ⟨t, ht, heq⟩ := List.mem_map.1 (hdefines ▸ List.mem_map_of_mem hdefinition)
  obtain ⟨hname, -⟩ := Prod.mk.inj heq
  exact ⟨rfl, fun o ho => ⟨_, dropTable_mem (hdrop t ht) d, hname ▸ ho⟩⟩

theorem remakes_addedKeys {front : List Statement} {deferred : List (String × String)}
    (h : statement ∈ addedKeys d deferred tables) : Remakes front statement := by
  obtain ⟨t, -, h⟩ := List.mem_flatMap.1 h
  obtain ⟨key, -, rfl⟩ := List.mem_map.1 h
  exact remakes_of_none rfl rfl

theorem remakes_indexes {front : List Statement} (h : statement ∈ tables.flatMap indexes) :
    Remakes front statement := by
  obtain ⟨t, -, h⟩ := List.mem_flatMap.1 h
  obtain ⟨key, -, rfl⟩ := List.mem_map.1 h
  exact remakes_of_none rfl rfl

/-- A view is named after its junction. -/
theorem junction_of_of? {junction : Table} {view : JunctionView}
    (h : JunctionView.of? tables junction = some view) : view.junction = junction.name := by
  unfold JunctionView.of? at h
  split at h
  · obtain rfl := Option.some.inj h
    rfl
  · contradiction

theorem remakes_views (h : statement ∈ views d tables) :
    Remakes (dropping d tables) statement := by
  unfold views at h
  split at h
  · rename_i hd
    obtain ⟨view, hview, rfl⟩ := List.mem_map.1 h
    obtain ⟨junction, hjunction, hof⟩ := List.mem_filterMap.1 hview
    refine ⟨rfl, fun o ho => ⟨_, dropView_mem hjunction hd, ?_⟩⟩
    rw [← junction_of_of? hof]
    exact ho
  · contradiction

/-- The statements of a group of batches are those of the group, and ends of batches. -/
theorem mem_batches {statements : List Statement} (h : statement ∈ batches statements) :
    statement = .endBatch ∨ statement ∈ statements := by
  unfold batches at h
  split at h
  · contradiction
  · rcases List.mem_append.1 h with h | h
    · obtain ⟨inner, hinner, h⟩ := List.mem_flatMap.1 h
      rcases List.mem_cons.1 h with rfl | h
      · exact .inl rfl
      · exact .inr (List.mem_singleton.1 h ▸ hinner)
    · exact .inl (List.mem_singleton.1 h)

/-- The procedure of a table is made only for a table that has one. -/
theorem eq_of_procedure? {t : Table} {statement : Statement}
    (h : procedure? d t = .ok (some statement)) : hasProcedure t = true ∧
      ∃ column type, statement = .createProcedure t.name column type := by
  unfold procedure? at h
  split at h
  · rename_i hprocedure
    split at h
    · cases h
    · obtain ⟨type, -, heq⟩ := map_eq_ok.1 h
      exact ⟨hprocedure, _, type, (Option.some.inj heq).symm⟩
  · cases h

theorem remakes_procedures {procedures : List Statement}
    (heq : Script.procedures d tables = .ok procedures) (h : statement ∈ procedures) :
    Remakes (dropping d tables) statement := by
  unfold Script.procedures at heq
  split at heq
  · rename_i hd
    subst hd
    obtain ⟨results, hresults, heq⟩ := bind_eq_ok.1 heq
    obtain rfl := Except.ok.inj heq
    rcases mem_batches h with rfl | h
    · exact remakes_of_none rfl rfl
    · obtain ⟨t, ht, hresult⟩ := mem_of_mapM_ok hresults (List.reduceOption_mem_iff.1 h)
      obtain ⟨hprocedure, column, type, rfl⟩ := eq_of_procedure? hresult
      exact ⟨rfl, fun o ho => ⟨_, dropProcedure_mem ht hprocedure, ho⟩⟩
  · obtain rfl := Except.ok.inj heq
    contradiction

theorem remakes_triggers {front : List Statement} (h : statement ∈ triggers d tables) :
    Remakes front statement := by
  have htrigger (ts : List Table) (h : statement ∈ ts.map stampTrigger) :
      Remakes front statement := by
    obtain ⟨t, -, rfl⟩ := List.mem_map.1 h
    exact remakes_of_none rfl rfl
  cases d with
  | mysql => contradiction
  | postgresql =>
    unfold triggers at h
    dsimp only at h
    split at h
    · contradiction
    · rcases List.mem_cons.1 h with rfl | h
      · exact remakes_of_none rfl rfl
      · exact htrigger _ h
  | sqlite => exact htrigger _ h
  | sqlserver =>
    rcases mem_batches h with rfl | h
    · exact remakes_of_none rfl rfl
    · exact htrigger _ h

theorem remakes_ending {front : List Statement} (h : statement ∈ ending d) :
    Remakes front statement := by
  unfold ending at h
  split at h
  · rw [List.mem_singleton.1 h]
    exact remakes_of_none rfl rfl
  · contradiction

/-! ## The parts together -/

/-- **The two parts of a script for tables**: behind the statements that drop, nothing is dropped,
and no object is made that they do not drop. -/
theorem exists_parts {head : List Statement} {order : CreationOrder} {script : Script}
    (hdrop : ∀ t ∈ order.tables, t ∈ dropOrder order.tables)
    (h : ofTables d head order = .ok script) :
    ∃ after, script.statements = (head ++ dropping d order.tables) ++ after ∧
      ∀ statement ∈ after, Remakes (dropping d order.tables) statement := by
  obtain ⟨definitions, procedures, hdefinitions, hprocedures, hstatements⟩ := ofTables_eq_ok h
  have hdefines : Defines d order definitions := defines_of_mapM hdefinitions
  refine ⟨types d order.tables ++ definitions.map .createTable
    ++ addedKeys d order.deferred order.tables ++ order.tables.flatMap indexes
    ++ behindIndexes d order.tables procedures,
    by simp only [hstatements, List.append_assoc], ?_⟩
  have hseeds : ∀ statement ∈ ((seeds order.tables).map (·.1)).reduceOption.map .insertRows,
      Remakes (dropping d order.tables) statement := by
    simp only [List.forall_mem_map]
    exact fun _ _ => remakes_of_none rfl rfl
  simp only [behindIndexes, List.forall_mem_append]
  exact ⟨⟨⟨⟨fun _ => remakes_types, fun _ => remakes_definitions hdefines hdrop⟩,
    fun _ => remakes_addedKeys⟩, fun _ => remakes_indexes⟩,
    ⟨⟨⟨fun _ => remakes_views, fun _ => remakes_procedures hprocedures⟩,
      fun _ => remakes_triggers⟩, hseeds⟩, fun _ => remakes_ending⟩

/-- What stands where in a list of two parts, if the first part lacks it. -/
theorem exists_append_of_append {front back before after : List Statement}
    (h : front ++ back = before ++ statement :: after) (hfront : statement ∉ front) :
    ∃ middle, before = front ++ middle ∧ back = middle ++ statement :: after := by
  rcases List.append_eq_append_iff.1 h with ⟨middle, hbefore, hback⟩ | ⟨middle, hsplit, hafter⟩
  · exact ⟨middle, hbefore, hback⟩
  · cases middle with
    | nil => exact ⟨[], by rw [hsplit, List.append_nil, List.append_nil], hafter.symm⟩
    | cons first middle =>
      obtain ⟨rfl, -⟩ := List.cons.inj hafter
      exact absurd (hsplit ▸ List.mem_append_right _ List.mem_cons_self) hfront

end Script

/-- **A script can be run again.** Nothing is dropped after something has been made. The tables are
dropped in the opposite order of that in which they are made, which is an order that stays as it is
when tables are put in order again; a table is dropped before every other one to which it refers,
unless the reference is deferred. Every table, view, type and procedure that the script makes has
been dropped before, if it was there. -/
theorem rerun_script {d : Dialect} {s : Schema} {now : Moment} {script : Script}
    (hnames : s.tableNames.Nodup) (h : Script.of d now s = .ok script) :
    ∃ expanded, s.expandManyToMany = .ok expanded ∧
      (∀ before statement after, script.statements = before ++ statement :: after →
        statement.isCreation = true → ∀ later ∈ after, later.drops? = none) ∧
      (script.statements.flatMap Statement.tables).map (·.name) =
        (CreationOrder.of expanded.tables).tables.map (·.name) ∧
      script.statements.flatMap Statement.droppedTables =
        ((script.statements.flatMap Statement.tables).map (·.name)).reverse ∧
      CreationOrder.of (CreationOrder.of expanded.tables).tables =
        CreationOrder.of expanded.tables ∧
      (∀ t ∈ expanded.tables, ∀ key ∈ t.foreignKeys, key.2.table ≠ t.name →
        (t.name, key.1.name) ∉ (CreationOrder.of expanded.tables).deferred →
          [Statement.dropTable t.name, .dropTable key.2.table].Sublist script.statements) ∧
      ∀ before statement after o, script.statements = before ++ statement :: after →
        statement.creates? = some o → ∃ earlier ∈ before, earlier.drops? = some o ∧
          earlier.render d =
            "DROP " ++ o.word ++ " IF EXISTS " ++ d.quoteName o.name ++ dropTail d := by
  obtain ⟨expanded, hexpanded, hcheck, hscript⟩ := Script.of_eq_ok h
  have hnames : (expanded.tables.map (·.name)).Nodup :=
    Schema.nodup_expandManyToMany hnames hexpanded
  have hdrop := CreationOrder.dropOrder_of hnames
  obtain ⟨definitions, hbuilds, hdefines⟩ :=
    Script.builds_ofTables (Script.isOther_heading s now) hscript
  obtain ⟨back, hparts, hback⟩ := Script.exists_parts
    (fun t ht => by rw [hdrop]; exact List.mem_reverse.2 ht) hscript
  have hfront : ∀ statement ∈ Script.heading d s now ++
      Script.dropping d (CreationOrder.of expanded.tables).tables,
      statement.isCreation = true → False := by
    intro statement hmem hcreation
    rcases List.mem_append.1 hmem with hmem | hmem
    · exact absurd hcreation (List.any_eq_false.1 (Script.isCreation_heading s now) _ hmem)
    · exact absurd hcreation (List.any_eq_false.1 (Script.isCreation_dropping d _) _ hmem)
  have hmade : (script.statements.flatMap Statement.tables).map (·.name) =
      (CreationOrder.of expanded.tables).tables.map (·.name) := by
    rw [hbuilds.tables_eq, hdefines.names_eq]
  refine ⟨expanded, hexpanded, fun before statement after heq hcreation later hlater => ?_, hmade,
    ?_, CreationOrder.of_tables_of hnames, fun t ht key hkey hother hkept => ?_,
    fun before statement after o heq hcreates => ?_⟩
  · rw [hparts] at heq
    obtain ⟨middle, -, rfl⟩ := Script.exists_append_of_append heq fun hmem =>
      hfront statement hmem hcreation
    exact (hback later (by simp [hlater])).drops
  · have hlate : back.flatMap Statement.droppedTables = [] :=
      List.flatMap_eq_nil_iff.2 fun statement hmem =>
        Statement.droppedTables_eq_nil (hback statement hmem).drops
    rw [hmade, hparts, List.flatMap_append, List.flatMap_append, hlate,
      Script.droppedTables_heading, Script.droppedTables_dropping, hdrop, List.map_reverse,
      List.nil_append, List.append_nil]
  · have hsub := (CreationOrder.sublist_of hnames ht hkey
      (Schema.mem_tableNames_of_check hcheck ht hkey) hother hkept).reverse.map Statement.dropTable
    rw [← List.map_reverse, ← hdrop, List.map_map] at hsub
    rw [hparts]
    exact ((hsub.trans (Script.sublist_dropping d _)).trans
      (List.sublist_append_right _ _)).trans (List.sublist_append_left _ _)
  · rw [hparts] at heq
    obtain ⟨middle, rfl, rfl⟩ := Script.exists_append_of_append heq fun hmem =>
      hfront statement hmem (Statement.isCreation_of_creates? hcreates)
    obtain ⟨earlier, hearlier, hdrops⟩ := (hback statement (by simp)).creates o hcreates
    exact ⟨earlier, List.mem_append_left _ (List.mem_append_right _ hearlier), hdrops,
      Statement.render_of_drops? hdrops d⟩

/-- Doctors of a grade, who treat patients. -/
def clinic : Schema where
  tables :=
    [{ name := "patient"
       columns := [.defaultKey,
        { name := "doctor_id", isForeignKey := true
          references := some ⟨"doctor", "id", "", ""⟩ }] },
     { name := "doctor"
       columns := [.defaultKey, { name := "grade", dataType := "ENUM('junior','senior')" }] }]
  relationships :=
    [{ name := "treats", sourceTable := "doctor", targetTable := "patient"
       sourceEntity := "Doctor", targetEntity := "Patient", kind := .manyToMany }]
  createdAt := { year := 2024, month := 1, day := 1 }
  updatedAt := { year := 2024, month := 1, day := 1 }

theorem rerun_script_clinic :
    ∃ script, Script.of .postgresql clinic.createdAt clinic = .ok script ∧
      script.statements.flatMap Statement.droppedTables =
        ["doctor_patient", "patient", "doctor"] ∧
      (∃ statement ∈ script.statements, statement.creates? = some (.view "v_doctor_patient")) ∧
      ∃ earlier ∈ script.statements, earlier.drops? = some (.view "v_doctor_patient") ∧
        earlier.render .postgresql = "DROP VIEW IF EXISTS v_doctor_patient CASCADE;" := by
  have hnames : clinic.tableNames.Nodup := by decide +kernel
  have hmade : ∃ script ∈ (Script.of .postgresql clinic.createdAt clinic).toOption,
      (script.statements.flatMap Statement.tables).map (·.name) =
        ["doctor", "patient", "doctor_patient"] ∧
      ∃ statement ∈ script.statements, statement.creates? = some (.view "v_doctor_patient") := by
    decide +kernel
  obtain ⟨script, hscript, htables, statement, hmem, hcreates⟩ := hmade
  have h : Script.of .postgresql clinic.createdAt clinic = .ok script := by
    cases hof : Script.of .postgresql clinic.createdAt clinic with
    | error e => simp [hof, Except.toOption] at hscript
    | ok made => simpa [hof, Except.toOption] using hscript
  obtain ⟨expanded, -, -, -, hdropped, -, -, hobjects⟩ := rerun_script hnames h
  obtain ⟨before, after, hsplit⟩ := List.append_of_mem hmem
  obtain ⟨earlier, hearlier, hdrops, hrender⟩ := hobjects before statement after _ hsplit hcreates
  refine ⟨script, h, by rw [hdropped, htables]; rfl, ⟨statement, hmem, hcreates⟩, earlier, ?_,
    hdrops, ?_⟩
  · rw [hsplit]
    exact List.mem_append_left _ hearlier
  · rw [hrender]
    decide +kernel

end Schemata.Sql
