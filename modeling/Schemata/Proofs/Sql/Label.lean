import Mathlib.Data.List.Nodup
import Schemata.Proofs.Schema.Expansion
import Schemata.Proofs.Sql.ForeignKey

/-!
# Names made of a table and a column

Foreign key constraints, indexes and the types of enumerations are named after a table and one of
its columns, with an underscore between the two (`Labelled`). Since either name may have underscores
of its own, two pairs of a table and a column can have one name: the longer of the tables then takes
over words from the column of the shorter one (`append_underscore_eq_iff`).

The names that a script gives are those of the columns of its tables, kind by kind
(`perm_given_script`). They are distinct just if no table has two such columns of one name, and no
two tables clash in this way (`Clash`, `nodup_labels_iff`).
-/

namespace Schemata

/-- The columns of a table that are foreign keys with a reference. -/
theorem Table.foreignKeys_map_fst (t : Table) :
    t.foreignKeys.map (·.1) = t.columns.filter (·.foreignKey?.isSome) := by
  rw [foreignKeys]
  induction t.columns with
  | nil => rfl
  | cons c columns ih =>
    cases hkey : c.foreignKey? with
    | none => simp [hkey, ih]
    | some r => simp [hkey, ih]

namespace Sql

/-- What a script names after a table and one of its columns. -/
inductive Labelled where
  /-- A foreign key constraint. -/
  | constraint
  /-- An index. -/
  | index
  /-- The type of an enumeration. -/
  | enumeration
deriving DecidableEq, Repr

namespace Labelled

/-- The name for a table and a column. -/
def label : Labelled → String → String → String
  | constraint, table, column => "fk_" ++ table ++ "_" ++ column
  | index, table, column => indexName table column
  | enumeration, table, column => enumTypeName table column

/-- Whether something is named after a column of a table. -/
def marks (d : Dialect) (t : Table) : Labelled → Column → Bool
  | constraint, c => c.foreignKey?.isSome
  | index, c => some c.name ≠ (t.keyColumns.map (·.name)).head? && c.foreignKey?.isSome
  | enumeration, c => d = .postgresql && (DataType.ofString c.dataType).isEnumeration

/-- The names of the columns of a table after which something is named. -/
def columns (kind : Labelled) (d : Dialect) (t : Table) : List String :=
  (t.columns.filter (kind.marks d t)).map (·.name)

/-- The names that a statement gives. -/
def given : Labelled → Statement → List String
  | constraint, .createTable t => t.foreignKeys.map (·.name)
  | constraint, .addForeignKey key => [key.name]
  | index, .createIndex table column => [indexName table column]
  | enumeration, .createType name _ => [name]
  | _, _ => []

/-- The name of `u` is that of `t` continued by words, and a column of `t` is named like one of `u`
with the same words in front. -/
def Clash (kind : Labelled) (d : Dialect) (t u : Table) : Prop :=
  ∃ words : String, u.name = t.name ++ "_" ++ words ∧
    ∃ column ∈ kind.columns d u, words ++ "_" ++ column ∈ kind.columns d t

end Labelled

/-! ## Names with an underscore between their parts -/

private theorem toList_underscore : "_".toList = ['_'] := rfl

/-- **Where a name can be cut in two ways**, the longer first part goes on with words that the
second part starts with in the other way. -/
theorem append_underscore_eq_iff {a b c d : String} :
    a ++ "_" ++ b = c ++ "_" ++ d ↔ (a = c ∧ b = d) ∨
      (∃ words, c = a ++ "_" ++ words ∧ b = words ++ "_" ++ d) ∨
      ∃ words, a = c ++ "_" ++ words ∧ d = words ++ "_" ++ b := by
  -- one part is longer than the other by nothing, or by an underscore and words
  have hcut : ∀ {a b c d : String} {rest : List Char}, c.toList = a.toList ++ rest →
      '_' :: b.toList = rest ++ '_' :: d.toList → (a = c ∧ b = d) ∨
        ∃ words, c = a ++ "_" ++ words ∧ b = words ++ "_" ++ d := by
    intro a b c d rest hc hb
    cases rest with
    | nil =>
      rw [List.append_nil] at hc
      exact .inl ⟨String.toList_inj.1 hc.symm, String.toList_inj.1 (List.cons.inj hb).2⟩
    | cons first words =>
      obtain ⟨rfl, -⟩ := List.cons.inj hb
      refine .inr ⟨String.ofList words, String.toList_inj.1 ?_, String.toList_inj.1 ?_⟩
      · simp [hc, toList_underscore]
      · simpa [toList_underscore] using (List.cons.inj hb).2
  constructor
  · intro h
    have hlists := congrArg String.toList h
    simp only [String.toList_append, toList_underscore, List.append_assoc,
      List.singleton_append] at hlists
    rcases List.append_eq_append_iff.1 hlists with ⟨rest, hc, hb⟩ | ⟨rest, ha, hd⟩
    · rcases hcut hc hb with hsame | hlonger
      · exact .inl hsame
      · exact .inr (.inl hlonger)
    · rcases hcut ha hd with ⟨rfl, rfl⟩ | hlonger
      · exact .inl ⟨rfl, rfl⟩
      · exact .inr (.inr hlonger)
  · rintro (⟨rfl, rfl⟩ | ⟨words, rfl, rfl⟩ | ⟨words, rfl, rfl⟩) <;>
      simp only [String.append_assoc]

namespace Labelled

variable {kind : Labelled} {d : Dialect} {tables : List Table}

theorem label_eq_iff {a b a' b' : String} :
    kind.label a b = kind.label a' b' ↔ a ++ "_" ++ b = a' ++ "_" ++ b' := by
  simp only [← String.toList_inj]
  cases kind with
  | constraint | index => simp [label, indexName]
  | enumeration =>
    simp only [label, enumTypeName, String.toList_append]
    exact List.append_left_inj _

theorem label_injective (table : String) : Function.Injective (kind.label table) := by
  intro b b' h
  simpa [← String.toList_inj] using label_eq_iff.1 h

theorem Clash.name_ne {t u : Table} (h : kind.Clash d t u) : t.name ≠ u.name := by
  obtain ⟨words, hname, -⟩ := h
  intro heq
  have hlength := congrArg String.length (heq.trans hname)
  simp only [String.length_append] at hlength
  have hpos : "_".length = 1 := rfl
  omega

/-- The names for two tables are apart unless the tables clash. -/
theorem disjoint_iff {t u : Table} (hne : t.name ≠ u.name) :
    ((kind.columns d t).map (kind.label t.name)).Disjoint
        ((kind.columns d u).map (kind.label u.name)) ↔
      ¬kind.Clash d t u ∧ ¬kind.Clash d u t := by
  rw [← not_or, ← not_iff_not, not_not, List.disjoint_left]
  push Not
  constructor
  · rintro ⟨name, ht, hu⟩
    obtain ⟨a, ha, rfl⟩ := List.mem_map.1 ht
    obtain ⟨b, hb, hlabel⟩ := List.mem_map.1 hu
    rcases append_underscore_eq_iff.1 (label_eq_iff.1 hlabel.symm) with
      ⟨hname, -⟩ | ⟨words, hname, rfl⟩ | ⟨words, hname, rfl⟩
    · exact absurd hname hne
    · exact .inl ⟨words, hname, b, hb, ha⟩
    · exact .inr ⟨words, hname, a, ha, hb⟩
  · rintro (⟨words, hname, column, hu, ht⟩ | ⟨words, hname, column, ht, hu⟩)
    · refine ⟨_, List.mem_map_of_mem ht, List.mem_map.2 ⟨column, hu, label_eq_iff.2 ?_⟩⟩
      rw [hname, ← String.append_assoc, ← String.append_assoc]
    · refine ⟨_, List.mem_map_of_mem ht, List.mem_map.2 ⟨_, hu, label_eq_iff.2 ?_⟩⟩
      rw [hname, ← String.append_assoc, ← String.append_assoc]

/-- **The names of a kind are distinct** just if they are in each table and no two tables clash. -/
theorem nodup_labels_iff (h : (tables.map (·.name)).Nodup) :
    (tables.flatMap fun t => (kind.columns d t).map (kind.label t.name)).Nodup ↔
      (∀ t ∈ tables, (kind.columns d t).Nodup) ∧ ∀ t ∈ tables, ∀ u ∈ tables, ¬kind.Clash d t u := by
  rw [List.nodup_flatMap]
  refine and_congr (forall₂_congr fun t _ => List.nodup_map_iff (label_injective _)) ?_
  constructor
  · intro hpairs t ht u hu hclash
    have hsymm : Std.Symm (Function.onFun List.Disjoint fun t =>
        (kind.columns d t).map (kind.label t.name)) := ⟨fun _ _ hdisjoint => hdisjoint.symm⟩
    have hdisjoint := hpairs.forall ht hu fun heq => hclash.name_ne (congrArg Table.name heq)
    exact ((disjoint_iff hclash.name_ne).1 hdisjoint).1 hclash
  · intro hclash
    refine (List.Nodup.of_map _ h).pairwise_of_forall_ne fun t ht u hu hne => ?_
    have hname : t.name ≠ u.name := fun heq => hne (List.inj_on_of_nodup_map h ht hu heq)
    exact (disjoint_iff hname).2 ⟨hclash t ht u hu, hclash u hu t ht⟩

/-! ## The names in a script -/

/-- What the constraints of a table are called. -/
theorem map_name_constraints (d : Dialect) (t : Table) :
    (constraints t).map (·.name) =
      (columns constraint d t).map (label constraint t.name) := by
  have hkeys : columns constraint d t = (t.foreignKeys.map (·.1)).map (·.name) := by
    rw [t.foreignKeys_map_fst]
    rfl
  rw [hkeys, constraints, List.map_map, List.map_map, List.map_map]
  rfl

theorem flatMap_given_indexes (d : Dialect) (tables : List Table) :
    (tables.flatMap Script.indexes).flatMap index.given =
      tables.flatMap fun t => (columns index d t).map (label index t.name) := by
  rw [List.flatMap_assoc]
  refine List.flatMap_congr fun t _ => ?_
  have hmarks : marks d t index = fun c =>
    decide (some c.name ≠ (t.keyColumns.map (·.name)).head?) && c.foreignKey?.isSome := rfl
  have hkeys : columns index d t = ((t.foreignKeys.filter fun key =>
      some key.1.name ≠ (t.keyColumns.map (·.name)).head?).map (·.1)).map (·.name) := by
    rw [columns, hmarks, ← List.filter_filter, ← t.foreignKeys_map_fst, List.filter_map]
    rfl
  rw [hkeys, Script.indexes, List.flatMap_map, List.map_map, List.map_map]
  exact List.map_eq_flatMap.symm

theorem flatMap_given_types (d : Dialect) (tables : List Table) :
    (Script.types d tables).flatMap enumeration.given =
      tables.flatMap fun t => (columns enumeration d t).map (label enumeration t.name) := by
  unfold Script.types
  split
  · rename_i hd
    rw [List.flatMap_map, Script.enumTypes, List.flatMap_assoc]
    refine List.flatMap_congr fun t _ => ?_
    rw [columns, List.map_map]
    induction t.columns with
    | nil => rfl
    | cons c columns ih =>
      cases henum : (DataType.ofString c.dataType).isEnumeration with
      | true => simpa [hd, marks, henum, given, label] using ih
      | false => simpa [hd, marks, henum] using ih
  · rename_i hd
    refine (List.flatMap_eq_nil_iff.2 fun t _ => ?_).symm
    simp [columns, marks, hd]

end Labelled

namespace Script

variable {α : Type} {f : Statement → List α} {tables : List Table}

theorem flatMap_types (hf : ∀ name values, f (.createType name values) = []) (d : Dialect) :
    (types d tables).flatMap f = [] := by
  unfold types
  split
  · rw [List.flatMap_map, List.flatMap_eq_nil_iff]
    exact fun type _ => hf _ _
  · rfl

theorem flatMap_indexes (hf : ∀ table column, f (.createIndex table column) = []) :
    (tables.flatMap indexes).flatMap f = [] := by
  rw [List.flatMap_assoc, List.flatMap_eq_nil_iff]
  intro t _
  rw [indexes, List.flatMap_map, List.flatMap_eq_nil_iff]
  exact fun key _ => hf _ _

theorem flatMap_addedKeys (d : Dialect) (deferred : List (String × String)) :
    (addedKeys d deferred tables).flatMap f =
      (tables.flatMap fun t => (constraints t).filter fun key => !isInline d deferred key).flatMap
        fun key => f (.addForeignKey key) := by
  rw [addedKeys, List.flatMap_assoc, List.flatMap_assoc]
  exact List.flatMap_congr fun t _ => List.flatMap_map _ _ _

/-- What only tables, constraints, indexes and types contribute to. -/
theorem flatMap_ofTables (hf : ∀ statement, statement.isBare = true → f statement = [])
    {d : Dialect} {head : List Statement} {order : CreationOrder} {script : Script}
    (hhead : head.all Statement.isBare = true) (h : ofTables d head order = .ok script) :
    ∃ definitions, Defines d order definitions ∧ script.statements.flatMap f =
      (types d order.tables).flatMap f ++ (definitions.flatMap (fun t => f (.createTable t)) ++
        ((addedKeys d order.deferred order.tables).flatMap f ++
          (order.tables.flatMap indexes).flatMap f)) := by
  obtain ⟨definitions, procedures, hdefinitions, hprocedures, hstatements⟩ := ofTables_eq_ok h
  have hbare (others : List Statement) (hothers : others.all Statement.isBare = true) :
      others.flatMap f = [] :=
    List.flatMap_eq_nil_iff.2 fun statement hmem => hf _ (List.all_eq_true.1 hothers _ hmem)
  refine ⟨definitions, defines_of_mapM hdefinitions, ?_⟩
  simp only [hstatements, List.flatMap_append, List.flatMap_map, hbare _ hhead,
    hbare _ (isBare_dropping d _), hbare _ (isBare_behindIndexes hprocedures), List.nil_append,
    List.append_nil, List.append_assoc]

end Script

namespace Labelled

variable {kind : Labelled} {d : Dialect}

theorem given_eq_nil {statement : Statement} (h : statement.isBare = true) :
    kind.given statement = [] := by
  cases statement <;> first | contradiction | (cases kind <;> rfl)

/-- **The names that a script gives**: for each kind, those of the tables and columns of the
expanded schema after which something is named. -/
theorem perm_given_script {s : Schema} {now : Moment} {script : Script}
    (hnames : s.tableNames.Nodup) (h : Script.of d now s = .ok script) :
    ∃ expanded, s.expandManyToMany = .ok expanded ∧ ∀ kind : Labelled,
      (script.statements.flatMap kind.given).Perm
        (expanded.tables.flatMap fun t => (kind.columns d t).map (kind.label t.name)) := by
  obtain ⟨expanded, hexpanded, -, hscript⟩ := Script.of_eq_ok h
  refine ⟨expanded, hexpanded, fun kind => ?_⟩
  have horder := CreationOrder.perm_of (Schema.nodup_expandManyToMany hnames hexpanded)
  set order := CreationOrder.of expanded.tables with hof
  obtain ⟨definitions, hdefines, hgiven⟩ := Script.flatMap_ofTables
    (fun _ => @given_eq_nil kind _) (Script.isBare_heading s now) hscript
  rw [hgiven]
  refine .trans ?_ (horder.flatMap_right _)
  have hnone (α : Type) (as : List α) : as.flatMap (fun _ => ([] : List String)) = [] :=
    List.flatMap_eq_nil_iff.2 fun _ _ => rfl
  rw [Script.flatMap_addedKeys]
  cases kind with
  | constraint =>
    rw [Script.flatMap_types fun _ _ => rfl, Script.flatMap_indexes fun _ _ => rfl]
    have hkeys := (perm_constraints (isInline d order.deferred) order.tables).map ForeignKey.name
    rw [List.map_append, ← hdefines.foreignKeys_eq, @List.map_flatMap _ _ _ _ _ definitions,
      @List.map_eq_flatMap _ _ _ (List.flatMap _ order.tables), List.map_flatMap] at hkeys
    rw [List.nil_append, List.append_nil]
    simp only [map_name_constraints d] at hkeys
    exact hkeys
  | index =>
    rw [Script.flatMap_types fun _ _ => rfl, flatMap_given_indexes d]
    simp [given, hnone]
  | enumeration =>
    rw [Script.flatMap_indexes fun _ _ => rfl, flatMap_given_types]
    simp [given, hnone]

/-! ## Junctions -/

/-- Nothing is named after the moments of a row. -/
theorem marks_stamp (t : Table) (stamp : String) : kind.marks d t (.stamp stamp) = false := by
  have htype : (DataType.ofString "TIMESTAMP").isEnumeration = false := by decide +kernel
  cases kind <;> simp [marks, Column.stamp, Column.foreignKey?, htype]

/-- The columns of a junction after which something is named have names of their own. -/
theorem nodup_columns_junctionTable (r : Relationship) (source target : Table) :
    (kind.columns d (junctionTable r source target)).Nodup := by
  set junction := junctionTable r source target with hjunction
  have hcolumns : junction.columns = (junctionKey (junctionKeyNames source target).1 source ::
      junctionKey (junctionKeyNames source target).2 target ::
        (untaken ([(junctionKeyNames source target).1, (junctionKeyNames source target).2] ++
          stampNames) r.attributes).map junctionColumn) ++ stampNames.map Column.stamp := rfl
  have hstamps : (stampNames.map Column.stamp).filter (kind.marks d junction) = [] := by
    rw [List.filter_eq_nil_iff, List.forall_mem_map]
    exact fun stamp _ => by rw [marks_stamp]; exact Bool.false_ne_true
  rw [columns, hcolumns, List.filter_append, hstamps, List.append_nil]
  refine (List.filter_sublist.map _).nodup ?_
  rw [List.map_cons, List.map_cons, List.map_map]
  exact nodup_junctionNames r source target

/-- Nothing is named after a column because it becomes unique. -/
theorem columns_referenceable (t : Table) :
    kind.columns d t.referenceable = kind.columns d t := by
  obtain ⟨isUnique, hcolumns, -⟩ := t.exists_columns_referenceable
  have hkeys : t.referenceable.keyColumns.map (·.name) = t.keyColumns.map (·.name) := by
    rw [Table.keyColumns_of_map hcolumns fun _ _ => rfl, List.map_map]
    rfl
  have hmarks : (kind.marks d t.referenceable ∘ fun c => { c with isUnique := isUnique c }) =
      kind.marks d t := by
    funext c
    cases kind with
    | constraint | enumeration => rfl
    | index => simp only [Function.comp, marks, hkeys, Column.foreignKey?]
  rw [columns, columns, hcolumns, List.filter_map, hmarks, List.map_map]
  rfl

/-- A name that is repeated in no table is repeated in no junction either. -/
theorem count_columns_expandManyToMany {s expanded : Schema} (hnames : s.tableNames.Nodup)
    {name : String} (hcount : ∀ t ∈ s.tables, (kind.columns d t).count name ≤ 1)
    (h : s.expandManyToMany = .ok expanded) :
    ∀ t ∈ expanded.tables, (kind.columns d t).count name ≤ 1 := by
  refine Schema.forall_expandManyToMany hnames hcount (fun t ht => ?_) (fun r source target => ?_) h
  · rw [columns_referenceable]
    exact ht
  · exact List.nodup_iff_count_le_one.1 (nodup_columns_junctionTable r source target) name

end Labelled

end Sql

end Schemata
