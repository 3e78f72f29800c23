import Schemata.Proofs.Result
import Schemata.Proofs.Schema.Key
import Schemata.Schema.Check

/-!
# What the check of a schema finds

A `Defect` is something amiss at a place of a schema, and `Schema.HasDefect` says in terms of the
schema alone when there is one: tables and columns are told by their positions, since their names
may repeat. `Schema.Reports` says which issue is right for a defect.

The check is sound and complete (`Schema.issues_spec`): the issues of a schema are those of its
defects, one for each, and a schema without defects is sound (`Schema.IsSound`). Each of the lists
of which the issues are put together comes with its defects (`Table.reports`,
`Relationship.reports`), so that no two of them can be one.
-/

namespace Schemata

/-! ## Names that repeat -/

theorem eraseDups_nodup (names : List String) : names.eraseDups.Nodup := by
  match names with
  | [] => simp
  | name :: names =>
    rw [List.eraseDups_cons, List.nodup_cons]
    exact ⟨by simp [List.mem_eraseDups], eraseDups_nodup _⟩
termination_by names.length
decreasing_by exact Nat.lt_succ_of_le (List.length_filter_le ..)

theorem mem_repeated {names : List String} {name : String} {n : ℕ} :
    (name, n) ∈ repeated names ↔ n = names.count name ∧ 1 < n := by
  simp only [repeated, List.mem_filter, List.mem_map, List.mem_eraseDups, Prod.mk.injEq,
    decide_eq_true_eq]
  constructor
  · rintro ⟨⟨_, -, rfl, rfl⟩, hmany⟩
    exact ⟨rfl, hmany⟩
  · rintro ⟨rfl, hmany⟩
    exact ⟨⟨name, List.count_pos_iff.1 (by omega), rfl, rfl⟩, hmany⟩

theorem exists_mem_repeated {names : List String} :
    (∃ name n, (name, n) ∈ repeated names) ↔ ¬names.Nodup := by
  simp only [mem_repeated, exists_eq_left, List.nodup_iff_count_le_one, not_forall, not_le]

/-- Each name that repeats is told once. -/
theorem nodup_repeated (names : List String) : ((repeated names).map (·.1)).Nodup := by
  have hsublist : ((repeated names).map (·.1)).Sublist
      ((names.eraseDups.map fun name => (name, names.count name)).map (·.1)) :=
    List.filter_sublist.map _
  rw [List.map_map] at hsublist
  exact hsublist.nodup ((List.map_id _).symm ▸ eraseDups_nodup names)

/-! ## References -/

/-- The table that a name means is the last one of this name. -/
def IsMeant (tables : List Table) (name : String) (t : Table) : Prop :=
  t.name = name ∧ ∃ before after, tables = before ++ t :: after ∧ ∀ u ∈ after, u.name ≠ name

variable {tables : List Table} {name : String} {t : Table}

theorem not_hasColumn_iff : ¬t.hasColumn name = true ↔ ∀ d ∈ t.columns, d.name ≠ name := by
  simp [Table.hasColumn_iff]

theorem find?_reverse_eq_some : tables.reverse.find? (·.name == name) = some t ↔
    IsMeant tables name t := by
  rw [List.find?_eq_some_iff_append, IsMeant, beq_iff_eq]
  refine and_congr_right fun _ => ?_
  constructor
  · rintro ⟨after, before, heq, hafter⟩
    refine ⟨before.reverse, after.reverse, ?_, fun u hu => ?_⟩
    · simpa using congrArg List.reverse heq
    · simpa using hafter u (List.mem_reverse.1 hu)
  · rintro ⟨before, after, rfl, hafter⟩
    refine ⟨after.reverse, before.reverse, by simp, fun u hu => ?_⟩
    simpa using hafter u (List.mem_reverse.1 hu)

theorem find?_reverse_eq_none : tables.reverse.find? (·.name == name) = none ↔
    ∀ t ∈ tables, t.name ≠ name := by
  simp [List.find?_eq_none]

/-- Of tables of distinct names, the one of a name is meant by it. -/
theorem isMeant_iff (h : (tables.map (·.name)).Nodup) :
    IsMeant tables name t ↔ t ∈ tables ∧ t.name = name := by
  constructor
  · rintro ⟨hname, before, after, rfl, -⟩
    exact ⟨by simp, hname⟩
  · rintro ⟨ht, rfl⟩
    obtain ⟨before, after, rfl⟩ := List.append_of_mem ht
    rw [List.map_append, List.map_cons, List.nodup_append', List.nodup_cons] at h
    exact ⟨rfl, before, after, rfl, fun u hu hname => h.2.1.1 (hname ▸ List.mem_map_of_mem hu)⟩

namespace Column

/-- The reference of a column leads to a column of the table that it means. -/
def Resolves (tables : List Table) (c : Column) : Prop :=
  ∃ r, c.references = some r ∧ ∃ t, IsMeant tables r.table t ∧ ∃ d ∈ t.columns, d.name = r.column

theorem resolves_iff (h : (tables.map (·.name)).Nodup) {c : Column} : c.Resolves tables ↔
    ∃ r, c.references = some r ∧ ∃ t ∈ tables, t.name = r.table ∧ t.hasColumn r.column = true := by
  simp only [Resolves, isMeant_iff h, Table.hasColumn_iff, and_assoc]

/-- The issue for a foreign key that leads nowhere: that it has no reference, else that there is no
table, else that there is no column. -/
inductive Breaks (tables : List Table) (table : String) (c : Column) : Issue → Prop
  /-- There is no reference. -/
  | missingReference (h : c.references = none) :
    Breaks tables table c (.missingReference table c.name)
  /-- There is no table of the name. -/
  | unknownTable {r : Reference} (h : c.references = some r)
    (htable : ∀ t ∈ tables, t.name ≠ r.table) :
    Breaks tables table c (.unknownTable table c.name r)
  /-- There is no column of the name in the table that is meant. -/
  | unknownColumn {r : Reference} {t : Table} (h : c.references = some r)
    (htable : IsMeant tables r.table t) (hcolumn : ∀ d ∈ t.columns, d.name ≠ r.column) :
    Breaks tables table c (.unknownColumn table c.name r)

variable {c : Column} {table : String} {issue : Issue}

/-- **What the check says of a column** is the issue for it. -/
theorem referenceIssue?_eq_some : c.referenceIssue? tables table = some issue ↔
    c.isForeignKey = true ∧ c.Breaks tables table issue := by
  constructor
  · intro h
    rw [referenceIssue?, Option.ite_none_right_eq_some] at h
    obtain ⟨hforeign, h⟩ := h
    refine ⟨hforeign, ?_⟩
    split at h
    case h_1 hnone => exact Option.some.inj h ▸ .missingReference hnone
    case h_2 r hr =>
      split at h
      case h_1 hfind =>
        exact Option.some.inj h ▸ .unknownTable hr (find?_reverse_eq_none.1 hfind)
      case h_2 t hfind =>
        rw [Option.ite_none_left_eq_some] at h
        obtain ⟨hcolumn, h⟩ := h
        exact Option.some.inj h ▸
          .unknownColumn hr (find?_reverse_eq_some.1 hfind) (not_hasColumn_iff.1 hcolumn)
  · rintro ⟨hforeign, h⟩
    rw [referenceIssue?, if_pos hforeign]
    cases h with
    | missingReference hnone => rw [hnone]
    | unknownTable hr htable =>
      rw [hr]
      dsimp only
      rw [find?_reverse_eq_none.2 htable]
    | unknownColumn hr htable hcolumn =>
      rw [hr]
      dsimp only
      rw [find?_reverse_eq_some.2 htable]
      exact if_neg (not_hasColumn_iff.2 hcolumn)

/-- **The check says nothing of a column** that is no foreign key, or whose reference resolves. -/
theorem referenceIssue?_eq_none : c.referenceIssue? tables table = none ↔
    (c.isForeignKey = true → c.Resolves tables) := by
  rw [referenceIssue?, ite_eq_right_iff]
  refine imp_congr_right fun _ => ?_
  cases hr : c.references with
  | none => simp [Resolves, hr]
  | some r =>
    cases hfind : tables.reverse.find? (·.name == r.table) with
    | none =>
      refine iff_of_false (by simp [hfind]) ?_
      rintro ⟨r', hr', t, htable, -⟩
      obtain rfl := Option.some.inj (hr.symm.trans hr')
      rw [find?_reverse_eq_some.2 htable] at hfind
      contradiction
    | some t =>
      dsimp only
      rw [hfind]
      dsimp only
      constructor
      · intro h
        have hcolumn : t.hasColumn r.column = true := by
          by_contra hno
          rw [if_neg hno] at h
          contradiction
        exact ⟨r, hr, t, find?_reverse_eq_some.1 hfind, Table.hasColumn_iff.1 hcolumn⟩
      · rintro ⟨r', hr', u, htable, hcolumn⟩
        obtain rfl := Option.some.inj (hr.symm.trans hr')
        obtain rfl := Option.some.inj (hfind.symm.trans (find?_reverse_eq_some.2 htable))
        exact if_pos (Table.hasColumn_iff.2 hcolumn)

theorem Breaks.not_resolves (h : c.Breaks tables table issue) (hforeign : c.isForeignKey = true) :
    ¬c.Resolves tables := by
  intro hresolves
  have hsome := referenceIssue?_eq_some.2 ⟨hforeign, h⟩
  rw [referenceIssue?_eq_none.2 fun _ => hresolves] at hsome
  contradiction

/-- There is an issue for every foreign key that does not resolve. -/
theorem exists_breaks (hforeign : c.isForeignKey = true) (h : ¬c.Resolves tables)
    (table : String) : ∃ issue, c.Breaks tables table issue := by
  cases hissue : c.referenceIssue? tables table with
  | none => exact absurd (referenceIssue?_eq_none.1 hissue hforeign) h
  | some issue => exact ⟨issue, (referenceIssue?_eq_some.1 hissue).2⟩

end Column

/-! ## Defects -/

/-- Something amiss at a place of a schema. -/
inductive Defect where
  /-- Tables share the name. -/
  | repeatedTable (name : String)
  /-- The table at a position has no primary key. -/
  | missingKey (i : ℕ)
  /-- Columns of the table at a position share the name. -/
  | repeatedColumn (i : ℕ) (name : String)
  /-- The column at a position of a table is a foreign key that leads nowhere. -/
  | brokenKey (i j : ℕ)
  /-- A side of the relationship at a position is no table. -/
  | unknownSide (i : ℕ) (side : Side)
deriving DecidableEq

/-- Whether a script for the schema would refer to nothing. -/
def Defect.isBlocking : Defect → Bool
  | repeatedTable _ | missingKey _ | repeatedColumn .. => false
  | brokenKey .. | unknownSide .. => true

/-- The table on a side of a relationship. -/
def Relationship.tableAt (r : Relationship) : Side → String
  | .source => r.sourceTable
  | .target => r.targetTable

namespace Schema

/-- There is something amiss in a schema. -/
def HasDefect (s : Schema) : Defect → Prop
  | .repeatedTable name => 1 < s.tableNames.count name
  | .missingKey i => ∃ t, s.tables[i]? = some t ∧ ∀ c ∈ t.columns, c.isPrimaryKey = false
  | .repeatedColumn i name => ∃ t, s.tables[i]? = some t ∧ 1 < (t.columns.map (·.name)).count name
  | .brokenKey i j => ∃ t c, s.tables[i]? = some t ∧ t.columns[j]? = some c ∧
    c.isForeignKey = true ∧ ¬c.Resolves s.tables
  | .unknownSide i side => ∃ r, s.relationships[i]? = some r ∧ r.tableAt side ∉ s.tableNames

/-- The issue says what is amiss. -/
def Reports (s : Schema) (issue : Issue) : Defect → Prop
  | .repeatedTable name => issue = .repeatedTable name (s.tableNames.count name)
  | .missingKey i => ∃ t, s.tables[i]? = some t ∧ issue = .missingKey t.name
  | .repeatedColumn i name => ∃ t, s.tables[i]? = some t ∧
    issue = .repeatedColumn t.name name ((t.columns.map (·.name)).count name)
  | .brokenKey i j => ∃ t c, s.tables[i]? = some t ∧ t.columns[j]? = some c ∧
    c.Breaks s.tables t.name issue
  | .unknownSide i side => ∃ r, s.relationships[i]? = some r ∧
    issue = .unknownSide r.name side (r.tableAt side)

/-- A schema in which names are distinct, tables have keys, and whatever is referred to is there. -/
structure IsSound (s : Schema) : Prop where
  /-- No two tables share a name. -/
  names : s.tableNames.Nodup
  /-- Every table has a primary key. -/
  keyed : ∀ t ∈ s.tables, ∃ c ∈ t.columns, c.isPrimaryKey = true
  /-- No two columns of a table share a name. -/
  distinct : ∀ t ∈ s.tables, t.Distinct
  /-- Every foreign key leads to a column of the table that it means. -/
  resolves : ∀ t ∈ s.tables, ∀ c ∈ t.columns, c.isForeignKey = true → c.Resolves s.tables
  /-- Both sides of every relationship are tables. -/
  joins : ∀ r ∈ s.relationships, r.sourceTable ∈ s.tableNames ∧ r.targetTable ∈ s.tableNames

end Schema

/-! ## Issues with their defects -/

/-- The issues of the table at a position, each with its defect. -/
def Table.reports (tables : List Table) (t : Table) (i : ℕ) : List (Defect × Issue) :=
  (if t.keyColumns.isEmpty then [(.missingKey i, .missingKey t.name)] else [])
    ++ (repeated (t.columns.map (·.name))).map
      (fun p => (.repeatedColumn i p.1, .repeatedColumn t.name p.1 p.2))
    ++ t.columns.zipIdx.filterMap fun p =>
      (p.1.referenceIssue? tables t.name).map (.brokenKey i p.2, ·)

/-- The issues of the relationship at a position, each with its defect. -/
def Relationship.reports (names : List String) (r : Relationship) (i : ℕ) : List (Defect × Issue) :=
  [Side.source, .target].filterMap fun side =>
    (if r.tableAt side ∈ names then none else some (.unknownSide r.name side (r.tableAt side))).map
      (.unknownSide i side, ·)

/-- The issues of a schema, each with its defect. -/
def Schema.reports (s : Schema) : List (Defect × Issue) :=
  (repeated s.tableNames).map (fun p => (.repeatedTable p.1, .repeatedTable p.1 p.2))
    ++ s.tables.zipIdx.flatMap (fun p => p.1.reports s.tables p.2)
    ++ s.relationships.zipIdx.flatMap fun p => p.1.reports s.tableNames p.2

theorem flatMap_zipIdx {α β : Type} (f : α → List β) (l : List α) :
    (l.zipIdx.flatMap fun p => f p.1) = l.flatMap f := by
  rw [← List.flatMap_map, List.zipIdx_map_fst]

theorem filterMap_zipIdx {α β : Type} (f : α → Option β) (l : List α) :
    (l.zipIdx.filterMap fun p => f p.1) = l.filterMap f := by
  have hmap : (l.zipIdx.map Prod.fst).filterMap f = l.zipIdx.filterMap fun p => f p.1 :=
    List.filterMap_map
  rw [← hmap, List.zipIdx_map_fst]

theorem Table.map_snd_reports (tables : List Table) (t : Table) (i : ℕ) :
    (t.reports tables i).map (·.2) = t.issues tables := by
  have hkey : (if t.keyColumns.isEmpty then [(Defect.missingKey i, Issue.missingKey t.name)]
      else []).map (·.2) = if t.keyColumns.isEmpty then [.missingKey t.name] else [] := by
    split <;> rfl
  have hreferences := filterMap_zipIdx (·.referenceIssue? tables t.name) t.columns
  rw [reports, issues, List.map_append, List.map_append, hkey, List.map_map, List.map_filterMap,
    ← hreferences]
  simp [Function.comp_def]

theorem Relationship.map_snd_reports (names : List String) (r : Relationship) (i : ℕ) :
    (r.reports names i).map (·.2) = r.issues names := by
  have hsides : [(Side.source, r.sourceTable), (Side.target, r.targetTable)] =
      [Side.source, .target].map fun side => (side, r.tableAt side) := rfl
  rw [reports, issues, hsides, List.filterMap_map, List.map_filterMap]
  simp only [Option.map_map, Function.comp_def, Option.map_id']

theorem Schema.map_snd_reports (s : Schema) : s.reports.map (·.2) = s.issues := by
  have htables := flatMap_zipIdx (·.issues s.tables) s.tables
  have hrelationships := flatMap_zipIdx (·.issues s.tableNames) s.relationships
  simp only [reports, issues, List.map_append, List.map_map, List.map_flatMap,
    Table.map_snd_reports, Relationship.map_snd_reports, htables, hrelationships]
  rfl

theorem Table.mem_reports {tables : List Table} {t : Table} {i : ℕ} {p : Defect × Issue} :
    p ∈ t.reports tables i ↔
      (∀ c ∈ t.columns, c.isPrimaryKey = false) ∧ p = (.missingKey i, .missingKey t.name) ∨
      (∃ name, 1 < (t.columns.map (·.name)).count name ∧ p = (.repeatedColumn i name,
        .repeatedColumn t.name name ((t.columns.map (·.name)).count name))) ∨
      ∃ j c issue, t.columns[j]? = some c ∧ c.isForeignKey = true ∧
        c.Breaks tables t.name issue ∧ p = (.brokenKey i j, issue) := by
  have hkey : t.keyColumns.isEmpty = true ↔ ∀ c ∈ t.columns, c.isPrimaryKey = false := by
    simp [keyColumns, List.filter_eq_nil_iff]
  rw [reports, List.mem_append, List.mem_append, or_assoc]
  refine or_congr ?_ (or_congr ?_ ?_)
  · rw [List.mem_ite_nil_right, hkey, List.mem_singleton]
  · rw [List.mem_map]
    constructor
    · rintro ⟨⟨name, n⟩, hmem, rfl⟩
      obtain ⟨rfl, hmany⟩ := mem_repeated.1 hmem
      exact ⟨name, hmany, rfl⟩
    · rintro ⟨name, hmany, rfl⟩
      exact ⟨(name, _), mem_repeated.2 ⟨rfl, hmany⟩, rfl⟩
  · simp only [List.mem_filterMap, Option.map_eq_some_iff, Column.referenceIssue?_eq_some]
    constructor
    · rintro ⟨⟨c, j⟩, hmem, issue, ⟨hforeign, hbreaks⟩, rfl⟩
      exact ⟨j, c, issue, List.mem_zipIdx_iff_getElem?.1 hmem, hforeign, hbreaks, rfl⟩
    · rintro ⟨j, c, issue, hc, hforeign, hbreaks, rfl⟩
      exact ⟨(c, j), List.mem_zipIdx_iff_getElem?.2 hc, issue, ⟨hforeign, hbreaks⟩, rfl⟩

theorem Relationship.mem_reports {names : List String} {r : Relationship} {i : ℕ}
    {p : Defect × Issue} : p ∈ r.reports names i ↔ ∃ side, r.tableAt side ∉ names ∧
      p = (.unknownSide i side, .unknownSide r.name side (r.tableAt side)) := by
  rw [reports, List.mem_filterMap]
  constructor
  · rintro ⟨side, -, h⟩
    obtain ⟨issue, hissue, rfl⟩ := Option.map_eq_some_iff.1 h
    obtain ⟨hside, hissue⟩ := Option.ite_none_left_eq_some.1 hissue
    exact ⟨side, hside, by rw [Option.some.inj hissue]⟩
  · rintro ⟨side, hside, rfl⟩
    refine ⟨side, by cases side <;> simp, ?_⟩
    rw [if_neg hside, Option.map_some]

/-! ## One issue for each defect -/

theorem map_fst_filterMap_sublist {α β γ : Type} (key : α → β) (f : α → Option γ) (l : List α) :
    ((l.filterMap fun a => (f a).map (key a, ·)).map (·.1)).Sublist (l.map key) := by
  induction l with
  | nil => exact .slnil
  | cons a l ih =>
    rw [List.filterMap_cons]
    cases f a with
    | none => exact ih.cons _
    | some b => exact ih.cons_cons _

/-- Lists for the positions of another one share nothing if they tell their positions. -/
theorem nodup_flatMap_zipIdx {α β : Type} {l : List α} {f : α → ℕ → List β} (position : β → ℕ)
    (hnodup : ∀ a i, (f a i).Nodup) (hposition : ∀ a i, ∀ b ∈ f a i, position b = i) :
    (l.zipIdx.flatMap fun p => f p.1 p.2).Nodup := by
  have hpositions : (l.zipIdx.map Prod.snd).Nodup := by
    rw [List.zipIdx_map_snd]
    exact List.nodup_range' 1
  refine List.nodup_flatMap.2 ⟨fun p _ => hnodup _ _, ?_⟩
  refine (List.pairwise_map.1 hpositions).imp fun {p q} hne b hp hq => hne ?_
  rw [← hposition _ _ b hp, hposition _ _ b hq]

/-- The position of a defect among the tables, or among the relationships. -/
def Defect.position : Defect → ℕ
  | repeatedTable _ => 0
  | missingKey i | repeatedColumn i _ | brokenKey i _ | unknownSide i _ => i

theorem Table.position_of_mem_reports {tables : List Table} {t : Table} {i : ℕ} {x : Defect}
    (h : x ∈ (t.reports tables i).map (·.1)) : x.position = i ∧
      (∀ name, x ≠ .repeatedTable name) ∧ ∀ k side, x ≠ .unknownSide k side := by
  obtain ⟨p, hp, rfl⟩ := List.mem_map.1 h
  rcases mem_reports.1 hp with ⟨-, rfl⟩ | ⟨name, -, rfl⟩ | ⟨j, c, issue, -, -, -, rfl⟩ <;>
    simp [Defect.position]

theorem Table.nodup_reports (tables : List Table) (t : Table) (i : ℕ) :
    ((t.reports tables i).map (·.1)).Nodup := by
  have hkey : ((if t.keyColumns.isEmpty then [(Defect.missingKey i, Issue.missingKey t.name)]
      else []).map (·.1)).Sublist [.missingKey i] := by
    split
    · exact .refl _
    · exact List.nil_sublist _
  have hnames := (nodup_repeated (t.columns.map (·.name))).map (f := Defect.repeatedColumn i)
    fun _ _ h => (Defect.repeatedColumn.inj h).2
  rw [List.map_map] at hnames
  have hpositions := (List.nodup_range' (s := 0) (n := t.columns.length) 1).map
    (f := Defect.brokenKey i) fun _ _ h => (Defect.brokenKey.inj h).2
  rw [← List.zipIdx_map_snd, List.map_map] at hpositions
  have hreferences := map_fst_filterMap_sublist (fun p : Column × ℕ => Defect.brokenKey i p.2)
    (fun p => p.1.referenceIssue? tables t.name) t.columns.zipIdx
  rw [reports, List.map_append, List.map_append, List.map_map, List.nodup_append',
    List.nodup_append']
  refine ⟨⟨hkey.nodup (List.nodup_singleton _), hnames, fun x hx hx' => ?_⟩,
    hreferences.nodup hpositions, fun x hx hx' => ?_⟩
  · obtain ⟨p, -, rfl⟩ := List.mem_map.1 hx'
    simpa using hkey.subset hx
  · obtain ⟨p, -, rfl⟩ := List.mem_map.1 (hreferences.subset hx')
    rcases List.mem_append.1 hx with hx | hx
    · simpa using hkey.subset hx
    · simp at hx

theorem Relationship.exists_side_of_mem_reports {names : List String} {r : Relationship} {i : ℕ}
    {x : Defect} (h : x ∈ (r.reports names i).map (·.1)) : ∃ side, x = .unknownSide i side := by
  obtain ⟨p, hp, rfl⟩ := List.mem_map.1 h
  obtain ⟨side, -, rfl⟩ := mem_reports.1 hp
  exact ⟨side, rfl⟩

theorem Relationship.nodup_reports (names : List String) (r : Relationship) (i : ℕ) :
    ((r.reports names i).map (·.1)).Nodup :=
  (map_fst_filterMap_sublist (Defect.unknownSide i) _ _).nodup (by simp)

namespace Schema

variable {s : Schema} {x : Defect} {issue : Issue}

/-- **What is told of a schema** are its defects, each with its issue. -/
theorem mem_reports : (x, issue) ∈ s.reports ↔ s.HasDefect x ∧ s.Reports issue x := by
  rw [reports, List.mem_append, List.mem_append]
  constructor
  · rintro ((h | h) | h)
    · obtain ⟨⟨name, n⟩, hmem, heq⟩ := List.mem_map.1 h
      obtain ⟨rfl, hmany⟩ := mem_repeated.1 hmem
      obtain ⟨rfl, rfl⟩ := Prod.mk.inj heq
      exact ⟨hmany, rfl⟩
    · obtain ⟨⟨t, i⟩, ht, h⟩ := List.mem_flatMap.1 h
      have ht : s.tables[i]? = some t := List.mem_zipIdx_iff_getElem?.1 ht
      rcases Table.mem_reports.1 h with ⟨hkey, heq⟩ | ⟨name, hmany, heq⟩ |
        ⟨j, c, issue, hc, hforeign, hbreaks, heq⟩ <;> obtain ⟨rfl, rfl⟩ := Prod.mk.inj heq
      · exact ⟨⟨t, ht, hkey⟩, t, ht, rfl⟩
      · exact ⟨⟨t, ht, hmany⟩, t, ht, rfl⟩
      · exact ⟨⟨t, c, ht, hc, hforeign, hbreaks.not_resolves hforeign⟩, t, c, ht, hc, hbreaks⟩
    · obtain ⟨⟨r, i⟩, hr, h⟩ := List.mem_flatMap.1 h
      have hr : s.relationships[i]? = some r := List.mem_zipIdx_iff_getElem?.1 hr
      obtain ⟨side, hside, heq⟩ := Relationship.mem_reports.1 h
      obtain ⟨rfl, rfl⟩ := Prod.mk.inj heq
      exact ⟨⟨r, hr, hside⟩, r, hr, rfl⟩
  · rintro ⟨hdefect, hreports⟩
    have htable : ∀ i (t : Table), s.tables[i]? = some t → (x, issue) ∈ t.reports s.tables i →
        (x, issue) ∈ s.tables.zipIdx.flatMap fun p => p.1.reports s.tables p.2 := fun i t ht h =>
      List.mem_flatMap.2 ⟨(t, i), List.mem_zipIdx_iff_getElem?.2 ht, h⟩
    cases x with
    | repeatedTable name =>
      obtain rfl := hreports
      exact .inl (.inl (List.mem_map.2 ⟨(name, _), mem_repeated.2 ⟨rfl, hdefect⟩, rfl⟩))
    | missingKey i =>
      obtain ⟨t, ht, hkey⟩ := hdefect
      obtain ⟨t', ht', rfl⟩ := hreports
      obtain rfl := Option.some.inj (ht.symm.trans ht')
      exact .inl (.inr (htable i t ht (Table.mem_reports.2 (.inl ⟨hkey, rfl⟩))))
    | repeatedColumn i name =>
      obtain ⟨t, ht, hmany⟩ := hdefect
      obtain ⟨t', ht', rfl⟩ := hreports
      obtain rfl := Option.some.inj (ht.symm.trans ht')
      exact .inl (.inr (htable i t ht (Table.mem_reports.2 (.inr (.inl ⟨name, hmany, rfl⟩)))))
    | brokenKey i j =>
      obtain ⟨t, c, ht, hc, hforeign, -⟩ := hdefect
      obtain ⟨t', c', ht', hc', hbreaks⟩ := hreports
      obtain rfl := Option.some.inj (ht.symm.trans ht')
      obtain rfl := Option.some.inj (hc.symm.trans hc')
      exact .inl (.inr (htable i t ht
        (Table.mem_reports.2 (.inr (.inr ⟨j, c, issue, hc, hforeign, hbreaks, rfl⟩)))))
    | unknownSide i side =>
      obtain ⟨r, hr, hside⟩ := hdefect
      obtain ⟨r', hr', rfl⟩ := hreports
      obtain rfl := Option.some.inj (hr.symm.trans hr')
      exact .inr (List.mem_flatMap.2 ⟨(r, i), List.mem_zipIdx_iff_getElem?.2 hr,
        Relationship.mem_reports.2 ⟨side, hside, rfl⟩⟩)

/-- There is an issue for every defect. -/
theorem HasDefect.exists_reports (h : s.HasDefect x) : ∃ issue, s.Reports issue x := by
  cases x with
  | repeatedTable name => exact ⟨_, rfl⟩
  | missingKey i =>
    obtain ⟨t, ht, -⟩ := h
    exact ⟨_, t, ht, rfl⟩
  | repeatedColumn i name =>
    obtain ⟨t, ht, -⟩ := h
    exact ⟨_, t, ht, rfl⟩
  | brokenKey i j =>
    obtain ⟨t, c, ht, hc, hforeign, hbroken⟩ := h
    obtain ⟨issue, hbreaks⟩ := c.exists_breaks hforeign hbroken t.name
    exact ⟨issue, t, c, ht, hc, hbreaks⟩
  | unknownSide i side =>
    obtain ⟨r, hr, -⟩ := h
    exact ⟨_, r, hr, rfl⟩

theorem mem_map_reports : x ∈ s.reports.map (·.1) ↔ s.HasDefect x := by
  rw [List.mem_map]
  constructor
  · rintro ⟨⟨x, issue⟩, h, rfl⟩
    exact (mem_reports.1 h).1
  · intro h
    obtain ⟨issue, hissue⟩ := h.exists_reports
    exact ⟨(x, issue), mem_reports.2 ⟨h, hissue⟩, rfl⟩

/-- The issues of a schema are those of its defects. -/
theorem mem_issues : issue ∈ s.issues ↔ ∃ x, s.HasDefect x ∧ s.Reports issue x := by
  rw [← s.map_snd_reports, List.mem_map]
  constructor
  · rintro ⟨⟨x, issue⟩, h, rfl⟩
    exact ⟨x, mem_reports.1 h⟩
  · rintro ⟨x, h⟩
    exact ⟨(x, issue), mem_reports.2 h, rfl⟩

/-- No defect is told twice. -/
theorem nodup_reports (s : Schema) : (s.reports.map (·.1)).Nodup := by
  have hnames := (nodup_repeated s.tableNames).map (f := Defect.repeatedTable)
    fun _ _ h => Defect.repeatedTable.inj h
  rw [List.map_map] at hnames
  have htables := nodup_flatMap_zipIdx (l := s.tables)
    (f := fun t i => (t.reports s.tables i).map (·.1)) Defect.position (fun t i => t.nodup_reports s.tables i)
    fun t i x hx => (Table.position_of_mem_reports hx).1
  have hrelationships := nodup_flatMap_zipIdx (l := s.relationships)
    (f := fun r i => (r.reports s.tableNames i).map (·.1)) Defect.position
    (fun r i => r.nodup_reports s.tableNames i) fun r i x hx => by
      obtain ⟨side, rfl⟩ := Relationship.exists_side_of_mem_reports hx
      rfl
  rw [reports, List.map_append, List.map_append, List.map_map, List.map_flatMap, List.map_flatMap,
    List.nodup_append', List.nodup_append']
  refine ⟨⟨hnames, htables, fun x hx hx' => ?_⟩, hrelationships, fun x hx hx' => ?_⟩
  · obtain ⟨p, -, rfl⟩ := List.mem_map.1 hx
    obtain ⟨q, -, hx'⟩ := List.mem_flatMap.1 hx'
    exact (Table.position_of_mem_reports hx').2.1 _ rfl
  · obtain ⟨q, -, hx'⟩ := List.mem_flatMap.1 hx'
    obtain ⟨side, rfl⟩ := Relationship.exists_side_of_mem_reports hx'
    rcases List.mem_append.1 hx with hx | hx
    · simp at hx
    · obtain ⟨q, -, hx⟩ := List.mem_flatMap.1 hx
      exact (Table.position_of_mem_reports hx).2.2 _ _ rfl

theorem Reports.isBlocking_eq (h : s.Reports issue x) : issue.isBlocking = x.isBlocking := by
  cases x with
  | repeatedTable name =>
    obtain rfl := h
    rfl
  | missingKey i =>
    obtain ⟨_, -, rfl⟩ := h
    rfl
  | repeatedColumn i name =>
    obtain ⟨_, -, rfl⟩ := h
    rfl
  | brokenKey i j =>
    obtain ⟨_, _, -, -, hbreaks⟩ := h
    cases hbreaks <;> rfl
  | unknownSide i side =>
    obtain ⟨_, -, rfl⟩ := h
    rfl

/-- No defect is blocking just if all that is referred to is there. -/
theorem forall_isBlocking_iff : (∀ x, s.HasDefect x → x.isBlocking = false) ↔
    (∀ t ∈ s.tables, ∀ c ∈ t.columns, c.isForeignKey = true → c.Resolves s.tables) ∧
      ∀ r ∈ s.relationships, r.sourceTable ∈ s.tableNames ∧ r.targetTable ∈ s.tableNames := by
  constructor
  · intro h
    refine ⟨fun t ht c hc hforeign => ?_, fun r hr => ?_⟩
    · obtain ⟨i, hi⟩ := List.mem_iff_getElem?.1 ht
      obtain ⟨j, hj⟩ := List.mem_iff_getElem?.1 hc
      by_contra hbroken
      exact Bool.noConfusion (h (.brokenKey i j) ⟨t, c, hi, hj, hforeign, hbroken⟩)
    · obtain ⟨i, hi⟩ := List.mem_iff_getElem?.1 hr
      have hside : ∀ side, r.tableAt side ∈ s.tableNames := fun side => by
        by_contra hmissing
        exact Bool.noConfusion (h (.unknownSide i side) ⟨r, hi, hmissing⟩)
      exact ⟨hside .source, hside .target⟩
  · rintro ⟨hresolves, hjoins⟩ x hx
    cases x with
    | repeatedTable _ | missingKey _ | repeatedColumn _ _ => rfl
    | brokenKey i j =>
      obtain ⟨t, c, ht, hc, hforeign, hbroken⟩ := hx
      exact absurd
        (hresolves t (List.mem_of_getElem? ht) c (List.mem_of_getElem? hc) hforeign) hbroken
    | unknownSide i side =>
      obtain ⟨r, hr, hside⟩ := hx
      have ⟨hsource, htarget⟩ := hjoins r (List.mem_of_getElem? hr)
      cases side with
      | source => exact absurd hsource hside
      | target => exact absurd htarget hside

/-- A schema is sound if it has no defects. -/
theorem isSound_iff : s.IsSound ↔ ∀ x, ¬s.HasDefect x := by
  constructor
  · intro h x hx
    have hblocking := forall_isBlocking_iff.2 ⟨h.resolves, h.joins⟩ x hx
    cases x with
    | repeatedTable name => exact absurd hx (List.nodup_iff_count_le_one.1 h.names name).not_gt
    | missingKey i =>
      obtain ⟨t, ht, hkey⟩ := hx
      obtain ⟨c, hc, hprimary⟩ := h.keyed t (List.mem_of_getElem? ht)
      rw [hkey c hc] at hprimary
      contradiction
    | repeatedColumn i name =>
      obtain ⟨t, ht, hmany⟩ := hx
      have hdistinct := h.distinct t (List.mem_of_getElem? ht)
      exact absurd hmany (List.nodup_iff_count_le_one.1 hdistinct name).not_gt
    | brokenKey i j | unknownSide i side => contradiction
  · intro h
    obtain ⟨hresolves, hjoins⟩ := forall_isBlocking_iff.1 fun x hx => absurd hx (h x)
    refine ⟨?_, fun t ht => ?_, fun t ht => ?_, hresolves, hjoins⟩
    · exact List.nodup_iff_count_le_one.2 fun name => not_lt.1 (h (.repeatedTable name))
    · obtain ⟨i, hi⟩ := List.mem_iff_getElem?.1 ht
      by_contra hnone
      refine h (.missingKey i) ⟨t, hi, fun c hc => ?_⟩
      by_contra hprimary
      exact hnone ⟨c, hc, by simpa using hprimary⟩
    · obtain ⟨i, hi⟩ := List.mem_iff_getElem?.1 ht
      exact List.nodup_iff_count_le_one.2 fun name =>
        not_lt.1 fun hmany => h (.repeatedColumn i name) ⟨t, hi, hmany⟩

theorem issues_eq_nil_iff : s.issues = [] ↔ s.IsSound := by
  rw [isSound_iff, ← s.map_snd_reports, List.map_eq_nil_iff, ← List.map_eq_nil_iff (f := (·.1)),
    List.eq_nil_iff_forall_not_mem]
  exact forall_congr' fun x => not_congr mem_map_reports

/-! ## Refusing schemas -/

/-- The blocking issues are those of the blocking defects. -/
theorem filter_isBlocking (s : Schema) : s.issues.filter Issue.isBlocking =
    (s.reports.filter (·.1.isBlocking)).map (·.2) := by
  rw [← s.map_snd_reports, List.filter_map]
  refine congrArg _ (List.filter_congr fun p hp => ?_)
  exact (mem_reports.1 hp).2.isBlocking_eq

theorem filter_isBlocking_eq_nil : s.issues.filter Issue.isBlocking = [] ↔
    ∀ x, s.HasDefect x → x.isBlocking = false := by
  rw [s.filter_isBlocking, List.map_eq_nil_iff, List.filter_eq_nil_iff]
  constructor
  · intro h x hx
    obtain ⟨issue, hissue⟩ := hx.exists_reports
    simpa using h (x, issue) (mem_reports.2 ⟨hx, hissue⟩)
  · intro h p hp
    simp [h p.1 (mem_reports.1 hp).1]

/-- A schema is accepted, or refused with all of its blocking issues. -/
theorem check_cases (s : Schema) :
    s.issues.filter Issue.isBlocking = [] ∧ s.check = .ok () ∨
      s.issues.filter Issue.isBlocking ≠ [] ∧
        s.check = .error ⟨s.issues.filter Issue.isBlocking⟩ := by
  unfold check
  split
  case h_1 hnone => exact .inl ⟨hnone, rfl⟩
  case h_2 hsome => exact .inr ⟨hsome, rfl⟩

theorem check_eq_ok_iff : s.check = .ok () ↔ ∀ x, s.HasDefect x → x.isBlocking = false := by
  rw [← filter_isBlocking_eq_nil]
  rcases s.check_cases with ⟨hnone, heq⟩ | ⟨hsome, heq⟩
  · exact iff_of_true heq hnone
  · exact iff_of_false (by simp [heq]) hsome

/-- **A schema is accepted** just if all that is referred to is there. -/
theorem check_eq_ok : s.check = .ok () ↔
    (∀ t ∈ s.tables, ∀ c ∈ t.columns, c.isForeignKey = true → c.Resolves s.tables) ∧
      ∀ r ∈ s.relationships, r.sourceTable ∈ s.tableNames ∧ r.targetTable ∈ s.tableNames :=
  check_eq_ok_iff.trans forall_isBlocking_iff

theorem check_eq_error {v : Violation} : s.check = .error v ↔
    (∃ x, s.HasDefect x ∧ x.isBlocking = true) ∧
      v.issues = (s.reports.filter (·.1.isBlocking)).map (·.2) := by
  have hsome : (∃ x, s.HasDefect x ∧ x.isBlocking = true) ↔
      s.issues.filter Issue.isBlocking ≠ [] := by
    rw [Ne, filter_isBlocking_eq_nil]
    simp
  rw [hsome, ← s.filter_isBlocking]
  rcases s.check_cases with ⟨hnone, heq⟩ | ⟨hsome, heq⟩
  · exact iff_of_false (by simp [heq]) fun h => h.1 hnone
  · rw [heq, and_iff_right hsome, Except.error.injEq]
    exact ⟨fun h => h ▸ rfl, fun h => congrArg Violation.mk h.symm⟩

/-- **The check is sound and complete.** Nothing is told of a schema just if it is sound. What is
told are its defects, each of them once and with the issue that is right for it. A schema is
accepted if none of its defects is blocking, and else refused with the issues of those that are, in
the same order. -/
theorem issues_spec (s : Schema) :
    (s.issues = [] ↔ s.IsSound) ∧
      ∃ reports : List (Defect × Issue),
        reports.map (·.2) = s.issues ∧ (reports.map (·.1)).Nodup ∧
        (∀ x, x ∈ reports.map (·.1) ↔ s.HasDefect x) ∧
        (∀ p ∈ reports, s.Reports p.2 p.1) ∧
        (s.check = .ok () ↔ ∀ x, s.HasDefect x → x.isBlocking = false) ∧
        ∀ v, s.check = .error v ↔ (∃ x, s.HasDefect x ∧ x.isBlocking = true) ∧
          v.issues = (reports.filter (·.1.isBlocking)).map (·.2) :=
  ⟨issues_eq_nil_iff, s.reports, s.map_snd_reports, s.nodup_reports, fun _ => mem_map_reports,
    fun _ hp => (mem_reports.1 hp).2, check_eq_ok_iff, fun _ => check_eq_error⟩

end Schema

end Schemata
