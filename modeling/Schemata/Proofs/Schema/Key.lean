import Mathlib.Data.List.Find
import Mathlib.Data.List.Nodup
import Schemata.Proofs.Naming
import Schemata.Schema.Key

/-!
# What the operations on keys do to a table

Each operation on a table adds references and key columns and takes nothing away. `Table.Grows`
says so once for all of them: names of columns stay, a key of one column was that key before, and
every reference is an old one or leads to the `referencedKey` of a table and stands in the column
called after that table. `grows_withForeignKey`, `grows_withIdentifyingKey` and
`grows_withContiguousKey` are the lemmas on the operations; `hasForeignKey_withForeignKey` and its
like tell which foreign keys there are afterwards.
-/

namespace Schemata

/-- A column that is a foreign key exactly when it has a reference. -/
def Column.IsConsistent (c : Column) : Prop :=
  c.isForeignKey = c.references.isSome

namespace Table

/-- The names of the key columns, in order. -/
def keyNames (t : Table) : List String :=
  t.keyColumns.map (·.name)

/-- No two columns share a name. -/
def Distinct (t : Table) : Prop :=
  (t.columns.map (·.name)).Nodup

/-- Some column of the name is a foreign key. -/
def HasForeignKey (t : Table) (name : String) : Prop :=
  ∃ c ∈ t.columns, c.isForeignKey = true ∧ c.name = name

/-- How a table changes while references are placed and keys are made: `targets` are the tables
to which the new references lead. -/
structure Grows (targets : List Table) (t t' : Table) : Prop where
  name_eq : t'.name = t.name
  hasColumn : ∀ name, t.hasColumn name = true → t'.hasColumn name = true
  keyed : t.keyColumns ≠ [] → t'.keyColumns ≠ []
  keyNames : ∀ key, t'.keyNames = [key] → t.keyNames = [key]
  consistent : (∀ c ∈ t.columns, c.IsConsistent) → ∀ c ∈ t'.columns, c.IsConsistent
  references : ∀ c ∈ t'.columns, ∀ r, c.references = some r →
    (∃ d ∈ t.columns, d.name = c.name ∧ d.references = some r) ∨
      ∃ u ∈ targets, r.table = u.name ∧ r.column = u.referencedKey.name ∧
        c.name = foreignKeyName u.name

variable {t other owner : Table} {name : String} {f : Column → Column}

/-! ## Columns and keys -/

theorem hasColumn_iff : t.hasColumn name = true ↔ ∃ c ∈ t.columns, c.name = name := by
  simp [hasColumn]

theorem mem_keyColumns {c : Column} : c ∈ t.keyColumns ↔ c ∈ t.columns ∧ c.isPrimaryKey = true := by
  simp [keyColumns]

theorem mem_of_column? {c : Column} (h : t.column? name = some c) :
    c ∈ t.columns ∧ c.name = name :=
  ⟨List.mem_of_find?_eq_some h, by simpa using List.find?_some h⟩

theorem name_ne_of_column?_eq_none (h : t.column? name = none) {c : Column}
    (hc : c ∈ t.columns) : c.name ≠ name := by
  simpa using List.find?_eq_none.1 h c hc

theorem keyNames_ne_nil : t.keyNames ≠ [] ↔ t.keyColumns ≠ [] := by
  simp [keyNames]

theorem referencedKey_mem (h : t.keyColumns ≠ []) : t.referencedKey ∈ t.keyColumns := by
  unfold referencedKey
  split
  · contradiction
  · simp [*]
  · rename_i key keys _ hkeys
    rw [hkeys]
    cases hfind : (key :: keys).find? (!·.isForeignKey) with
    | none => exact List.mem_cons_self
    | some own => exact List.mem_of_find?_eq_some hfind

theorem hasColumn_referencedKey (h : t.keyColumns ≠ []) :
    t.hasColumn t.referencedKey.name = true :=
  hasColumn_iff.2 ⟨_, (mem_keyColumns.1 (referencedKey_mem h)).1, rfl⟩

theorem referencedKey_name_of_keyNames {key : String} (h : t.keyNames = [key]) :
    t.referencedKey.name = key := by
  have hne : t.keyColumns ≠ [] := keyNames_ne_nil.1 (by simp [h])
  have hmem : t.referencedKey.name ∈ t.keyNames := List.mem_map_of_mem (referencedKey_mem hne)
  simpa [h] using hmem

/-- Of several key columns, one that is no reference is referred to, if there is one. -/
theorem referencedKey_isForeignKey (h : ∃ c ∈ t.keyColumns, c.isForeignKey = false)
    (hmany : 1 < t.keyColumns.length) : t.referencedKey.isForeignKey = false := by
  unfold referencedKey
  split
  · rename_i hkeys
    simp [hkeys] at hmany
  · rename_i hkeys
    simp [hkeys] at hmany
  · rename_i key keys _ hkeys
    rw [hkeys] at h
    cases hfind : (key :: keys).find? (!·.isForeignKey) with
    | none =>
      obtain ⟨c, hc, hown⟩ := h
      exact absurd hown (by simpa using List.find?_eq_none.1 hfind c hc)
    | some own =>
      have hown := List.find?_some hfind
      rw [Option.getD_some]
      simpa using hown

/-- References still go to the same key column after a change to single columns. -/
theorem referencedKey_of_map {t' : Table} (hkeys : t'.keyColumns = t.keyColumns.map f)
    (hne : t.keyColumns ≠ [])
    (hforeign : ∀ c ∈ t.keyColumns, (f c).isForeignKey = c.isForeignKey) :
    t'.referencedKey = f t.referencedKey := by
  unfold referencedKey
  rw [hkeys]
  match hcolumns : t.keyColumns with
  | [] => contradiction
  | [key] => rfl
  | key :: key' :: keys =>
    rw [hcolumns] at hforeign
    have hfind : ((key :: key' :: keys).map f).find? (!·.isForeignKey) =
        ((key :: key' :: keys).find? (!·.isForeignKey)).map f := by
      rw [List.find?_map, List.find?_congr fun c hc => ?_]
      rw [Function.comp_apply, hforeign c hc]
    simp only [List.map_cons] at hfind ⊢
    rw [hfind]
    cases (key :: key' :: keys).find? (!·.isForeignKey) <;> rfl

/-- A change to single columns that keeps their names and which of them are key columns. -/
theorem keyNames_map {columns : List Column}
    (h : ∀ c ∈ columns, (f c).isPrimaryKey = c.isPrimaryKey ∧ (f c).name = c.name) :
    keyNames { t with columns := columns.map f } = keyNames { t with columns } := by
  have hkey : columns.filter ((·.isPrimaryKey) ∘ f) = columns.filter (·.isPrimaryKey) :=
    List.filter_congr fun c hc => (h c hc).1
  rw [keyNames, keyNames, keyColumns, keyColumns, List.filter_map, List.map_map, hkey]
  exact List.map_congr_left fun c hc => (h c (List.mem_filter.1 hc).1).2

theorem hasForeignKey_map {columns : List Column}
    (h : ∀ c ∈ columns, (f c).isForeignKey = c.isForeignKey ∧ (f c).name = c.name) :
    HasForeignKey { t with columns := columns.map f } name ↔
      HasForeignKey { t with columns } name := by
  constructor
  · rintro ⟨_, hmem, hkey, hname⟩
    obtain ⟨c, hc, rfl⟩ := List.mem_map.1 hmem
    exact ⟨c, hc, (h c hc).1 ▸ hkey, (h c hc).2 ▸ hname⟩
  · rintro ⟨c, hc, hkey, hname⟩
    exact ⟨f c, List.mem_map_of_mem hc, (h c hc).1.trans hkey, (h c hc).2.trans hname⟩

/-! ## Changes that leave the key alone -/

/-- A table after a change to its columns one by one that keeps their names and what they are to the
key and to other tables. -/
structure SameKeys (t t' : Table) : Prop where
  name_eq : t'.name = t.name
  exists_map : ∃ f : Column → Column, t'.columns = t.columns.map f ∧ ∀ c ∈ t.columns,
    (f c).name = c.name ∧ (f c).isPrimaryKey = c.isPrimaryKey ∧
      (f c).isForeignKey = c.isForeignKey

namespace SameKeys

variable {t' : Table}

theorem exists_keyColumns (h : SameKeys t t') :
    ∃ f : Column → Column, t'.keyColumns = t.keyColumns.map f ∧ ∀ c ∈ t.keyColumns,
      (f c).name = c.name ∧ (f c).isForeignKey = c.isForeignKey := by
  obtain ⟨f, hcolumns, hf⟩ := h.exists_map
  refine ⟨f, ?_, fun c hc => ?_⟩
  · have hkey : t.columns.filter ((·.isPrimaryKey) ∘ f) = t.columns.filter (·.isPrimaryKey) :=
      List.filter_congr fun c hc => (hf c hc).2.1
    rw [keyColumns, hcolumns, List.filter_map, hkey, keyColumns]
  · obtain ⟨hname, -, hforeign⟩ := hf c (mem_keyColumns.1 hc).1
    exact ⟨hname, hforeign⟩

theorem keyNames (h : SameKeys t t') : t'.keyNames = t.keyNames := by
  obtain ⟨f, hcolumns, hf⟩ := h.exists_map
  rw [Table.keyNames, keyColumns, hcolumns]
  exact keyNames_map (t := t) fun c hc => ⟨(hf c hc).2.1, (hf c hc).1⟩

theorem length_keyColumns (h : SameKeys t t') : t'.keyColumns.length = t.keyColumns.length := by
  obtain ⟨f, hkeys, -⟩ := h.exists_keyColumns
  rw [hkeys, List.length_map]

theorem exists_own (h : SameKeys t t') (hown : ∃ c ∈ t'.keyColumns, c.isForeignKey = false) :
    ∃ c ∈ t.keyColumns, c.isForeignKey = false := by
  obtain ⟨f, hkeys, hf⟩ := h.exists_keyColumns
  obtain ⟨d, hd, hown⟩ := hown
  rw [hkeys] at hd
  obtain ⟨c, hc, rfl⟩ := List.mem_map.1 hd
  exact ⟨c, hc, (hf c hc).2 ▸ hown⟩

theorem referencedKey_name (h : SameKeys t t') :
    t'.referencedKey.name = t.referencedKey.name := by
  obtain ⟨f, hkeys, hf⟩ := h.exists_keyColumns
  by_cases hnone : t.keyColumns = []
  · have hnone' : t'.keyColumns = [] := by rw [hkeys, hnone, List.map_nil]
    rw [referencedKey, referencedKey, hnone, hnone']
  · rw [referencedKey_of_map hkeys hnone fun c hc => (hf c hc).2]
    exact (hf _ (referencedKey_mem hnone)).1

theorem hasForeignKey (h : SameKeys t t') : t'.HasForeignKey name ↔ t.HasForeignKey name := by
  obtain ⟨f, hcolumns, hf⟩ := h.exists_map
  rw [HasForeignKey, hcolumns]
  exact hasForeignKey_map (t := t) fun c hc => ⟨(hf c hc).2.2, (hf c hc).1⟩

theorem hasColumn (h : SameKeys t t') (hcolumn : t.hasColumn name = true) :
    t'.hasColumn name = true := by
  obtain ⟨f, hcolumns, hf⟩ := h.exists_map
  obtain ⟨c, hc, rfl⟩ := hasColumn_iff.1 hcolumn
  exact hasColumn_iff.2 ⟨f c, hcolumns ▸ List.mem_map_of_mem hc, (hf c hc).1⟩

end SameKeys

/-- A table after a change to its columns one by one that keeps their names, keys and references. -/
structure Alike (t t' : Table) : Prop where
  name_eq : t'.name = t.name
  exists_map : ∃ f : Column → Column, t'.columns = t.columns.map f ∧ ∀ c ∈ t.columns,
    (f c).name = c.name ∧ (f c).isPrimaryKey = c.isPrimaryKey ∧
      (f c).isForeignKey = c.isForeignKey ∧ (f c).references = c.references

theorem Alike.of_columns {t' : Table} (hname : t'.name = t.name)
    (hcolumns : t'.columns = t.columns) : Alike t t' :=
  ⟨hname, id, by simp [hcolumns], fun _ _ => ⟨rfl, rfl, rfl, rfl⟩⟩

theorem Alike.refl (t : Table) : Alike t t :=
  .of_columns rfl rfl

theorem Alike.sameKeys {t' : Table} (h : Alike t t') : SameKeys t t' := by
  obtain ⟨f, hcolumns, hf⟩ := h.exists_map
  exact ⟨h.name_eq, f, hcolumns, fun c hc => ⟨(hf c hc).1, (hf c hc).2.1, (hf c hc).2.2.1⟩⟩

/-- Making a column unique keeps names, keys and references. -/
theorem Alike.markUnique (t : Table) (name : String) :
    Alike t (t.mapColumns name fun c => { c with isUnique := true }) := by
  refine ⟨rfl, _, rfl, fun c _ => ?_⟩
  by_cases hc : c.name = name <;> simp [hc]

/-! ## Growth -/

namespace Grows

variable {targets targets' : List Table}

theorem refl (targets : List Table) (t : Table) : Grows targets t t where
  name_eq := rfl
  hasColumn _ h := h
  keyed h := h
  keyNames _ h := h
  consistent h := h
  references c hc _ hr := .inl ⟨c, hc, rfl, hr⟩

theorem mono {t t' : Table} (h : Grows targets t t') (hsub : targets ⊆ targets') :
    Grows targets' t t' where
  name_eq := h.name_eq
  hasColumn := h.hasColumn
  keyed := h.keyed
  keyNames := h.keyNames
  consistent := h.consistent
  references c hc r hr := (h.references c hc r hr).imp_right fun ⟨u, hu, hr⟩ => ⟨u, hsub hu, hr⟩

/-- A change that leaves the key alone. -/
theorem of_sameKeys {t' : Table} (h : SameKeys t t')
    (hconsistent : (∀ c ∈ t.columns, c.IsConsistent) → ∀ c ∈ t'.columns, c.IsConsistent)
    (hreferences : ∀ c ∈ t'.columns, ∀ r, c.references = some r →
      (∃ d ∈ t.columns, d.name = c.name ∧ d.references = some r) ∨
        ∃ u ∈ targets, r.table = u.name ∧ r.column = u.referencedKey.name ∧
          c.name = foreignKeyName u.name) :
    Grows targets t t' where
  name_eq := h.name_eq
  hasColumn _ hcolumn := h.hasColumn hcolumn
  keyed hkeyed := by rwa [← keyNames_ne_nil, h.keyNames, keyNames_ne_nil]
  keyNames key hkey := by rwa [h.keyNames] at hkey
  consistent := hconsistent
  references := hreferences

/-- A change of columns that keeps their references too. -/
theorem of_alike {t' : Table} (targets : List Table) (h : Alike t t') : Grows targets t t' := by
  have hmem : ∀ d ∈ t'.columns, ∃ c ∈ t.columns, c.name = d.name ∧
      c.isForeignKey = d.isForeignKey ∧ c.references = d.references := by
    intro d hd
    obtain ⟨f, hcolumns, hf⟩ := h.exists_map
    rw [hcolumns] at hd
    obtain ⟨c, hc, rfl⟩ := List.mem_map.1 hd
    obtain ⟨hname, -, hforeign, hreferences⟩ := hf c hc
    exact ⟨c, hc, hname.symm, hforeign.symm, hreferences.symm⟩
  refine of_sameKeys h.sameKeys (fun hconsistent d hd => ?_) fun d hd r hr => ?_
  · obtain ⟨c, hc, -, hforeign, hreferences⟩ := hmem d hd
    rw [Column.IsConsistent, ← hforeign, ← hreferences]
    exact hconsistent c hc
  · obtain ⟨c, hc, hname, -, hreferences⟩ := hmem d hd
    exact .inl ⟨c, hc, hname, hreferences.trans hr⟩

/-- A change of each column on its own. -/
theorem of_map (hname : ∀ c ∈ t.columns, (f c).name = c.name)
    (hkey : ∀ c ∈ t.columns, (f c).isPrimaryKey = c.isPrimaryKey)
    (hconsistent : ∀ c ∈ t.columns, c.IsConsistent → (f c).IsConsistent)
    (hreferences : ∀ c ∈ t.columns, ∀ r, (f c).references = some r → c.references = some r ∨
      ∃ u ∈ targets, r.table = u.name ∧ r.column = u.referencedKey.name ∧
        c.name = foreignKeyName u.name) :
    Grows targets t { t with columns := t.columns.map f } where
  name_eq := rfl
  hasColumn name h := by
    obtain ⟨c, hc, rfl⟩ := hasColumn_iff.1 h
    exact hasColumn_iff.2 ⟨f c, List.mem_map_of_mem hc, hname c hc⟩
  keyed h := by
    rw [← keyNames_ne_nil] at h ⊢
    rwa [keyNames_map fun c hc => ⟨hkey c hc, hname c hc⟩]
  keyNames key h := by rwa [keyNames_map fun c hc => ⟨hkey c hc, hname c hc⟩] at h
  consistent h c hc := by
    obtain ⟨d, hd, rfl⟩ := List.mem_map.1 hc
    exact hconsistent d hd (h d hd)
  references c hc r hr := by
    obtain ⟨d, hd, rfl⟩ := List.mem_map.1 hc
    rcases hreferences d hd r hr with hr | ⟨u, hu, htable, hcolumn, hfk⟩
    · exact .inl ⟨d, hd, (hname d hd).symm, hr⟩
    · exact .inr ⟨u, hu, htable, hcolumn, (hname d hd).trans hfk⟩

end Grows

/-! ## References -/

/-- The column as a reference to a table. -/
def referring (other : Table) (c : Column) : Column :=
  { c with
    isForeignKey := true
    dataType := other.referencedKey.dataType
    references := some other.reference }

theorem mem_columns_mapColumns {d : Column} : d ∈ (t.mapColumns name f).columns ↔
    ∃ c ∈ t.columns, (c.name = name ∧ d = f c) ∨ (c.name ≠ name ∧ d = c) := by
  simp only [mapColumns, List.mem_map, beq_iff_eq]
  refine exists_congr fun c => and_congr_right fun _ => ?_
  by_cases hc : c.name = name <;> simp [hc, eq_comm]

/-- In a table of distinct columns, the column of a name is the one found by it. -/
theorem Distinct.eq_of_column? (h : t.Distinct) {c d : Column} (hc : t.column? name = some c)
    (hd : d ∈ t.columns) (hname : d.name = name) : d = c := by
  obtain ⟨hmem, rfl⟩ := mem_of_column? hc
  exact List.inj_on_of_nodup_map h hd hmem hname

theorem Distinct.mapColumns (h : t.Distinct) (hf : ∀ c, (f c).name = name) :
    (t.mapColumns name f).Distinct := by
  have hnames : (t.mapColumns name f).columns.map (·.name) = t.columns.map (·.name) := by
    rw [Table.mapColumns, List.map_map]
    refine List.map_congr_left fun c _ => ?_
    by_cases hc : c.name = name <;> simp [hc, hf]
  rw [Distinct, hnames]
  exact h

/-- The three things that `withForeignKey` can do. -/
theorem withForeignKey_cases (t other : Table) :
    (t.column? (foreignKeyName other.name) = none ∧ t.withForeignKey other = { t with
      columns := t.columns ++ [other.foreignKeyColumn (foreignKeyName other.name) true] }) ∨
    ∃ c, t.column? (foreignKeyName other.name) = some c ∧
      ((c.foreignKey?.isSome = true ∧ t.withForeignKey other = t) ∨
        c.foreignKey? = none ∧ t.withForeignKey other =
          t.mapColumns (foreignKeyName other.name) fun _ => other.referring c) := by
  unfold withForeignKey
  dsimp only
  split
  · exact .inl ⟨‹_›, rfl⟩
  · rename_i c hc
    refine .inr ⟨c, hc, ?_⟩
    split
    · exact .inl ⟨‹_›, rfl⟩
    · rename_i hno
      exact .inr ⟨Option.not_isSome_iff_eq_none.1 hno, rfl⟩

theorem Distinct.withForeignKey (h : t.Distinct) (other : Table) :
    (t.withForeignKey other).Distinct := by
  rcases withForeignKey_cases t other with ⟨hnone, heq⟩ | ⟨c, hc, ⟨-, heq⟩ | ⟨-, heq⟩⟩ <;> rw [heq]
  · exact nodup_map_append h fun d hd => name_ne_of_column?_eq_none hnone hd
  · exact h
  · exact h.mapColumns fun _ => (mem_of_column? hc).2

theorem grows_withForeignKey (h : t.Distinct) (other : Table) :
    Grows [other] t (t.withForeignKey other) := by
  rcases withForeignKey_cases t other with ⟨-, heq⟩ | ⟨c, hc, ⟨-, heq⟩ | ⟨-, heq⟩⟩ <;> rw [heq]
  · set fk := other.foreignKeyColumn (foreignKeyName other.name) true with hfk
    have hkeys : keyColumns { t with columns := t.columns ++ [fk] } = t.keyColumns := by
      simp [keyColumns, fk, foreignKeyColumn]
    refine ⟨rfl, fun name h => ?_, fun h => hkeys ▸ h, fun key h => ?_, fun h d hd => ?_,
      fun d hd r hr => ?_⟩
    · obtain ⟨d, hd, hname⟩ := hasColumn_iff.1 h
      exact hasColumn_iff.2 ⟨d, List.mem_append_left _ hd, hname⟩
    · rwa [keyNames, hkeys] at h
    · rcases List.mem_append.1 hd with hd | hd
      · exact h d hd
      · rw [List.mem_singleton.1 hd]
        rfl
    · rcases List.mem_append.1 hd with hd | hd
      · exact .inl ⟨d, hd, rfl, hr⟩
      · rw [List.mem_singleton.1 hd] at hr ⊢
        obtain rfl : other.reference = r := Option.some.inj hr
        exact .inr ⟨other, by simp, rfl, rfl, rfl⟩
  · exact Grows.refl _ _
  · obtain ⟨hmem, hname⟩ := mem_of_column? hc
    refine Grows.of_map (fun d _ => ?_) (fun d hd => ?_) (fun d _ hd => ?_) (fun d hd r hr => ?_)
    all_goals by_cases hfk : d.name = foreignKeyName other.name
    · simp [hfk, referring, hname]
    · simp [hfk]
    · -- the names are distinct, so that `d` is the column that is changed
      obtain rfl := h.eq_of_column? hc hd hfk
      simp [hname, referring]
    · simp [hfk]
    · simp [hfk, referring, Column.IsConsistent]
    · simpa [hfk] using hd
    · simp only [hfk, beq_self_eq_true, if_true] at hr
      obtain rfl : other.reference = r := Option.some.inj hr
      exact .inr ⟨other, by simp, rfl, rfl, hfk⟩
    · exact .inl (by simpa [hfk] using hr)

theorem hasForeignKey_withForeignKey (t other : Table) :
    (t.withForeignKey other).HasForeignKey name ↔
      t.HasForeignKey name ∨ name = foreignKeyName other.name := by
  rcases withForeignKey_cases t other with ⟨-, heq⟩ | ⟨c, hc, ⟨hkey, heq⟩ | ⟨-, heq⟩⟩ <;> rw [heq]
  · simp only [HasForeignKey, List.mem_append, List.mem_singleton, or_and_right, exists_or,
      exists_eq_left]
    exact or_congr_right ⟨fun h => h.2.symm, fun h => ⟨rfl, h.symm⟩⟩
  · refine ⟨.inl, ?_⟩
    rintro (h | rfl)
    · exact h
    · refine ⟨c, (mem_of_column? hc).1, ?_, (mem_of_column? hc).2⟩
      by_contra hno
      simp [Column.foreignKey?, hno] at hkey
  · obtain ⟨hmem, hname⟩ := mem_of_column? hc
    constructor
    · rintro ⟨d', hd', hkey, rfl⟩
      obtain ⟨d, hd, ⟨-, rfl⟩ | ⟨-, rfl⟩⟩ := mem_columns_mapColumns.1 hd'
      · exact .inr hname
      · exact .inl ⟨_, hd, hkey, rfl⟩
    · rintro (⟨d, hd, hkey, rfl⟩ | rfl)
      · by_cases hfk : d.name = foreignKeyName other.name
        · exact ⟨_, mem_columns_mapColumns.2 ⟨d, hd, .inl ⟨hfk, rfl⟩⟩, rfl, hname.trans hfk.symm⟩
        · exact ⟨d, mem_columns_mapColumns.2 ⟨d, hd, .inr ⟨hfk, rfl⟩⟩, hkey, rfl⟩
      · exact ⟨_, mem_columns_mapColumns.2 ⟨c, hmem, .inl ⟨hname, rfl⟩⟩, rfl, hname⟩

/-! ## A key of its own -/

/-- A table of distinct columns without references, as it is built from an entity. -/
structure Fresh (t : Table) : Prop where
  distinct : t.Distinct
  bare : ∀ c ∈ t.columns, c.references = none

theorem Fresh.mapColumns (h : t.Fresh) (hname : ∀ c, (f c).name = name)
    (hbare : ∀ c, (f c).references = none) : (t.mapColumns name f).Fresh where
  distinct := h.distinct.mapColumns hname
  bare d hd := by
    obtain ⟨c, hc, ⟨-, rfl⟩ | ⟨-, rfl⟩⟩ := mem_columns_mapColumns.1 hd
    · exact hbare c
    · exact h.bare _ hc

theorem withPrimaryKey_name (t : Table) : t.withPrimaryKey.1.name = t.name := by
  unfold withPrimaryKey
  split
  · split <;> rfl
  · rfl

/-- The three ways in which a table comes by its key. -/
theorem withPrimaryKey_cases (t : Table) :
    (t.keyColumns ≠ [] ∧ t.withPrimaryKey.1 = t) ∨
      (t.column? defaultKeyName = none ∧
        t.withPrimaryKey.1 = { t with columns := .defaultKey :: t.columns }) ∨
      ∃ c, t.column? defaultKeyName = some c ∧
        t.withPrimaryKey.1 = t.mapColumns defaultKeyName fun _ => promote c := by
  unfold withPrimaryKey
  split
  · split
    · exact .inr (.inr ⟨_, ‹_›, rfl⟩)
    · exact .inr (.inl ⟨‹_›, rfl⟩)
  · rename_i hkeys
    exact .inl ⟨by simpa using hkeys, rfl⟩

theorem keyed_withPrimaryKey (t : Table) : t.withPrimaryKey.1.keyColumns ≠ [] := by
  rcases withPrimaryKey_cases t with ⟨hkeys, heq⟩ | ⟨-, heq⟩ | ⟨c, hc, heq⟩ <;> rw [heq]
  · exact hkeys
  · exact List.ne_nil_of_mem (mem_keyColumns.2 ⟨List.mem_cons_self, rfl⟩)
  · obtain ⟨hmem, hname⟩ := mem_of_column? hc
    exact List.ne_nil_of_mem (mem_keyColumns.2
      ⟨mem_columns_mapColumns.2 ⟨c, hmem, .inl ⟨hname, rfl⟩⟩, rfl⟩)

theorem Fresh.withPrimaryKey (h : t.Fresh) : t.withPrimaryKey.1.Fresh := by
  rcases withPrimaryKey_cases t with ⟨-, heq⟩ | ⟨hnone, heq⟩ | ⟨c, hc, heq⟩ <;> rw [heq]
  · exact h
  · refine ⟨List.nodup_cons.2 ⟨fun hmem => ?_, h.distinct⟩, fun d hd => ?_⟩
    · obtain ⟨d, hd, hname⟩ := List.mem_map.1 hmem
      exact name_ne_of_column?_eq_none hnone hd hname
    · rcases List.mem_cons.1 hd with rfl | hd
      · rfl
      · exact h.bare d hd
  · obtain ⟨hmem, hname⟩ := mem_of_column? hc
    exact h.mapColumns (fun _ => hname) fun _ => h.bare c hmem

theorem hasForeignKey_withPrimaryKey (h : t.Distinct) :
    t.withPrimaryKey.1.HasForeignKey name ↔ t.HasForeignKey name := by
  rcases withPrimaryKey_cases t with ⟨-, heq⟩ | ⟨-, heq⟩ | ⟨c, hc, heq⟩ <;> rw [heq]
  · simp [HasForeignKey, Column.defaultKey]
  · obtain ⟨hmem, hname⟩ := mem_of_column? hc
    refine hasForeignKey_map fun d hd => ?_
    by_cases hd' : d.name = defaultKeyName
    · obtain rfl := h.eq_of_column? hc hd hd'
      simp [hd', promote]
    · simp [hd']

/-! ## The moments of a row -/

theorem withStamp_name (t : Table) (name : String) : (t.withStamp name).name = t.name := by
  unfold withStamp
  split <;> rfl

theorem Fresh.withStamp (h : t.Fresh) (name : String) : (t.withStamp name).Fresh := by
  unfold Table.withStamp
  split
  · exact h
  · rename_i hno
    constructor
    · exact nodup_map_append h.distinct fun d hd hname => hno (hasColumn_iff.2 ⟨d, hd, hname⟩)
    · intro d hd
      rcases List.mem_append.1 hd with hd | hd
      · exact h.bare d hd
      · rw [List.mem_singleton.1 hd]
        rfl

theorem keyColumns_withStamp (t : Table) (name : String) :
    (t.withStamp name).keyColumns = t.keyColumns := by
  unfold withStamp
  split
  · rfl
  · simp [keyColumns, Column.stamp]

theorem hasForeignKey_withStamp (t : Table) (stamp : String) :
    (t.withStamp stamp).HasForeignKey name ↔ t.HasForeignKey name := by
  unfold withStamp
  split
  · rfl
  · simp [HasForeignKey, Column.stamp]

/-! ## Identifying keys -/

/-- The key column that refers to the owner of a table, where there was no column of its name. -/
def newOwnerKey (owner : Table) : Column :=
  { owner.foreignKeyColumn (foreignKeyName owner.name) false with
    isPrimaryKey := true
    description := ownerDescription owner.name }

/-- The two ways in which a table gets a key column that refers to its owner. -/
theorem columnsWithOwner_cases (t owner : Table) :
    (t.column? (foreignKeyName owner.name) = none ∧
      columnsWithOwner t.columns owner = owner.newOwnerKey :: t.columns) ∨
    ∃ c, t.column? (foreignKeyName owner.name) = some c ∧
      columnsWithOwner t.columns owner =
        (t.mapColumns (foreignKeyName owner.name) fun _ => ownerKey owner c).columns := by
  unfold columnsWithOwner
  dsimp only
  split
  · exact .inr ⟨_, ‹_›, rfl⟩
  · exact .inl ⟨‹_›, rfl⟩

/-- A column of a table that refers to its owner is a column that it had before or the reference to
the owner. -/
theorem mem_columnsWithOwner {d : Column} (h : d ∈ columnsWithOwner t.columns owner) :
    (d ∈ t.columns ∧ d.name ≠ foreignKeyName owner.name) ∨ d = owner.newOwnerKey ∨
      ∃ c, t.column? (foreignKeyName owner.name) = some c ∧ d = ownerKey owner c := by
  rcases columnsWithOwner_cases t owner with ⟨hnone, heq⟩ | ⟨c, hc, heq⟩ <;> rw [heq] at h
  · rcases List.mem_cons.1 h with rfl | h
    · exact .inr (.inl rfl)
    · exact .inl ⟨h, name_ne_of_column?_eq_none hnone h⟩
  · obtain ⟨e, he, ⟨-, rfl⟩ | ⟨hne, rfl⟩⟩ := mem_columns_mapColumns.1 h
    · exact .inr (.inr ⟨c, hc, rfl⟩)
    · exact .inl ⟨he, hne⟩

theorem mem_columnsWithOwner_of_name_ne {d : Column} (h : d ∈ t.columns)
    (hne : d.name ≠ foreignKeyName owner.name) : d ∈ columnsWithOwner t.columns owner := by
  rcases columnsWithOwner_cases t owner with ⟨-, heq⟩ | ⟨c, hc, heq⟩ <;> rw [heq]
  · exact List.mem_cons_of_mem _ h
  · exact mem_columns_mapColumns.2 ⟨d, h, .inr ⟨hne, rfl⟩⟩

theorem exists_ownerKey (t owner : Table) :
    ∃ c ∈ columnsWithOwner t.columns owner, c.name = foreignKeyName owner.name ∧
      c.isPrimaryKey = true ∧ c.isForeignKey = true := by
  rcases columnsWithOwner_cases t owner with ⟨-, heq⟩ | ⟨c, hc, heq⟩ <;> rw [heq]
  · exact ⟨_, List.mem_cons_self, rfl, rfl, rfl⟩
  · obtain ⟨hmem, hname⟩ := mem_of_column? hc
    exact ⟨_, mem_columns_mapColumns.2 ⟨c, hmem, .inl ⟨hname, rfl⟩⟩, hname, rfl, rfl⟩

theorem mem_insertAfter {c d : Column} {columns : List Column} :
    d ∈ insertAfter name c columns ↔
      d ∈ columns ∨ (d = c ∧ ∃ e ∈ columns, e.name = name) := by
  induction columns with
  | nil => simp [insertAfter]
  | cons e columns ih =>
    rw [insertAfter]
    by_cases he : e.name = name
    · have hexists : ∃ e' ∈ e :: columns, e'.name = name := ⟨e, List.mem_cons_self, he⟩
      rw [if_pos (by simpa using he), and_iff_left hexists]
      simp only [List.mem_cons]
      tauto
    · rw [if_neg (by simpa using he), List.mem_cons, ih, List.exists_mem_cons_iff, List.mem_cons,
        or_iff_right he, or_assoc]

/-- The columns of a table identified through an owner: one is added if none tells the rows of one
owner apart. -/
theorem mem_columns_withIdentifyingKey {d : Column} :
    d ∈ (t.withIdentifyingKey owner).1.columns ↔ d ∈ columnsWithOwner t.columns owner ∨
      (d = .partialKey ∧ ∀ c ∈ columnsWithOwner t.columns owner, isOwnKey c = false) := by
  unfold withIdentifyingKey
  dsimp only
  split
  · rename_i hany
    obtain ⟨c, hc, hown⟩ := List.any_eq_true.1 hany
    refine ⟨.inl, fun h => h.resolve_right fun h => ?_⟩
    rw [h.2 c hc] at hown
    contradiction
  · rename_i hany
    obtain ⟨c, hc, hname, -⟩ := exists_ownerKey t owner
    rw [mem_insertAfter]
    refine or_congr_right (and_congr_right fun _ => ⟨fun _ c hc => ?_, fun _ => ⟨c, hc, hname⟩⟩)
    simpa using fun hown => hany (List.any_eq_true.2 ⟨c, hc, hown⟩)

theorem exists_isOwnKey (t owner : Table) :
    ∃ c ∈ (t.withIdentifyingKey owner).1.columns, isOwnKey c = true := by
  by_cases h : ∀ c ∈ columnsWithOwner t.columns owner, isOwnKey c = false
  · exact ⟨.partialKey, mem_columns_withIdentifyingKey.2 (.inr ⟨rfl, h⟩), rfl⟩
  · push Not at h
    obtain ⟨c, hc, hown⟩ := h
    exact ⟨c, mem_columns_withIdentifyingKey.2 (.inl hc), by simpa using hown⟩

/-- **A table identified through an owner has a key of several columns**: the reference to the
owner, and a column that is no reference. -/
theorem keyNames_withIdentifyingKey_ne (t owner : Table) (key : String) :
    (t.withIdentifyingKey owner).1.keyNames ≠ [key] := by
  intro h
  obtain ⟨c, hc, -, hprimary, hforeign⟩ := exists_ownerKey t owner
  obtain ⟨d, hd, hown⟩ := exists_isOwnKey t owner
  rw [isOwnKey, Bool.and_eq_true, Bool.not_eq_true'] at hown
  obtain ⟨k, hk, -⟩ := List.map_eq_singleton_iff.1 h
  have hc' := mem_keyColumns.2 ⟨mem_columns_withIdentifyingKey.2 (.inl hc), hprimary⟩
  have hd' := mem_keyColumns.2 ⟨hd, hown.1⟩
  rw [hk, List.mem_singleton] at hc' hd'
  rw [hc', ← hd', hown.2] at hforeign
  contradiction

theorem grows_withIdentifyingKey (t owner : Table) :
    Grows [owner] t (t.withIdentifyingKey owner).1 where
  name_eq := by
    unfold withIdentifyingKey
    dsimp only
    split <;> rfl
  hasColumn name h := by
    obtain ⟨c, hc, rfl⟩ := hasColumn_iff.1 h
    by_cases hfk : c.name = foreignKeyName owner.name
    · obtain ⟨d, hd, hname, -⟩ := exists_ownerKey t owner
      exact hasColumn_iff.2
        ⟨d, mem_columns_withIdentifyingKey.2 (.inl hd), hname.trans hfk.symm⟩
    · exact hasColumn_iff.2 ⟨c, mem_columns_withIdentifyingKey.2
        (.inl (mem_columnsWithOwner_of_name_ne hc hfk)), rfl⟩
  keyed _ := by
    obtain ⟨c, hc, -, hprimary, -⟩ := exists_ownerKey t owner
    exact List.ne_nil_of_mem
      (mem_keyColumns.2 ⟨mem_columns_withIdentifyingKey.2 (.inl hc), hprimary⟩)
  keyNames key h := absurd h (keyNames_withIdentifyingKey_ne t owner key)
  consistent h d hd := by
    rcases mem_columns_withIdentifyingKey.1 hd with hd | ⟨rfl, -⟩
    · rcases mem_columnsWithOwner hd with ⟨hd, -⟩ | rfl | ⟨c, -, rfl⟩
      · exact h d hd
      · rfl
      · rfl
    · rfl
  references d hd r hr := by
    rcases mem_columns_withIdentifyingKey.1 hd with hd | ⟨rfl, -⟩
    · rcases mem_columnsWithOwner hd with ⟨hd, -⟩ | rfl | ⟨c, hc, rfl⟩
      · exact .inl ⟨d, hd, rfl, hr⟩
      · obtain rfl : owner.reference = r := Option.some.inj hr
        exact .inr ⟨owner, by simp, rfl, rfl, rfl⟩
      · -- a reference that the column has already is kept
        obtain ⟨hmem, hname⟩ := mem_of_column? hc
        have hr : c.references.getD owner.reference = r := Option.some.inj hr
        cases hold : c.references with
        | some old =>
          rw [hold, Option.getD_some] at hr
          exact .inl ⟨c, hmem, rfl, hold.trans (congrArg some hr)⟩
        | none =>
          rw [hold, Option.getD_none] at hr
          subst hr
          exact .inr ⟨owner, by simp, rfl, rfl, hname⟩
    · simp [Column.partialKey] at hr

theorem hasForeignKey_withIdentifyingKey (t owner : Table) :
    (t.withIdentifyingKey owner).1.HasForeignKey name ↔
      t.HasForeignKey name ∨ name = foreignKeyName owner.name := by
  constructor
  · rintro ⟨d, hd, hkey, rfl⟩
    rcases mem_columns_withIdentifyingKey.1 hd with hd | ⟨rfl, -⟩
    · rcases mem_columnsWithOwner hd with ⟨hd, -⟩ | rfl | ⟨c, hc, rfl⟩
      · exact .inl ⟨d, hd, hkey, rfl⟩
      · exact .inr rfl
      · exact .inr (mem_of_column? hc).2
    · simp [Column.partialKey] at hkey
  · intro h
    by_cases hfk : name = foreignKeyName owner.name
    · obtain ⟨c, hc, hname, -, hforeign⟩ := exists_ownerKey t owner
      exact ⟨c, mem_columns_withIdentifyingKey.2 (.inl hc), hforeign, hname.trans hfk.symm⟩
    · obtain ⟨d, hd, hkey, rfl⟩ := h.resolve_right hfk
      exact ⟨d, mem_columns_withIdentifyingKey.2
        (.inl (mem_columnsWithOwner_of_name_ne hd hfk)), hkey, rfl⟩

/-! ## The key in front -/

/-- A column after the key has been moved to the front. -/
theorem mem_columns_withContiguousKey {d : Column} (h : d ∈ t.withContiguousKey.columns) :
    ∃ c ∈ t.columns, d.name = c.name ∧ d.isPrimaryKey = c.isPrimaryKey ∧
      d.isForeignKey = c.isForeignKey ∧ d.references = c.references ∧
        d.dataType = c.dataType := by
  rcases List.mem_append.1 h with h | h
  · obtain ⟨c, hc, rfl⟩ := List.mem_map.1 h
    refine ⟨c, (mem_keyColumns.1 hc).1, ?_⟩
    split <;> simp
  · exact ⟨d, (List.mem_filter.1 h).1, rfl, rfl, rfl, rfl, rfl⟩

theorem exists_mem_columns_withContiguousKey {c : Column} (h : c ∈ t.columns) :
    ∃ d ∈ t.withContiguousKey.columns, d.name = c.name ∧ d.isForeignKey = c.isForeignKey := by
  by_cases hkey : c.isPrimaryKey = true
  · refine ⟨_, List.mem_append_left _ (List.mem_map_of_mem (mem_keyColumns.2 ⟨h, hkey⟩)), ?_⟩
    split <;> simp
  · exact ⟨c, List.mem_append_right _ (List.mem_filter.2 ⟨h, by simpa using hkey⟩), rfl, rfl⟩

theorem keyNames_withContiguousKey (t : Table) : t.withContiguousKey.keyNames = t.keyNames := by
  unfold withContiguousKey
  dsimp only
  rw [keyNames, keyColumns, List.filter_append, List.filter_filter]
  have hrest : t.columns.filter (fun c => c.isPrimaryKey && !c.isPrimaryKey) = [] := by simp
  have hkeys : ∀ {g : Column → Column}, (∀ c, (g c).isPrimaryKey = c.isPrimaryKey) →
      (t.keyColumns.map g).filter (·.isPrimaryKey) = t.keyColumns.map g := by
    intro g hg
    refine List.filter_eq_self.2 fun d hd => ?_
    obtain ⟨c, hc, rfl⟩ := List.mem_map.1 hd
    rw [hg]
    exact (mem_keyColumns.1 hc).2
  rw [hrest, List.append_nil, hkeys fun c => by split <;> rfl, List.map_map]
  exact List.map_congr_left fun c _ => by dsimp only [Function.comp]; split <;> rfl

theorem grows_withContiguousKey (targets : List Table) (t : Table) :
    Grows targets t t.withContiguousKey where
  name_eq := rfl
  hasColumn name h := by
    obtain ⟨c, hc, rfl⟩ := hasColumn_iff.1 h
    obtain ⟨d, hd, hname, -⟩ := exists_mem_columns_withContiguousKey hc
    exact hasColumn_iff.2 ⟨d, hd, hname⟩
  keyed h := by rwa [← keyNames_ne_nil, keyNames_withContiguousKey, keyNames_ne_nil]
  keyNames key h := by rwa [keyNames_withContiguousKey] at h
  consistent h d hd := by
    obtain ⟨c, hc, -, -, hkey, hr, -⟩ := mem_columns_withContiguousKey hd
    rw [Column.IsConsistent, hkey, hr]
    exact h c hc
  references d hd r hr := by
    obtain ⟨c, hc, hname, -, -, href, -⟩ := mem_columns_withContiguousKey hd
    exact .inl ⟨c, hc, hname.symm, href ▸ hr⟩

theorem hasForeignKey_withContiguousKey (t : Table) :
    t.withContiguousKey.HasForeignKey name ↔ t.HasForeignKey name := by
  constructor
  · rintro ⟨d, hd, hkey, rfl⟩
    obtain ⟨c, hc, hname, -, hforeign, -⟩ := mem_columns_withContiguousKey hd
    exact ⟨c, hc, hforeign ▸ hkey, hname.symm⟩
  · rintro ⟨c, hc, hkey, rfl⟩
    obtain ⟨d, hd, hname, hforeign⟩ := exists_mem_columns_withContiguousKey hc
    exact ⟨d, hd, hforeign ▸ hkey, hname⟩

end Table

end Schemata
