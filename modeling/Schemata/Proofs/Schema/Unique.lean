import Schemata.Proofs.Schema.Weak

/-!
# The key columns of a table

Foreign keys that are placed in a table leave its key alone (`Table.Extends`). A key of one column
is unique, whatever owners a table is identified through (`SoleUnique`), because an owner makes the
key one of several columns. `withContiguousKey` then puts the key in front, closes its columns, and
leaves none of several unique (`keyColumns_withContiguousKey`).
-/

namespace Schemata

namespace Table

variable {t t' t'' owner : Table} {name : String}

theorem keyColumns_of_map {f : Column → Column} (hcolumns : t'.columns = t.columns.map f)
    (hkey : ∀ c ∈ t.columns, (f c).isPrimaryKey = c.isPrimaryKey) :
    t'.keyColumns = t.keyColumns.map f := by
  have hfilter : t.columns.filter ((·.isPrimaryKey) ∘ f) = t.columns.filter (·.isPrimaryKey) :=
    List.filter_congr hkey
  rw [keyColumns, hcolumns, List.filter_map, hfilter, keyColumns]

/-- A key of one column is unique. -/
def SoleUnique (t : Table) : Prop :=
  ∀ key, t.keyColumns = [key] → key.isUnique = true

/-- Columns that are unique stay unique when the key columns are changed one by one. -/
theorem SoleUnique.of_map (h : t.SoleUnique) {f : Column → Column}
    (hkeys : t'.keyColumns = t.keyColumns.map f)
    (hunique : ∀ c ∈ t.keyColumns, c.isUnique = true → (f c).isUnique = true) : t'.SoleUnique := by
  intro key hkey
  rw [hkeys] at hkey
  obtain ⟨c, hc, rfl⟩ := List.map_eq_singleton_iff.1 hkey
  exact hunique c (by simp [hc]) (h c hc)

theorem SoleUnique.isUnique (h : t.SoleUnique) (hfew : ¬1 < t.keyColumns.length) {key : Column}
    (hkey : key ∈ t.keyColumns) : key.isUnique = true := by
  have hpos := List.length_pos_of_mem hkey
  obtain ⟨sole, hsole⟩ := List.length_eq_one_iff.1 (show t.keyColumns.length = 1 by omega)
  rw [hsole, List.mem_singleton] at hkey
  exact hkey ▸ h sole hsole

/-! ## A key of its own -/

theorem withPrimaryKey_of_ne_nil (h : t.keyColumns ≠ []) : t.withPrimaryKey.1 = t := by
  unfold withPrimaryKey
  rw [if_neg (by simpa using h)]

/-- A table without a key gets one called `id`, which is unique. -/
theorem withPrimaryKey_of_eq_nil (h : t.keyColumns = []) :
    (∀ key ∈ t.withPrimaryKey.1.keyColumns, key.name = defaultKeyName ∧ key.isUnique = true) ∧
      ∀ name, t.withPrimaryKey.1.hasColumn name = true ↔
        t.hasColumn name = true ∨ name = defaultKeyName := by
  have hplain : ∀ c ∈ t.columns, c.isPrimaryKey = false := by
    simpa [keyColumns, List.filter_eq_nil_iff] using h
  rcases withPrimaryKey_cases t with ⟨hne, -⟩ | ⟨-, heq⟩ | ⟨c, hc, heq⟩
  · exact absurd h hne
  · rw [heq]
    refine ⟨fun key hkey => ?_, fun name => ?_⟩
    · obtain ⟨hmem, hprimary⟩ := mem_keyColumns.1 hkey
      rcases List.mem_cons.1 hmem with rfl | hmem
      · exact ⟨rfl, rfl⟩
      · rw [hplain key hmem] at hprimary
        contradiction
    · rw [← mem_columnNames, ← mem_columnNames, or_comm]
      exact List.mem_cons
  · obtain ⟨hmem, hname⟩ := mem_of_column? hc
    rw [heq]
    refine ⟨fun key hkey => ?_, fun name => ?_⟩
    · obtain ⟨hmem', hprimary⟩ := mem_keyColumns.1 hkey
      obtain ⟨d, hd, ⟨-, rfl⟩ | ⟨-, rfl⟩⟩ := mem_columns_mapColumns.1 hmem'
      · exact ⟨hname, rfl⟩
      · rw [hplain _ hd] at hprimary
        contradiction
    · have hcolumns := columnNames_mapColumns (t := t) (f := fun _ => promote c) fun _ => hname
      rw [← mem_columnNames, hcolumns, mem_columnNames]
      exact (or_iff_left_of_imp fun heq => hasColumn_iff.2 ⟨c, hmem, hname.trans heq.symm⟩).symm

theorem mem_keyNames_withPrimaryKey : name ∈ t.withPrimaryKey.1.keyNames ↔
    name ∈ t.keyNames ∨ t.keyColumns = [] ∧ name = defaultKeyName := by
  by_cases hnone : t.keyColumns = []
  · obtain ⟨hnew, -⟩ := withPrimaryKey_of_eq_nil hnone
    have hno : name ∉ t.keyNames := by simp [keyNames, hnone]
    rw [or_iff_right hno, and_iff_right hnone]
    constructor
    · intro hname
      obtain ⟨key, hkey, rfl⟩ := List.mem_map.1 hname
      exact (hnew key hkey).1
    · rintro rfl
      obtain ⟨key, hkey⟩ := List.exists_mem_of_ne_nil _ (keyed_withPrimaryKey t)
      exact List.mem_map.2 ⟨key, hkey, (hnew key hkey).1⟩
  · rw [withPrimaryKey_of_ne_nil hnone, or_iff_left fun h => hnone h.1]

theorem isUnique_withPrimaryKey (h : ∀ key ∈ t.keyColumns, key.isUnique = true) :
    ∀ key ∈ t.withPrimaryKey.1.keyColumns, key.isUnique = true := by
  by_cases hnone : t.keyColumns = []
  · exact fun key hkey => ((withPrimaryKey_of_eq_nil hnone).1 key hkey).2
  · rwa [withPrimaryKey_of_ne_nil hnone]

theorem hasColumn_withPrimaryKey (hname : name ≠ defaultKeyName) :
    t.withPrimaryKey.1.hasColumn name = true ↔ t.hasColumn name = true := by
  by_cases hnone : t.keyColumns = []
  · rw [(withPrimaryKey_of_eq_nil hnone).2, or_iff_left hname]
  · rw [withPrimaryKey_of_ne_nil hnone]

theorem hasColumn_withStamp (t : Table) (stamp : String) :
    (t.withStamp stamp).hasColumn name = true ↔ t.hasColumn name = true ∨ name = stamp := by
  unfold withStamp
  split
  · rename_i hstamp
    exact (or_iff_left_of_imp fun heq => heq ▸ hstamp).symm
  · simp only [hasColumn_iff, List.mem_append, List.mem_singleton, or_and_right, exists_or,
      exists_eq_left]
    exact or_congr_right eq_comm

/-! ## Foreign keys -/

/-- How a table changes while foreign keys are placed in it. -/
structure Extends (t t' : Table) : Prop where
  name_eq : t'.name = t.name
  exists_map : ∃ f : Column → Column, t'.keyColumns = t.keyColumns.map f ∧ ∀ c ∈ t.keyColumns,
    (f c).name = c.name ∧ (f c).isUnique = c.isUnique
  hasColumn : ∀ name, t'.hasColumn name = true ↔ t.hasColumn name = true ∨ t'.HasForeignKey name
  hasForeignKey : ∀ name, t.HasForeignKey name → t'.HasForeignKey name

namespace Extends

theorem refl (t : Table) : Extends t t where
  name_eq := rfl
  exists_map := ⟨id, by simp, fun _ _ => ⟨rfl, rfl⟩⟩
  hasColumn _ := (or_iff_left_of_imp HasForeignKey.hasColumn).symm
  hasForeignKey _ h := h

theorem trans (h : Extends t t') (h' : Extends t' t'') : Extends t t'' where
  name_eq := h'.name_eq.trans h.name_eq
  exists_map := by
    obtain ⟨f, hkeys, hf⟩ := h.exists_map
    obtain ⟨g, hkeys', hg⟩ := h'.exists_map
    refine ⟨g ∘ f, by rw [hkeys', hkeys, List.map_map], fun c hc => ?_⟩
    obtain ⟨hname, hunique⟩ := hg (f c) (hkeys ▸ List.mem_map_of_mem hc)
    exact ⟨hname.trans (hf c hc).1, hunique.trans (hf c hc).2⟩
  hasColumn name := by
    rw [h'.hasColumn, h.hasColumn, or_assoc,
      or_iff_right_of_imp (h'.hasForeignKey name)]
  hasForeignKey name hname := h'.hasForeignKey name (h.hasForeignKey name hname)

theorem keyNames_eq (h : Extends t t') : t'.keyNames = t.keyNames := by
  obtain ⟨f, hkeys, hf⟩ := h.exists_map
  rw [keyNames, hkeys, List.map_map, keyNames]
  exact List.map_congr_left fun c hc => (hf c hc).1

theorem soleUnique (h : Extends t t') (hsole : t.SoleUnique) : t'.SoleUnique := by
  obtain ⟨f, hkeys, hf⟩ := h.exists_map
  exact hsole.of_map hkeys fun c hc hunique => (hf c hc).2.trans hunique

end Extends

theorem hasColumn_withForeignKey (t other : Table) :
    (t.withForeignKey other).hasColumn name = true ↔
      t.hasColumn name = true ∨ name = foreignKeyName other.name := by
  rcases withForeignKey_cases t other with ⟨-, heq⟩ | ⟨c, hc, heq⟩
  · rw [heq]
    simp only [hasColumn_iff, List.mem_append, List.mem_singleton, or_and_right, exists_or,
      exists_eq_left]
    exact or_congr_right eq_comm
  · obtain ⟨hmem, hname⟩ := mem_of_column? hc
    have hcolumns : (t.withForeignKey other).columnNames = t.columnNames := by
      rcases heq with ⟨-, heq⟩ | ⟨-, heq⟩ <;> rw [heq]
      exact columnNames_mapColumns fun _ => hname
    rw [← mem_columnNames, hcolumns, mem_columnNames]
    exact (or_iff_left_of_imp fun heq => hasColumn_iff.2 ⟨c, hmem, hname.trans heq.symm⟩).symm

/-- **A foreign key that is placed leaves the key alone.** -/
theorem extends_withForeignKey (h : t.Distinct) (other : Table) :
    Extends t (t.withForeignKey other) where
  name_eq := (grows_withForeignKey h other).name_eq
  exists_map := by
    rcases withForeignKey_cases t other with ⟨-, heq⟩ | ⟨c, hc, ⟨-, heq⟩ | ⟨-, heq⟩⟩ <;> rw [heq]
    · exact ⟨id, by simp [keyColumns, foreignKeyColumn], fun _ _ => ⟨rfl, rfl⟩⟩
    · exact ⟨id, by simp, fun _ _ => ⟨rfl, rfl⟩⟩
    · -- the names are distinct, so that the column of the name is the one that is changed
      have hsame : ∀ d ∈ t.columns, d.name = foreignKeyName other.name → d = c :=
        fun d hd => h.eq_of_column? hc hd
      refine ⟨_, keyColumns_of_map rfl fun d hd => ?_, fun d hd => ?_⟩
      · split
        · rename_i hfk
          rw [hsame d hd (by simpa using hfk)]
          rfl
        · rfl
      · split
        · rename_i hfk
          rw [hsame d (mem_keyColumns.1 hd).1 (by simpa using hfk)]
          exact ⟨rfl, rfl⟩
        · exact ⟨rfl, rfl⟩
  hasColumn name := by
    rw [hasColumn_withForeignKey, hasForeignKey_withForeignKey, ← or_assoc,
      or_iff_left_of_imp HasForeignKey.hasColumn]
  hasForeignKey name hname := (hasForeignKey_withForeignKey t other).2 (.inl hname)

/-! ## Owners -/

/-- The key of a table that has an owner is not a single column. -/
theorem soleUnique_withIdentifyingKey (t owner : Table) :
    (t.withIdentifyingKey owner).1.SoleUnique := by
  intro key hkey
  refine absurd ?_ (keyNames_withIdentifyingKey_ne t owner key.name)
  rw [keyNames, hkey, List.map_singleton]

theorem SoleUnique.of_owned (h : t.SoleUnique) {owners : List String} (hrun : t.Owned owners t') :
    t'.SoleUnique := by
  cases hrun with
  | refl => exact h
  | step owner _ => exact soleUnique_withIdentifyingKey _ owner

/-- The key of a table grows with an owner. -/
theorem keyNames_subset_withIdentifyingKey (t owner : Table) :
    t.keyNames ⊆ (t.withIdentifyingKey owner).1.keyNames := by
  intro name hname
  obtain ⟨key, hkey, rfl⟩ := List.mem_map.1 hname
  obtain ⟨hmem, hprimary⟩ := mem_keyColumns.1 hkey
  by_cases hfk : key.name = foreignKeyName owner.name
  · obtain ⟨c, hc, hc_name, hprimary, -⟩ := exists_ownerKey t owner
    have hc' := mem_columns_withIdentifyingKey.2 (.inl hc)
    exact List.mem_map.2 ⟨c, mem_keyColumns.2 ⟨hc', hprimary⟩, hc_name.trans hfk.symm⟩
  · have hkey' := mem_columns_withIdentifyingKey.2 (.inl (mem_columnsWithOwner_of_name_ne hmem hfk))
    exact List.mem_map_of_mem (mem_keyColumns.2 ⟨hkey', hprimary⟩)

/-! ## The key in front -/

/-- A key column after the key of its table has been put in front. -/
def settledKey (t : Table) (c : Column) : Column :=
  if 1 < t.keyColumns.length then { c with isUnique := false, isNullable := false }
  else { c with isNullable := false }

theorem columns_withContiguousKey (t : Table) : t.withContiguousKey.columns =
    t.keyColumns.map t.settledKey ++ t.columns.filter (!·.isPrimaryKey) :=
  rfl

@[simp] theorem withContiguousKey_name (t : Table) : t.withContiguousKey.name = t.name :=
  rfl

@[simp] theorem settledKey_name (t : Table) (c : Column) : (t.settledKey c).name = c.name := by
  unfold settledKey
  split <;> rfl

@[simp] theorem settledKey_isPrimaryKey (t : Table) (c : Column) :
    (t.settledKey c).isPrimaryKey = c.isPrimaryKey := by
  unfold settledKey
  split <;> rfl

@[simp] theorem settledKey_isNullable (t : Table) (c : Column) :
    (t.settledKey c).isNullable = false := by
  unfold settledKey
  split <;> rfl

@[simp] theorem settledKey_isForeignKey (t : Table) (c : Column) :
    (t.settledKey c).isForeignKey = c.isForeignKey := by
  unfold settledKey
  split <;> rfl

@[simp] theorem settledKey_dataType (t : Table) (c : Column) :
    (t.settledKey c).dataType = c.dataType := by
  unfold settledKey
  split <;> rfl

theorem settledKey_isUnique (t : Table) (c : Column) : (t.settledKey c).isUnique = true ↔
    ¬1 < t.keyColumns.length ∧ c.isUnique = true := by
  unfold settledKey
  split <;> simp [*]

theorem keyColumns_withContiguousKey (t : Table) :
    t.withContiguousKey.keyColumns = t.keyColumns.map t.settledKey := by
  have hkeys : (t.keyColumns.map t.settledKey).filter (·.isPrimaryKey) =
      t.keyColumns.map t.settledKey := by
    simp only [List.filter_eq_self, List.forall_mem_map, settledKey_isPrimaryKey]
    exact fun c hc => (mem_keyColumns.1 hc).2
  rw [keyColumns, columns_withContiguousKey, List.filter_append, hkeys, List.filter_filter]
  simp

theorem soleUnique_withContiguousKey (h : t.SoleUnique) : t.withContiguousKey.SoleUnique := by
  intro key hkey
  rw [keyColumns_withContiguousKey] at hkey
  obtain ⟨c, hc, rfl⟩ := List.map_eq_singleton_iff.1 hkey
  exact (settledKey_isUnique t c).2 ⟨by simp [hc], h c hc⟩

/-- None of several key columns is unique on its own. -/
theorem isUnique_withContiguousKey {key : Column}
    (hmany : 1 < t.withContiguousKey.keyColumns.length)
    (hkey : key ∈ t.withContiguousKey.keyColumns) : key.isUnique = false := by
  rw [keyColumns_withContiguousKey] at hmany hkey
  rw [List.length_map] at hmany
  obtain ⟨c, -, rfl⟩ := List.mem_map.1 hkey
  rw [Bool.eq_false_iff, ne_eq, settledKey_isUnique]
  exact fun h => h.1 hmany

theorem perm_columnNames_withContiguousKey (t : Table) :
    t.withContiguousKey.columnNames.Perm t.columnNames := by
  rw [columnNames, columns_withContiguousKey, List.map_append, List.map_map]
  have hkeys : t.keyColumns.map ((·.name) ∘ t.settledKey) = t.keyColumns.map (·.name) :=
    List.map_congr_left fun c _ => settledKey_name t c
  rw [hkeys, ← List.map_append]
  exact (List.filter_append_perm (·.isPrimaryKey) t.columns).map _

theorem distinct_withContiguousKey : t.withContiguousKey.Distinct ↔ t.Distinct :=
  (perm_columnNames_withContiguousKey t).nodup_iff

/-- The key columns come first, and none of them is open. -/
structure KeyInFront (t : Table) : Prop where
  front : t.keyColumns <+: t.columns
  isNullable : ∀ key ∈ t.keyColumns, key.isNullable = false

theorem keyInFront_withContiguousKey (t : Table) : t.withContiguousKey.KeyInFront where
  front := by
    rw [keyColumns_withContiguousKey, columns_withContiguousKey]
    exact List.prefix_append _ _
  isNullable := by
    simp only [keyColumns_withContiguousKey, List.forall_mem_map, settledKey_isNullable,
      implies_true]

/-- A change column by column that leaves the key alone. -/
theorem KeyInFront.of_map (h : t.KeyInFront) {f : Column → Column}
    (hcolumns : t'.columns = t.columns.map f)
    (hf : ∀ c ∈ t.columns, (f c).isPrimaryKey = c.isPrimaryKey ∧
      (f c).isNullable = c.isNullable) : t'.KeyInFront := by
  have hkeys := keyColumns_of_map hcolumns fun c hc => (hf c hc).1
  constructor
  · rw [hkeys, hcolumns]
    exact h.front.map f
  · simp only [hkeys, List.forall_mem_map]
    intro key hkey
    rw [(hf key (mem_keyColumns.1 hkey).1).2]
    exact h.isNullable key hkey

/-- A name of a key column finds the key column. -/
theorem KeyInFront.column? (h : t.KeyInFront) (hname : name ∈ t.keyNames) :
    ∃ key ∈ t.keyColumns, key.name = name ∧ t.column? name = some key := by
  obtain ⟨key, hkey, hkey_name⟩ := List.mem_map.1 hname
  obtain ⟨rest, hcolumns⟩ := h.front
  have hsome : (t.keyColumns.find? (·.name == name)).isSome = true :=
    List.find?_isSome.2 ⟨key, hkey, by simpa using hkey_name⟩
  obtain ⟨first, hfirst⟩ := Option.isSome_iff_exists.1 hsome
  refine ⟨first, List.mem_of_find?_eq_some hfirst, by simpa using List.find?_some hfirst, ?_⟩
  rw [Table.column?, ← hcolumns, List.find?_append, hfirst, Option.some_or]

end Table

end Schemata
