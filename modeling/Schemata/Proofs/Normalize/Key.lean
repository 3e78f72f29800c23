import Schemata.Proofs.Normalize.Contract
import Schemata.Proofs.Normalize.Stage

/-!
# The keys of a normalized extraction

In every table of a normalized extraction the key columns come first and are closed, and one that
stands alone is unique. Of several key columns only the one that references are moved to is unique,
and this just if there are references to the table (`isUnique_finish`): none is left unique when the
key is put in front, and the column is marked afterwards, for what the whole schema refers to.
-/

namespace Schemata

open Normalize

namespace Normalize

variable {tables : List Table} {t : Table} {name : String}

theorem isReferenced_iff : isReferenced tables name = true ↔
    ∃ u ∈ tables, ∃ c ∈ u.columns, ∃ r, c.references = some r ∧ r.table = name := by
  simp only [isReferenced, List.any_eq_true, Option.any_eq_true, beq_iff_eq]

/-- The last stages do not change which tables are referred to. -/
theorem isReferenced_finish (small : ℤ) (tables : List Table) (name : String) :
    isReferenced (tables.map (finish small tables)) name = isReferenced tables name := by
  have hcolumns : ∀ t, ((finish small tables t).columns.any fun c =>
      c.references.any (·.table == name)) =
        t.columns.any fun c => c.references.any (·.table == name) := by
    intro t
    obtain ⟨f, hcolumns, hf⟩ := exists_finished small tables t
    have htable : ∀ c, (f c).references.map (·.table) = c.references.map (·.table) :=
      fun c => by rw [(hf c).references_eq, table_retargetColumn]
    have hany : ∀ o : Option Reference,
        o.any (·.table == name) = (o.map (·.table)).any (· == name) := fun o => by cases o <;> rfl
    rw [hcolumns, List.any_map]
    refine congrArg t.columns.any (funext fun c => ?_)
    rw [Function.comp_apply, hany, htable, ← hany]
  simp only [isReferenced, List.any_map, Function.comp_def, hcolumns]

/-- The last stages change the key columns one by one. -/
theorem exists_keyColumns_finish (small : ℤ) (tables : List Table) (t : Table) :
    ∃ f : Column → Column, (finish small tables t).keyColumns = t.keyColumns.map f ∧
      (∀ c, Finished tables t c (f c)) ∧
      (t.keyColumns ≠ [] → (finish small tables t).referencedKey = f t.referencedKey) := by
  obtain ⟨f, hcolumns, hf⟩ := exists_finished small tables t
  have hkeys := Table.keyColumns_of_map hcolumns fun c _ => (hf c).isPrimaryKey_eq
  exact ⟨f, hkeys, hf, fun hne =>
    Table.referencedKey_of_map hkeys hne fun c _ => (hf c).isForeignKey_eq⟩

/-- **Of several key columns only the one for references is unique**, if it is no reference itself
and there are references to the table. -/
theorem isUnique_finish (small : ℤ) (h : Linked tables) (ht : t.withContiguousKey ∈ tables)
    (hmany : 1 < t.withContiguousKey.keyColumns.length) {key : Column}
    (hkey : key ∈ (finish small tables t.withContiguousKey).keyColumns) :
    key.isUnique = true ↔
      key.name = (finish small tables t.withContiguousKey).referencedKey.name ∧
        (finish small tables t.withContiguousKey).referencedKey.isForeignKey = false ∧
          isReferenced tables t.name = true := by
  obtain ⟨f, hkeys, hf, hreferenced⟩ := exists_keyColumns_finish small tables t.withContiguousKey
  rw [hreferenced (h.keyed _ ht), (hf _).name_eq, (hf _).isForeignKey_eq]
  rw [hkeys] at hkey
  obtain ⟨c, hc, rfl⟩ := List.mem_map.1 hkey
  have hcleared := Table.isUnique_withContiguousKey hmany hc
  rw [(hf c).isUnique_iff, (hf c).name_eq, hcleared, IsMarked, ownTarget?_of_mem h ht]
  simp only [hmany, decide_true, Bool.true_and, Bool.false_eq_true, false_or,
    Option.ite_none_right_eq_some, Bool.not_eq_eq_eq_not, Bool.not_true, Option.some.injEq]
  constructor
  · rintro ⟨hrefers, key, ⟨hown, rfl⟩, hname⟩
    exact ⟨hname.symm, hown, hrefers⟩
  · rintro ⟨hname, hown, hrefers⟩
    exact ⟨hrefers, _, ⟨hown, rfl⟩, hname.symm⟩

end Normalize

/-! ## Tables of a schema -/

section Schema

variable {e : Extraction} {heading : Heading} {small : ℤ} {now : Moment} {t : Table}

theorem keyInFront_normalize (ht : t ∈ (e.normalize heading small now).schema.tables) :
    t.KeyInFront := by
  obtain ⟨entity, p, w, hstages, rfl⟩ := Extraction.exists_stages_of_mem ht
  obtain ⟨f, hcolumns, hf⟩ := exists_finished small e.ordered w.withContiguousKey
  exact (Table.keyInFront_withContiguousKey w).of_map hcolumns fun c _ =>
    ⟨(hf c).isPrimaryKey_eq, (hf c).isNullable_eq⟩

theorem soleUnique_normalize (ht : t ∈ (e.normalize heading small now).schema.tables) :
    t.SoleUnique := by
  obtain ⟨entity, p, w, hstages, rfl⟩ := Extraction.exists_stages_of_mem ht
  obtain ⟨owners, hrun, -⟩ := hstages.owners
  obtain ⟨f, hkeys, hf, -⟩ := exists_keyColumns_finish small e.ordered w.withContiguousKey
  have hsole := Table.soleUnique_withContiguousKey (hstages.soleUnique.of_owned hrun)
  exact hsole.of_map hkeys fun c _ hunique => (hf c).isUnique_iff.2 (.inl hunique)

theorem isUnique_normalize (ht : t ∈ (e.normalize heading small now).schema.tables)
    (hmany : 1 < t.keyColumns.length) {key : Column} (hkey : key ∈ t.keyColumns) :
    key.isUnique = true ↔ key.name = t.referencedKey.name ∧
      t.referencedKey.isForeignKey = false ∧
        isReferenced (e.normalize heading small now).schema.tables t.name = true := by
  obtain ⟨entity, p, w, hstages, rfl⟩ := Extraction.exists_stages_of_mem ht
  have hsame := sameKeys_finish small e.ordered w.withContiguousKey
  rw [tables_normalize, isReferenced_finish, hsame.name_eq]
  exact isUnique_finish small e.ordered_spec.1.1 (List.mem_map_of_mem hstages.identified)
    (hsame.length_keyColumns ▸ hmany) hkey

/-- Only the name of the column that completes a key can repeat. -/
theorem count_columnNames_normalize (ht : t ∈ (e.normalize heading small now).schema.tables)
    {name : String} (hname : name ≠ partialKeyName) : t.columnNames.count name ≤ 1 := by
  obtain ⟨entity, p, w, hstages, rfl⟩ := Extraction.exists_stages_of_mem ht
  obtain ⟨owners, hrun, -⟩ := hstages.owners
  rw [columnNames_finish, (Table.perm_columnNames_withContiguousKey w).count_eq]
  exact (hrun.namesKept hstages.distinct).count_le_one _ hname

/-- A table has one column for each of the moments of a row. -/
theorem count_stamp_normalize (ht : t ∈ (e.normalize heading small now).schema.tables)
    {stamp : String} (hstamp : stamp ∈ stampNames) : t.columnNames.count stamp = 1 := by
  have hne : ∀ stamp ∈ stampNames, stamp ≠ partialKeyName := by decide
  refine Nat.le_antisymm (count_columnNames_normalize ht (hne _ hstamp)) ?_
  obtain ⟨entity, p, w, hstages, rfl⟩ := Extraction.exists_stages_of_mem ht
  obtain ⟨owners, hrun, -⟩ := hstages.owners
  rw [columnNames_finish, (Table.perm_columnNames_withContiguousKey w).count_eq,
    List.one_le_count_iff, Table.mem_columnNames]
  exact (hrun.namesKept hstages.distinct).grows _ (hstages.stamps _ hstamp)

end Schema

/-- **The keys of a normalized extraction.** In every table the key columns come first, there are
some, and none of them is open. One that stands alone is unique. Of several, one is unique just if
references to the table go to it, if it is no reference itself, and if some foreign key of the
schema leads to the table. The moments of a row have one column each. -/
theorem keys_normalize (e : Extraction) (heading : Heading) (small : ℤ) (now : Moment) :
    let s := (e.normalize heading small now).schema
    ∀ t ∈ s.tables,
      t.keyColumns <+: t.columns ∧ t.keyColumns ≠ [] ∧
      (∀ key ∈ t.keyColumns, key.isNullable = false) ∧
      (∀ key, t.keyColumns = [key] → key.isUnique = true) ∧
      (1 < t.keyColumns.length → ∀ key ∈ t.keyColumns, key.isUnique = true ↔
        key.name = t.referencedKey.name ∧ t.referencedKey.isForeignKey = false ∧
          ∃ u ∈ s.tables, ∃ c ∈ u.columns, c.isForeignKey = true ∧
            ∃ r, c.references = some r ∧ r.table = t.name) ∧
      (t.columns.map (·.name)).count "created_at" = 1 ∧
      (t.columns.map (·.name)).count "updated_at" = 1 := by
  intro s t ht
  have hclosed : s.Closed := closed_normalize e heading small now
  have hreferenced : isReferenced s.tables t.name = true ↔ ∃ u ∈ s.tables, ∃ c ∈ u.columns,
      c.isForeignKey = true ∧ ∃ r, c.references = some r ∧ r.table = t.name := by
    rw [isReferenced_iff]
    refine exists_congr fun u => and_congr_right fun hu => exists_congr fun c =>
      and_congr_right fun hc => ?_
    rw [hclosed.tables.consistent u hu c hc, iff_and_self]
    exact fun ⟨r, hr, _⟩ => hr ▸ rfl
  have hfront := keyInFront_normalize ht
  refine ⟨hfront.front, hclosed.tables.keyed t ht, hfront.isNullable, soleUnique_normalize ht,
    fun hmany key hkey => ?_, count_stamp_normalize ht (by decide),
    count_stamp_normalize ht (by decide)⟩
  rw [isUnique_normalize ht hmany hkey, hreferenced]

/-- Copies that are identified through their books, and loans of copies. -/
def lending : Extraction where
  entities := [{ name := some "Book" }, { name := some "Copy" }, { name := some "Loan" }]
  relationships :=
    [{ sourceEntity := some "Book", targetEntity := some "Copy", isIdentifying := true },
     { sourceEntity := some "Loan", targetEntity := some "Copy", type := some "many_to_one" }]

theorem keys_lending :
    let s := (lending.normalize {} 3 { year := 2024, month := 1, day := 1 }).schema
    ∃ t ∈ s.tables, t.name = "copy" ∧ t.keyColumns.map (·.name) = ["id", "book_id"] ∧
      t.keyColumns <+: t.columns ∧ ∀ key ∈ t.keyColumns, key.isUnique = true ↔ key.name = "id" := by
  intro s
  have ⟨t, ht, hname, hkeys, hkey, hown, hreferenced⟩ : ∃ t ∈ s.tables, t.name = "copy" ∧
      t.keyColumns.map (·.name) = ["id", "book_id"] ∧ t.referencedKey.name = "id" ∧
      t.referencedKey.isForeignKey = false ∧ ∃ u ∈ s.tables, ∃ c ∈ u.columns,
        c.isForeignKey = true ∧ ∃ r ∈ c.references, r.table = t.name := by
    decide +kernel
  obtain ⟨hfront, -, -, -, hunique, -⟩ := keys_normalize lending {} 3 _ t ht
  refine ⟨t, ht, hname, hkeys, hfront, fun key hmem => ?_⟩
  have hmany : 1 < t.keyColumns.length := by
    rw [← List.length_map (·.name), hkeys]
    decide
  rw [hunique hmany key hmem, hkey, hown]
  exact ⟨fun h => h.1, fun h => ⟨h, rfl, hreferenced⟩⟩

end Schemata
