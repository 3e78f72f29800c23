import Schemata.Proofs.Normalize.Contract
import Schemata.Proofs.Normalize.Stage

/-!
# The names of columns in a normalized extraction

In a table of a normalized extraction the columns have names of their own, with one exception. The
column that completes the key of a weak entity is called `partial_id`, whether or not there is a
column of that name. `distinct_iff_normalize` tells from the entity and from the relationships when
this happens, and it is just then that the check of the schema finds a name that repeats.
-/

namespace Schemata

open Normalize

/-! ## Names that repeat -/

/-- The columns that the check finds to repeat are those whose names do. -/
theorem Schema.repeatedColumn_mem_issues {s : Schema} {table column : String} {n : ℕ} :
    Issue.repeatedColumn table column n ∈ s.issues ↔
      ∃ t ∈ s.tables, t.name = table ∧ (column, n) ∈ repeated t.columnNames := by
  rw [Schema.mem_issues]
  constructor
  · rintro ⟨x, hx, hreports⟩
    cases x with
    | repeatedColumn i name =>
      obtain ⟨t, ht, hmany⟩ := hx
      obtain ⟨t', ht', heq⟩ := hreports
      obtain rfl := Option.some.inj (ht.symm.trans ht')
      obtain ⟨rfl, rfl, rfl⟩ := Issue.repeatedColumn.inj heq
      exact ⟨t, List.mem_of_getElem? ht, rfl, mem_repeated.2 ⟨rfl, hmany⟩⟩
    | repeatedTable name => cases hreports
    | missingKey i =>
      obtain ⟨_, -, heq⟩ := hreports
      cases heq
    | brokenKey i j =>
      obtain ⟨_, _, -, -, hbreaks⟩ := hreports
      cases hbreaks
    | unknownSide i side =>
      obtain ⟨_, -, heq⟩ := hreports
      cases heq
  · rintro ⟨t, ht, rfl, hmem⟩
    obtain ⟨rfl, hmany⟩ := mem_repeated.1 hmem
    obtain ⟨i, hi⟩ := List.mem_iff_getElem?.1 ht
    exact ⟨.repeatedColumn i column, ⟨t, hi, hmany⟩, t, hi, rfl⟩

/-- The check finds a column of a table to repeat just if the names of its columns do. -/
theorem Schema.Closed.exists_repeatedColumn {s : Schema} (h : s.Closed) {t : Table}
    (ht : t ∈ s.tables) :
    (∃ column n, Issue.repeatedColumn t.name column n ∈ s.issues) ↔ ¬t.Distinct := by
  rw [Table.Distinct, ← Table.columnNames, ← exists_mem_repeated]
  refine exists_congr fun column => exists_congr fun n => ?_
  rw [Schema.repeatedColumn_mem_issues]
  constructor
  · rintro ⟨u, hu, hname, hmem⟩
    rwa [← h.tables.eq_of_name hu ht hname]
  · exact fun hmem => ⟨t, ht, rfl, hmem⟩

/-! ## The columns of weak entities -/

section Schema

variable {e : Extraction} {heading : Heading} {small : ℤ} {now : Moment} {i : ℕ} {t : Table}
  {entity : Extraction.Entity}

/-- The table for an entity is identified through another one. -/
def Schema.IsIdentified (s : Schema) (t : Table) : Prop :=
  ∃ r ∈ s.relationships, r.isIdentifying = true ∧ r.sourceTable ≠ r.targetTable ∧
    r.targetTable = t.name

/-- **The columns of a table have names of their own** unless the table is identified through
another one, its whole key has become a reference, and there is a column called like the one that
completes the key. -/
theorem distinct_iff_normalize
    (ht : (e.normalize heading small now).schema.tables[i]? = some t)
    (hentity : e.entities[i]? = some entity) :
    (∀ name ≠ partialKeyName, t.columnNames.count name ≤ 1) ∧
      (t.Distinct ↔ ¬((e.normalize heading small now).schema.IsIdentified t ∧
        (∀ key, entity.IsKey key → t.HasForeignKey key) ∧
        (entity.HasAttribute partialKeyName ∨ t.HasForeignKey partialKeyName))) := by
  obtain ⟨p, w, hstages, rfl⟩ := Extraction.exists_stages ht hentity
  obtain ⟨owners, hrun, howners⟩ := hstages.owners
  have hkept := hrun.namesKept hstages.distinct
  have hsame := sameKeys_finish small e.ordered w.withContiguousKey
  have hforeign : ∀ name, (finish small e.ordered w.withContiguousKey).HasForeignKey name ↔
      w.HasForeignKey name := fun name => by
    rw [hsame.hasForeignKey, Table.hasForeignKey_withContiguousKey]
  have hidentified : owners ≠ [] ↔ (e.normalize heading small now).schema.IsIdentified
      (finish small e.ordered w.withContiguousKey) := by
    rw [Schema.IsIdentified, relationships_normalize, hstages.name_eq]
    constructor
    · intro hne
      obtain ⟨owner, hmem⟩ := List.exists_mem_of_ne_nil owners hne
      obtain ⟨r, hr, -, hidentifying, hother, htarget, -⟩ := (howners owner).1 hmem
      exact ⟨r, hr, hidentifying, hother, htarget⟩
    · rintro ⟨r, hr, hidentifying, hother, htarget⟩
      have hmem := (howners r.sourceTable).2 ⟨r, hr, rfl, hidentifying, hother, htarget, rfl⟩
      exact List.ne_nil_of_mem hmem
  have hexhausted : p.Exhausted w ↔ ∀ key, entity.IsKey key →
      (finish small e.ordered w.withContiguousKey).HasForeignKey key := by
    simp only [Table.Exhausted, hstages.keyNames, hforeign]
  have htaken : p.hasColumn partialKeyName = true ∨ w.HasForeignKey partialKeyName ↔
      entity.HasAttribute partialKeyName ∨
        (finish small e.ordered w.withContiguousKey).HasForeignKey partialKeyName := by
    have hmono : p.HasForeignKey partialKeyName → w.HasForeignKey partialKeyName :=
      fun h => hrun.hasForeignKey.2 (.inl h)
    rw [hstages.hasColumn _ (by decide), Extraction.Entity.brings_iff (by decide), hforeign,
      or_assoc, or_iff_right_of_imp hmono]
  constructor
  · intro name hname
    rw [columnNames_finish, (Table.perm_columnNames_withContiguousKey w).count_eq]
    exact hkept.count_le_one name hname
  · rw [distinct_finish, Table.distinct_withContiguousKey, ← hidentified, ← hexhausted, ← htaken]
    exact hkept.distinct_iff

end Schema

/-- **The names of columns in a normalized extraction.** In a table only the name `partial_id` can
repeat. It does just if the table is identified through another one, its whole key consists of
references, and an attribute of its entity or a foreign key has that name as well. The check of the
schema finds a column of the table to repeat just if the names are not distinct. -/
theorem distinct_columns_normalize (e : Extraction) (heading : Heading) (small : ℤ)
    (now : Moment) :
    let s := (e.normalize heading small now).schema
    s.tables.length = e.entities.length ∧
      ∀ (i : ℕ) (t : Table) (entity : Extraction.Entity), s.tables[i]? = some t →
        e.entities[i]? = some entity →
        (∀ name ≠ "partial_id", (t.columns.map (·.name)).count name ≤ 1) ∧
        ((t.columns.map (·.name)).Nodup ↔
          ¬((∃ r ∈ s.relationships, r.isIdentifying = true ∧ r.sourceTable ≠ r.targetTable ∧
              r.targetTable = t.name) ∧
            (∀ key, entity.IsKey key → t.HasForeignKey key) ∧
            (entity.HasAttribute "partial_id" ∨ t.HasForeignKey "partial_id"))) ∧
        ((∃ column n, Issue.repeatedColumn t.name column n ∈ s.issues) ↔
          ¬(t.columns.map (·.name)).Nodup) := by
  intro s
  refine ⟨Extraction.length_normalize, fun i t entity ht hentity => ?_⟩
  obtain ⟨hcount, hdistinct⟩ := distinct_iff_normalize ht hentity
  exact ⟨hcount, hdistinct,
    (closed_normalize e heading small now).exists_repeatedColumn (List.mem_of_getElem? ht)⟩

/-- Items that are identified through their orders, and have a `partial_id` besides. -/
def parcels : Extraction where
  entities :=
    [{ name := some "Order" },
     { name := some "Item"
       attributes :=
        [{ name := some "order_id", isPrimaryKey := true, isForeignKey := true },
         { name := some "partial_id" }] }]
  relationships :=
    [{ sourceEntity := some "Order", targetEntity := some "Item", isIdentifying := true }]

theorem distinct_columns_parcels :
    let s := (parcels.normalize {} 3 { year := 2024, month := 1, day := 1 }).schema
    ∃ t, s.tables[1]? = some t ∧ t.name = "item" ∧ t.HasForeignKey "order_id" ∧
      ∃ column n, Issue.repeatedColumn t.name column n ∈ s.issues := by
  intro s
  have ⟨htables, hnames⟩ : s.tables.length = 2 ∧ ∀ t ∈ s.tables[1]?, t.name = "item" ∧
      ¬(t.columns.map (·.name)).Nodup := by
    decide +kernel
  have ht : s.tables[1]? = some s.tables[1] := List.getElem?_eq_getElem (by omega)
  obtain ⟨hname, hrepeats⟩ := hnames _ ht
  obtain ⟨-, hdistinct, hissue⟩ := (distinct_columns_normalize parcels {} 3 _).2 1 _ _ ht rfl
  obtain ⟨-, hkeys, -⟩ := not_not.1 (mt hdistinct.2 hrepeats)
  refine ⟨_, ht, hname, hkeys _ (.inl ⟨_, rfl, rfl⟩), hissue.2 hrepeats⟩

/-- Not all columns of a normalized extraction have names of their own. -/
theorem not_distinct_columns_parcels :
    ¬∀ (e : Extraction) (heading : Heading) (small : ℤ) (now : Moment),
      ∀ t ∈ (e.normalize heading small now).schema.tables, (t.columns.map (·.name)).Nodup := by
  intro h
  obtain ⟨t, ht, hrepeats⟩ :
      ∃ t ∈ (parcels.normalize {} 3 { year := 2024, month := 1, day := 1 }).schema.tables,
        ¬(t.columns.map (·.name)).Nodup := by
    decide +kernel
  exact hrepeats (h parcels {} 3 _ t ht)

end Schemata
