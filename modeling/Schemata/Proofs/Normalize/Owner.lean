import Schemata.Proofs.Normalize.Key

/-!
# Weak entities of a normalized extraction

A table that a relationship identifies has a key column for its owner and one of its own
(`Table.WeakThrough`). One more owner may turn the last column of its own into a reference; then
another one is added. So what one owner brings about is kept by all owners after it
(`Table.Owned.weakThrough`), in whatever order they come, and also where two tables own each other.

The last stages change key columns one by one and leave this alone (`Table.WeakThrough.of_map`).
`weakEntities_normalize` says it of the tables of the schema.
-/

namespace Schemata

open Normalize

namespace Table

/-- A weak entity that is identified through owners of the given names: there is a key column for
each of them, and one that is no reference. -/
structure WeakThrough (t : Table) (owners : List String) : Prop where
  isWeakEntity : t.isWeakEntity = true
  ownerKey : ∀ owner ∈ owners, ∃ key ∈ t.keyColumns,
    key.name = foreignKeyName owner ∧ key.isForeignKey = true
  ownKey : ∃ key ∈ t.keyColumns, key.isForeignKey = false

variable {t t' : Table} {owners : List String}

theorem isWeakEntity_withIdentifyingKey (t owner : Table) :
    (t.withIdentifyingKey owner).1.isWeakEntity = true := by
  unfold withIdentifyingKey
  dsimp only
  split <;> rfl

theorem exists_keyColumns_withIdentifyingKey (t owner : Table) :
    ∃ key ∈ (t.withIdentifyingKey owner).1.keyColumns,
      key.name = foreignKeyName owner.name ∧ key.isForeignKey = true := by
  obtain ⟨c, hc, hname, hprimary, hforeign⟩ := exists_ownerKey t owner
  have hmem := mem_columns_withIdentifyingKey.2 (.inl hc)
  exact ⟨c, mem_keyColumns.2 ⟨hmem, hprimary⟩, hname, hforeign⟩

/-- A key column for one owner stays when the table is identified through another. -/
theorem exists_keyColumns_of_mem {key : Column} (hkey : key ∈ t.keyColumns)
    (hforeign : key.isForeignKey = true) (owner : Table) :
    ∃ key' ∈ (t.withIdentifyingKey owner).1.keyColumns,
      key'.name = key.name ∧ key'.isForeignKey = true := by
  by_cases hname : key.name = foreignKeyName owner.name
  · rw [hname]
    exact exists_keyColumns_withIdentifyingKey t owner
  · obtain ⟨hmem, hprimary⟩ := mem_keyColumns.1 hkey
    have hmem := mem_columnsWithOwner_of_name_ne hmem hname
    exact ⟨key, mem_keyColumns.2 ⟨mem_columns_withIdentifyingKey.2 (.inl hmem), hprimary⟩, rfl,
      hforeign⟩

/-- **One more owner.** -/
theorem WeakThrough.withIdentifyingKey
    (h : ∀ owner ∈ owners, ∃ key ∈ t.keyColumns,
      key.name = foreignKeyName owner ∧ key.isForeignKey = true) (owner : Table) :
    WeakThrough (t.withIdentifyingKey owner).1 (owner.name :: owners) where
  isWeakEntity := isWeakEntity_withIdentifyingKey t owner
  ownerKey := by
    rw [List.forall_mem_cons]
    refine ⟨exists_keyColumns_withIdentifyingKey t owner, fun other hother => ?_⟩
    obtain ⟨key, hkey, hname, hforeign⟩ := h other hother
    rw [← hname]
    exact exists_keyColumns_of_mem hkey hforeign owner
  ownKey := by
    obtain ⟨c, hc, hown⟩ := exists_isOwnKey t owner
    obtain ⟨hprimary, hforeign⟩ := isOwnKey_iff.1 hown
    exact ⟨c, mem_keyColumns.2 ⟨hc, hprimary⟩, hforeign⟩

/-- **A table is a weak entity through all of its owners**, as soon as there is one. -/
theorem Owned.weakThrough (h : t.Owned owners t') (hne : owners ≠ []) : t'.WeakThrough owners := by
  induction h with
  | refl => contradiction
  | @step u owners owner _ ih =>
    refine .withIdentifyingKey (fun other hother => ?_) owner
    exact (ih (List.ne_nil_of_mem hother)).ownerKey other hother

/-- A change of the key columns one by one that leaves names and references. -/
theorem WeakThrough.of_map (h : t.WeakThrough owners) {f : Column → Column}
    (hweak : t'.isWeakEntity = t.isWeakEntity) (hkeys : t'.keyColumns = t.keyColumns.map f)
    (hf : ∀ c, (f c).name = c.name ∧ (f c).isForeignKey = c.isForeignKey) :
    t'.WeakThrough owners where
  isWeakEntity := hweak.trans h.isWeakEntity
  ownerKey owner howner := by
    obtain ⟨key, hkey, hname, hforeign⟩ := h.ownerKey owner howner
    exact ⟨f key, hkeys ▸ List.mem_map_of_mem hkey, (hf key).1.trans hname,
      (hf key).2.trans hforeign⟩
  ownKey := by
    obtain ⟨key, hkey, hforeign⟩ := h.ownKey
    exact ⟨f key, hkeys ▸ List.mem_map_of_mem hkey, (hf key).2.trans hforeign⟩

end Table

namespace Normalize

variable {t : Table} {owners : List String}

theorem isWeakEntity_finish (small : ℤ) (tables : List Table) (t : Table) :
    (finish small tables t).isWeakEntity = t.isWeakEntity := by
  have hmark : ∀ u, (markUnique tables u).isWeakEntity = u.isWeakEntity := by
    intro u
    unfold markUnique
    split
    · split <;> rfl
    · rfl
  have hlookup : ∀ u, (detectLookup small u).value.isWeakEntity = u.isWeakEntity := by
    intro u
    unfold detectLookup
    split <;> rfl
  rw [finish, hlookup, hmark]
  rfl

/-- A weak entity is still one after the last stages. -/
theorem weakThrough_finish (h : t.WeakThrough owners) (small : ℤ) (tables : List Table) :
    (finish small tables t.withContiguousKey).WeakThrough owners := by
  obtain ⟨f, hkeys, hf, -⟩ := exists_keyColumns_finish small tables t.withContiguousKey
  have hfront : t.withContiguousKey.WeakThrough owners :=
    h.of_map rfl (Table.keyColumns_withContiguousKey t) fun c =>
      ⟨Table.settledKey_name t c, Table.settledKey_isForeignKey t c⟩
  exact hfront.of_map (isWeakEntity_finish small tables _) hkeys fun c =>
    ⟨(hf c).name_eq, (hf c).isForeignKey_eq⟩

end Normalize

/-- A table is a weak entity through the sources of all relationships that identify it. -/
theorem weakThrough_normalize {e : Extraction} {heading : Heading} {small : ℤ} {now : Moment}
    {t : Table} (ht : t ∈ (e.normalize heading small now).schema.tables)
    {r : Relationship} (hr : r ∈ (e.normalize heading small now).schema.relationships)
    (hidentifies : r.Identifies t.name (foreignKeyName r.sourceTable)) :
    ∃ owners, r.sourceTable ∈ owners ∧ t.WeakThrough owners := by
  obtain ⟨entity, p, w, hstages, rfl⟩ := Extraction.exists_stages_of_mem ht
  obtain ⟨owners, hrun, howners⟩ := hstages.owners
  rw [hstages.name_eq] at hidentifies
  have hmem : r.sourceTable ∈ owners := (howners _).2 ⟨r, hr, rfl, hidentifies⟩
  exact ⟨owners, hmem, weakThrough_finish (hrun.weakThrough (List.ne_nil_of_mem hmem)) _ _⟩

/-- **The weak entities of a normalized extraction.** The target of a relationship that identifies
it through another table is marked a weak entity. Its key has a column called after the source,
`source_id`, which is not open and refers to a column of the source, and a column that is no
reference. It may be the target of any number of such relationships, and own its owners in turn. -/
theorem weakEntities_normalize (e : Extraction) (heading : Heading) (small : ℤ) (now : Moment) :
    let s := (e.normalize heading small now).schema
    ∀ r ∈ s.relationships, r.isIdentifying = true → r.sourceTable ≠ r.targetTable →
      ∃ t, s.table? r.targetTable = some t ∧ t.isWeakEntity = true ∧
        (∃ c ∈ t.columns, c.name = r.sourceTable ++ "_id" ∧ c.isPrimaryKey = true ∧
          c.isNullable = false ∧ c.isForeignKey = true ∧
          ∃ reference, c.references = some reference ∧ reference.table = r.sourceTable ∧
            ∃ u, s.table? r.sourceTable = some u ∧ u.hasColumn reference.column = true) ∧
        ∃ key ∈ t.columns, key.isPrimaryKey = true ∧ key.isForeignKey = false := by
  intro s r hr hidentifying hne
  have h : Sound e.entities s.tables s.relationships := tablesAndRelationships_spec small e
  obtain ⟨hsource, htarget⟩ := h.joins r hr
  obtain ⟨t, ht, htarget⟩ := List.mem_map.1 htarget
  obtain ⟨owner, howner, hsource⟩ := List.mem_map.1 hsource
  have hfind : ∀ u ∈ s.tables, s.table? u.name = some u :=
    fun u hu => find?_name h.linked.names hu
  obtain ⟨owners, hmem, hweak⟩ :=
    weakThrough_normalize ht hr ⟨hidentifying, hne, htarget.symm, rfl⟩
  obtain ⟨c, hc, hname, hforeign⟩ := hweak.ownerKey _ hmem
  have hnullable := (keyInFront_normalize ht).isNullable c hc
  obtain ⟨hc, hprimary⟩ := Table.mem_keyColumns.1 hc
  obtain ⟨key, hkey, hown⟩ := hweak.ownKey
  obtain ⟨hkey, hkey_primary⟩ := Table.mem_keyColumns.1 hkey
  obtain ⟨reference, hreference⟩ := Option.isSome_iff_exists.1
    ((h.consistent t ht c hc).symm.trans hforeign)
  -- the name of the column tells which table it refers to
  obtain ⟨u, hu, htable, hcolumn, hname', -⟩ := h.linked.reaches t ht c hc reference hreference
  have hplain := h.linked.plain
  obtain rfl : owner = u := by
    refine h.linked.eq_of_name howner hu ?_
    rw [← foreignKeyName_inj (hplain _ howner) (hplain _ hu), hsource, ← hname, hname']
  rw [← hsource, ← htarget]
  refine ⟨t, hfind t ht, hweak.isWeakEntity, ⟨c, hc, ?_, hprimary, hnullable, hforeign, reference,
    hreference, htable, owner, hfind owner hu, hcolumn⟩, key, hkey, hkey_primary, hown⟩
  rw [hname', foreignKeyName_of_plain (hplain _ hu)]

/-- Books and copies that own each other; the key of the copies already has the name of the
reference to their owner, and books are twice the owners of copies. -/
def editions : Extraction where
  entities :=
    [{ name := some "Book", attributes := [{ name := some "isbn", isPrimaryKey := true }] },
     { name := some "Copy", attributes := [{ name := some "book_id", isPrimaryKey := true }] }]
  relationships :=
    [{ sourceEntity := some "Book", targetEntity := some "Copy", isIdentifying := true },
     { sourceEntity := some "Copy", targetEntity := some "Book", isIdentifying := true },
     { name := some "again", sourceEntity := some "Book", targetEntity := some "Copy",
       isIdentifying := true }]

/-- Both tables are weak entities, and the key of the copies has been completed. -/
theorem weakEntities_editions :
    let s := (editions.normalize {} 3 { year := 2024, month := 1, day := 1 }).schema
    (s.relationships.map fun r => (r.sourceTable, r.targetTable)) =
        [("book", "copy"), ("copy", "book"), ("book", "copy")] ∧
      ∀ r ∈ s.relationships, ∃ t, s.table? r.targetTable = some t ∧ t.isWeakEntity = true ∧
        (∃ c ∈ t.columns, c.name = r.sourceTable ++ "_id" ∧ c.isPrimaryKey = true) ∧
        ∃ key ∈ t.columns, key.isPrimaryKey = true ∧ key.isForeignKey = false := by
  intro s
  have ⟨hsides, hidentifying⟩ :
      (s.relationships.map fun r => (r.sourceTable, r.targetTable)) =
        [("book", "copy"), ("copy", "book"), ("book", "copy")] ∧
      ∀ r ∈ s.relationships, r.isIdentifying = true ∧ r.sourceTable ≠ r.targetTable := by
    decide +kernel
  refine ⟨hsides, fun r hr => ?_⟩
  obtain ⟨hr_identifying, hne⟩ := hidentifying r hr
  obtain ⟨t, ht, hweak, ⟨c, hc, hname, hprimary, -⟩, hown⟩ :=
    weakEntities_normalize editions {} 3 _ r hr hr_identifying hne
  exact ⟨t, ht, hweak, ⟨c, hc, hname, hprimary⟩, hown⟩

end Schemata
