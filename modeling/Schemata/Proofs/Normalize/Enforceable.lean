import Schemata.Proofs.Normalize.Key
import Schemata.Proofs.Schema.Enforceable

/-!
# The references of a normalized extraction can be enforced

References lead to key columns in every stage of a normalization (`KeyLinked`), because keys only
grow. At its end they are moved to the key column that is no reference, and this column is marked,
so that the tables are made for the references between them (`enforceable_normalize`). With the
junctions for many-to-many relationships they still are, which tells the references to a column that
is unique on its own from the others.
-/

namespace Schemata

open Normalize

/-- Every reference leads to a key column of one of the tables. -/
def KeyLinked (tables : List Table) : Prop :=
  ∀ t ∈ tables, ∀ c ∈ t.columns, ∀ r, c.references = some r →
    ∃ u ∈ tables, u.name = r.table ∧ r.column ∈ u.keyNames

variable {tables : List Table}

/-- References still lead to key columns after all tables and their keys have grown. -/
theorem KeyLinked.map (h : KeyLinked tables) (hkeyed : ∀ t ∈ tables, t.keyColumns ≠ [])
    {f : Table → Table} (hgrows : ∀ t ∈ tables, Table.Grows tables t (f t))
    (hkeys : ∀ t ∈ tables, t.keyNames ⊆ (f t).keyNames) : KeyLinked (tables.map f) := by
  simp only [KeyLinked, List.forall_mem_map]
  intro t ht c hc r hr
  rcases (hgrows t ht).references c hc r hr with ⟨d, hd, -, hr⟩ | ⟨u, hu, htable, hcolumn, -⟩
  · obtain ⟨u, hu, hname, hkey⟩ := h t ht d hd r hr
    exact ⟨f u, List.mem_map_of_mem hu, (hgrows u hu).name_eq.trans hname, hkeys u hu hkey⟩
  · refine ⟨f u, List.mem_map_of_mem hu, (hgrows u hu).name_eq.trans htable.symm, hkeys u hu ?_⟩
    rw [hcolumn]
    exact List.mem_map_of_mem (Table.referencedKey_mem (hkeyed u hu))

namespace Extraction

variable (e : Extraction)

theorem keyLinked_resolved : KeyLinked e.resolved := by
  have hbuilt : ∀ b ∈ e.built, ∃ entity, Built entity b := fun b hb => e.exists_built hb
  have hbare : KeyLinked e.built := by
    intro b hb c hc r hr
    obtain ⟨entity, hentity⟩ := hbuilt b hb
    rw [hentity.fresh.bare c hc] at hr
    contradiction
  rw [resolved_eq]
  refine hbare.map (fun b hb => (hbuilt b hb).elim fun _ h => h.keyed) (fun b hb => ?_)
    fun b hb => ?_
  · obtain ⟨entity, hentity⟩ := hbuilt b hb
    exact grows_resolved hentity.fresh fun u hu => (hbuilt u hu).elim fun _ h => h.plain
  · rw [(resolve_spec hb).2.2.1]
    exact List.Subset.refl _

theorem keyLinked_placed : KeyLinked e.placed := by
  obtain ⟨heq, hjoins⟩ := value_placeAll e.placed_resolved e.relationships
  rw [placed, heq]
  refine e.placed_resolved.foldl_place_induction hjoins e.keyLinked_resolved ?_
  intro tables hplaced hkeys other hother holder
  refine hkeys.map hplaced.linked.keyed
    (fun t ht => grows_placeIn hother (hplaced.distinct t ht) holder) fun t ht => ?_
  rw [(extends_placeIn (hplaced.distinct t ht) other holder).keyNames_eq]
  exact List.Subset.refl _

theorem keyLinked_identified : KeyLinked e.identified := by
  obtain ⟨hplaced, hjoins, -⟩ := e.placed_spec
  refine identifyAll_induction hplaced.linked hplaced.consistent hjoins e.keyLinked_placed ?_
  intro tables hlinked _ hkeys owner howner target _
  refine hkeys.map hlinked.keyed (fun t _ => grows_identifyThrough howner target t) fun t _ => ?_
  unfold identifyThrough
  split
  · exact Table.keyNames_subset_withIdentifyingKey t owner
  · exact List.Subset.refl _

theorem keyLinked_ordered : KeyLinked e.ordered := by
  refine e.keyLinked_identified.map e.identified_spec.1.1.keyed
    (fun t _ => Table.grows_withContiguousKey _ t) fun t _ => ?_
  rw [Table.keyNames_withContiguousKey]
  exact List.Subset.refl _

end Extraction

variable (e : Extraction) (heading : Heading) (small : ℤ) (now : Moment)

theorem keyLinked_normalize : KeyLinked (e.normalize heading small now).schema.tables := by
  rw [tables_normalize]
  refine e.keyLinked_ordered.map e.ordered_spec.1.1.keyed
    (fun t ht => grows_finish small e.ordered_spec.1.1 ht) fun t _ => ?_
  rw [(sameKeys_finish small e.ordered t).keyNames]
  exact List.Subset.refl _

/-- **The tables of a normalized extraction are made for the references between them.** -/
theorem enforceable_normalize : Enforceable (e.normalize heading small now).schema.tables := by
  have hclosed := closed_normalize e heading small now
  have hsound := tablesAndRelationships_spec small e
  refine ⟨hclosed.tables.names, fun t ht => ?_, fun t ht c hc r hr => ?_⟩
  · refine ⟨hclosed.tables.keyed t ht, keyInFront_normalize ht, fun hmany key hkey hunique => ?_,
      fun hmany hunique key hkey hname => ?_⟩
    · obtain ⟨hname, hown, -⟩ := (isUnique_normalize ht hmany hkey).1 hunique
      exact ⟨hname, hown⟩
    · have hmem := Table.referencedKey_mem (hclosed.tables.keyed t ht)
      obtain ⟨-, hown, hreferenced⟩ := (isUnique_normalize ht hmany hmem).1 hunique
      exact (isUnique_normalize ht hmany hkey).2 ⟨hname, hown, hreferenced⟩
  · obtain ⟨u, hu, hname, hkey⟩ := keyLinked_normalize e heading small now t ht c hc r hr
    refine ⟨u, hu, hname, hkey, hsound.settled t ht c hc r hr u hu hname.symm,
      fun hmany hown => ?_⟩
    have hmem := Table.referencedKey_mem (hclosed.tables.keyed u hu)
    refine (isUnique_normalize hu hmany hmem).2
      ⟨rfl, Table.referencedKey_isForeignKey hown hmany, isReferenced_iff.2 ?_⟩
    exact ⟨t, ht, c, hc, r, hr, hname.symm⟩

/-- **Which references of a normalized extraction can be enforced.** Making junctions succeeds, and
every foreign key then leads to a key column of a table. This column is the only one of the key or
marked as unique just if the key of the table is a single column or has a member that is no
reference. -/
theorem enforceable_expandManyToMany (e : Extraction) (heading : Heading) (small : ℤ)
    (now : Moment) :
    let s := (e.normalize heading small now).schema
    ∃ expanded, s.expandManyToMany = .ok expanded ∧
      ∀ t ∈ expanded.tables, ∀ c ∈ t.columns, c.isForeignKey = true →
        ∃ r, c.references = some r ∧ ∃ u ∈ expanded.tables, u.name = r.table ∧
          ∃ d ∈ u.keyColumns, u.column? r.column = some d ∧
            ((u.keyColumns = [d] ∨ d.isUnique = true) ↔
              u.keyColumns.length = 1 ∨ ∃ key ∈ u.keyColumns, key.isForeignKey = false) := by
  intro s
  obtain ⟨expanded, heq, hclosed⟩ := (closed_normalize e heading small now).expandManyToMany
  have henforceable : Enforceable expanded.tables :=
    (enforceable_normalize e heading small now).expandManyToMany heq
  refine ⟨expanded, heq, fun t ht c hc hforeign => ?_⟩
  have hconsistent := hclosed.tables.consistent t ht c hc
  rw [Column.IsConsistent, hforeign] at hconsistent
  obtain ⟨r, hr⟩ := Option.isSome_iff_exists.1 hconsistent.symm
  obtain ⟨u, hu, hname, hadmits⟩ := henforceable.admits t ht c hc r hr
  exact ⟨r, hr, u, hu, hname, (henforceable.marked u hu).column?_of_admits hadmits⟩

/-- Enrolments, whose key is made of two references, and grades for them. -/
def grading : Extraction where
  entities :=
    [{ name := some "Student" }, { name := some "Course" },
     { name := some "Enrollment"
       attributes :=
        [{ name := some "student_id", isPrimaryKey := true, isForeignKey := true },
         { name := some "course_id", isPrimaryKey := true, isForeignKey := true }] },
     { name := some "Grade" }]
  relationships :=
    [{ sourceEntity := some "Enrollment", targetEntity := some "Grade",
       type := some "one_to_many" }]

/-- Not every foreign key of an expanded extraction leads to a column that is unique on its own. -/
theorem not_enforceable_grading :
    ¬∀ (e : Extraction) (heading : Heading) (small : ℤ) (now : Moment),
      ∃ expanded, (e.normalize heading small now).schema.expandManyToMany = .ok expanded ∧
        ∀ t ∈ expanded.tables, ∀ c ∈ t.columns, c.isForeignKey = true →
          ∃ r, c.references = some r ∧ ∃ u ∈ expanded.tables, u.name = r.table ∧
            ∃ d ∈ u.columns, d.name = r.column ∧ (u.keyColumns = [d] ∨ d.isUnique = true) := by
  intro h
  have hnone :
      let s := (grading.normalize {} 3 { year := 2024, month := 1, day := 1 }).schema
      ∀ expanded ∈ s.expandManyToMany.toOption, ∃ t ∈ expanded.tables, ∃ c ∈ t.columns,
        c.isForeignKey = true ∧ ∀ r ∈ c.references, ∀ u ∈ expanded.tables, u.name = r.table →
          1 < u.keyColumns.length ∧ ∀ d ∈ u.columns, d.isUnique = false := by
    decide +kernel
  obtain ⟨expanded, heq, henforceable⟩ := h grading {} 3 { year := 2024, month := 1, day := 1 }
  obtain ⟨t, ht, c, hc, hforeign, hnone⟩ := hnone expanded (by rw [heq]; rfl)
  obtain ⟨r, hr, u, hu, hname, d, hd, -, hunique⟩ := henforceable t ht c hc hforeign
  obtain ⟨hmany, hplain⟩ := hnone r hr u hu hname
  rcases hunique with hsingle | hunique
  · simp [hsingle] at hmany
  · simp [hplain d hd] at hunique

end Schemata
