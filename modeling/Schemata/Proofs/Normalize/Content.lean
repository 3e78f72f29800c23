import Schemata.Proofs.Normalize.Junction
import Schemata.Proofs.Normalize.Reorder
import Schemata.Proofs.Normalize.Type
import Schemata.Proofs.Schema.Content

/-!
# Where the types and default values of a normalized extraction come from

The types and default values in a normalized extraction are those of its attributes and those of the
usual columns, also behind references and in the junctions of its expanded schema. Stage by stage,
all tables keep to the classes to which these belong (`within_normalize`,
`within_expandManyToMany`).
-/

namespace Schemata

open Normalize

variable {types texts : String → Prop} {tables : List Table} {relationships : List Relationship}

namespace Normalize

theorem within_buildTable (h : Usual types texts) {entity : Extraction.Entity}
    (hentity : ∀ a ∈ entity.attributes, a.column.Within types texts) (taken : List String)
    (index : ℕ) : (buildTable taken entity index).value.Within types texts := by
  obtain ⟨t, -, hcolumns, hvalue⟩ := value_buildTable taken entity index
  have ht : t.Within types texts := by
    intro c hc
    rw [hcolumns] at hc
    split at hc
    · exact Column.within_defaults h c hc
    · rw [value_columnsFor] at hc
      rcases mem_foldl_appendNew hc with hc | hc
      · contradiction
      · obtain ⟨a, ha, rfl⟩ := List.mem_map.1 hc
        exact hentity a ha
  rw [hvalue]
  exact ((ht.withPrimaryKey h).withStamp h _).withStamp h _

theorem within_foldl_place (h : Usual types texts) (hplaced : Placed tables)
    (hjoins : ∀ r ∈ relationships, r.Joins (tables.map (·.name)))
    (hall : ∀ t ∈ tables, t.Within types texts) :
    ∀ t ∈ relationships.foldl Normalize.place tables, t.Within types texts := by
  refine hplaced.foldl_place_induction hjoins (p := fun tables => ∀ t ∈ tables, t.Within types texts)
    hall fun tables _ hall other hother holder => ?_
  simp only [List.forall_mem_map]
  intro t ht
  unfold placeIn
  split
  · exact (hall t ht).withForeignKey h (hall other hother)
  · exact hall t ht

theorem within_identifyAll (h : Usual types texts) (hplaced : Placed tables)
    (hjoins : ∀ r ∈ relationships, r.Joins (tables.map (·.name)))
    (hall : ∀ t ∈ tables, t.Within types texts) :
    ∀ t ∈ (identifyAll tables relationships).value, t.Within types texts := by
  refine identifyAll_induction hplaced.linked hplaced.consistent hjoins
    (p := fun tables => ∀ t ∈ tables, t.Within types texts) hall
    fun tables _ _ hall owner howner target _ => ?_
  simp only [List.forall_mem_map]
  intro t ht
  unfold identifyThrough
  split
  · exact (hall t ht).withIdentifyingKey h (hall owner howner)
  · exact hall t ht

theorem within_finish (h : Usual types texts) (small : ℤ)
    (hall : ∀ t ∈ tables, t.Within types texts) {t : Table} (ht : t ∈ tables) :
    (finish small tables t).Within types texts := by
  obtain ⟨f, hcolumns, hf⟩ := exists_finished small tables t
  intro d hd
  rw [hcolumns] at hd
  obtain ⟨c, hc, rfl⟩ := List.mem_map.1 hd
  refine ⟨?_, (hf c).defaultValue_eq ▸ (hall t ht c hc).defaultValue⟩
  rw [(hf c).dataType_eq]
  rcases value_retargetColumn tables t.name c with ⟨heq, -⟩ | ⟨r, key, -, hkey, heq⟩ <;> rw [heq]
  · exact (hall t ht c hc).dataType
  · -- a reference that is moved takes the type of the key that it is moved to
    obtain ⟨u, hu, -, -, rfl⟩ := exists_ownTarget hkey
    exact (hall u hu).referencedKey h

end Normalize

namespace Extraction

variable {e : Extraction} {heading : Heading} {small : ℤ} {now : Moment}

/-- The types of the attributes of the entities belong to one class, and their default values to
another. -/
def EntitiesWithin (types texts : String → Prop) (e : Extraction) : Prop :=
  ∀ entity ∈ e.entities, ∀ a ∈ entity.attributes, a.column.Within types texts

/-- The types of the attributes of the relationships belong to one class, and their default values
to another. -/
def RelationshipsWithin (types texts : String → Prop) (e : Extraction) : Prop :=
  ∀ r ∈ e.relationships, ∀ a ∈ r.attributes, a.relationshipColumn.Within types texts

/-- **The types and default values in a normalized extraction** are those of its attributes and
those of the usual columns. -/
theorem within_normalize (h : Usual types texts) (he : e.EntitiesWithin types texts) :
    ∀ t ∈ (e.normalize heading small now).schema.tables, t.Within types texts := by
  have hbuilt : ∀ b ∈ e.built, b.Within types texts := by
    intro b hb
    obtain ⟨entity, hentity, taken, index, rfl⟩ :=
      exists_left_of_forall₂ (forall₂_buildTables e.entities).2 hb
    exact within_buildTable h (he entity hentity) taken index
  have hresolved : ∀ t ∈ e.resolved, t.Within types texts := by
    rw [resolved_eq]
    simp only [List.forall_mem_map]
    intro b hb d hd
    obtain ⟨c, hc, rfl⟩ := List.mem_map.1 hd
    obtain ⟨entity, hentity⟩ := e.exists_built hb
    rcases value_resolveColumn e.built b.name c (hentity.fresh.bare c hc) with
      ⟨-, heq⟩ | ⟨-, ⟨u, -, -, heq⟩ | ⟨-, heq⟩⟩ <;> rw [heq]
    · exact hbuilt b hb c hc
    · exact (hbuilt b hb c hc).of_eq rfl rfl
    · exact (hbuilt b hb c hc).of_eq rfl rfl
  have hplaced : ∀ t ∈ e.placed, t.Within types texts := by
    obtain ⟨heq, hjoins⟩ := value_placeAll e.placed_resolved e.relationships
    rw [placed, heq]
    exact within_foldl_place h e.placed_resolved hjoins hresolved
  have hidentified : ∀ t ∈ e.identified, t.Within types texts :=
    within_identifyAll h e.placed_spec.1 e.placed_spec.2.1 hplaced
  have hordered : ∀ t ∈ e.ordered, t.Within types texts := by
    simp only [ordered, List.forall_mem_map]
    exact fun t ht => (hidentified t ht).withContiguousKey
  rw [tables_normalize]
  simp only [List.forall_mem_map]
  exact fun t ht => within_finish h small hordered ht

/-- The attributes of the relationships that are kept are those of the extraction. -/
theorem exists_attribute_of_mem {r : Schemata.Relationship} {a : Column}
    (hr : r ∈ (e.normalize heading small now).schema.relationships) (ha : a ∈ r.attributes) :
    ∃ q ∈ e.relationships, ∃ b ∈ q.attributes, a = b.relationshipColumn := by
  obtain ⟨q, hq, source, target, -, -, -, rfl⟩ := mem_relationships_normalize.1 hr
  obtain ⟨b, hb, rfl⟩ := List.mem_map.1 ha
  exact ⟨q, hq, b, hb, rfl⟩

/-- **The types and default values in the expanded schema of an extraction** are those of its
attributes and those of the usual columns. -/
theorem within_expandManyToMany (h : Usual types texts) (he : e.EntitiesWithin types texts)
    (he' : e.RelationshipsWithin types texts) {expanded : Schema}
    (heq : (e.normalize heading small now).schema.expandManyToMany = .ok expanded) :
    ∀ t ∈ expanded.tables, t.Within types texts := by
  obtain ⟨junctions, rfl, hjunctions⟩ :=
    (closed_normalize e heading small now).tables_expandManyToMany heq
  have htables : ∀ t ∈ (e.normalize heading small now).schema.tables, t.Within types texts :=
    within_normalize h he
  intro t ht
  rcases List.mem_append.1 ht with ht | ht
  · obtain ⟨u, hu, rfl⟩ := List.mem_map.1 ht
    exact (htables u hu).asSide _ _
  · obtain ⟨r, hr, source, hsource, target, htarget, -, -, rfl⟩ := hjunctions t ht
    refine Table.within_junctionTable h (htables source hsource) (htables target htarget) ?_
    intro a ha
    obtain ⟨q, hq, b, hb, rfl⟩ := exists_attribute_of_mem hr ha
    exact he' q hq b hb

end Extraction

end Schemata
