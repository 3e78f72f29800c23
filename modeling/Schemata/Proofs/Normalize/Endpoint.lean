import Schemata.Proofs.Normalize.Account
import Schemata.Proofs.Normalize.Identifier

/-!
# The tables at the ends of relationships

A relationship joins the tables whose names are made of the labels of its ends. The table of an
entity has another name than the one made of its label if that name was taken, and the number that
tells it apart can lead to the name of an entity that comes later. `sole_entity_normalize` says when
an end that only one entity is called by leads to the table of this entity: just if no table was
renamed to the name, which is told of every table that was.
-/

namespace Schemata

open Normalize

/-- The ends of a relationship: the label of each and the name of its table. -/
def Relationship.ends (r : Relationship) : List (String × String) :=
  [(r.sourceEntity, r.sourceTable), (r.targetEntity, r.targetTable)]

namespace Extraction

variable {e : Extraction} {heading : Heading} {small : ℤ} {now : Moment} {i : ℕ}
  {r : Schemata.Relationship} {label table name wanted : String}

/-- An entity, by its index, is the only one from whose label a name is made. -/
def Sole (e : Extraction) (i : ℕ) (name : String) : Prop :=
  i < e.entities.length ∧ ∀ j entity, e.entities[j]? = some entity →
    (tableName entity.name = name ↔ j = i)

instance (e : Extraction) (i : ℕ) (name : String) : Decidable (e.Sole i name) :=
  decidable_of_iff
    (i < e.entities.length ∧ ∀ p ∈ e.entities.zipIdx, tableName p.1.name = name ↔ p.2 = i) <|
    and_congr_right' <| by
      simp only [Prod.forall, List.mem_zipIdx_iff_getElem?]
      exact forall_comm

/-- The entities and their tables, index by index. -/
theorem exists_getElem?_of_lt (hi : i < e.entities.length) : ∃ entity t,
    e.entities[i]? = some entity ∧ (e.normalize heading small now).schema.tables[i]? = some t := by
  have hlength : (e.normalize heading small now).schema.tables.length = e.entities.length :=
    length_normalize
  exact ⟨_, _, List.getElem?_eq_getElem hi, List.getElem?_eq_getElem (hlength ▸ hi)⟩

/-- **Which tables were renamed** is told of each of them. -/
theorem renamedTable_mem_diagnostics : .renamedTable name wanted ∈
      (e.normalize heading small now).diagnostics ↔
    ∃ (j : ℕ) (u : Table) (entity : Entity),
      (e.normalize heading small now).schema.tables[j]? = some u ∧ e.entities[j]? = some entity ∧
        u.name = name ∧ tableName entity.name = wanted ∧ name ≠ wanted := by
  have hnames : ∀ j : ℕ, (e.normalize heading small now).schema.tables[j]?.map (·.name) =
      (buildTables e.entities).value[j]?.map (·.name) := fun j => by
    rw [← List.getElem?_map, ← List.getElem?_map]
    exact congrArg (·[j]?) (e.tableNames_normalize heading small now)
  rw [mem_diagnostics_of_code e heading small now (by simp [Diagnostic.code, buildCodes]),
    renamedTable_mem_notes_buildTables]
  constructor
  · rintro ⟨⟨entity, b⟩, hmem, hname, hwanted⟩
    obtain ⟨j, hj⟩ := List.mem_iff_getElem?.1 hmem
    obtain ⟨hentity, hb⟩ := List.getElem?_zip_eq_some.1 hj
    have hsame := hnames j
    rw [hb, Option.map_some] at hsame
    obtain ⟨u, hu, heq⟩ := Option.map_eq_some_iff.1 hsame
    exact ⟨j, u, entity, hu, hentity, heq.trans hname, hwanted⟩
  · rintro ⟨j, u, entity, hu, hentity, hname, hwanted⟩
    have hsame := hnames j
    rw [hu, Option.map_some] at hsame
    obtain ⟨b, hb, heq⟩ := Option.map_eq_some_iff.1 hsame.symm
    exact ⟨(entity, b), List.mem_of_getElem? (List.getElem?_zip_eq_some.2 ⟨hentity, hb⟩),
      heq.trans hname, hwanted⟩

/-- The label at an end names its table, which is one of the schema. -/
theorem table_of_mem_ends (hr : r ∈ (e.normalize heading small now).schema.relationships)
    (hend : (label, table) ∈ r.ends) : table = tableName (some label) ∧
      table ∈ (e.normalize heading small now).schema.tableNames := by
  obtain ⟨hsource, htarget⟩ := ends_normalize hr
  obtain ⟨hsource', htarget'⟩ := (tablesAndRelationships_spec small e).joins r hr
  rw [Relationship.ends, List.mem_cons, List.mem_singleton] at hend
  rcases hend with hend | hend <;> obtain ⟨rfl, rfl⟩ := Prod.mk.inj hend
  · exact ⟨hsource, hsource'⟩
  · exact ⟨htarget, htarget'⟩

/-- A table has another name than its entity asks for just because an earlier one has that name. -/
theorem exists_earlier_of_name_ne {entity : Entity} {t : Table}
    (ht : (e.normalize heading small now).schema.tables[i]? = some t)
    (hentity : e.entities[i]? = some entity) (hne : t.name ≠ tableName entity.name) :
    ∃ j < i, ∃ (u : Table) (other : Entity),
      (e.normalize heading small now).schema.tables[j]? = some u ∧ e.entities[j]? = some other ∧
        u.name = tableName entity.name := by
  have htaken : tableName entity.name ∈
      (e.normalize heading small now).schema.tableNames.take i := by
    by_contra hfree
    exact hne ((e.name_normalize ht hentity).trans (uniqueName_of_not_mem hfree))
  obtain ⟨j, hj⟩ := List.mem_iff_getElem?.1 htaken
  rw [List.getElem?_take, Option.ite_none_right_eq_some, Schema.tableNames, List.getElem?_map] at hj
  obtain ⟨hji, hj⟩ := hj
  obtain ⟨u, hu, hname⟩ := Option.map_eq_some_iff.1 hj
  have hlt : j < e.entities.length := hji.trans (List.getElem?_eq_some_iff.1 hentity).1
  exact ⟨j, hji, u, _, hu, List.getElem?_eq_getElem hlt, hname⟩

end Extraction

open Extraction

/-- **The tables at the ends of relationships.** An end joins the table whose name is made of its
label. If this name is made of the label of one entity alone, the table is the one of this entity
just if no table is told to have been renamed to the name. Otherwise the table of this entity has
been renamed, which is told as well, and the end joins the table of an earlier entity, from whose
label another name is made. -/
theorem sole_entity_normalize (e : Extraction) (heading : Heading) (small : ℤ) (now : Moment) :
    let n := e.normalize heading small now
    let s := n.schema
    ∀ r ∈ s.relationships, ∀ label table, (label, table) ∈ r.ends →
      table = tableName (some label) ∧ ∀ i, e.Sole i (tableName (some label)) →
        ∃ t, s.tables[i]? = some t ∧
          (t.name = table ↔ ∀ wanted, .renamedTable table wanted ∉ n.diagnostics) ∧
          (t.name ≠ table → .renamedTable t.name table ∈ n.diagnostics ∧
            ∃ j < i, ∃ (u : Table) (other : Extraction.Entity), s.tables[j]? = some u ∧
              e.entities[j]? = some other ∧ u.name = table ∧ tableName other.name ≠ table) := by
  intro n s r hr label table hend
  obtain ⟨htable, hmem⟩ := table_of_mem_ends hr hend
  refine ⟨htable, ?_⟩
  rw [← htable]
  rintro i ⟨hi, hsole⟩
  obtain ⟨entity, t, hentity, ht⟩ : ∃ entity t, e.entities[i]? = some entity ∧
    s.tables[i]? = some t := exists_getElem?_of_lt hi
  have hwanted : tableName entity.name = table := (hsole i entity hentity).2 rfl
  -- no other entity asks for the name, so one before it that has it was renamed
  have hearlier : t.name ≠ table → ∃ j < i, ∃ (u : Table) (other : Extraction.Entity),
      s.tables[j]? = some u ∧ e.entities[j]? = some other ∧ u.name = table ∧
        tableName other.name ≠ table := by
    intro hne
    obtain ⟨j, hji, u, other, hu, hother, hname⟩ :=
      exists_earlier_of_name_ne ht hentity (hwanted.symm ▸ hne)
    exact ⟨j, hji, u, other, hu, hother, hname.trans hwanted,
      fun heq => hji.ne ((hsole j other hother).1 heq)⟩
  refine ⟨t, ht, ⟨fun hname wanted hrenamed => ?_, fun hnone => ?_⟩, fun hne => ⟨?_, hearlier hne⟩⟩
  · obtain ⟨j, u, other, hu, hother, hname', rfl, hne⟩ := renamedTable_mem_diagnostics.1 hrenamed
    have hnodup : s.tableNames.Nodup := (closed_normalize e heading small now).tables.names
    have hji : j = i := by
      have hj : j < s.tableNames.length := by
        rw [Schema.tableNames, List.length_map]
        exact (List.getElem?_eq_some_iff.1 hu).1
      refine (List.getElem?_inj hj hnodup).1 ?_
      rw [Schema.tableNames, List.getElem?_map, List.getElem?_map, hu, ht, Option.map_some,
        Option.map_some, hname, hname']
    exact hne ((hsole j other hother).2 hji).symm
  · by_contra hne
    obtain ⟨j, -, u, other, hu, hother, hname, hne'⟩ := hearlier hne
    exact hnone _ (renamedTable_mem_diagnostics.2
      ⟨j, u, other, hu, hother, hname, rfl, hne'.symm⟩)
  · exact renamedTable_mem_diagnostics.2 ⟨i, t, entity, ht, hentity, rfl, hwanted, hne⟩

/-- Two entities of one name, a third that is called as the table of the second is, and a
relationship of the third. -/
def duplicates : Extraction where
  entities :=
    [{ name := some "Order" }, { name := some "Order" }, { name := some "Order 2" },
     { name := some "Customer" }]
  relationships :=
    [{ sourceEntity := some "Order 2", targetEntity := some "Customer",
       type := some "many_to_many" }]

/-- The customers are found. In place of the third entity the second is, and the names tell that
both of these were renamed. -/
theorem sole_entity_duplicates :
    let n := duplicates.normalize {} 3 { year := 2024, month := 1, day := 1 }
    let s := n.schema
    ∃ r ∈ s.relationships, r.ends = [("Order 2", "order_2"), ("Customer", "customer")] ∧
      duplicates.Sole 2 "order_2" ∧ duplicates.Sole 3 "customer" ∧
      (∃ t, s.tables[3]? = some t ∧ t.name = "customer") ∧
      ∃ t, s.tables[2]? = some t ∧ t.name ≠ "order_2" ∧
        .renamedTable t.name "order_2" ∈ n.diagnostics := by
  intro n s
  have ⟨r, hr, hends⟩ :
      ∃ r ∈ s.relationships, r.ends = [("Order 2", "order_2"), ("Customer", "customer")] := by
    decide +kernel
  have ⟨hthird, hfourth⟩ : duplicates.Sole 2 "order_2" ∧ duplicates.Sole 3 "customer" := by
    decide +kernel
  have ⟨horder, hcustomer⟩ : tableName (some "Order 2") = "order_2" ∧
      tableName (some "Customer") = "customer" := by decide +kernel
  have ⟨hrenamed, hkept⟩ : .renamedTable "order_2" "order" ∈ n.diagnostics ∧
      ∀ d ∈ n.diagnostics, d.code = "DUPLICATE_TABLE" → d.location ≠ "customer" := by
    decide +kernel
  refine ⟨r, hr, hends, hthird, hfourth, ?_, ?_⟩
  · obtain ⟨t, ht, hiff, -⟩ := (sole_entity_normalize duplicates {} 3 _ r hr "Customer" "customer"
      (by simp [hends])).2 3 (hcustomer.symm ▸ hfourth)
    exact ⟨t, ht, hiff.2 fun wanted hmem => hkept _ hmem rfl rfl⟩
  · obtain ⟨t, ht, hiff, hnot⟩ := (sole_entity_normalize duplicates {} 3 _ r hr "Order 2" "order_2"
      (by simp [hends])).2 2 (horder.symm ▸ hthird)
    have hne : t.name ≠ "order_2" := fun heq => hiff.1 heq "order" hrenamed
    exact ⟨t, ht, hne, (hnot hne).1⟩

/-- Not every end that only one entity is called by leads to the table of this entity. -/
theorem not_sole_entity_duplicates :
    ¬∀ (e : Extraction) (heading : Heading) (small : ℤ) (now : Moment),
      let s := (e.normalize heading small now).schema
      ∀ r ∈ s.relationships, ∀ label table, (label, table) ∈ r.ends →
        ∀ i, e.Sole i (tableName (some label)) →
          ∃ t, s.tables[i]? = some t ∧ t.name = table := by
  intro h
  have hfound := h duplicates {} 3 { year := 2024, month := 1, day := 1 }
  have ⟨r, hr, hend⟩ : ∃ r ∈ (duplicates.normalize {} 3
      { year := 2024, month := 1, day := 1 }).schema.relationships,
        ("Order 2", "order_2") ∈ r.ends := by
    decide +kernel
  have hsole : duplicates.Sole 2 (tableName (some "Order 2")) := by decide +kernel
  have hno : ∀ t ∈ (duplicates.normalize {} 3
      { year := 2024, month := 1, day := 1 }).schema.tables[2]?, t.name ≠ "order_2" := by
    decide +kernel
  obtain ⟨t, ht, hname⟩ := hfound r hr "Order 2" "order_2" hend 2 hsole
  exact hno t ht hname

end Schemata
