import Schemata.Proofs.Normalize.Contract
import Schemata.Proofs.Normalize.Frame
import Schemata.Proofs.Schema.Expansion

/-!
# The junctions of a normalized extraction

No table of a normalized extraction is a junction (`isJunctionTable_normalize`), so the junctions
are those that are made of its many-to-many relationships. A junction is named after the two tables
that it joins, and different tables may lead to one name: then the first relationship has it, and
the others are left without one. `represents_normalize` says which relationships have a junction.
-/

namespace Schemata

open Normalize

namespace Extraction

variable (e : Extraction) (heading : Heading) (small : ℤ) (now : Moment)

/-- **No table of a normalized extraction is a junction.** -/
theorem isJunctionTable_normalize :
    ∀ t ∈ (e.normalize heading small now).schema.tables, t.isJunctionTable = false := by
  intro t ht
  obtain ⟨entity, -, index, hframe⟩ := e.exists_frame ht
  exact congrArg Prod.snd hframe

/-- The schema of an extraction gets junctions of its many-to-many relationships, and they represent
the relationships between the tables that they join. -/
theorem exists_withJunctions : let s := (e.normalize heading small now).schema
    ∃ junctions, s.expandManyToMany = .ok (s.withJunctions junctions) ∧
      ∀ r, (s.withJunctions junctions).Represents r ↔
        ∃ q ∈ joining s.tableNames s.relationships, q.JoinsAs r := by
  intro s
  have hclosed := closed_normalize e heading small now
  obtain ⟨junctions, hexpanded, hjunctions, -⟩ :=
    Schema.exists_withJunctions hclosed.tables.names fun r hr _ => hclosed.joins r hr
  exact ⟨junctions, hexpanded, fun r =>
    Schema.represents_withJunctions hjunctions (e.isJunctionTable_normalize heading small now)⟩

end Extraction

/-- **Which many-to-many relationships are represented.** Where no table has the name of a junction,
the relationships that have one are those between tables that some many-to-many relationship joins,
in either direction, whose junction's name no many-to-many relationship before it has. -/
theorem represents_normalize (e : Extraction) (heading : Heading) (small : ℤ) (now : Moment) :
    let s := (e.normalize heading small now).schema
    (∀ r ∈ s.relationships, r.kind = .manyToMany → r.junction ∉ s.tableNames) →
      ∃ expanded, s.expandManyToMany = .ok expanded ∧
        ∀ r ∈ s.relationships, r.kind = .manyToMany → (expanded.Represents r ↔
          ∃ i q, s.relationships[i]? = some q ∧ q.kind = .manyToMany ∧ q.JoinsAs r ∧
            ∀ p ∈ s.relationships.take i, p.kind = .manyToMany → p.junction ≠ q.junction) := by
  intro s hfree
  obtain ⟨junctions, hexpanded, hrepresents⟩ := e.exists_withJunctions heading small now
  refine ⟨_, hexpanded, fun r _ _ => ?_⟩
  rw [hrepresents]
  constructor
  · rintro ⟨q, hq, hjoins⟩
    obtain ⟨i, hi, hkind, -, hfirst⟩ := mem_joining.1 hq
    exact ⟨i, q, hi, hkind, hjoins, hfirst⟩
  · rintro ⟨i, q, hi, hkind, hjoins, hfirst⟩
    have hmem : q ∈ s.relationships := List.mem_of_getElem? hi
    exact ⟨q, mem_joining.2 ⟨i, hi, hkind, hfree q hmem hkind, hfirst⟩, hjoins⟩

/-- Orders that bear tags for items, and items of orders that bear tags. -/
def labelling : Extraction where
  entities :=
    [{ name := some "Order" }, { name := some "Item Tag" }, { name := some "Order Item" },
     { name := some "Tag" }]
  relationships :=
    [{ sourceEntity := some "Order", targetEntity := some "Item Tag", type := some "many_to_many" },
     { sourceEntity := some "Order Item", targetEntity := some "Tag",
       type := some "many_to_many" }]

theorem represents_labelling :
    let s := (labelling.normalize {} 3 { year := 2024, month := 1, day := 1 }).schema
    (∀ r ∈ s.relationships, r.kind = .manyToMany → r.junction ∉ s.tableNames) ∧
      ∃ expanded, s.expandManyToMany = .ok expanded ∧ ∃ r ∈ s.relationships,
        r.kind = .manyToMany ∧ r.targetTable = "item_tag" ∧ expanded.Represents r := by
  intro s
  have hfree : ∀ r ∈ s.relationships, r.kind = .manyToMany → r.junction ∉ s.tableNames := by
    decide +kernel
  have ⟨r, hr, hkind, htarget⟩ : ∃ r ∈ s.relationships[0]?, r.kind = .manyToMany ∧
      r.targetTable = "item_tag" := by
    decide +kernel
  obtain ⟨expanded, hexpanded, hrepresents⟩ := represents_normalize labelling {} 3 _ hfree
  refine ⟨hfree, expanded, hexpanded, r, List.mem_of_getElem? hr, hkind, htarget, ?_⟩
  rw [hrepresents r (List.mem_of_getElem? hr) hkind]
  exact ⟨0, r, hr, hkind, .inl ⟨rfl, rfl⟩, by simp⟩

/-- Two relationships between different tables have one name for their junctions, and the second one
is left without a junction. -/
theorem not_represents_labelling :
    let s := (labelling.normalize {} 3 { year := 2024, month := 1, day := 1 }).schema
    (∀ r ∈ s.relationships, r.kind = .manyToMany → r.junction ∉ s.tableNames) ∧
      ∃ expanded, s.expandManyToMany = .ok expanded ∧ ∃ r ∈ s.relationships,
        r.kind = .manyToMany ∧ ¬expanded.Represents r := by
  intro s
  have hfree : ∀ r ∈ s.relationships, r.kind = .manyToMany → r.junction ∉ s.tableNames := by
    decide +kernel
  have ⟨r, hr, hkind, hapart⟩ : ∃ r ∈ s.relationships, r.kind = .manyToMany ∧
      ∀ q ∈ joining s.tableNames s.relationships, ¬q.JoinsAs r := by
    unfold Relationship.JoinsAs
    decide +kernel
  obtain ⟨junctions, hexpanded, hrepresents⟩ := labelling.exists_withJunctions {} 3 _
  refine ⟨hfree, _, hexpanded, r, hr, hkind, fun h => ?_⟩
  obtain ⟨q, hq, hjoins⟩ := (hrepresents r).1 h
  exact hapart q hq hjoins

end Schemata
