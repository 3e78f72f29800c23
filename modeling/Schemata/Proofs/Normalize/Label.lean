import Schemata.Proofs.Normalize.Key
import Schemata.Proofs.Normalize.Name
import Schemata.Proofs.Sql.Label

/-!
# Names of constraints, indexes and types in the scripts of extractions

Within a table, only columns called `partial_id` can lead to one name for two constraints, two
indexes or two types; across tables, names are the same where two tables clash.
`nodup_given_normalize` says that nothing else is in the way of distinct names. Orders with the tags
of items, and the items of orders with tags, clash in every way (`not_nodup_given_orders`).
-/

namespace Schemata

open Sql (Dialect Labelled Script)

/-- **The names of constraints, indexes and types** in a script of an extraction are made of the
tables and columns of its expanded schema. Those of a kind are distinct just if no table has two
columns called `partial_id` that lead to such names, and no two tables clash. -/
theorem nodup_given_normalize (e : Extraction) (heading : Heading) (small : ℤ) (now : Moment)
    (d : Dialect) (later : Moment) {script : Script}
    (h : Script.of d later (e.normalize heading small now).schema = .ok script) :
    ∃ expanded, (e.normalize heading small now).schema.expandManyToMany = .ok expanded ∧
      ∀ kind : Labelled,
        (script.statements.flatMap kind.given).Perm
          (expanded.tables.flatMap fun t => (kind.columns d t).map (kind.label t.name)) ∧
        ((script.statements.flatMap kind.given).Nodup ↔
          (∀ t ∈ expanded.tables, (kind.columns d t).count "partial_id" ≤ 1) ∧
            ∀ t ∈ expanded.tables, ∀ u ∈ expanded.tables, ¬kind.Clash d t u) := by
  have hnames := (closed_normalize e heading small now).tables.names
  obtain ⟨expanded, hexpanded, hperm⟩ := Labelled.perm_given_script hnames h
  refine ⟨expanded, hexpanded, fun kind => ⟨hperm kind, ?_⟩⟩
  have hcount : ∀ name ≠ partialKeyName, ∀ t ∈ expanded.tables,
      (kind.columns d t).count name ≤ 1 := by
    intro name hname
    refine Labelled.count_columns_expandManyToMany hnames (fun t ht => ?_) hexpanded
    have hsub : (kind.columns d t).Sublist t.columnNames := List.filter_sublist.map _
    exact (hsub.count_le name).trans (count_columnNames_normalize ht hname)
  have hdistinct := Schema.nodup_expandManyToMany hnames hexpanded
  rw [(hperm kind).nodup_iff, Labelled.nodup_labels_iff hdistinct]
  refine and_congr_left fun _ => forall₂_congr fun t ht => ?_
  rw [List.nodup_iff_count_le_one]
  refine ⟨fun hall => hall _, fun hpartial name => ?_⟩
  by_cases hname : name = partialKeyName
  · exact hname ▸ hpartial
  · exact hcount name hname t ht

/-- Orders that belong to a tag of items, and items of orders that belong to a tag. -/
def orders : Extraction where
  entities :=
    [{ name := some "Order"
       attributes := [{ name := some "item_status", dataType := some "ENUM('open','done')" }] },
     { name := some "Item Tag" },
     { name := some "Order Item"
       attributes := [{ name := some "status", dataType := some "ENUM('new','old')" }] },
     { name := some "Tag" }]
  relationships :=
    [{ sourceEntity := some "Item Tag", targetEntity := some "Order" },
     { sourceEntity := some "Tag", targetEntity := some "Order Item" }]

theorem nodup_given_orders :
    let s := (orders.normalize {} 3 { year := 2024, month := 1, day := 1 }).schema
    ∃ script, Script.of .postgresql { year := 2024, month := 1, day := 1 } s = .ok script ∧
      ∃ expanded, s.expandManyToMany = .ok expanded ∧ ∀ kind : Labelled,
        ∃ t ∈ expanded.tables, ∃ u ∈ expanded.tables, kind.Clash .postgresql t u := by
  intro s
  have ⟨script, hscript, hrepeated⟩ :
      ∃ script ∈ (Script.of .postgresql { year := 2024, month := 1, day := 1 } s).toOption,
        ∀ kind ∈ [Labelled.constraint, .index, .enumeration],
          ¬(script.statements.flatMap kind.given).Nodup := by
    decide +kernel
  have hpartial : ∀ expanded ∈ s.expandManyToMany.toOption, ∀ t ∈ expanded.tables,
      "partial_id" ∉ t.columns.map (·.name) := by
    decide +kernel
  obtain ⟨expanded, hexpanded, hkinds⟩ :=
    nodup_given_normalize orders {} 3 _ _ _ (mem_toOption.1 hscript)
  refine ⟨script, mem_toOption.1 hscript, expanded, hexpanded, fun kind => ?_⟩
  have hkind : kind ∈ [Labelled.constraint, .index, .enumeration] := by cases kind <;> simp
  have hcount : ∀ t ∈ expanded.tables, (kind.columns .postgresql t).count "partial_id" ≤ 1 := by
    intro t ht
    have hsub : (kind.columns .postgresql t).Sublist (t.columns.map (·.name)) :=
      List.filter_sublist.map _
    rw [List.count_eq_zero_of_not_mem fun hmem =>
      hpartial expanded (mem_toOption.2 hexpanded) t ht (hsub.subset hmem)]
    exact Nat.zero_le 1
  have hclash := mt (hkinds kind).2.2 (hrepeated kind hkind)
  rw [not_and] at hclash
  simpa using hclash hcount

/-- Names of a kind are not distinct in all scripts of extractions. -/
theorem not_nodup_given_orders :
    ¬∀ (e : Extraction) (heading : Heading) (small : ℤ) (now : Moment) (d : Dialect)
      (later : Moment) (script : Script),
      Script.of d later (e.normalize heading small now).schema = .ok script →
        ∀ kind : Labelled, (script.statements.flatMap kind.given).Nodup := by
  intro h
  let noon : Moment := { year := 2024, month := 1, day := 1 }
  have ⟨script, hscript, hrepeated⟩ :
      ∃ script ∈ (Script.of .sqlite noon (orders.normalize {} 3 noon).schema).toOption,
        ¬(script.statements.flatMap Labelled.index.given).Nodup := by
    decide +kernel
  exact hrepeated (h orders {} 3 noon .sqlite noon script (mem_toOption.1 hscript) .index)

end Schemata
