import Schemata.Proofs.Normalize.Type

/-!
# What follows when a key changes

A reference says what is to follow when the row that it leads to is deleted or its key changes. In a
normalized extraction this is always that the change is passed on (`cascades_normalize`): no stage
gives references another rule than the one by default.
-/

namespace Schemata

open Normalize

namespace Table

variable {t p w : Table} {owners : List String}

/-- What follows at the other end of its references is what does by default. -/
def Cascades (t : Table) : Prop :=
  ∀ c ∈ t.columns, ∀ r, c.references = some r → r = { table := r.table, column := r.column }

theorem Cascades.withForeignKey (h : t.Cascades) (hdistinct : t.Distinct)
    (hconsistent : ∀ c ∈ t.columns, c.IsConsistent) (other : Table) :
    (t.withForeignKey other).Cascades := by
  intro d hd r hr
  rcases mem_columns_withForeignKey hdistinct hconsistent hd with hd | ⟨htyped, -⟩
  · exact h d hd r hr
  · rw [htyped.references_eq] at hr
    rw [← Option.some.inj hr]
    rfl

theorem Cascades.withIdentifyingKey (h : t.Cascades) (owner : Table) :
    (t.withIdentifyingKey owner).1.Cascades := by
  intro d hd r hr
  rcases withIdentifyingKey_cases hd with hd | ⟨rfl, -⟩ | ⟨c, hc, -, rfl⟩ | ⟨rfl, -⟩
  · exact h d hd r hr
  · rw [← Option.some.inj hr]
    rfl
  · rw [← Option.some.inj hr]
    cases hold : c.references with
    | none => rfl
    | some old => exact h c hc old hold
  · simp [Column.partialKey] at hr

theorem Cascades.of_owned (h : p.Cascades) (hrun : p.Owned owners w) : w.Cascades := by
  induction hrun with
  | refl => exact h
  | step owner _ ih => exact ih.withIdentifyingKey owner

theorem Cascades.withContiguousKey (h : t.Cascades) : t.withContiguousKey.Cascades := by
  intro d hd r hr
  obtain ⟨c, hc, -, -, -, hreferences, -⟩ := mem_columns_withContiguousKey hd
  exact h c hc r (hreferences.symm.trans hr)

end Table

namespace Extraction

variable {e : Extraction}

theorem cascades_resolved {t : Table} (ht : t ∈ e.resolved) : t.Cascades := by
  rw [resolved_eq] at ht
  obtain ⟨b, hb, rfl⟩ := List.mem_map.1 ht
  obtain ⟨entity, hbuilt⟩ := e.exists_built hb
  intro d hd r hr
  obtain ⟨c, hc, rfl⟩ := List.mem_map.1 hd
  have hbare := hbuilt.fresh.bare c hc
  rcases value_resolveColumn e.built b.name c hbare with
    ⟨-, heq⟩ | ⟨-, ⟨u, -, -, heq⟩ | ⟨-, heq⟩⟩ <;> rw [heq] at hr
  · rw [hbare] at hr
    contradiction
  · rw [← Option.some.inj hr]
    rfl
  · exact absurd (hbare.symm.trans hr) (by simp)

theorem cascades_normalize {heading : Heading} {small : ℤ} {now : Moment} {t : Table}
    (ht : t ∈ (e.normalize heading small now).schema.tables) : t.Cascades := by
  obtain ⟨entity, p, w, hstages, rfl⟩ := exists_stages_of_mem ht
  have hplaced : p.Cascades := by
    obtain ⟨heq, hjoins⟩ := value_placeAll e.placed_resolved e.relationships
    obtain ⟨f, hf_eq, hf⟩ := e.placed_resolved.exists_foldl_place hjoins
      (R := fun t t' => t.Cascades → t'.Cascades) (fun _ => id) (fun _ _ _ h h' => h' ∘ h)
      fun t hdistinct hconsistent other h => h.withForeignKey hdistinct hconsistent other
    have hmem := hstages.placed
    rw [placed, heq, hf_eq] at hmem
    obtain ⟨t, ht, rfl⟩ := List.mem_map.1 hmem
    exact hf t ht (cascades_resolved ht)
  obtain ⟨owners, hrun, -⟩ := hstages.owners
  obtain ⟨f, hcolumns, hf⟩ := exists_finished small e.ordered w.withContiguousKey
  have hordered := (hplaced.of_owned hrun).withContiguousKey
  intro d hd r hr
  rw [hcolumns] at hd
  obtain ⟨c, hc, rfl⟩ := List.mem_map.1 hd
  rw [(hf c).references_eq] at hr
  rcases value_retargetColumn e.ordered w.withContiguousKey.name c with
    ⟨heq, -⟩ | ⟨old, key, hold, -, heq⟩ <;> rw [heq] at hr
  · exact hordered c hc r hr
  · rw [← Option.some.inj hr, hordered c hc old hold]

end Extraction

end Schemata
