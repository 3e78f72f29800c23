import Schemata.Proofs.Schema.Junction

/-!
# Tables whose references lead somewhere

`Linked` is the invariant of the passes that place references: the names of the tables are distinct
and plain, every table has a key, and every reference leads to a column of one of the tables and
stands in the column called after that table. It is kept by every pass that makes the tables grow
(`Linked.map`).

`Changes` records which foreign keys a pass adds, table by table, and composes along a run
(`Changes.trans`).
-/

namespace Schemata

/-- The reference in a column leads to a column of one of the tables, the column is called after
that table, and a key of one column is what the reference leads to. -/
def Reaches (tables : List Table) (column : String) (r : Reference) : Prop :=
  ∃ u ∈ tables, r.table = u.name ∧ u.hasColumn r.column = true ∧ column = foreignKeyName u.name ∧
    ∀ key, u.keyNames = [key] → r.column = key

/-- Tables whose references lead to one another. -/
structure Linked (tables : List Table) : Prop where
  names : (tables.map (·.name)).Nodup
  plain : ∀ t ∈ tables, Plain t.name
  keyed : ∀ t ∈ tables, t.keyColumns ≠ []
  reaches : ∀ t ∈ tables, ∀ c ∈ t.columns, ∀ r, c.references = some r → Reaches tables c.name r

/-- In every table, the foreign keys are the columns with a reference. -/
def Consistent (tables : List Table) : Prop :=
  ∀ t ∈ tables, ∀ c ∈ t.columns, c.IsConsistent

variable {tables : List Table} {f g : Table → Table}

/-- Tables of one name are one table. -/
theorem Linked.eq_of_name (h : Linked tables) {t u : Table} (ht : t ∈ tables) (hu : u ∈ tables)
    (hname : t.name = u.name) : t = u :=
  List.inj_on_of_nodup_map h.names ht hu hname

theorem Reaches.map {column : String} {r : Reference} (h : Reaches tables column r)
    (hf : ∀ t ∈ tables, Table.Grows tables t (f t)) : Reaches (tables.map f) column r := by
  obtain ⟨u, hu, htable, hcolumn, hname, hkey⟩ := h
  refine ⟨f u, List.mem_map_of_mem hu, ?_, (hf u hu).hasColumn _ hcolumn, ?_, fun key h => ?_⟩
  · rw [htable, (hf u hu).name_eq]
  · rw [hname, (hf u hu).name_eq]
  · exact hkey key ((hf u hu).keyNames key h)

/-- A reference to the `referencedKey` of one of the tables. -/
theorem Reaches.of_referencedKey {u : Table} {r : Reference} (hu : u ∈ tables)
    (hkeyed : u.keyColumns ≠ []) (htable : r.table = u.name)
    (hcolumn : r.column = u.referencedKey.name) : Reaches tables (foreignKeyName u.name) r :=
  ⟨u, hu, htable, hcolumn ▸ Table.hasColumn_referencedKey hkeyed, rfl,
    fun _ hkey => hcolumn.trans (Table.referencedKey_name_of_keyNames hkey)⟩

/-- **References still lead somewhere after all tables have grown.** -/
theorem Linked.map (h : Linked tables) (hf : ∀ t ∈ tables, Table.Grows tables t (f t)) :
    Linked (tables.map f) where
  names := by
    rw [map_name fun t ht => (hf t ht).name_eq]
    exact h.names
  plain := by
    simp only [List.forall_mem_map]
    intro t ht
    rw [(hf t ht).name_eq]
    exact h.plain t ht
  keyed := by
    simp only [List.forall_mem_map]
    exact fun t ht => (hf t ht).keyed (h.keyed t ht)
  reaches := by
    simp only [List.forall_mem_map]
    intro t ht c hc r hr
    rcases (hf t ht).references c hc r hr with ⟨d, hd, hname, hr⟩ | ⟨u, hu, htable, hcolumn, hname⟩
    · exact hname ▸ (h.reaches t ht d hd r hr).map hf
    · rw [hname]
      exact (Reaches.of_referencedKey hu (h.keyed u hu) htable hcolumn).map hf

theorem Consistent.map (h : Consistent tables) {targets : List Table}
    (hf : ∀ t ∈ tables, Table.Grows targets t (f t)) : Consistent (tables.map f) := by
  intro t' ht'
  obtain ⟨t, ht, rfl⟩ := List.mem_map.1 ht'
  exact (hf t ht).consistent (h t ht)

/-! ## The foreign keys that are added -/

/-- The tables, changed one by one and keeping their names, have the foreign keys they had and those
that `adds` tells, by the name of the table and of the column. -/
def Changes (adds : String → String → Prop) (tables tables' : List Table) : Prop :=
  ∃ f : Table → Table, tables' = tables.map f ∧ ∀ t ∈ tables, (f t).name = t.name ∧
    ∀ column, (f t).HasForeignKey column ↔ t.HasForeignKey column ∨ adds t.name column

namespace Changes

variable {adds adds' : String → String → Prop} {tables' tables'' : List Table}

theorem refl (tables : List Table) : Changes (fun _ _ => False) tables tables :=
  ⟨id, by simp, fun t _ => ⟨rfl, fun _ => by simp⟩⟩

theorem names_eq (h : Changes adds tables tables') :
    tables'.map (·.name) = tables.map (·.name) := by
  obtain ⟨f, rfl, hf⟩ := h
  exact map_name fun t ht => (hf t ht).1

theorem trans (h : Changes adds tables tables') (h' : Changes adds' tables' tables'') :
    Changes (fun table column => adds table column ∨ adds' table column) tables tables'' := by
  obtain ⟨f, rfl, hf⟩ := h
  obtain ⟨g, rfl, hg⟩ := h'
  refine ⟨g ∘ f, List.map_map, fun t ht => ?_⟩
  obtain ⟨hname, hkeys⟩ := hf t ht
  obtain ⟨hname', hkeys'⟩ := hg (f t) (List.mem_map_of_mem ht)
  refine ⟨hname'.trans hname, fun column => ?_⟩
  rw [Function.comp_apply, hkeys', hkeys, hname, or_assoc]

/-- What is added may be told in other words. -/
theorem congr (h : Changes adds tables tables')
    (hadds : ∀ table column, adds table column ↔ adds' table column) :
    Changes adds' tables tables' := by
  obtain ⟨f, rfl, hf⟩ := h
  exact ⟨f, rfl, fun t ht => ⟨(hf t ht).1, fun column => by rw [(hf t ht).2, hadds]⟩⟩

end Changes

end Schemata
