import Schemata.Proofs.Normalize.Basic
import Schemata.Sql.Script

/-!
# Normalized extractions keep the contract of schemas

The schema of an extraction is closed, whatever the extraction says (`closed_normalize`). So it
passes the check, its many-to-many relationships can be made into junctions, and the schema with the
junctions passes the check too: in no dialect is there a violation on the way to its script
(`normalize_contract`).
-/

namespace Schemata

variable {tables : List Table}

/-- Tables that are linked and consistent are closed. -/
theorem Linked.closed (h : Linked tables) (hconsistent : Consistent tables) : Closed tables where
  names := h.names
  keyed := h.keyed
  consistent := hconsistent
  resolves t ht c hc r hr := by
    obtain ⟨u, hu, htable, hcolumn, -⟩ := h.reaches t ht c hc r hr
    exact ⟨u, hu, htable.symm, hcolumn⟩

theorem closed_normalize (e : Extraction) (heading : Heading) (small : ℤ) (now : Moment) :
    (e.normalize heading small now).schema.Closed := by
  have h := Normalize.tablesAndRelationships_spec small e
  exact ⟨h.linked.closed h.consistent, h.joins⟩

/-- A closed schema has a script unless the length of a column cannot be read. -/
theorem Schema.Closed.script_ne_violation {s : Schema} (h : s.Closed) (d : Sql.Dialect)
    (now : Moment) (v : Violation) : Sql.Script.of d now s ≠ .error (.violation v) := by
  obtain ⟨expanded, heq, hclosed⟩ := h.expandManyToMany
  intro herror
  rw [Sql.Script.of, heq] at herror
  simp only [Except.mapError, bind, Except.bind, hclosed.check] at herror
  split at herror
  · simp at herror
  · simp at herror

/-- **The contract of a normalized extraction.** The names of the tables are distinct, every table
has a key, the foreign keys are the columns with a reference, every reference leads to a column that
is there, and so do the sides of relationships to tables. The schema and its expansion, which there
always is, pass the check; in no dialect does a script fail for a violation. -/
theorem normalize_contract (e : Extraction) (heading : Heading) (small : ℤ) (now : Moment) :
    let s := (e.normalize heading small now).schema
    s.tableNames.Nodup ∧
      (∀ t ∈ s.tables, ∃ key ∈ t.columns, key.isPrimaryKey = true) ∧
      (∀ t ∈ s.tables, ∀ c ∈ t.columns, c.isForeignKey = true ↔ ∃ r, c.references = some r) ∧
      (∀ t ∈ s.tables, ∀ c ∈ t.columns, ∀ r, c.references = some r →
        ∃ u ∈ s.tables, u.name = r.table ∧ ∃ d ∈ u.columns, d.name = r.column) ∧
      (∀ r ∈ s.relationships, r.sourceTable ∈ s.tableNames ∧ r.targetTable ∈ s.tableNames) ∧
      s.check = .ok () ∧
      (∃ expanded, s.expandManyToMany = .ok expanded ∧ expanded.check = .ok ()) ∧
      ∀ (d : Sql.Dialect) (later : Moment) (v : Violation),
        Sql.Script.of d later s ≠ .error (.violation v) := by
  intro s
  have h : s.Closed := closed_normalize e heading small now
  obtain ⟨expanded, heq, hexpanded⟩ := h.expandManyToMany
  refine ⟨h.tables.names, fun t ht => ?_, fun t ht c hc => ?_, fun t ht c hc r hr => ?_, h.joins,
    h.check, ⟨expanded, heq, hexpanded.check⟩, fun d now v => h.script_ne_violation d now v⟩
  · obtain ⟨key, hkey⟩ := List.exists_mem_of_ne_nil _ (h.tables.keyed t ht)
    exact ⟨key, Table.mem_keyColumns.1 hkey⟩
  · rw [h.tables.consistent t ht c hc, Option.isSome_iff_exists]
  · obtain ⟨u, hu, hname, hcolumn⟩ := h.tables.resolves t ht c hc r hr
    exact ⟨u, hu, hname, Table.hasColumn_iff.1 hcolumn⟩

theorem normalize_contract_library :
    let s := (library.normalize {} 3 { year := 2024, month := 1, day := 1 }).schema
    (∃ t ∈ s.tables, t.name = "copy" ∧ ∃ key ∈ t.columns, key.isPrimaryKey = true) ∧
      s.relationships.length = 3 ∧ s.check = .ok () ∧
      ∃ expanded, s.expandManyToMany = .ok expanded ∧ expanded.check = .ok () := by
  intro s
  have hcopy : "copy" ∈ s.tables.map (·.name) := by decide +kernel
  have hlength : s.relationships.length = 3 := by decide +kernel
  obtain ⟨-, hkeyed, -, -, -, hcheck, hexpanded, -⟩ := normalize_contract library {} 3 _
  obtain ⟨t, ht, hname⟩ := List.mem_map.1 hcopy
  exact ⟨⟨t, ht, hname, hkeyed t ht⟩, hlength, hcheck, hexpanded⟩

end Schemata
