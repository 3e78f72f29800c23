import Schemata.Proofs.Schema.Key
import Schemata.Proofs.Sql.Value
import Schemata.Sql.Seed

/-!
# The values of lookup tables

What is put into a lookup table fits the table as far as names go (`Seed.Fits`, `Seed.of_fits`): the
columns that get values are there, each of them gets one in every row, no two rows agree in one, and
the other columns take care of themselves. The columns are chosen by their names alone, so nothing
is said here of their types, or of whether they belong to the key.
-/

namespace Schemata

theorem Table.columnAmong?_eq_some {t : Table} {names : List String} {name : String}
    (h : t.columnAmong? names = some name) :
    t.hasColumn name = true ∧ String.ofList (Text.lower name.toList) ∈ names := by
  obtain ⟨c, hc, hname⟩ := List.mem_map.1 (List.mem_of_find?_eq_some h)
  exact ⟨Table.hasColumn_iff.2 ⟨c, hc, hname⟩, by simpa using List.find?_some h⟩

/-- Where the database numbers the rows, the key has no other column. -/
theorem Table.isGeneratedKey_of_isPrimaryKey {t : Table} {key c : Column}
    (hkey : key ∈ t.keyColumns) (hgenerated : t.isGeneratedKey key = true) (hc : c ∈ t.columns)
    (hprimary : c.isPrimaryKey = true) : t.keyColumns = [c] ∧ t.isGeneratedKey c = true := by
  have hmem : c ∈ t.keyColumns := Table.mem_keyColumns.2 ⟨hc, hprimary⟩
  have hone : ∃ only, t.keyColumns = [only] := by
    unfold Table.isGeneratedKey at hgenerated
    split at hgenerated
    · exact ⟨_, ‹_›⟩
    · contradiction
  obtain ⟨only, honly⟩ := hone
  rw [honly, List.mem_singleton] at hkey hmem
  subst hkey hmem
  exact ⟨honly, hgenerated⟩

namespace Sql

namespace Seed

variable {t : Table} {seed : Seed} {notices : List Notice}

theorem hasColumn_of_mem_targets {name : String} (h : name ∈ targets t) :
    t.hasColumn name = true ∧
      String.ofList (Text.lower name.toList) ∈ valueNameColumns ++ valueCodeColumns := by
  rcases List.mem_append.1 h with h | h
  · obtain ⟨hcolumn, hname⟩ := Table.columnAmong?_eq_some (Option.mem_toList.1 h)
    exact ⟨hcolumn, List.mem_append_left _ hname⟩
  · obtain ⟨hcolumn, hname⟩ := Table.columnAmong?_eq_some (Option.mem_toList.1 h)
    exact ⟨hcolumn, List.mem_append_right _ hname⟩

/-- A column is not chosen for names and for codes at once. -/
theorem nodup_targets (t : Table) : (targets t).Nodup := by
  have hapart : ∀ name ∈ valueNameColumns, name ∉ valueCodeColumns := by decide
  have hone : ∀ o : Option String, o.toList.Nodup := fun o => by cases o <;> simp
  refine (hone _).append (hone _) fun name hname hcode => ?_
  exact hapart _ (Table.columnAmong?_eq_some (Option.mem_toList.1 hname)).2
    (Table.columnAmong?_eq_some (Option.mem_toList.1 hcode)).2

/-- Where nothing keeps a table from getting values, the other columns take care of themselves. -/
theorem obstacle?_eq_none (h : obstacle? t = none) :
    (∃ key ∈ t.keyColumns, t.isGeneratedKey key = true) ∧
      ∀ c ∈ t.columns, c.isPrimaryKey = false → c.name ∉ targets t →
        c.isNullable = true ∨ c.defaultValue.isSome = true := by
  unfold obstacle? at h
  split at h
  · contradiction
  · rename_i hkey
    refine ⟨by simpa using hkey, fun c hc hprimary hother => ?_⟩
    have hfree := List.find?_eq_none.1 (Option.map_eq_none_iff.1 h) c hc
    by_contra hopen
    rw [not_or, Bool.not_eq_true, Bool.not_eq_true, Option.isSome_eq_false_iff] at hopen
    simp [hprimary, hother, hopen] at hfree

/-- The values of a table and their codes are distinct. -/
theorem nodup_valuesFor (table : String) :
    (valuesFor table).Nodup ∧ ((valuesFor table).map seedCode).Nodup := by
  have hall : ∀ entry ∈ seedValues, entry.2.Nodup ∧ (entry.2.map seedCode).Nodup := by
    decide +kernel
  rw [valuesFor]
  cases hvalues : (lookupKeyword? table lookupKeywords).bind (List.lookup · seedValues) with
  | none => simp
  | some values =>
    obtain ⟨keyword, -, hlookup⟩ := Option.bind_eq_some_iff.1 hvalues
    exact hall (keyword, values) (mem_of_lookup hlookup)

/-- A column holds the values themselves or their codes. -/
theorem getElem?_row {k : ℕ} (hk : k < (targets t).length) :
    (·[k]?) ∘ row t = some ∨ (·[k]?) ∘ row t = some ∘ seedCode := by
  rw [targets] at hk
  cases hname : t.nameColumn? <;> cases hcode : t.codeColumn? <;> rw [hname, hcode] at hk
  · contradiction
  · obtain rfl : k = 0 := Nat.lt_one_iff.1 hk
    exact .inr (funext fun value => by rw [Function.comp, row, hname, hcode]; rfl)
  · obtain rfl : k = 0 := Nat.lt_one_iff.1 hk
    exact .inl (funext fun value => by rw [Function.comp, row, hname]; rfl)
  · rcases Nat.lt_succ_iff_lt_or_eq.1 hk with hk | rfl
    · obtain rfl : k = 0 := Nat.lt_one_iff.1 hk
      exact .inl (funext fun value => by rw [Function.comp, row, hname]; rfl)
    · exact .inr (funext fun value => by rw [Function.comp, row, hname, hcode]; rfl)

/-- What a table gets fits it. -/
structure Fits (t : Table) (seed : Seed) : Prop where
  table_eq : seed.table = t.name
  /-- The columns that get values are distinct columns of the table. -/
  nodup : seed.columns.Nodup
  hasColumn : ∀ name ∈ seed.columns, t.hasColumn name = true
  /-- The other columns take care of themselves. -/
  others : ∀ c ∈ t.columns, c.name ∉ seed.columns →
    t.isGeneratedKey c = true ∨ c.isNullable = true ∨ c.defaultValue.isSome = true
  /-- There are rows, each with one value for every column, which stand in the script as that many
  text constants. -/
  rows_ne_nil : seed.rows ≠ []
  values : ∀ row ∈ seed.rows, row.length = seed.columns.length ∧
    literals? (quoteTexts row) = some row
  /-- No two rows agree in a column. -/
  apart : ∀ k < seed.columns.length, (seed.rows.map (·[k]?)).Nodup

theorem of_eq_some (h : of t = (some seed, notices)) :
    seed = ⟨t.name, targets t, (valuesFor t.name).map (row t)⟩ ∧ valuesFor t.name ≠ [] ∧
      obstacle? t = none := by
  unfold of at h
  dsimp only at h
  split at h
  · cases h
  · rename_i hgiven
    have hvalues : valuesFor t.name ≠ [] := by
      simp only [Bool.or_eq_true, List.isEmpty_iff, not_or] at hgiven
      exact hgiven.1
    split at h
    · cases h
    · cases h
    · rename_i hfree
      exact ⟨(Option.some.inj (Prod.mk.inj h).1).symm, hvalues, hfree⟩

/-- **What is put into a lookup table fits it.** -/
theorem of_fits (h : of t = (some seed, notices)) : seed.Fits t := by
  obtain ⟨rfl, hvalues, hfree⟩ := of_eq_some h
  obtain ⟨⟨key, hkey, hgenerated⟩, hothers⟩ := obstacle?_eq_none hfree
  obtain ⟨hnodup, hcodes⟩ := nodup_valuesFor t.name
  refine ⟨rfl, nodup_targets t, fun name hname => (hasColumn_of_mem_targets hname).1,
    fun c hc hother => ?_, by simpa using hvalues, ?_, fun k hk => ?_⟩
  · cases hprimary : c.isPrimaryKey with
    | true => exact .inl (Table.isGeneratedKey_of_isPrimaryKey hkey hgenerated hc hprimary).2
    | false => exact .inr (hothers c hc hprimary hother)
  · rw [List.forall_mem_map]
    intro value _
    refine ⟨?_, literals?_quoteTexts _⟩
    cases hname : t.nameColumn? <;> cases hcode : t.codeColumn? <;> simp [row, targets, hname, hcode]
  · rw [List.map_map]
    rcases getElem?_row hk with heq | heq <;> rw [heq]
    · exact hnodup.map (Option.some_injective _)
    · rw [← List.map_map]
      exact hcodes.map (Option.some_injective _)

end Seed

end Sql

end Schemata
