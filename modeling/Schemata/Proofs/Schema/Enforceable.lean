import Schemata.Proofs.Schema.Junction
import Schemata.Proofs.Schema.Unique

/-!
# References that can be enforced

A database enforces a reference only if the column that it leads to is unique on its own: the only
key column of its table, or a column that is marked. Of several key columns the one that is no
reference is marked as soon as there are references to the table (`Table.Marked`, `Table.Admits`).
A key of several columns that are all references has no such column, and references to it are not
enforced: `Table.Marked.column?_of_admits` says so in both directions.

Making junctions keeps this up (`Enforceable.expandManyToMany`): a junction refers to its sides,
and the columns that it refers to are marked when it is made (`Table.referenceable`).
-/

namespace Schemata

namespace Table

variable {t : Table} {column : String}

/-- Some key column is no reference. -/
def HasOwnKey (t : Table) : Prop :=
  ∃ key ∈ t.keyColumns, key.isForeignKey = false

/-- A table whose key is in front, and of whose key columns, if there are several, none is unique
but the one that references go to. -/
structure Marked (t : Table) : Prop where
  keyed : t.keyColumns ≠ []
  keyInFront : t.KeyInFront
  only : 1 < t.keyColumns.length → ∀ key ∈ t.keyColumns, key.isUnique = true →
    key.name = t.referencedKey.name ∧ t.referencedKey.isForeignKey = false
  all : 1 < t.keyColumns.length → t.referencedKey.isUnique = true →
    ∀ key ∈ t.keyColumns, key.name = t.referencedKey.name → key.isUnique = true

/-- A table is made for references to a column of a name. -/
structure Admits (t : Table) (column : String) : Prop where
  mem : column ∈ t.keyNames
  eq : t.keyColumns.length = 1 ∨ t.HasOwnKey → column = t.referencedKey.name
  isUnique : 1 < t.keyColumns.length → t.HasOwnKey → t.referencedKey.isUnique = true

/-- **Which references can be enforced**: those to a table whose key is a single column or has a
member that is no reference. -/
theorem Marked.column?_of_admits (h : t.Marked) (hadmits : t.Admits column) :
    ∃ d ∈ t.keyColumns, t.column? column = some d ∧ ((t.keyColumns = [d] ∨ d.isUnique = true) ↔
      t.keyColumns.length = 1 ∨ t.HasOwnKey) := by
  obtain ⟨d, hd, hname, hcolumn⟩ := h.keyInFront.column? hadmits.mem
  refine ⟨d, hd, hcolumn, ?_⟩
  by_cases hsingle : t.keyColumns.length = 1
  · obtain ⟨key, hkey⟩ := List.length_eq_one_iff.1 hsingle
    rw [hkey, List.mem_singleton] at hd
    exact iff_of_true (.inl (hd ▸ hkey)) (.inl hsingle)
  · have hmany : 1 < t.keyColumns.length := by
      have hpos := List.length_pos_iff.2 h.keyed
      omega
    have hne : t.keyColumns ≠ [d] := fun hkey => hsingle (by rw [hkey, List.length_singleton])
    rw [or_iff_right hne, or_iff_right hsingle]
    constructor
    · exact fun hunique => ⟨_, referencedKey_mem h.keyed, (h.only hmany d hd hunique).2⟩
    · intro hown
      exact h.all hmany (hadmits.isUnique hmany hown) d hd (hname.trans (hadmits.eq (.inr hown)))

/-! ## Marking a column -/

/-- The columns of a table with the column marked: nothing changes but which of them are unique. -/
theorem exists_columns_referenceable (t : Table) : ∃ isUnique : Column → Bool,
    t.referenceable.columns = t.columns.map (fun c => { c with isUnique := isUnique c }) ∧
      ∀ c, isUnique c = true ↔ c.isUnique = true ∨
        (1 < t.keyColumns.length ∧ t.referencedKey.isForeignKey = false) ∧
          c.name = t.referencedKey.name ∧ t.referencedKey.isUnique = false := by
  unfold referenceable
  split
  · rename_i hno
    refine ⟨Column.isUnique, (List.map_id _).symm, fun c => (or_iff_left ?_).symm⟩
    rintro ⟨⟨hmany, hown⟩, -, hunique⟩
    simp [hown, hunique] at hno
    omega
  · rename_i hyes
    simp only [Bool.or_eq_true, decide_eq_true_eq, not_or, not_lt, Bool.not_eq_true] at hyes
    refine ⟨fun c => c.isUnique || c.name == t.referencedKey.name,
      List.map_congr_left fun c _ => ?_, fun c => ?_⟩
    · dsimp only
      cases c.name == t.referencedKey.name <;> simp
    · rw [Bool.or_eq_true, beq_iff_eq]
      exact or_congr_right ⟨fun hname => ⟨⟨by omega, hyes.1.2⟩, hname, hyes.2⟩, fun h => h.2.1⟩

theorem referencedKey_isUnique_referenceable (hmany : 1 < t.keyColumns.length)
    (hown : t.HasOwnKey) : t.referenceable.referencedKey.isUnique = true := by
  obtain ⟨isUnique, hcolumns, hunique⟩ := exists_columns_referenceable t
  have hkeys := keyColumns_of_map hcolumns fun _ _ => rfl
  have hne : t.keyColumns ≠ [] := List.ne_nil_of_length_pos (by omega)
  rw [referencedKey_of_map hkeys hne fun _ _ => rfl, hunique]
  cases hplain : t.referencedKey.isUnique with
  | true => exact .inl rfl
  | false => exact .inr ⟨⟨hmany, referencedKey_isForeignKey hown hmany⟩, rfl, rfl⟩

theorem Marked.referenceable (h : t.Marked) : t.referenceable.Marked := by
  obtain ⟨isUnique, hcolumns, hmarked⟩ := exists_columns_referenceable t
  have hkeys := keyColumns_of_map hcolumns fun _ _ => rfl
  have hreferenced := referencedKey_of_map hkeys h.keyed fun _ _ => rfl
  have hlength : t.referenceable.keyColumns.length = t.keyColumns.length := by
    rw [hkeys, List.length_map]
  refine ⟨by simpa [hkeys] using h.keyed, h.keyInFront.of_map hcolumns fun _ _ => ⟨rfl, rfl⟩,
    fun hmany => ?_, fun hmany hunique => ?_⟩
  · simp only [hkeys, List.forall_mem_map]
    intro key hkey hunique
    rw [hreferenced]
    rw [hlength] at hmany
    rcases (hmarked key).1 hunique with hunique | ⟨⟨-, hown⟩, hname, -⟩
    · exact h.only hmany key hkey hunique
    · exact ⟨hname, hown⟩
  · simp only [hkeys, List.forall_mem_map]
    intro key hkey hname
    rw [hreferenced] at hname hunique
    rw [hlength] at hmany
    rw [hmarked]
    rcases (hmarked _).1 hunique with hunique | ⟨hmarks, -, hplain⟩
    · exact .inl (h.all hmany hunique key hkey hname)
    · exact .inr ⟨hmarks, hname, hplain⟩

theorem Admits.referenceable (h : t.Admits column) : t.referenceable.Admits column := by
  have hsame := (alike_referenceable t).sameKeys
  refine ⟨hsame.keyNames ▸ h.mem, fun hkey => ?_, fun hmany hown => ?_⟩
  · rw [hsame.referencedKey_name]
    exact h.eq (hkey.imp (hsame.length_keyColumns ▸ ·) hsame.exists_own)
  · exact referencedKey_isUnique_referenceable (hsame.length_keyColumns ▸ hmany)
      (hsame.exists_own hown)

/-- A table with the column marked is made for new references. -/
theorem admits_referenceable (h : t.keyColumns ≠ []) :
    t.referenceable.Admits t.referencedKey.name := by
  have hsame := (alike_referenceable t).sameKeys
  refine ⟨?_, fun _ => hsame.referencedKey_name.symm, fun hmany hown => ?_⟩
  · rw [hsame.keyNames]
    exact List.mem_map_of_mem (referencedKey_mem h)
  · exact referencedKey_isUnique_referenceable (hsame.length_keyColumns ▸ hmany)
      (hsame.exists_own hown)

end Table

variable {tables tables' : List Table}

/-- Tables that are made for the references between them. -/
structure Enforceable (tables : List Table) : Prop where
  names : (tables.map (·.name)).Nodup
  marked : ∀ t ∈ tables, t.Marked
  admits : ∀ t ∈ tables, ∀ c ∈ t.columns, ∀ r, c.references = some r →
    ∃ u ∈ tables, u.name = r.table ∧ u.Admits r.column

/-! ## Junctions -/

theorem exists_columns_junctionTable (r : Relationship) (source target : Table) :
    ∃ rest, (junctionTable r source target).columns =
        [junctionKey (junctionKeyNames source target).1 source,
         junctionKey (junctionKeyNames source target).2 target] ++ rest ∧
      ∀ c ∈ rest, c.isPrimaryKey = false := by
  refine ⟨_, List.append_assoc _ _ _, fun c hc => ?_⟩
  rcases List.mem_append.1 hc with hc | hc
  · obtain ⟨a, -, rfl⟩ := List.mem_map.1 hc
    rfl
  · obtain ⟨name, -, rfl⟩ := List.mem_map.1 hc
    rfl

/-- The key of a junction: the references to its sides. -/
theorem keyColumns_junctionTable (r : Relationship) (source target : Table) :
    (junctionTable r source target).keyColumns =
      [junctionKey (junctionKeyNames source target).1 source,
       junctionKey (junctionKeyNames source target).2 target] := by
  obtain ⟨rest, hcolumns, hrest⟩ := exists_columns_junctionTable r source target
  have hnone : rest.filter (·.isPrimaryKey) = [] :=
    List.filter_eq_nil_iff.2 fun c hc => by simp [hrest c hc]
  rw [Table.keyColumns, hcolumns, List.filter_append, hnone, List.append_nil]
  rfl

theorem marked_junctionTable (r : Relationship) (source target : Table) :
    (junctionTable r source target).Marked := by
  have hkeys := keyColumns_junctionTable r source target
  have hkeyed : (junctionTable r source target).keyColumns ≠ [] := by simp [hkeys]
  have hplain : ∀ key ∈ (junctionTable r source target).keyColumns,
      key.isUnique = false ∧ key.isNullable = false := by
    simp [hkeys, junctionKey, Table.foreignKeyColumn]
  refine ⟨hkeyed, ⟨?_, fun key hkey => (hplain key hkey).2⟩, fun _ key hkey hunique => ?_,
    fun _ hunique => ?_⟩
  · obtain ⟨rest, hcolumns, -⟩ := exists_columns_junctionTable r source target
    rw [hkeys, hcolumns]
    exact List.prefix_append _ _
  · rw [(hplain key hkey).1] at hunique
    contradiction
  · rw [(hplain _ (Table.referencedKey_mem hkeyed)).1] at hunique
    contradiction

/-- **A junction is made** together with the columns that it refers to. -/
theorem Expands.enforceable {r : Relationship} {new : List Relationship}
    (h : Expands tables r tables' new) (henforceable : Enforceable tables) :
    Enforceable tables' where
  names := h.nodup henforceable.names
  marked := h.forall_mem henforceable.marked (fun _ => Table.Marked.referenceable)
    (marked_junctionTable r)
  admits := h.resolving henforceable.admits (fun _ _ => Table.Admits.referenceable)
    fun t ht => Table.admits_referenceable (henforceable.marked t ht).keyed

/-- **Making junctions keeps tables made for their references.** -/
theorem Enforceable.expandManyToMany {s expanded : Schema} (h : Enforceable s.tables)
    (heq : s.expandManyToMany = .ok expanded) : Enforceable expanded.tables := by
  obtain ⟨tables, relationships, hrun, rfl⟩ := (Schema.expandManyToMany_eq_ok h.names).1 heq
  exact hrun.keeps (fun _ _ _ _ hstep => hstep.enforceable) h

end Schemata
