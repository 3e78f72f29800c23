import Schemata.Proofs.Normalize.Enforceable
import Schemata.Proofs.Normalize.Type

/-!
# Columns that refer to themselves

The foreign key of a table to itself is called after the table. Where the key of the table has the
same name, the two are one column, and the reference leads from this column to itself.

It takes a reference of the table to itself, declared or made by a relationship of the table with
itself (`Normalize.Sound.hasForeignKey_self`), and a key column of that name. These conditions are
exact where the key is a single column or has a member that is no reference
(`selfReferences_normalize`).
-/

namespace Schemata

open Normalize

/-- A relationship joins a table with itself through a foreign key. -/
def Relationship.IsSelfJoin (r : Relationship) (table : String) : Prop :=
  r.kind ≠ .manyToMany ∧ r.sourceTable = table ∧ r.targetTable = table

/-- The sides of the foreign key of a relationship are those of the relationship. -/
theorem Relationship.isSelfJoin_iff {r : Relationship} {table : String} :
    r.IsSelfJoin table ↔ r.kind ≠ .manyToMany ∧ r.holder = table ∧ r.referenced = table := by
  unfold IsSelfJoin holder referenced
  refine and_congr_right fun _ => ?_
  split
  · rfl
  · exact and_comm

namespace Normalize

variable {entities : List Extraction.Entity} {tables : List Table}
  {relationships : List Relationship} {i : ℕ} {t : Table} {entity : Extraction.Entity}

/-- A table refers to itself just if its entity says so, or a relationship joins it with itself. An
owner of the table is another table. -/
theorem Sound.hasForeignKey_self (h : Sound entities tables relationships)
    (ht : tables[i]? = some t) (hentity : entities[i]? = some entity) :
    t.HasForeignKey (foreignKeyName t.name) ↔ entity.Declares (foreignKeyName t.name) ∨
      ∃ r ∈ relationships, r.IsSelfJoin t.name := by
  have hmem : t ∈ tables := List.mem_of_getElem? ht
  rw [h.hasForeignKey.2 i t entity ht hentity t hmem]
  refine or_congr_right (exists_congr fun r => and_congr_right fun hr => ?_)
  have hidentifies : ¬r.Identifies t.name (foreignKeyName t.name) := by
    rw [h.identifies_iff hr hmem hmem]
    rintro ⟨-, -, -, hne⟩
    exact hne rfl
  rw [or_iff_left hidentifies, h.holds_iff hr hmem, Relationship.isSelfJoin_iff]

/-- A column that refers to itself is a foreign key and called after its table. -/
theorem Sound.name_of_leadsTo (h : Sound entities tables relationships) (ht : t ∈ tables)
    {c : Column} (hc : c ∈ t.columns) (hself : c.LeadsTo t c) :
    c.isForeignKey = true ∧ c.name = foreignKeyName t.name := by
  obtain ⟨r, hr, htable, -⟩ := hself
  obtain ⟨u, hu, hu_name, -, hname, -⟩ := h.linked.reaches t ht c hc r hr
  obtain rfl : u = t := h.linked.eq_of_name hu ht (hu_name.symm.trans htable)
  refine ⟨?_, hname⟩
  rw [h.consistent u ht c hc, hr]
  rfl

/-- **Which tables have a column that refers to itself**, if references lead to their
`referencedKey`. -/
theorem Sound.exists_leadsTo_self (h : Sound entities tables relationships) (ht : t ∈ tables)
    (hown : t.keyColumns.length = 1 ∨ ∃ k ∈ t.keyColumns, k.isForeignKey = false) :
    (∃ c ∈ t.columns, c.LeadsTo t c) ↔
      t.referencedKey.name = foreignKeyName t.name ∧ t.HasForeignKey (foreignKeyName t.name) := by
  constructor
  · rintro ⟨c, hc, hself⟩
    obtain ⟨hforeign, hname⟩ := h.name_of_leadsTo ht hc hself
    obtain ⟨r, hr, htable, hcolumn⟩ := hself
    have hkey : r.column = t.referencedKey.name := h.settled t ht c hc r hr t ht htable hown
    exact ⟨by rw [← hkey, hcolumn, hname], c, hc, hforeign, hname⟩
  · rintro ⟨hkey, c, hc, hforeign, hname⟩
    obtain ⟨r, hr, u, hu, htable, hu_name, hcolumn⟩ := h.references ht hc hforeign
    have hplain := h.linked.plain
    obtain rfl : u = t := by
      refine h.linked.eq_of_name hu ht ?_
      rw [← Schemata.foreignKeyName_inj (hplain u hu) (hplain t ht), ← hu_name, hname]
    exact ⟨c, hc, r, hr, htable, by rw [hcolumn hown, hkey, hname]⟩

/-- In a key of several columns, references lead to one that is none itself. -/
theorem Sound.not_leadsTo_self (h : Sound entities tables relationships) (ht : t ∈ tables)
    (hdistinct : t.Distinct) (hmany : 1 < t.keyColumns.length)
    (hown : ∃ k ∈ t.keyColumns, k.isForeignKey = false) {c : Column} (hc : c ∈ t.columns) :
    ¬c.LeadsTo t c := by
  intro hself
  obtain ⟨hkey, -⟩ := (h.exists_leadsTo_self ht (.inr hown)).1 ⟨c, hc, hself⟩
  obtain ⟨hforeign, hname⟩ := h.name_of_leadsTo ht hc hself
  have hmem := Table.mem_keyColumns.1 (Table.referencedKey_mem (h.linked.keyed t ht))
  have hsame : c = t.referencedKey := hdistinct.eq_of_name hc hmem.1 (hname.trans hkey.symm)
  rw [hsame, Table.referencedKey_isForeignKey hown hmany] at hforeign
  contradiction

end Normalize

/-- **The columns of a normalized extraction that refer to themselves.** Such a column is a foreign
key that belongs to the key of its table `t` and is called `t_id`; and the entity of the table
declares it, or a relationship joins the table with itself. If the key of the table is a single
column or has a member that is no reference, there is such a column just if references to the table
lead to a column of that name and the table is declared to refer to itself or joined with itself. In
a table with a key of several columns of which one is no reference, no column refers to itself. -/
theorem selfReferences_normalize (e : Extraction) (heading : Heading) (small : ℤ) (now : Moment) :
    let s := (e.normalize heading small now).schema
    s.tables.length = e.entities.length ∧
      ∀ (i : ℕ) (t : Table) (entity : Extraction.Entity), s.tables[i]? = some t →
        e.entities[i]? = some entity →
        (∀ c ∈ t.columns, c.LeadsTo t c →
          c.isForeignKey = true ∧ c.name = t.name ++ "_id" ∧ c.name ∈ t.keyNames ∧
            (entity.Declares (t.name ++ "_id") ∨ ∃ r ∈ s.relationships, r.IsSelfJoin t.name)) ∧
        (t.keyColumns.length = 1 ∨ (∃ k ∈ t.keyColumns, k.isForeignKey = false) →
          ((∃ c ∈ t.columns, c.LeadsTo t c) ↔ t.referencedKey.name = t.name ++ "_id" ∧
            (entity.Declares (t.name ++ "_id") ∨ ∃ r ∈ s.relationships, r.IsSelfJoin t.name))) ∧
        ((t.columns.map (·.name)).Nodup → 1 < t.keyColumns.length →
          (∃ k ∈ t.keyColumns, k.isForeignKey = false) → ∀ c ∈ t.columns, ¬c.LeadsTo t c) := by
  intro s
  have h : Sound e.entities s.tables s.relationships := tablesAndRelationships_spec small e
  refine ⟨h.hasForeignKey.1, fun i t entity ht hentity => ?_⟩
  have hmem : t ∈ s.tables := List.mem_of_getElem? ht
  have hself := h.hasForeignKey_self ht hentity
  rw [← foreignKeyName_of_plain (h.linked.plain t hmem)]
  refine ⟨fun c hc hleads => ?_, fun hown => ?_, fun hdistinct hmany hown c hc => ?_⟩
  · obtain ⟨hforeign, hname⟩ := h.name_of_leadsTo hmem hc hleads
    refine ⟨hforeign, hname, ?_, hself.1 ⟨c, hc, hforeign, hname⟩⟩
    obtain ⟨r, hr, htable, hcolumn⟩ := hleads
    obtain ⟨u, hu, hu_name, hkey⟩ := keyLinked_normalize e heading small now t hmem c hc r hr
    rwa [h.linked.eq_of_name hu hmem (hu_name.trans htable), hcolumn] at hkey
  · rw [← hself]
    exact h.exists_leadsTo_self hmem hown
  · exact h.not_leadsTo_self hmem hdistinct hmany hown hc

/-- Customers who are told apart by their `customer_id`, and may have brought one another. -/
def referrals : Extraction where
  entities :=
    [{ name := some "Customer"
       attributes := [{ name := some "customer_id", isPrimaryKey := true }] }]
  relationships :=
    [{ sourceEntity := some "Customer", targetEntity := some "Customer",
       type := some "one_to_many" }]

/-- The key of the customers refers to itself. -/
theorem selfReferences_referrals :
    let s := (referrals.normalize {} 3 { year := 2024, month := 1, day := 1 }).schema
    ∃ t, s.tables[0]? = some t ∧ t.name = "customer" ∧ ∃ c ∈ t.columns, c.LeadsTo t c ∧
      c.isPrimaryKey = true := by
  intro s
  have ⟨hlength, hkey, hjoin⟩ : s.tables.length = 1 ∧
      (∀ t ∈ s.tables[0]?, t.name = "customer" ∧ t.keyColumns.length = 1 ∧
        t.referencedKey.name = t.name ++ "_id" ∧
          ∀ c ∈ t.columns, c.isForeignKey = true → c.isPrimaryKey = true) ∧
      ∃ r ∈ s.relationships, r.kind ≠ .manyToMany ∧ r.sourceTable = "customer" ∧
        r.targetTable = "customer" := by
    decide +kernel
  have ht : s.tables[0]? = some s.tables[0] := List.getElem?_eq_getElem (by omega)
  obtain ⟨hname, hsingle, hkey, hprimary⟩ := hkey _ ht
  obtain ⟨hself, hexists, -⟩ := (selfReferences_normalize referrals {} 3 _).2 0 _ _ ht rfl
  obtain ⟨c, hc, hleads⟩ := (hexists (.inl hsingle)).2 ⟨hkey, .inr (hname ▸ hjoin)⟩
  exact ⟨_, ht, hname, c, hc, hleads, hprimary c hc (hself c hc hleads).1⟩

/-- Not in every normalized extraction do all references leave the column that they stand in. -/
theorem not_selfReferenceFree_referrals :
    ¬∀ (e : Extraction) (heading : Heading) (small : ℤ) (now : Moment),
      ∀ t ∈ (e.normalize heading small now).schema.tables, ∀ c ∈ t.columns, ∀ r,
        c.references = some r → ¬(r.table = t.name ∧ r.column = c.name) := by
  intro h
  have hself :
      let s := (referrals.normalize {} 3 { year := 2024, month := 1, day := 1 }).schema
      ∃ t ∈ s.tables, ∃ c ∈ t.columns, ∃ r ∈ c.references,
        r.table = t.name ∧ r.column = c.name := by
    decide +kernel
  obtain ⟨t, ht, c, hc, r, hr, hleads⟩ := hself
  exact h referrals {} 3 _ t ht c hc r hr hleads

end Schemata
