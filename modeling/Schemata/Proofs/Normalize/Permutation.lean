import Schemata.Proofs.Normalize.Cascade
import Schemata.Proofs.Normalize.Enforceable
import Schemata.Proofs.Normalize.Name
import Schemata.Proofs.Normalize.Reorder

/-!
# Schemas for relationships in another order

Before references are moved, the tables for two orders of the relationships resemble each other, and
the references are moved to the same columns. So the columns of the two schemas match
(`Column.Matches`, `Extraction.Reorders.exists_matches`).

Not covered by this is what a foreign key takes over from the column that it leads to, for it takes
it over when it is placed, and the column may change afterwards. Where the last stages move the
reference, the name of the column is set right (`references_eq`). The type stays as it is, so it is
the same in both orders only if the foreign key has it from its entity (`dataType_eq_of_declares`),
or if the column led to does not change its type (`dataType_eq_of_leadsTo`).
-/

namespace Schemata

open Normalize

/-- Two columns that agree in all but the types of foreign keys, and in the columns that these lead
to. -/
structure Column.Matches (c d : Column) : Prop where
  name_eq : d.name = c.name
  isPrimaryKey_eq : d.isPrimaryKey = c.isPrimaryKey
  isForeignKey_eq : d.isForeignKey = c.isForeignKey
  isNullable_eq : d.isNullable = c.isNullable
  isUnique_eq : d.isUnique = c.isUnique
  table_eq : d.references.map (·.table) = c.references.map (·.table)
  dataType_eq : c.isForeignKey = false → d.dataType = c.dataType

theorem Column.Matches.symm {c d : Column} (h : c.Matches d) : d.Matches c where
  name_eq := h.name_eq.symm
  isPrimaryKey_eq := h.isPrimaryKey_eq.symm
  isForeignKey_eq := h.isForeignKey_eq.symm
  isNullable_eq := h.isNullable_eq.symm
  isUnique_eq := h.isUnique_eq.symm
  table_eq := h.table_eq.symm
  dataType_eq hplain := (h.dataType_eq (h.isForeignKey_eq.symm.trans hplain)).symm

/-- The key of a table has one column that references are to lead to: it stands alone, or is the
first that is no reference. -/
def Table.HasTarget (t : Table) : Prop :=
  t.keyColumns.length = 1 ∨ ∃ key ∈ t.keyColumns, key.isForeignKey = false

namespace Normalize

variable {tables tables' : List Table} {table table' : String} {c d : Column}

/-- The type of a column whose reference is moved depends on where references are moved to. -/
theorem dataType_retargetColumn (htype : d.dataType = c.dataType)
    (hreferences : d.references = c.references)
    (htarget : ∀ table, ownTarget? tables' table = ownTarget? tables table) :
    (retargetColumn tables' table' d).value.dataType =
      (retargetColumn tables table c).value.dataType := by
  unfold retargetColumn
  rw [hreferences]
  cases c.references with
  | none => exact htype
  | some r =>
    dsimp only
    rw [htarget]
    cases ownTarget? tables r.table with
    | none => exact htype
    | some key =>
      dsimp only
      split
      · exact htype
      · rfl

end Normalize

namespace Extraction

variable {e e' : Extraction} {heading : Heading} {small : ℤ} {now : Moment} {i j : ℕ}
  {t t' u u' v v' : Table} {entity other : Extraction.Entity} {c d k k' : Column}

/-! ## Columns that are declared foreign keys -/

/-- A reference that was declared stays in its column until references are moved, and the column
keeps its type. -/
theorem exists_declared (hu : u ∈ e.ordered) (hdistinct : u.Distinct) (ht : t ∈ e.resolved)
    (hname : t.name = u.name) {a : Column} (ha : a ∈ t.columns) {r : Reference}
    (hr : a.references = some r) :
    ∃ c ∈ u.columns, c.name = a.name ∧ c.dataType = a.dataType ∧ c.references = some r := by
  obtain ⟨w, hw, rfl⟩ := exists_identified_of_ordered hu
  obtain ⟨p, hp, owners, hrun, -⟩ := exists_placed_of_identified hw
  obtain ⟨t', ht', hname', henlarged, -⟩ := exists_resolved hp
  obtain rfl : t = t' := by
    refine e.placed_resolved.linked.eq_of_name ht ht' ?_
    rw [hname, ← hname', ← hrun.name_eq, Table.withContiguousKey_name]
  have hforeign : a.isForeignKey = true := by
    rw [e.placed_resolved.consistent t ht a ha, hr]
    rfl
  obtain ⟨c, hc, hca, htype, hr'⟩ := hrun.exists_references
    (Table.distinct_withContiguousKey.1 hdistinct) (henlarged.mem_columns ha hforeign) hr
  obtain ⟨d, hd, hdc, htype', hr''⟩ := Table.exists_references_withContiguousKey hc
  exact ⟨d, hd, hdc.trans hca, htype'.trans htype, hr''.trans hr'⟩

theorem exists_ordered_of_mem (ht : t ∈ (e.normalize heading small now).schema.tables) :
    ∃ u ∈ e.ordered, t = finish small e.ordered u ∧ t.name = u.name := by
  rw [tables_normalize] at ht
  obtain ⟨u, hu, rfl⟩ := List.mem_map.1 ht
  exact ⟨u, hu, rfl, (sameKeys_finish small e.ordered u).name_eq⟩

/-- A foreign key that is declared has its reference from the beginning. -/
theorem exists_resolved_of_declares
    (ht : (e.normalize heading small now).schema.tables[i]? = some t)
    (hentity : e.entities[i]? = some entity) (hc : c ∈ t.columns) (hforeign : c.isForeignKey = true)
    (hdeclares : entity.Declares c.name) : ∃ b ∈ e.resolved, b.name = t.name ∧
      ∃ a ∈ b.columns, a.name = c.name ∧ ∃ r, a.references = some r := by
  have hnames : ∀ t ∈ (e.normalize heading small now).schema.tables,
      ∃ b ∈ e.resolved, b.name = t.name := by
    intro t ht
    have hmem : t.name ∈ (e.normalize heading small now).schema.tableNames :=
      List.mem_map_of_mem ht
    rw [tableNames_normalize] at hmem
    obtain ⟨b, hb, hname⟩ := List.mem_map.1 hmem
    exact ⟨e.resolve b, e.resolved_eq ▸ List.mem_map_of_mem hb, hname⟩
  have hdeclared : e.DeclaresIn t.name c.name := by
    obtain ⟨p, w, hstages, rfl⟩ := exists_stages ht hentity
    exact hstages.name_eq ▸ (hstages.declares c.name).2 hdeclares
  obtain ⟨r, -, v, hv, -, hcv, -⟩ :=
    (tablesAndRelationships_spec small e).references (List.mem_of_getElem? ht) hc hforeign
  obtain ⟨b, hb, hname⟩ := hnames t (List.mem_of_getElem? ht)
  obtain ⟨b', hb', hname'⟩ := hnames v hv
  rw [hcv, ← hname, ← hname'] at hdeclared
  obtain ⟨a, ha, ha_foreign, ha_name⟩ := e.keeps_resolved b hb b' hb' hdeclared
  have hsome : a.references.isSome = true :=
    (e.placed_resolved.consistent b hb a ha).symm.trans ha_foreign
  refine ⟨b, hb, hname, a, ha, ?_, Option.isSome_iff_exists.1 hsome⟩
  rw [ha_name, hname', hcv]

/-- The type of a foreign key that is declared is that of the declaration, unless the reference is
moved. -/
theorem dataType_of_declared (ht : t ∈ (e.normalize heading small now).schema.tables)
    (hdistinct : t.Distinct) {b : Table} (hb : b ∈ e.resolved) (hname : b.name = t.name)
    {a : Column} (ha : a ∈ b.columns) {r : Reference} (hr : a.references = some r)
    (hc : c ∈ t.columns) (hca : c.name = a.name) :
    c.dataType = (retargetColumn e.ordered t.name a).value.dataType := by
  obtain ⟨u, hu, rfl, hu_name⟩ := exists_ordered_of_mem ht
  obtain ⟨c', hc', hname', htype, hr'⟩ :=
    exists_declared hu (distinct_finish.1 hdistinct) hb (hname.trans hu_name) ha hr
  obtain ⟨f, hcolumns, hf⟩ := exists_finished small e.ordered u
  have hc_eq : c = f c' := by
    refine hdistinct.eq_of_name hc (hcolumns ▸ List.mem_map_of_mem hc') ?_
    rw [(hf c').name_eq, hname', hca]
  rw [hc_eq, (hf c').dataType_eq]
  exact dataType_retargetColumn htype (hr'.trans hr.symm) fun _ => rfl

/-- A column that a foreign key leads to and that is none itself tells to which column of the table
references lead. -/
theorem hasTarget_of_leadsTo (ht : t ∈ (e.normalize heading small now).schema.tables)
    (hv : v ∈ (e.normalize heading small now).schema.tables) (hdistinct : v.Distinct)
    (hc : c ∈ t.columns) (hk : k ∈ v.columns) (hleads : c.LeadsTo v k)
    (hplain : k.isForeignKey = false) : v.HasTarget := by
  obtain ⟨r, hr, htable, hcolumn⟩ := hleads
  obtain ⟨w, hw, hw_name, hkey⟩ := keyLinked_normalize e heading small now t ht c hc r hr
  obtain rfl := (tablesAndRelationships_spec small e).linked.eq_of_name hw hv
    (hw_name.trans htable)
  obtain ⟨key, hkey, hkey_name⟩ := List.mem_map.1 hkey
  obtain rfl := hdistinct.eq_of_name (Table.mem_keyColumns.1 hkey).1 hk (hkey_name.trans hcolumn)
  exact .inr ⟨key, hkey, hplain⟩

/-! ## Columns that match -/

namespace Reorders

variable (h : Reorders e e')

include h

/-- **What the last stages make of columns that resemble each other**: columns that match. -/
theorem matches_finished (hu : u ∈ e.ordered) (hu' : u' ∈ e'.ordered) (hname : u'.name = u.name)
    (hc : c ∈ u.columns) (hd : d ∈ u'.columns) (hcd : c.Resembles d) {c' d' : Column}
    (hf : Finished e.ordered u c c') (hg : Finished e'.ordered u' d d') : c'.Matches d' where
  name_eq := by rw [hf.name_eq, hg.name_eq, hcd.name_eq]
  isPrimaryKey_eq := by rw [hf.isPrimaryKey_eq, hg.isPrimaryKey_eq, hcd.isPrimaryKey_eq]
  isForeignKey_eq := by rw [hf.isForeignKey_eq, hg.isForeignKey_eq, hcd.isForeignKey_eq]
  isNullable_eq := by rw [hf.isNullable_eq, hg.isNullable_eq, hcd.isNullable_eq]
  isUnique_eq := by
    rw [Bool.eq_iff_iff, hf.isUnique_iff, hg.isUnique_iff, h.isUnique_eq hu hu' hname hc hd hcd,
      hcd.name_eq, h.isMarked_iff hname]
  table_eq := by
    rw [hf.references_eq, hg.references_eq, table_retargetColumn, table_retargetColumn]
    exact table_eq_of_resembles hu hu' hc hd hcd
  dataType_eq hplain := by
    rw [hf.isForeignKey_eq] at hplain
    have hplain' := hcd.isForeignKey_eq.trans hplain
    rw [hf.dataType_eq, hg.dataType_eq,
      retargetColumn_of_plain (e.ordered_spec.1.2 u hu c hc) hplain,
      retargetColumn_of_plain (e'.ordered_spec.1.2 u' hu' d hd) hplain', hcd.dataType_eq hplain]

theorem tableNames_eq : (e'.normalize heading small now).schema.tableNames =
    (e.normalize heading small now).schema.tableNames := by
  rw [tableNames_normalize, tableNames_normalize, h.built_eq]

theorem name_eq (ht : (e.normalize heading small now).schema.tables[i]? = some t)
    (ht' : (e'.normalize heading small now).schema.tables[i]? = some t') : t'.name = t.name := by
  have hnames : (e'.normalize heading small now).schema.tableNames[i]? =
      (e.normalize heading small now).schema.tableNames[i]? := by rw [h.tableNames_eq]
  simpa [Schema.tableNames, ht, ht'] using hnames

/-- Two tables of one name have been made of tables that resemble each other. -/
theorem exists_resembles (ht : t ∈ (e.normalize heading small now).schema.tables)
    (ht' : t' ∈ (e'.normalize heading small now).schema.tables) (hname : t'.name = t.name) :
    ∃ u ∈ e.ordered, ∃ u' ∈ e'.ordered, t = finish small e.ordered u ∧
      t' = finish small e'.ordered u' ∧ u'.name = u.name ∧ u.Resembles u' := by
  obtain ⟨u, hu, ht_eq, hu_name⟩ := exists_ordered_of_mem ht
  obtain ⟨u', hu', ht_eq', hu_name'⟩ := exists_ordered_of_mem ht'
  have hsame : u'.name = u.name := hu_name'.symm.trans (hname.trans hu_name)
  exact ⟨u, hu, u', hu', ht_eq, ht_eq', hsame, h.resembles hu hu' hsame⟩

/-- **Every column has one that matches it** in the other order. -/
theorem exists_matches (ht : t ∈ (e.normalize heading small now).schema.tables)
    (ht' : t' ∈ (e'.normalize heading small now).schema.tables) (hname : t'.name = t.name) :
    ∀ c ∈ t.columns, ∃ d ∈ t'.columns, c.Matches d := by
  obtain ⟨u, hu, u', hu', rfl, rfl, hsame, hresembles⟩ := h.exists_resembles ht ht' hname
  obtain ⟨f, hcolumns, hf⟩ := exists_finished small e.ordered u
  obtain ⟨g, hcolumns', hg⟩ := exists_finished small e'.ordered u'
  intro c' hc'
  rw [hcolumns] at hc'
  obtain ⟨c, hc, rfl⟩ := List.mem_map.1 hc'
  obtain ⟨d, hd, hcd⟩ := hresembles.columns c hc
  refine ⟨g d, hcolumns' ▸ List.mem_map_of_mem hd, ?_⟩
  exact h.matches_finished hu hu' hsame hc hd hcd (hf c) (hg d)

theorem exists_table (hv : v ∈ (e.normalize heading small now).schema.tables) :
    ∃ v' ∈ (e'.normalize heading small now).schema.tables, v'.name = v.name := by
  have hmem : v.name ∈ (e'.normalize heading small now).schema.tableNames := by
    rw [h.tableNames_eq]
    exact List.mem_map_of_mem hv
  exact List.mem_map.1 hmem

theorem length_eq_one_iff (hv : v ∈ (e.normalize heading small now).schema.tables)
    (hv' : v' ∈ (e'.normalize heading small now).schema.tables) (hname : v'.name = v.name) :
    v'.keyColumns.length = 1 ↔ v.keyColumns.length = 1 := by
  obtain ⟨u, hu, u', hu', rfl, rfl, -, hresembles⟩ := h.exists_resembles hv hv' hname
  have hiff := hresembles.many_iff
  have hpos := List.length_pos_iff.2 (e.ordered_spec.1.1.keyed u hu)
  have hpos' := List.length_pos_iff.2 (e'.ordered_spec.1.1.keyed u' hu')
  rw [(sameKeys_finish small e.ordered u).length_keyColumns,
    (sameKeys_finish small e'.ordered u').length_keyColumns]
  omega

theorem hasTarget (hv : v ∈ (e.normalize heading small now).schema.tables)
    (hv' : v' ∈ (e'.normalize heading small now).schema.tables) (hname : v'.name = v.name)
    (htarget : v.HasTarget) : v'.HasTarget := by
  refine htarget.imp (h.length_eq_one_iff hv hv' hname).2 ?_
  rintro ⟨key, hkey, hplain⟩
  obtain ⟨hmem, hprimary⟩ := Table.mem_keyColumns.1 hkey
  obtain ⟨d, hd, hmatches⟩ := h.exists_matches hv hv' hname key hmem
  have hd' := Table.mem_keyColumns.2 ⟨hd, hmatches.isPrimaryKey_eq.trans hprimary⟩
  exact ⟨d, hd', hmatches.isForeignKey_eq.trans hplain⟩

theorem referencedKey_name (hv : v ∈ (e.normalize heading small now).schema.tables)
    (hv' : v' ∈ (e'.normalize heading small now).schema.tables) (hname : v'.name = v.name)
    (htarget : v.HasTarget) : v'.referencedKey.name = v.referencedKey.name := by
  obtain ⟨u, hu, u', hu', rfl, rfl, -, hresembles⟩ := h.exists_resembles hv hv' hname
  have hsame := sameKeys_finish small e.ordered u
  rw [hsame.referencedKey_name, (sameKeys_finish small e'.ordered u').referencedKey_name]
  refine hresembles.referencedKey_name (e.ordered_spec.1.1.keyed u hu)
    (e'.ordered_spec.1.1.keyed u' hu') ?_
  rw [← hsame.length_keyColumns]
  exact htarget.imp_right hsame.exists_own

/-- **Columns that match have the same reference**, if it leads to a table that tells which of its
columns that is. -/
theorem references_eq (ht : t ∈ (e.normalize heading small now).schema.tables)
    (ht' : t' ∈ (e'.normalize heading small now).schema.tables)
    (hv : v ∈ (e.normalize heading small now).schema.tables) (htarget : v.HasTarget)
    (hc : c ∈ t.columns) (hd : d ∈ t'.columns) (hcd : c.Matches d) {r : Reference}
    (hr : c.references = some r) (htable : r.table = v.name) : d.references = c.references := by
  have hsound := tablesAndRelationships_spec small e
  have hsound' := tablesAndRelationships_spec small e'
  obtain ⟨v', hv', hname⟩ := h.exists_table hv
  have hsame := hcd.table_eq
  rw [hr, Option.map_some, Option.map_eq_some_iff] at hsame
  obtain ⟨r', hr', htable'⟩ := hsame
  have hcolumn : r'.column = r.column := by
    rw [hsound.settled t ht c hc r hr v hv htable htarget,
      hsound'.settled t' ht' d hd r' hr' v' hv' (htable'.trans (htable.trans hname.symm))
        (h.hasTarget hv hv' hname htarget), h.referencedKey_name hv hv' hname htarget]
  rw [hr, hr', cascades_normalize ht c hc r hr, cascades_normalize ht' d hd r' hr', htable',
    hcolumn]

/-! ## The types of foreign keys -/

theorem hasForeignKey_iff (ht : t ∈ (e.normalize heading small now).schema.tables)
    (ht' : t' ∈ (e'.normalize heading small now).schema.tables) (hname : t'.name = t.name)
    (column : String) : t'.HasForeignKey column ↔ t.HasForeignKey column := by
  have himp : ∀ {t t' : Table}, (∀ c ∈ t.columns, ∃ d ∈ t'.columns, c.Matches d) →
      t.HasForeignKey column → t'.HasForeignKey column := by
    rintro t t' hmatches ⟨c, hc, hforeign, rfl⟩
    obtain ⟨d, hd, hcd⟩ := hmatches c hc
    exact ⟨d, hd, hcd.isForeignKey_eq.trans hforeign, hcd.name_eq⟩
  exact ⟨himp (h.symm.exists_matches ht' ht hname.symm), himp (h.exists_matches ht ht' hname)⟩

theorem distinct_iff (ht : (e.normalize heading small now).schema.tables[i]? = some t)
    (ht' : (e'.normalize heading small now).schema.tables[i]? = some t')
    (hentity : e.entities[i]? = some entity) : t'.Distinct ↔ t.Distinct := by
  have hname := h.name_eq ht ht'
  have hidentified : (e'.normalize heading small now).schema.IsIdentified t' ↔
      (e.normalize heading small now).schema.IsIdentified t := by
    simp only [Schema.IsIdentified, relationships_normalize, h.perm_kept.mem_iff, hname]
  have hforeign := h.hasForeignKey_iff (List.mem_of_getElem? ht) (List.mem_of_getElem? ht') hname
  rw [(distinct_iff_normalize ht' (h.entities_eq ▸ hentity)).2,
    (distinct_iff_normalize ht hentity).2, hidentified]
  simp only [hforeign]

/-- **A foreign key that is declared** has the same type in both orders. -/
theorem dataType_eq_of_declares (ht : (e.normalize heading small now).schema.tables[i]? = some t)
    (ht' : (e'.normalize heading small now).schema.tables[i]? = some t')
    (hentity : e.entities[i]? = some entity) (hdistinct : t.Distinct) (hc : c ∈ t.columns)
    (hd : d ∈ t'.columns) (hcd : c.Matches d) (hdeclares : entity.Declares c.name) :
    d.dataType = c.dataType := by
  cases hforeign : c.isForeignKey with
  | false => exact hcd.dataType_eq hforeign
  | true =>
    have hname := h.name_eq ht ht'
    have hdistinct' := (h.distinct_iff ht ht' hentity).2 hdistinct
    obtain ⟨b, hb, hb_name, a, ha, ha_name, r, hr⟩ :=
      exists_resolved_of_declares ht hentity hc hforeign hdeclares
    rw [dataType_of_declared (List.mem_of_getElem? ht) hdistinct hb hb_name ha hr hc ha_name.symm,
      dataType_of_declared (List.mem_of_getElem? ht') hdistinct' (h.resolved_eq ▸ hb)
        (hb_name.trans hname.symm) ha hr hd (hcd.name_eq.trans ha_name.symm)]
    exact dataType_retargetColumn rfl rfl h.ownTarget?_eq

theorem exists_getElem? (ht : (e.normalize heading small now).schema.tables[i]? = some t) :
    ∃ t', (e'.normalize heading small now).schema.tables[i]? = some t' := by
  have hi := (List.getElem?_eq_some_iff.1 ht).1
  rw [length_normalize, ← h.entities_eq, ← length_normalize (e := e')] at hi
  exact ⟨_, List.getElem?_eq_getElem hi⟩

/-- Columns that match lead to columns that match. -/
theorem leadsTo (ht : t ∈ (e.normalize heading small now).schema.tables)
    (ht' : t' ∈ (e'.normalize heading small now).schema.tables)
    (hv : v ∈ (e.normalize heading small now).schema.tables) (hname : v'.name = v.name)
    (htarget : v.HasTarget) (hc : c ∈ t.columns) (hd : d ∈ t'.columns) (hcd : c.Matches d)
    (hk : k.Matches k') (hleads : c.LeadsTo v k) : d.LeadsTo v' k' := by
  obtain ⟨r, hr, htable, hcolumn⟩ := hleads
  refine ⟨r, ?_, htable.trans hname.symm, hcolumn.trans hk.name_eq.symm⟩
  rw [h.references_eq ht ht' hv htarget hc hd hcd hr htable, hr]

/-- Of columns that match, both lead to a table with a single key column or none does. -/
theorem length_keyColumns_eq_one (hk : k.Matches k')
    (hsingle : ∀ r, k.references = some r → ∀ w ∈ (e.normalize heading small now).schema.tables,
      w.name = r.table → w.keyColumns.length = 1) {r : Reference} (hr : k'.references = some r)
    (hv : v ∈ (e'.normalize heading small now).schema.tables) (hname : v.name = r.table) :
    v.keyColumns.length = 1 := by
  obtain ⟨w, hw, hw_name⟩ := h.symm.exists_table hv
  have hsame := hk.table_eq.symm
  rw [hr, Option.map_some, Option.map_eq_some_iff] at hsame
  obtain ⟨old, hold, htable⟩ := hsame
  rw [h.length_eq_one_iff hw hv hw_name.symm]
  exact hsingle old hold w hw (by rw [hw_name, hname, htable])

/-- **A foreign key has the same type in both orders** if the column that it leads to has. -/
theorem dataType_eq_of_leadsTo
    (ht : (e.normalize heading small now).schema.tables[i]? = some t)
    (ht' : (e'.normalize heading small now).schema.tables[i]? = some t')
    (hentity : e.entities[i]? = some entity) (hdistinct : t.Distinct)
    (hv : (e.normalize heading small now).schema.tables[j]? = some v)
    (hother : e.entities[j]? = some other) (hdistinct_v : v.Distinct)
    (hc : c ∈ t.columns) (hd : d ∈ t'.columns) (hcd : c.Matches d) (hk : k ∈ v.columns)
    (hleads : c.LeadsTo v k)
    (hholds : entity.HasAttribute c.name →
      ∃ r ∈ e.kept, r.kind ≠ .manyToMany ∧ r.holder = t.name ∧ r.referenced = v.name)
    (hled : k.isForeignKey = true → v.HasTarget ∧ other.Declares k.name ∧
      ∀ r, k.references = some r → ∀ w ∈ (e.normalize heading small now).schema.tables,
        w.name = r.table → w.keyColumns.length = 1) : d.dataType = c.dataType := by
  by_cases hdeclares : entity.Declares c.name
  · exact h.dataType_eq_of_declares ht ht' hentity hdistinct hc hd hcd hdeclares
  have hmem := List.mem_of_getElem? ht
  have hmem' := List.mem_of_getElem? ht'
  have hmem_v := List.mem_of_getElem? hv
  have hname := h.name_eq ht ht'
  obtain ⟨v', hv'⟩ := h.exists_getElem? hv
  have hname_v := h.name_eq hv hv'
  have htarget : v.HasTarget := by
    cases hforeign : k.isForeignKey with
    | true => exact (hled hforeign).1
    | false => exact hasTarget_of_leadsTo hmem hmem_v hdistinct_v hc hk hleads hforeign
  obtain ⟨k', hk', hkk'⟩ := h.exists_matches hmem_v (List.mem_of_getElem? hv') hname_v k hk
  -- each of the two has the type of the column that it leads to
  have htype : c.dataType = k.dataType :=
    Extraction.dataType_eq ht hentity hdistinct hv hother hdistinct_v hc hk hleads hdeclares
      hholds fun hforeign => (hled hforeign).2
  have htype' : d.dataType = k'.dataType := by
    refine Extraction.dataType_eq ht' (h.entities_eq ▸ hentity)
      ((h.distinct_iff ht ht' hentity).2 hdistinct) hv' (h.entities_eq ▸ hother)
      ((h.distinct_iff hv hv' hother).2 hdistinct_v) hd hk'
      (h.leadsTo hmem hmem' hmem_v hname_v htarget hc hd hcd hkk' hleads)
      (hcd.name_eq ▸ hdeclares) (fun hattribute => ?_) fun hforeign => ?_
    · obtain ⟨rel, hrel, hkind, hholder, hreferenced⟩ := hholds (hcd.name_eq ▸ hattribute)
      exact ⟨rel, h.perm_kept.mem_iff.2 hrel, hkind, hholder.trans hname.symm,
        hreferenced.trans hname_v.symm⟩
    · obtain ⟨-, hdeclared, hsingle⟩ := hled (hkk'.isForeignKey_eq.symm.trans hforeign)
      exact ⟨hkk'.name_eq.symm ▸ hdeclared, fun r hr w hw hw_name =>
        h.length_keyColumns_eq_one hkk' hsingle hr hw hw_name⟩
  rw [htype, htype']
  cases hforeign : k.isForeignKey with
  | false => exact hkk'.dataType_eq hforeign
  | true =>
    have hdeclared := (hled hforeign).2.1
    exact h.dataType_eq_of_declares hv hv' hother hdistinct_v hk hk' hkk' hdeclared

end Reorders

end Extraction

/-- **Relationships in another order.** The schema of an extraction keeps its tables and its
relationships when the relationships of the extraction are put into another order. Every column has
one that matches it: it has the same name and flags, and refers to the same table if it refers to
one.

What the foreign keys take over from the column that they lead to may differ, since they take it
over when they are placed. The references are equal if the key that they lead to is a single column
or has a member that is no reference. In tables whose columns have distinct names the types are
equal if the entity declares the foreign key. They are equal as well if a relationship holds it
where the entity has an attribute of its name, and the column that it leads to is no foreign key
itself, or is one that is declared and leads to a single key column. -/
theorem columns_normalize_perm (e : Extraction) (relationships : List Extraction.Relationship)
    (hperm : relationships.Perm e.relationships) (heading : Heading) (small : ℤ) (now : Moment) :
    let s := (e.normalize heading small now).schema
    let s' := ({ e with relationships }.normalize heading small now).schema
    s'.tableNames = s.tableNames ∧ s'.relationships.Perm s.relationships ∧
      s.tables.length = e.entities.length ∧
      ∀ (i : ℕ) (t t' : Table) (entity : Extraction.Entity), s.tables[i]? = some t →
        s'.tables[i]? = some t' → e.entities[i]? = some entity →
        (∀ c ∈ t.columns, ∃ d ∈ t'.columns, c.Matches d) ∧
        (∀ d ∈ t'.columns, ∃ c ∈ t.columns, c.Matches d) ∧
        ∀ c ∈ t.columns, ∀ d ∈ t'.columns, c.Matches d →
          (∀ u ∈ s.tables, u.HasTarget → ∀ r, c.references = some r → r.table = u.name →
            d.references = c.references) ∧
          (t.Distinct → entity.Declares c.name → d.dataType = c.dataType) ∧
          ∀ (j : ℕ) (u : Table) (other : Extraction.Entity), s.tables[j]? = some u →
            e.entities[j]? = some other → t.Distinct → u.Distinct →
            ∀ k ∈ u.columns, c.LeadsTo u k →
              (entity.HasAttribute c.name → ∃ r ∈ s.relationships, r.kind ≠ .manyToMany ∧
                r.holder = t.name ∧ r.referenced = u.name) →
              (k.isForeignKey = true → u.HasTarget ∧ other.Declares k.name ∧
                ∀ r, k.references = some r → ∀ w ∈ s.tables, w.name = r.table →
                  w.keyColumns.length = 1) →
              d.dataType = c.dataType := by
  intro s s'
  have h : e.Reorders { e with relationships } := ⟨rfl, hperm⟩
  refine ⟨h.tableNames_eq, h.perm_kept, Extraction.length_normalize,
    fun i t t' entity ht ht' hentity => ?_⟩
  have hmem := List.mem_of_getElem? ht
  have hmem' := List.mem_of_getElem? ht'
  have hname := h.name_eq ht ht'
  refine ⟨h.exists_matches hmem hmem' hname, fun d hd => ?_, fun c hc d hd hcd => ⟨?_, ?_, ?_⟩⟩
  · obtain ⟨c, hc, hdc⟩ := h.symm.exists_matches hmem' hmem hname.symm d hd
    exact ⟨c, hc, hdc.symm⟩
  · exact fun u hu htarget r hr htable =>
      h.references_eq hmem hmem' hu htarget hc hd hcd hr htable
  · exact fun hdistinct hdeclares =>
      h.dataType_eq_of_declares ht ht' hentity hdistinct hc hd hcd hdeclares
  · exact fun j u other hu hother hdistinct hdistinct_u k hk hleads hholds hled =>
      h.dataType_eq_of_leadsTo ht ht' hentity hdistinct hu hother hdistinct_u hc hd hcd hk hleads
        hholds hled

/-- Passports, whose key is the person they are for, and the visas in them. -/
def passports : Extraction where
  entities :=
    [{ name := some "Person" },
     { name := some "Passport"
       attributes :=
        [{ name := some "person_id", dataType := some "TEXT", isPrimaryKey := true }] },
     { name := some "Visa" }]
  relationships :=
    [{ sourceEntity := some "Person", targetEntity := some "Passport",
       type := some "one_to_one" },
     { sourceEntity := some "Passport", targetEntity := some "Visa",
       type := some "one_to_many" }]

theorem columns_normalize_passports :
    let s := (passports.normalize {} 3 { year := 2024, month := 1, day := 1 }).schema
    let s' := ({ passports with relationships := passports.relationships.reverse }.normalize {} 3
      { year := 2024, month := 1, day := 1 }).schema
    s'.tableNames = s.tableNames ∧ ∃ t t', s.tables[1]? = some t ∧ s'.tables[1]? = some t' ∧
      ∃ c ∈ t.columns, c.name = "person_id" ∧ ∃ d ∈ t'.columns, c.Matches d ∧
        d.dataType = c.dataType := by
  intro s s'
  obtain ⟨hnames, -, -, hcolumns⟩ := columns_normalize_perm passports
    passports.relationships.reverse (List.reverse_perm _) {} 3
    { year := 2024, month := 1, day := 1 }
  have ⟨hlength, hlength', h⟩ : s.tables.length = 3 ∧ s'.tables.length = 3 ∧
      ∀ t ∈ s.tables[1]?, ∀ u ∈ s.tables[0]?, (t.columns.map (·.name)).Nodup ∧
        (u.columns.map (·.name)).Nodup ∧ (∃ r ∈ s.relationships, r.kind ≠ .manyToMany ∧
          (if r.kind = .manyToOne then r.sourceTable else r.targetTable) = t.name ∧
            (if r.kind = .manyToOne then r.targetTable else r.sourceTable) = u.name) ∧
        ∃ c ∈ t.columns, c.name = "person_id" ∧ ∃ k ∈ u.columns, k.isForeignKey = false ∧
          ∃ r ∈ c.references, r.table = u.name ∧ r.column = k.name := by
    decide +kernel
  have ht : s.tables[1]? = some s.tables[1] := List.getElem?_eq_getElem (by omega)
  have ht' : s'.tables[1]? = some s'.tables[1] := List.getElem?_eq_getElem (by omega)
  have hu : s.tables[0]? = some s.tables[0] := List.getElem?_eq_getElem (by omega)
  obtain ⟨hdt, hdu, hholds, c, hc, hname, k, hk, hplain, hleads⟩ := h _ ht _ hu
  obtain ⟨hmatches, -, hequal⟩ := hcolumns 1 _ _ _ ht ht' rfl
  obtain ⟨d, hd, hcd⟩ := hmatches c hc
  refine ⟨hnames, _, _, ht, ht', c, hc, hname, d, hd, hcd, ?_⟩
  refine (hequal c hc d hd hcd).2.2 0 _ _ hu rfl hdt hdu k hk hleads (fun _ => hholds) ?_
  simp [hplain]

/-- Not every column of a normalized extraction has the same type for every order of the
relationships. -/
theorem not_columns_normalize_passports :
    ¬∀ (e : Extraction) (relationships : List Extraction.Relationship),
      relationships.Perm e.relationships →
      ∀ (heading : Heading) (small : ℤ) (now : Moment),
        let s := (e.normalize heading small now).schema
        let s' := ({ e with relationships }.normalize heading small now).schema
        ∀ t ∈ s.tables, ∃ t' ∈ s'.tables, t'.name = t.name ∧
          ∀ c ∈ t.columns, ∃ d ∈ t'.columns, d.name = c.name ∧ d.dataType = c.dataType := by
  intro h
  have hdiffers :
      let s := (passports.normalize {} 3 { year := 2024, month := 1, day := 1 }).schema
      let s' := ({ passports with relationships := passports.relationships.reverse }.normalize {} 3
        { year := 2024, month := 1, day := 1 }).schema
      ∃ t ∈ s.tables, ∀ t' ∈ s'.tables, t'.name = t.name →
        ∃ c ∈ t.columns, ∀ d ∈ t'.columns, d.name = c.name → d.dataType ≠ c.dataType := by
    decide +kernel
  obtain ⟨t, ht, hdiffers⟩ := hdiffers
  obtain ⟨t', ht', hname, hsame⟩ := h passports _ (List.reverse_perm _) {} 3 _ t ht
  obtain ⟨c, hc, hdiffers⟩ := hdiffers t' ht' hname
  obtain ⟨d, hd, hname, htype⟩ := hsame c hc
  exact hdiffers d hd hname htype

end Schemata
