import Schemata.Proofs.Normalize.Key

/-!
# Relationships in another order

Whether a relationship of an extraction is kept depends on the names of the tables and on nothing
else (`Placed.kept_placeAll`). So of two extractions that differ in the order of their relationships
(`Extraction.Reorders`), the same relationships are kept.

From stage to stage, the tables of the two resemble each other (`Extraction.Reorders.resembles`):
which columns a stage adds, and which it makes key or foreign key, is told by the set of the
relationships. The last stages then go by the same facts for both: which tables are referred to, and
which column references are moved to (`isMarked_iff`).
-/

namespace Schemata

open Normalize

namespace Normalize

/-- The relationship that is kept for one of an extraction, `names` being those of the tables. -/
def keptFor? (names : List String) (r : Extraction.Relationship) : Option Relationship :=
  match ends? r with
  | none => none
  | some (source, target) =>
    if tableName (some source) ∈ names ∧ tableName (some target) ∈ names then
      some (relationshipFor r (RelationshipKind.assumed r.type).1 source target
        (tableName (some source)) (tableName (some target)))
    else none

variable {tables : List Table} {name : String}

/-- A relationship is kept just if the names made of its ends are names of tables. -/
theorem keptFor?_eq_some {names : List String} {q : Extraction.Relationship} {r : Relationship} :
    keptFor? names q = some r ↔ ∃ source target, ends? q = some (source, target) ∧
      tableName (some source) ∈ names ∧ tableName (some target) ∈ names ∧
        relationshipFor q (RelationshipKind.assumed q.type).1 source target
          (tableName (some source)) (tableName (some target)) = r := by
  unfold keptFor?
  cases hends : ends? q with
  | none => simp
  | some ends =>
    obtain ⟨source, target⟩ := ends
    dsimp only
    rw [Option.ite_none_right_eq_some, Option.some_inj]
    constructor
    · exact fun ⟨⟨hsource, htarget⟩, heq⟩ => ⟨source, target, rfl, hsource, htarget, heq⟩
    · rintro ⟨_, _, hpair, hsource, htarget, heq⟩
      obtain ⟨rfl, rfl⟩ := Prod.mk.inj (Option.some.inj hpair)
      exact ⟨⟨hsource, htarget⟩, heq⟩

theorem table?_eq_none_iff : table? tables name = none ↔ name ∉ tables.map (·.name) := by
  simp [table?]

theorem kept_placeRelationship (tables : List Table) (r : Extraction.Relationship) :
    (placeRelationship tables r).value.2 = keptFor? (tables.map (·.name)) r := by
  unfold placeRelationship keptFor?
  cases ends? r with
  | none => rfl
  | some ends =>
    obtain ⟨source, target⟩ := ends
    dsimp only
    cases hsource : table? tables (tableName (some source)) with
    | none => rw [if_neg fun h => table?_eq_none_iff.1 hsource h.1]; rfl
    | some s =>
      cases htarget : table? tables (tableName (some target)) with
      | none => rw [if_neg fun h => table?_eq_none_iff.1 htarget h.2]; rfl
      | some t =>
        obtain ⟨hs, hs_name⟩ := mem_of_table? hsource
        obtain ⟨ht, ht_name⟩ := mem_of_table? htarget
        rw [← hs_name, ← ht_name, if_pos ⟨List.mem_map_of_mem hs, List.mem_map_of_mem ht⟩]
        rfl

/-- **Which relationships are kept** is told one by one, by the names of the tables. -/
theorem Placed.kept_placeAll (h : Placed tables) (relationships : List Extraction.Relationship) :
    (placeAll tables relationships).value.2 =
      relationships.filterMap (keptFor? (tables.map (·.name))) := by
  suffices hgen : ∀ (tables' : List Table) (kept : List Relationship), Placed tables' →
      tables'.map (·.name) = tables.map (·.name) →
      (relationships.foldl (fun state r => ((placeRelationship state.1 r).value.1,
        state.2 ++ (placeRelationship state.1 r).value.2.toList)) (tables', kept)).2 =
          kept ++ relationships.filterMap (keptFor? (tables.map (·.name))) by
    simpa [placeAll, Noted.value_fold] using hgen tables [] h rfl
  induction relationships with
  | nil => simp
  | cons r relationships ih =>
    intro tables' kept hplaced hnames
    have hkept := kept_placeRelationship tables' r
    rw [List.foldl_cons, List.filterMap_cons, ← hnames, ← hkept, hnames]
    rcases value_placeRelationship tables' r with hvalue | ⟨new, hvalue, hjoins⟩ <;> rw [hvalue]
    · simpa using ih tables' kept hplaced hnames
    · obtain ⟨hplaced', hchanges⟩ := hplaced.place hjoins
      have hnames' := hchanges.names_eq.trans hnames
      simpa using ih (Normalize.place tables' new) (kept ++ [new]) hplaced' hnames'

end Normalize

namespace Extraction

variable {e e' : Extraction} {p p' w w' u u' : Table} {c d : Column}

/-- **Which relationships a normalized extraction has.** -/
theorem mem_relationships_normalize {heading : Heading} {small : ℤ} {now : Moment}
    {r : Schemata.Relationship} :
    r ∈ (e.normalize heading small now).schema.relationships ↔
      ∃ q ∈ e.relationships, ∃ source target, ends? q = some (source, target) ∧
        tableName (some source) ∈ (e.normalize heading small now).schema.tableNames ∧
        tableName (some target) ∈ (e.normalize heading small now).schema.tableNames ∧
          relationshipFor q (RelationshipKind.assumed q.type).1 source target
            (tableName (some source)) (tableName (some target)) = r := by
  rw [tableNames_normalize, ← names_resolved, relationships_normalize, kept,
    e.placed_resolved.kept_placeAll, List.mem_filterMap]
  exact exists_congr fun q => and_congr_right fun _ => keptFor?_eq_some

/-! ## Where the tables of a stage come from -/

theorem exists_enlarged (e : Extraction) : ∃ f : Table → Table, e.placed = e.resolved.map f ∧
    ∀ t ∈ e.resolved, t.Enlarged (f t) := by
  obtain ⟨heq, hjoins⟩ := value_placeAll e.placed_resolved e.relationships
  rw [placed, heq]
  exact e.placed_resolved.exists_enlarged hjoins

theorem exists_resolved (hp : p ∈ e.placed) : ∃ t ∈ e.resolved, p.name = t.name ∧ t.Enlarged p ∧
    ∀ column, p.HasForeignKey column ↔
      t.HasForeignKey column ∨ ∃ r ∈ e.kept, r.Holds t.name column := by
  obtain ⟨-, -, f, hplaced, hf⟩ := e.placed_spec
  obtain ⟨g, hplaced', hg⟩ := e.exists_enlarged
  have hsame := List.map_inj_left.1 (hplaced.symm.trans hplaced')
  rw [hplaced] at hp
  obtain ⟨t, ht, rfl⟩ := List.mem_map.1 hp
  exact ⟨t, ht, (hf t ht).1, hsame t ht ▸ hg t ht, (hf t ht).2⟩

theorem exists_placed_of_identified (hw : w ∈ e.identified) :
    ∃ p ∈ e.placed, ∃ owners, p.Owned owners w ∧ ∀ name, name ∈ owners ↔
      ∃ r ∈ e.kept, r.sourceTable = name ∧ r.Identifies p.name (foreignKeyName name) := by
  obtain ⟨f, hidentified, hf⟩ := e.exists_identified
  rw [hidentified] at hw
  obtain ⟨p, hp, rfl⟩ := List.mem_map.1 hw
  exact ⟨p, hp, hf p hp⟩

theorem exists_identified_of_ordered (hu : u ∈ e.ordered) :
    ∃ w ∈ e.identified, u = w.withContiguousKey := by
  obtain ⟨w, hw, rfl⟩ := List.mem_map.1 hu
  exact ⟨w, hw, rfl⟩

theorem soleUnique_ordered (hu : u ∈ e.ordered) : u.SoleUnique := by
  obtain ⟨f, g, hordered, hstages⟩ := e.exists_stages_built
  rw [hordered] at hu
  obtain ⟨b, hb, rfl⟩ := List.mem_map.1 hu
  obtain ⟨i, hi, rfl⟩ := List.getElem_of_mem hb
  have hi' : i < e.entities.length := e.built_spec.2.length_eq ▸ hi
  obtain ⟨hbuilt, hcolumns⟩ := e.built_spec.2.get hi' hi
  have hstages := hstages _ hb _ hbuilt hcolumns
  obtain ⟨owners, hrun, -⟩ := hstages.owners
  exact Table.soleUnique_withContiguousKey (hstages.soleUnique.of_owned hrun)

/-- Where a key has several columns, references are moved to the first of its own. -/
theorem ownTarget?_ordered (hu : u ∈ e.ordered) : ownTarget? e.ordered u.name =
    if 1 < u.keyColumns.length then u.ownKeys.head? else none := by
  rw [ownTarget?_of_mem e.ordered_spec.1.1 hu]
  by_cases hmany : 1 < u.keyColumns.length
  · rw [if_pos hmany, Table.ownKeys_head? hmany]
    cases u.referencedKey.isForeignKey <;> simp [hmany]
  · simp [hmany]

/-- Foreign keys that resemble each other refer to one table, for its name is in theirs. -/
theorem table_eq_of_resembles (hu : u ∈ e.ordered) (hu' : u' ∈ e'.ordered) (hc : c ∈ u.columns)
    (hd : d ∈ u'.columns) (hresembles : c.Resembles d) :
    d.references.map (·.table) = c.references.map (·.table) := by
  obtain ⟨hlinked, hconsistent⟩ := e.ordered_spec.1
  obtain ⟨hlinked', hconsistent'⟩ := e'.ordered_spec.1
  have hsome : d.references.isSome = c.references.isSome := by
    rw [← hconsistent u hu c hc, ← hconsistent' u' hu' d hd, hresembles.isForeignKey_eq]
  cases hr : c.references with
  | none =>
    rw [hr, Option.isSome_none, Option.isSome_eq_false_iff, Option.isNone_iff_eq_none] at hsome
    rw [hsome]
  | some r =>
    rw [hr] at hsome
    obtain ⟨r', hr'⟩ := Option.isSome_iff_exists.1 hsome
    obtain ⟨v, hv, htable, -, hname, -⟩ := hlinked.reaches u hu c hc r hr
    obtain ⟨v', hv', htable', -, hname', -⟩ := hlinked'.reaches u' hu' d hd r' hr'
    have hsame : v'.name = v.name := by
      rw [← foreignKeyName_inj (hlinked'.plain v' hv') (hlinked.plain v hv), ← hname, ← hname',
        hresembles.name_eq]
    rw [hr', Option.map_some, Option.map_some, htable, htable', hsame]

/-! ## Two orders -/

/-- Two extractions that differ in the order of their relationships. -/
structure Reorders (e e' : Extraction) : Prop where
  entities_eq : e'.entities = e.entities
  perm : e'.relationships.Perm e.relationships

namespace Reorders

variable (h : Reorders e e')

include h

theorem symm : Reorders e' e :=
  ⟨h.entities_eq.symm, h.perm.symm⟩

theorem built_eq : e'.built = e.built := by
  rw [built, built, h.entities_eq]

theorem resolved_eq : e'.resolved = e.resolved := by
  rw [resolved, resolved, h.built_eq]

/-- **The same relationships are kept.** -/
theorem perm_kept : e'.kept.Perm e.kept := by
  rw [kept, kept, e'.placed_resolved.kept_placeAll, e.placed_resolved.kept_placeAll,
    h.resolved_eq]
  exact h.perm.filterMap _

theorem resembles_placed (hp : p ∈ e.placed) (hp' : p' ∈ e'.placed) (hname : p'.name = p.name) :
    p.Resembles p' := by
  obtain ⟨t, ht, ht_name, henlarged, hforeign⟩ := exists_resolved hp
  obtain ⟨t', ht', ht_name', henlarged', hforeign'⟩ := exists_resolved hp'
  rw [h.resolved_eq] at ht'
  obtain rfl : t' = t :=
    e.placed_resolved.linked.eq_of_name ht' ht (by rw [← ht_name, ← ht_name', hname])
  refine henlarged.resembles henlarged' (e.placed_spec.1.distinct p hp)
    (e'.placed_spec.1.distinct p' hp') fun column => ?_
  simp only [hforeign', hforeign, h.perm_kept.mem_iff]

theorem resembles_identified (hw : w ∈ e.identified) (hw' : w' ∈ e'.identified)
    (hname : w'.name = w.name) : w.Resembles w' := by
  obtain ⟨p, hp, owners, hrun, howners⟩ := exists_placed_of_identified hw
  obtain ⟨p', hp', owners', hrun', howners'⟩ := exists_placed_of_identified hw'
  have hpname : p'.name = p.name := by rw [← hrun.name_eq, ← hrun'.name_eq, hname]
  refine hrun.resembles hrun' (fun name => ?_) (h.resembles_placed hp hp' hpname)
  simp only [howners', howners, h.perm_kept.mem_iff, hpname]

/-- **Tables of one name resemble each other** when their keys have been put in front. -/
theorem resembles (hu : u ∈ e.ordered) (hu' : u' ∈ e'.ordered) (hname : u'.name = u.name) :
    u.Resembles u' := by
  obtain ⟨w, hw, rfl⟩ := exists_identified_of_ordered hu
  obtain ⟨w', hw', rfl⟩ := exists_identified_of_ordered hu'
  exact (h.resembles_identified hw hw' hname).withContiguousKey

theorem exists_ordered (hu : u ∈ e.ordered) :
    ∃ u' ∈ e'.ordered, u'.name = u.name ∧ u.Resembles u' := by
  have hmem : u.name ∈ e'.ordered.map (·.name) := by
    rw [names_ordered, h.built_eq, ← names_ordered]
    exact List.mem_map_of_mem hu
  obtain ⟨u', hu', hname⟩ := List.mem_map.1 hmem
  exact ⟨u', hu', hname, h.resembles hu hu' hname⟩

theorem isReferenced_of {name : String} (hreferenced : isReferenced e.ordered name = true) :
    isReferenced e'.ordered name = true := by
  obtain ⟨u, hu, c, hc, r, hr, htable⟩ := isReferenced_iff.1 hreferenced
  obtain ⟨u', hu', -, hresembles⟩ := h.exists_ordered hu
  obtain ⟨d, hd, hcd⟩ := hresembles.columns c hc
  have hsame := table_eq_of_resembles hu hu' hc hd hcd
  rw [hr, Option.map_some, Option.map_eq_some_iff] at hsame
  obtain ⟨r', hr', htable'⟩ := hsame
  exact isReferenced_iff.2 ⟨u', hu', d, hd, r', hr', htable'.trans htable⟩

/-- The same columns are those that references are moved to. -/
theorem ownTarget?_eq (name : String) :
    ownTarget? e'.ordered name = ownTarget? e.ordered name := by
  have hnames : e'.ordered.map (·.name) = e.ordered.map (·.name) := by
    rw [names_ordered, names_ordered, h.built_eq]
  by_cases hname : name ∈ e.ordered.map (·.name)
  · obtain ⟨u, hu, rfl⟩ := List.mem_map.1 hname
    obtain ⟨u', hu', hsame, hresembles⟩ := h.exists_ordered hu
    rw [ownTarget?_ordered hu, ← hsame, ownTarget?_ordered hu', hresembles.ownKeys_eq,
      if_congr hresembles.many_iff rfl rfl]
  · rw [ownTarget?, ownTarget?, table?_eq_none_iff.2 hname, table?_eq_none_iff.2 (hnames ▸ hname)]

theorem isMarked_iff (hname : u'.name = u.name) (name : String) :
    IsMarked e'.ordered u' name ↔ IsMarked e.ordered u name := by
  have hreferenced : isReferenced e'.ordered u.name = true ↔ isReferenced e.ordered u.name = true :=
    ⟨h.symm.isReferenced_of, h.isReferenced_of⟩
  rw [IsMarked, IsMarked, hname, hreferenced, h.ownTarget?_eq]

/-- Before references are moved, a column is unique in both orders or in none. -/
theorem isUnique_eq (hu : u ∈ e.ordered) (hu' : u' ∈ e'.ordered) (hname : u'.name = u.name)
    (hc : c ∈ u.columns) (hd : d ∈ u'.columns) (hcd : c.Resembles d) :
    d.isUnique = c.isUnique := by
  cases hkey : c.isPrimaryKey with
  | false => exact hcd.isUnique_eq hkey
  | true =>
    have hc' := Table.mem_keyColumns.2 ⟨hc, hkey⟩
    have hd' := Table.mem_keyColumns.2 ⟨hd, hcd.isPrimaryKey_eq.trans hkey⟩
    have hiff := (h.resembles hu hu' hname).many_iff
    by_cases hmany : 1 < u.keyColumns.length
    · obtain ⟨w, -, rfl⟩ := exists_identified_of_ordered hu
      obtain ⟨w', -, rfl⟩ := exists_identified_of_ordered hu'
      rw [Table.isUnique_withContiguousKey hmany hc',
        Table.isUnique_withContiguousKey (hiff.2 hmany) hd']
    · rw [(soleUnique_ordered hu).isUnique hmany hc',
        (soleUnique_ordered hu').isUnique (mt hiff.1 hmany) hd']

end Reorders

end Extraction

end Schemata
