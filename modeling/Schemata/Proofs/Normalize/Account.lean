import Schemata.Proofs.Normalize.Note
import Schemata.Proofs.Normalize.Reorder
import Schemata.Proofs.Schema.Retain

/-!
# Nothing is lost silently

`accounts_normalize` says what becomes of each part of an extraction. Every entity has its table.
A relationship is kept or told to be left out. So is an attribute, and the one that is kept has its
column, which holds what the attribute says unless it is called like a reference to a table.

From stage to stage this is carried by `Table.Carries`: a column that is not called like a
reference is none in linked tables (`Linked.isForeignKey_of_isApart`), and only columns that are
references take over anything from other tables.
-/

namespace Schemata

open Normalize

/-- A name that is not the one of a reference to any of the tables of some names. -/
def IsApart (names : List String) (column : String) : Prop :=
  ∀ name ∈ names, column ≠ foreignKeyName name

variable {tables : List Table} {t : Table}

/-- A column that is not called like a reference is none. -/
theorem Linked.isForeignKey_of_isApart (h : Linked tables) (hconsistent : Consistent tables)
    (ht : t ∈ tables) {c : Column} (hc : c ∈ t.columns)
    (hapart : IsApart (tables.map (·.name)) c.name) : c.isForeignKey = false := by
  cases hr : c.references with
  | none => rw [hconsistent t ht c hc, hr, Option.isSome_none]
  | some r =>
    obtain ⟨u, hu, -, -, hname, -⟩ := h.reaches t ht c hc r hr
    exact absurd hname (hapart u.name (List.mem_map_of_mem hu))

namespace Normalize

theorem carries_markUnique (tables : List Table) (t : Table) (apart : String → Prop) :
    t.Carries apart (markUnique tables t) := by
  unfold markUnique
  split
  · split
    · refine .of_retains fun c hc => ⟨_, List.mem_map_of_mem hc, ?_⟩
      dsimp only
      split <;> exact ⟨rfl, rfl, rfl, rfl⟩
    · exact .of_columns_subset (List.Subset.refl _)
  · exact .of_columns_subset (List.Subset.refl _)

theorem carries_detectLookup (small : ℤ) (t : Table) (apart : String → Prop) :
    t.Carries apart (detectLookup small t).value := by
  refine .of_columns_subset ?_
  unfold detectLookup
  split <;> exact List.Subset.refl _

/-- Moving references changes nothing of the columns that are none. -/
theorem carries_finish (small : ℤ) (h : Linked tables) (hconsistent : Consistent tables)
    (ht : t ∈ tables) : t.Carries (IsApart (tables.map (·.name))) (finish small tables t) := by
  have hmoved : t.Carries (IsApart (tables.map (·.name))) (moved tables t) := by
    constructor
    · exact fun name => (sameKeys_moved tables t).hasColumn
    · intro c hc hapart
      have hplain := h.isForeignKey_of_isApart hconsistent ht hc hapart
      refine ⟨(retargetColumn tables t.name c).value, List.mem_map_of_mem hc, ?_⟩
      rw [retargetColumn_of_plain (hconsistent t ht c hc) hplain]
      exact .refl c
  exact (hmoved.trans (carries_markUnique tables _ _)).trans (carries_detectLookup small _ _)

end Normalize

namespace Extraction

variable (e : Extraction) {heading : Heading} {small : ℤ} {now : Moment} {i : ℕ} {t : Table}
  {entity : Extraction.Entity}

/-! ## The columns that attributes become -/

theorem carries_resolve {b : Table} (hb : b ∈ e.built) (apart : String → Prop) :
    b.Carries apart (e.resolve b) := by
  obtain ⟨entity, hbuilt⟩ := e.exists_built hb
  refine .of_retains fun c hc => ⟨_, List.mem_map_of_mem hc, ?_⟩
  rcases value_resolveColumn e.built b.name c (hbuilt.fresh.bare c hc) with
    ⟨-, heq⟩ | ⟨-, ⟨u, -, -, heq⟩ | ⟨-, heq⟩⟩ <;> rw [heq] <;> exact ⟨rfl, rfl, rfl, rfl⟩

/-- **What a table is built with is carried through all stages.** -/
theorem exists_carries (heading : Heading) (small : ℤ) (now : Moment) :
    ∃ f : Table → Table, (e.normalize heading small now).schema.tables = e.built.map f ∧
      ∀ b ∈ e.built, b.Carries (IsApart (e.built.map (·.name))) (f b) := by
  obtain ⟨f, hplaced, hf⟩ := e.exists_enlarged
  obtain ⟨g, hidentified, hg⟩ := e.exists_identified
  have hnames : e.placed.map (·.name) = e.built.map (·.name) := by
    rw [e.placed_spec.2.2.names_eq, e.names_resolved]
  refine ⟨fun b => finish small e.ordered (g (f (e.resolve b))).withContiguousKey, ?_,
    fun b hb => ?_⟩
  · rw [tables_normalize, ordered, hidentified, hplaced, resolved_eq]
    simp only [List.map_map]
    rfl
  · have hresolved : e.resolve b ∈ e.resolved := e.resolved_eq ▸ List.mem_map_of_mem hb
    have hmem : f (e.resolve b) ∈ e.placed := hplaced ▸ List.mem_map_of_mem hresolved
    obtain ⟨hplaced, hjoins, -⟩ := e.placed_spec
    obtain ⟨hlinked, hconsistent⟩ := e.ordered_spec.1
    have hordered : (g (f (e.resolve b))).withContiguousKey ∈ e.ordered := by
      rw [ordered, hidentified, List.map_map]
      exact List.mem_map_of_mem hmem
    have hplace : (e.resolve b).Carries (IsApart (e.built.map (·.name))) (f (e.resolve b)) := by
      refine (hf _ hresolved).carries fun d hd hapart => ?_
      exact hplaced.linked.isForeignKey_of_isApart hplaced.consistent hmem hd (hnames ▸ hapart)
    have hidentify : (f (e.resolve b)).Carries (IsApart (e.built.map (·.name)))
        (g (f (e.resolve b))) := by
      obtain ⟨owners, hrun, howners⟩ := hg _ hmem
      refine hrun.carries (hplaced.distinct _ hmem) fun owner howner hapart => ?_
      obtain ⟨r, hr, rfl, -⟩ := (howners owner).1 howner
      exact hapart r.sourceTable (hnames ▸ (hjoins r hr).1) rfl
    have hfinish := carries_finish small hlinked hconsistent hordered
    rw [e.names_ordered] at hfinish
    exact (((e.carries_resolve hb _).trans hplace).trans hidentify).trans
      ((Table.carries_withContiguousKey _).trans hfinish)

/-- A table of the schema goes back to the one that was built at its place. -/
theorem exists_built_getElem? (ht : (e.normalize heading small now).schema.tables[i]? = some t) :
    ∃ b, e.built[i]? = some b ∧ t.name = b.name ∧
      b.Carries (IsApart (e.built.map (·.name))) t := by
  obtain ⟨f, htables, hcarries⟩ := e.exists_carries heading small now
  have hnames := e.tableNames_normalize heading small now
  rw [Schema.tableNames, htables, List.map_map, List.map_inj_left] at hnames
  rw [htables, List.getElem?_map] at ht
  obtain ⟨b, hb, rfl⟩ := Option.map_eq_some_iff.1 ht
  have hmem := List.mem_of_getElem? hb
  exact ⟨b, hb, hnames b hmem, hcarries b hmem⟩

/-- A table has the first name for its entity that no table before it has. -/
theorem name_normalize (ht : (e.normalize heading small now).schema.tables[i]? = some t)
    (hentity : e.entities[i]? = some entity) : t.name = uniqueName (tableName entity.name)
      ((e.normalize heading small now).schema.tableNames.take i) := by
  obtain ⟨b, hb, hname, -⟩ := e.exists_built_getElem? ht
  rw [hname, tableNames_normalize]
  exact (buildTables_getElem? hentity hb).1

/-- The table that is built for an entity has the columns of its attributes. -/
theorem exists_column_buildTable (taken : List String) (entity : Extraction.Entity) (index : ℕ)
    {column : String} {a : Extraction.Attribute}
    (ha : entity.attributes.find? (columnName ·.name == column) = some a) :
    ∃ c ∈ (buildTable taken entity index).value.columns, a.column.Retains c := by
  obtain ⟨t, -, hcolumns, hvalue⟩ := value_buildTable taken entity index
  have hne : entity.attributes.isEmpty = false := by
    cases hattributes : entity.attributes with
    | nil => simp [hattributes] at ha
    | cons => rfl
  rw [hne] at hcolumns
  have hfresh := fresh_columnsFor t _ _ hcolumns
  have hcolumn := column?_columnsFor hcolumns column
  rw [ha, Option.map_some] at hcolumn
  have hcarries : t.Carries (fun _ => True) (buildTable taken entity index).value := by
    rw [hvalue]
    exact Table.carries_withStamps hfresh.distinct
  exact hcarries.retains _ (Table.mem_of_column? hcolumn).1 trivial

/-- A table of the schema carries what was built for its entity. -/
theorem exists_carries_buildTable
    (ht : (e.normalize heading small now).schema.tables[i]? = some t)
    (hentity : e.entities[i]? = some entity) :
    ∃ taken index, (buildTable taken entity index).value.Carries
      (IsApart (e.built.map (·.name))) t := by
  obtain ⟨b, hb, -, hcarries⟩ := e.exists_built_getElem? ht
  obtain ⟨taken, index, rfl⟩ : ∃ taken index, (buildTable taken entity index).value = b := by
    obtain ⟨hi, rfl⟩ := List.getElem?_eq_some_iff.1 hb
    obtain ⟨hi', rfl⟩ := List.getElem?_eq_some_iff.1 hentity
    exact (forall₂_buildTables e.entities).2.get hi' hi
  exact ⟨taken, index, hcarries⟩

/-- **The first attribute of a name has its column**, which holds what the attribute says unless it
is called like a reference. -/
theorem exists_column_normalize
    (ht : (e.normalize heading small now).schema.tables[i]? = some t)
    (hentity : e.entities[i]? = some entity) {column : String} {a : Extraction.Attribute}
    (ha : entity.attributes.find? (columnName ·.name == column) = some a) :
    t.hasColumn column = true ∧ (IsApart (e.built.map (·.name)) column →
      ∃ c ∈ t.columns, a.column.Retains c ∧ c.isForeignKey = false) := by
  have hlinked := (tablesAndRelationships_spec small e).linked
  have hconsistent := (tablesAndRelationships_spec small e).consistent
  obtain ⟨taken, index, hcarries⟩ := e.exists_carries_buildTable ht hentity
  obtain ⟨c, hc, hretains⟩ := exists_column_buildTable taken entity index ha
  have hname : c.name = column := by
    rw [hretains.name_eq, name_column]
    simpa using List.find?_some ha
  refine ⟨hcarries.hasColumn _ (Table.hasColumn_iff.2 ⟨c, hc, hname⟩), fun hapart => ?_⟩
  obtain ⟨d, hd, hcd⟩ := hcarries.retains c hc (hname ▸ hapart)
  refine ⟨d, hd, hretains.trans hcd,
    hlinked.isForeignKey_of_isApart hconsistent (List.mem_of_getElem? ht) hd ?_⟩
  rw [← e.tableNames_normalize heading small now] at hapart
  rw [hcd.name_eq, hname]
  exact hapart

/-! ## What is told to be left out -/

/-- Of the relationships that are not kept, each one is told. -/
theorem length_relationships_normalize (heading : Heading) (small : ℤ) (now : Moment) :
    let n := e.normalize heading small now
    e.relationships.length = n.schema.relationships.length +
      (n.diagnostics.countP (·.code = "REL_MISSING_ENDPOINT") +
        n.diagnostics.countP (·.code = "REL_UNRESOLVED")) := by
  intro n
  have hcount : ∀ code ∈ placeCodes, n.diagnostics.countP (·.code = code) =
      (placeAll e.resolved e.relationships).notes.countP (·.code = code) := by
    intro code hcode
    have hapart : ∀ code ∈ placeCodes, code ∉ buildCodes ∧ code ∉ otherCodes := by decide
    have hbuild : (buildTables e.entities).notes.countP (·.code = code) = 0 :=
      countP_eq_zero_of_code (fun d hd => (mem_notes_buildTables hd).1) fun d hd =>
        decide_eq_false fun heq : d.code = code => (hapart code hcode).1 (heq ▸ hd)
    rw [countP_diagnostics e heading small now fun d hd =>
      decide_eq_false fun heq : d.code = code => (hapart code hcode).2 (heq ▸ hd), hbuild,
      Nat.zero_add]
  rw [hcount _ (by simp [placeCodes]), hcount _ (by simp [placeCodes])]
  exact (length_placeAll e.resolved e.relationships).symm

/-- The attributes that are left out are told by the names of their table and column. -/
theorem countP_droppedColumn_normalize (column : String)
    (ht : (e.normalize heading small now).schema.tables[i]? = some t)
    (hentity : e.entities[i]? = some entity) :
    (e.normalize heading small now).diagnostics.countP
        (fun d => d.code = "DUPLICATE_COLUMN" ∧ d.location = t.name ++ "." ++ column) =
      entity.attributes.countP (fun a => columnName a.name = column) - 1 := by
  have hplain := (tablesAndRelationships_spec small e).linked.plain t (List.mem_of_getElem? ht)
  obtain ⟨b, hb, hname, -⟩ := e.exists_built_getElem? ht
  have hplaced : (placeAll e.resolved e.relationships).notes.countP
      (fun d => d.code = "DUPLICATE_COLUMN" ∧ d.location = t.name ++ "." ++ column) = 0 :=
    countP_eq_zero_of_code (fun _ => code_placeAll) fun d hd =>
      decide_eq_false fun heq => absurd hd (by simp [heq.1, placeCodes])
  rw [countP_diagnostics e heading small now fun d hd =>
    decide_eq_false fun heq => absurd hd (by simp [heq.1, otherCodes]), hplaced, Nat.add_zero,
    countP_location_buildTables e.entities hplain, hname]
  exact (buildTables_getElem? hentity hb).2 column

end Extraction

/-- **Nothing is lost silently** when an extraction is normalized. There is a table for each entity,
in order. The relationships are those whose ends are both given and are tables, and of the others
each one is told. In the table for an entity, the first attribute of every column name has its
column, and of the others each one is told. The column has the type, the default value and the
description of the attribute and is no foreign key, unless it is called like a reference to a
table. -/
theorem accounts_normalize (e : Extraction) (heading : Heading) (small : ℤ) (now : Moment) :
    let n := e.normalize heading small now
    let s := n.schema
    s.tables.length = e.entities.length ∧
      s.relationships = e.relationships.filterMap (keptFor? s.tableNames) ∧
      e.relationships.length = s.relationships.length +
        (n.diagnostics.countP (·.code = "REL_MISSING_ENDPOINT") +
          n.diagnostics.countP (·.code = "REL_UNRESOLVED")) ∧
      ∀ (i : ℕ) (t : Table) (entity : Extraction.Entity), s.tables[i]? = some t →
        e.entities[i]? = some entity →
        t.name = uniqueName (tableName entity.name) (s.tableNames.take i) ∧
        (∀ a ∈ entity.attributes, t.hasColumn (columnName a.name) = true) ∧
        ∀ column, n.diagnostics.countP
            (fun d => d.code = "DUPLICATE_COLUMN" ∧ d.location = t.name ++ "." ++ column) =
              entity.attributes.countP (fun a => columnName a.name = column) - 1 ∧
          ((∀ u ∈ s.tables, column ≠ u.name ++ "_id") →
            ∀ a, entity.attributes.find? (columnName ·.name == column) = some a →
              ∃ c ∈ t.columns, a.column.Retains c ∧ c.isForeignKey = false) := by
  intro n s
  have hnames : s.tableNames = e.built.map (·.name) := e.tableNames_normalize heading small now
  refine ⟨Extraction.length_normalize, ?_, e.length_relationships_normalize heading small now,
    fun i t entity ht hentity => ⟨?_, fun a ha => ?_, fun column => ⟨?_, fun hapart a ha => ?_⟩⟩⟩
  · rw [hnames, ← e.names_resolved]
    exact e.placed_resolved.kept_placeAll e.relationships
  · exact e.name_normalize ht hentity
  · have ⟨first, hfirst⟩ : ∃ first,
        entity.attributes.find? (columnName ·.name == columnName a.name) = some first :=
      Option.isSome_iff_exists.1 (List.find?_isSome.2 ⟨a, ha, by simp⟩)
    exact (e.exists_column_normalize ht hentity hfirst).1
  · exact e.countP_droppedColumn_normalize column ht hentity
  · refine (e.exists_column_normalize ht hentity ha).2 fun name hname => ?_
    rw [← hnames] at hname
    obtain ⟨u, hu, rfl⟩ := List.mem_map.1 hname
    rw [foreignKeyName_of_plain ((tablesAndRelationships_spec small e).linked.plain u hu)]
    exact hapart u hu

/-- Boxes, with a weight that is given twice, in rooms, and a truck that is not described. -/
def moving : Extraction where
  entities :=
    [{ name := some "Box"
       attributes :=
        [{ name := some "Weight", dataType := some "NUMERIC", defaultValue := some "1" },
         { name := some "weight", dataType := some "TEXT" }] },
     { name := some "Room" }]
  relationships :=
    [{ sourceEntity := some "Room", targetEntity := some "Box" },
     { sourceEntity := some "Truck", targetEntity := some "Box" },
     { sourceEntity := some "Room" }]

theorem accounts_moving :
    let n := moving.normalize {} 3 { year := 2024, month := 1, day := 1 }
    n.schema.relationships.length = 1 ∧
      n.diagnostics.countP (·.code = "REL_MISSING_ENDPOINT") +
        n.diagnostics.countP (·.code = "REL_UNRESOLVED") = 2 ∧
      ∃ t, n.schema.tables[0]? = some t ∧ t.name = "box" ∧
        n.diagnostics.countP (fun d => d.code = "DUPLICATE_COLUMN" ∧
          d.location = t.name ++ "." ++ "weight") = 1 ∧
        ∃ c ∈ t.columns, c.name = "weight" ∧ c.dataType = "NUMERIC" ∧
          c.defaultValue = some "1" := by
  intro n
  obtain ⟨hlength, hkept, hlost, htables⟩ :=
    accounts_normalize moving {} 3 { year := 2024, month := 1, day := 1 }
  have hnames : n.schema.tableNames = ["box", "room"] := by decide +kernel
  have hone : n.schema.relationships.length = 1 := by
    rw [hkept, hnames]
    decide +kernel
  have htwo : n.schema.tables.length = 2 := hlength
  have ht : n.schema.tables[0]? = some n.schema.tables[0] := List.getElem?_eq_getElem (by omega)
  obtain ⟨hname, -, hcolumns⟩ := htables 0 _ _ ht rfl
  obtain ⟨hcount, hcolumn⟩ := hcolumns "weight"
  have hapart : ∀ u ∈ n.schema.tables, "weight" ≠ u.name ++ "_id" := by
    have hnone : ∀ name ∈ n.schema.tableNames, "weight" ≠ name ++ "_id" := by
      rw [hnames]
      decide
    exact fun u hu => hnone u.name (List.mem_map_of_mem hu)
  obtain ⟨c, hc, hretains, -⟩ := hcolumn hapart _ rfl
  refine ⟨hone, ?_, _, ht, hname, hcount, c, hc, hretains.name_eq, hretains.dataType_eq,
    hretains.defaultValue_eq⟩
  have hthree : 3 = n.schema.relationships.length +
      (n.diagnostics.countP (·.code = "REL_MISSING_ENDPOINT") +
        n.diagnostics.countP (·.code = "REL_UNRESOLVED")) := hlost
  omega

end Schemata
