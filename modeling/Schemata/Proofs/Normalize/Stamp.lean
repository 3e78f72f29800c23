import Schemata.Proofs.Normalize.Account
import Schemata.Proofs.Normalize.Junction
import Schemata.Proofs.Normalize.Key
import Schemata.Proofs.Sql.Stamp
import Schemata.Proofs.Text.Blank

/-!
# The moment of the last change in the scripts of extractions

In the scripts of an extraction, every table keeps up its column `updated_at` by a trigger, but in
MySQL, where the column has to do so by itself. `maintains_normalize` tells when it does: always in
junctions and in tables whose entity says nothing of the column, and otherwise by what the entity
says of its type and default value.
-/

namespace Schemata

open Normalize
open Sql (Dialect Maintains Script ScriptError followsChanges)

namespace Normalize

/-- The name of the column is not the one of a reference. -/
theorem isApart_updatedAtName (names : List String) : IsApart names updatedAtName := by
  intro name _ heq
  have hlast := congrArg (fun text : String => text.toList.getLast?) heq
  simp [foreignKeyName, updatedAtName] at hlast

/-- A table gets the usual column for the moment of the last change if its entity brings none. -/
theorem exists_stamp_buildTable (taken : List String) (entity : Extraction.Entity) (index : ℕ)
    (hnone : ∀ a ∈ entity.attributes, columnName a.name ≠ updatedAtName) :
    ∃ c ∈ (buildTable taken entity index).value.columns,
      (Column.stamp updatedAtName).Retains c := by
  obtain ⟨t, -, hcolumns, hvalue⟩ := value_buildTable taken entity index
  rw [hvalue]
  cases hempty : entity.attributes.isEmpty with
  | true =>
    -- the default columns have it among them
    have hdefaults : t.columns = Column.defaults := by rw [hcolumns, hempty]; rfl
    have hdistinct : t.Distinct := by
      rw [Table.Distinct, hdefaults]
      decide
    have hcarries : t.Carries (fun _ => True) t.withPrimaryKey.1.withStamps :=
      Table.carries_withStamps hdistinct
    exact hcarries.retains _ (hdefaults ▸ by decide) trivial
  | false =>
    have hplain : ¬t.hasColumn updatedAtName = true := by
      rw [hempty] at hcolumns
      rw [Table.hasColumn_iff]
      rintro ⟨c, hc, hname⟩
      obtain ⟨a, ha, -⟩ := (exists_columnsFor hcolumns (fun _ => True) updatedAtName).1
        ⟨c, hc, trivial, hname⟩
      exact hnone a (List.mem_of_find?_eq_some ha) (by simpa using List.find?_some ha)
    have hkept : ¬(t.withPrimaryKey.1.withStamp createdAtName).hasColumn updatedAtName = true := by
      rw [Table.hasColumn_withStamp, Table.hasColumn_withPrimaryKey (by decide), not_or]
      exact ⟨hplain, by decide⟩
    rw [Table.withStamps, Table.withStamp, if_neg hkept]
    exact ⟨_, List.mem_append_right _ (List.mem_singleton_self _), .refl _⟩

end Normalize

namespace Extraction

variable {e : Extraction} {heading : Heading} {small : ℤ} {now : Moment} {i : ℕ} {t : Table}
  {entity : Extraction.Entity}

/-- A table keeps up the moment of the last change if its entity brings no column for it. -/
theorem keepsUp_of_none (ht : (e.normalize heading small now).schema.tables[i]? = some t)
    (hentity : e.entities[i]? = some entity)
    (hnone : ∀ a ∈ entity.attributes, columnName a.name ≠ updatedAtName) : t.KeepsUp := by
  obtain ⟨taken, index, hcarries⟩ := e.exists_carries_buildTable ht hentity
  obtain ⟨c, hc, hretains⟩ := exists_stamp_buildTable taken entity index hnone
  have hname : c.name = updatedAtName := hretains.name_eq
  obtain ⟨d, hd, hcd⟩ := hcarries.retains c hc (hname ▸ isApart_updatedAtName _)
  refine ⟨d, hd, ?_⟩
  rw [(hretains.trans hcd).followsChanges_eq]
  exact followsChanges_stamp

/-- A table keeps up the moment of the last change just if the attribute for it says so. -/
theorem keepsUp_iff_of_attribute
    (ht : (e.normalize heading small now).schema.tables[i]? = some t)
    (hentity : e.entities[i]? = some entity) {a : Extraction.Attribute}
    (ha : entity.attributes.find? (columnName ·.name == updatedAtName) = some a) :
    t.KeepsUp ↔ followsChanges a.column = true := by
  have hcount : t.columnNames.count updatedAtName = 1 :=
    count_stamp_normalize (List.mem_of_getElem? ht) (by decide)
  have hname : a.column.name = updatedAtName := by
    rw [name_column]
    simpa using List.find?_some ha
  obtain ⟨c, hc, hretains, -⟩ :=
    (e.exists_column_normalize ht hentity ha).2 (isApart_updatedAtName _)
  exact Table.keepsUp_iff hcount hname ⟨c, hc, hretains⟩

/-- What MySQL asks of the attribute for the moment of the last change. -/
theorem followsChanges_column {a : Extraction.Attribute} (hname : columnName a.name = updatedAtName) :
    followsChanges a.column = true ↔
      (DataType.ofString a.column.dataType).base ∈ ["TIMESTAMP", "DATETIME"] ∧
        Text.upper (a.defaultValue.getD "").toList = "CURRENT_TIMESTAMP".toList := by
  have hcolumn : a.column.name = "updated_at" := (name_column a).trans hname
  rw [followsChanges, hcolumn, Bool.and_eq_true, Bool.and_eq_true, beq_self_eq_true,
    List.contains_iff_mem, beq_iff_eq, and_iff_right rfl]
  rfl

/-- A table of the expanded schema keeps up the moment of the last change just if the table of its
entity does; if it has none, it is a junction. -/
theorem keepsUp_withJunctions {junctions : List Table} {u : Table}
    (hu : ((e.normalize heading small now).schema.withJunctions junctions).tables[i]? = some u) :
    (e.entities[i]? = none ∧ u ∈ junctions) ∨ ∃ t entity,
      (e.normalize heading small now).schema.tables[i]? = some t ∧
        e.entities[i]? = some entity ∧ (u.KeepsUp ↔ t.KeepsUp) := by
  set s := (e.normalize heading small now).schema with hs
  have hlength : s.tables.length = e.entities.length := length_normalize
  dsimp only [Schema.withJunctions] at hu
  by_cases hi : i < e.entities.length
  · rw [List.getElem?_append_left (by simpa [hlength] using hi), List.getElem?_map] at hu
    obtain ⟨t, ht, rfl⟩ := Option.map_eq_some_iff.1 hu
    refine .inr ⟨t, _, ht, List.getElem?_eq_getElem hi, ?_⟩
    rcases asSide_cases s.tableNames s.relationships t with heq | heq <;> rw [heq]
    exact Table.keepsUp_referenceable
  · rw [not_lt] at hi
    rw [List.getElem?_append_right (by simpa [hlength] using hi)] at hu
    exact .inl ⟨List.getElem?_eq_none hi, List.mem_of_getElem? hu⟩

/-- **What an entity says of the moment of the last change**: nothing, in which case its table keeps
it up, or by the first attribute for it, in which case type and default value decide. -/
theorem keepsUp_of_entity {junctions : List Table} {u : Table}
    (hu : ((e.normalize heading small now).schema.withJunctions junctions).tables[i]? = some u)
    (hentity : e.entities[i]? = some entity) :
    ((∀ a ∈ entity.attributes, columnName a.name ≠ updatedAtName) → u.KeepsUp) ∧
      ∀ a, entity.attributes.find? (columnName ·.name == updatedAtName) = some a →
        let base := (DataType.ofString a.column.dataType).base
        let text := (a.defaultValue.getD "").toList
        (base ∈ ["TIMESTAMP", "DATETIME"] → Text.upper text = "CURRENT_TIMESTAMP".toList →
          u.KeepsUp) ∧
        (base ∉ ["TIMESTAMP", "DATETIME"] ∨ Text.upper (Text.strip text) ∉
          ["CURRENT_TIMESTAMP".toList, "NOW()".toList] → ¬u.KeepsUp) := by
  rcases keepsUp_withJunctions hu with ⟨hnone, -⟩ | ⟨t, entity', ht, hentity', hkeepsUp⟩
  · rw [hnone] at hentity
    contradiction
  obtain rfl := Option.some.inj (hentity.symm.trans hentity')
  rw [hkeepsUp]
  refine ⟨e.keepsUp_of_none ht hentity, fun a ha => ?_⟩
  have hname : columnName a.name = updatedAtName := by simpa using List.find?_some ha
  intro base text
  rw [e.keepsUp_iff_of_attribute ht hentity ha, followsChanges_column hname]
  refine ⟨fun hbase htext => ⟨hbase, htext⟩, ?_⟩
  rintro hother ⟨hbase, htext⟩
  rcases hother with hother | hother
  · exact hother hbase
  · have hblank : (Text.upper text).any Text.isBlank = false := by
      rw [htext]
      decide
    rw [Text.strip_eq_self_of_upper hblank, htext] at hother
    exact hother List.mem_cons_self

end Extraction

/-- **The moment of the last change in scripts.** -/
theorem maintains_normalize (e : Extraction) (heading : Heading) (small : ℤ) (now : Moment)
    (d : Dialect) (later : Moment) :
    let s := (e.normalize heading small now).schema
    (∀ fault, Script.of d later s = .error fault →
      d = .sqlserver ∧ ∃ length, fault = .length length) ∧
    ∃ expanded, s.expandManyToMany = .ok expanded ∧
      ∀ script, Script.of d later s = .ok script →
        (d ≠ .mysql → ∀ t ∈ expanded.tables, Maintains d script.statements t.name) ∧
        (d = .mysql → ∀ (i : ℕ) (t : Table), expanded.tables[i]? = some t →
          (e.entities[i]? = none → Maintains d script.statements t.name) ∧
          ∀ entity, e.entities[i]? = some entity →
            ((∀ a ∈ entity.attributes, columnName a.name ≠ "updated_at") →
              Maintains d script.statements t.name) ∧
            ∀ a, entity.attributes.find? (columnName ·.name == "updated_at") = some a →
              let base := (DataType.ofString a.column.dataType).base
              let text := (a.defaultValue.getD "").toList
              (base ∈ ["TIMESTAMP", "DATETIME"] → Text.upper text = "CURRENT_TIMESTAMP".toList →
                Maintains d script.statements t.name) ∧
              (base ∉ ["TIMESTAMP", "DATETIME"] ∨ Text.upper (Text.strip text) ∉
                  ["CURRENT_TIMESTAMP".toList, "NOW()".toList] →
                ¬Maintains d script.statements t.name)) := by
  intro s
  have hclosed : s.Closed := closed_normalize e heading small now
  have hnames : s.tableNames.Nodup := hclosed.tables.names
  refine ⟨fun fault hfault => ⟨?_, ?_⟩, ?_⟩
  · by_contra hd
    obtain ⟨script, hscript⟩ := hclosed.exists_script hd later
    rw [hscript] at hfault
    contradiction
  · cases fault with
    | violation v => exact absurd hfault (hclosed.script_ne_violation d later v)
    | length length => exact ⟨length, rfl⟩
  obtain ⟨junctions, hexpanded, hjunctions, -⟩ :=
    Schema.exists_withJunctions hnames fun r hr _ => hclosed.joins r hr
  obtain ⟨hcolumns, hkeepsUp⟩ := keepsUp_expandManyToMany hnames
    (fun t ht => Table.mem_columnNames.1 (List.one_le_count_iff.1
      (count_stamp_normalize ht (by decide)).ge))
    (e.isJunctionTable_normalize heading small now) hexpanded
  refine ⟨_, hexpanded, fun script h => ⟨fun hd t ht => ?_, ?_⟩⟩
  all_goals
    obtain ⟨expanded, heq, -, hscript⟩ := Script.of_eq_ok h
    obtain rfl := Except.ok.inj (hexpanded.symm.trans heq)
  · obtain ⟨expanded, heq, hkeyed⟩ := hclosed.expandManyToMany
    obtain rfl := Except.ok.inj (hexpanded.symm.trans heq)
    exact Sql.maintains_of_hasColumn hd hscript (CreationOrder.mem_of ht) (hcolumns t ht)
      (hkeyed.tables.keyed t ht)
  · rintro rfl i u hu
    have hdistinct := Schema.nodup_expandManyToMany hnames hexpanded
    have hordered :
        ((CreationOrder.of (s.withJunctions junctions).tables).tables.map (·.name)).Nodup :=
      ((CreationOrder.perm_of hdistinct).map _).nodup_iff.2 hdistinct
    rw [Sql.maintains_mysql_iff (Script.isOther_heading s later) hscript hordered
      (CreationOrder.mem_of (List.mem_of_getElem? hu))]
    refine ⟨fun hnone => ?_, fun entity hentity => Extraction.keepsUp_of_entity hu hentity⟩
    rcases Extraction.keepsUp_withJunctions hu with ⟨-, hu⟩ | ⟨t, entity, -, hentity, -⟩
    · obtain ⟨r, -, hjunction⟩ := exists_left_of_forall₂ hjunctions hu
      exact hkeepsUp u (List.mem_append_right _ hu) hjunction.isJunctionTable
    · rw [hnone] at hentity
      contradiction

/-- Visits of a day, and guests who pay them. -/
def visits : Extraction where
  entities :=
    [{ name := some "Visit"
       attributes := [{ name := some "updated_at", dataType := some "DATE" }] },
     { name := some "Guest" }]
  relationships :=
    [{ sourceEntity := some "Guest", targetEntity := some "Visit", type := some "MANY_TO_MANY" }]

theorem maintains_visits :
    let s := (visits.normalize {} 3 { year := 2024, month := 1, day := 1 }).schema
    ∃ script, Script.of .mysql { year := 2024, month := 1, day := 1 } s = .ok script ∧
      ¬Maintains .mysql script.statements "visit" ∧
      Maintains .mysql script.statements "guest" ∧
      Maintains .mysql script.statements "guest_visit" := by
  intro s
  have ⟨script, hscript⟩ : ∃ script, script ∈
      (Script.of .mysql { year := 2024, month := 1, day := 1 } s).toOption :=
    Option.isSome_iff_exists.1 (by decide +kernel)
  have htables : ∀ expanded ∈ s.expandManyToMany.toOption,
      expanded.tables.map (·.name) = ["visit", "guest", "guest_visit"] := by
    decide +kernel
  obtain ⟨-, expanded, hexpanded, hscripts⟩ := maintains_normalize visits {} 3 _ .mysql _
  have hmaintains := (hscripts script (mem_toOption.1 hscript)).2 rfl
  have hnames : ∀ (i : ℕ) (name : String), ["visit", "guest", "guest_visit"][i]? = some name →
      ∃ t : Table, expanded.tables[i]? = some t ∧ t.name = name := by
    intro i name hname
    rw [← htables expanded (mem_toOption.2 hexpanded), List.getElem?_map] at hname
    exact Option.map_eq_some_iff.1 hname
  obtain ⟨visit, hvisit, hvisitName⟩ := hnames 0 _ rfl
  obtain ⟨guest, hguest, hguestName⟩ := hnames 1 _ rfl
  obtain ⟨junction, hjunction, hjunctionName⟩ := hnames 2 _ rfl
  refine ⟨script, mem_toOption.1 hscript, ?_, ?_, ?_⟩
  · rw [← hvisitName]
    exact (((hmaintains 0 visit hvisit).2 _ rfl).2 _ rfl).2 (.inl (by decide +kernel))
  · rw [← hguestName]
    exact ((hmaintains 1 guest hguest).2 _ rfl).1 (by simp)
  · rw [← hjunctionName]
    exact (hmaintains 2 junction hjunction).1 rfl

/-- The moment of the last change is not maintained alike in all dialects. -/
theorem not_maintains_visits :
    ¬∀ (e : Extraction) (heading : Heading) (small : ℤ) (now : Moment) (d : Dialect)
      (later : Moment) (expanded : Schema) (script : Script),
      (e.normalize heading small now).schema.expandManyToMany = .ok expanded →
        Script.of d later (e.normalize heading small now).schema = .ok script →
          ∀ t ∈ expanded.tables, Maintains d script.statements t.name := by
  intro h
  let noon : Moment := { year := 2024, month := 1, day := 1 }
  have ⟨expanded, hexpanded, t, ht, hname⟩ :
      ∃ expanded ∈ (visits.normalize {} 3 noon).schema.expandManyToMany.toOption,
        ∃ t ∈ expanded.tables, t.name = "visit" := by
    decide +kernel
  have ⟨script, hscript, hplain⟩ :
      ∃ script ∈ (Script.of .mysql noon (visits.normalize {} 3 noon).schema).toOption,
        ∀ definition ∈ script.statements.flatMap Sql.Statement.tables,
          definition.name = "visit" → ∀ c ∈ definition.columns, c.isStamped = false := by
    decide +kernel
  obtain ⟨definition, hmem, htable, c, hc, -, hstamped⟩ :=
    h visits {} 3 noon .mysql noon expanded script (mem_toOption.1 hexpanded)
      (mem_toOption.1 hscript) t ht
  rw [hplain definition (Sql.Statement.mem_tables.2 hmem) (htable.trans hname) c hc] at hstamped
  exact Bool.false_ne_true hstamped

end Schemata
