import Schemata.Proofs.Schema.Expansion
import Schemata.Sql.View

/-!
# What the views of junctions show

The view of a junction shows the columns of the junction under their own names, and those of each
side under names that start with a label for the side. It mentions only columns that are there
(`JunctionView.IsGrounded`, `isGrounded_junctionView`).

Within the junction and within a side no name is given twice. So the names are distinct just if the
sides share no name with the junction or with each other (`nodup_outputs_junctionView`); nothing
keeps an attribute of a relationship from being called as a column of a side is labelled.
-/

namespace Schemata

namespace Table

/-- The names of the columns of a table that the view of a junction shows. -/
def shownNames (t : Table) : List String :=
  (t.columns.filter Sql.isShown).map (·.name)

theorem mem_shownNames {t : Table} {name : String} : name ∈ t.shownNames ↔
    ∃ c ∈ t.columns, Sql.isShown c = true ∧ c.name = name := by
  simp only [shownNames, List.mem_map, List.mem_filter, and_assoc]

theorem hasColumn_of_mem_shownNames {t : Table} {name : String} (h : name ∈ t.shownNames) :
    t.hasColumn name = true := by
  obtain ⟨c, hc, -, hname⟩ := mem_shownNames.1 h
  exact hasColumn_iff.2 ⟨c, hc, hname⟩

/-- The columns of a side that are shown are the same after its key has been marked. -/
theorem shownNames_asSide (names : List String) (rs : List Relationship) (t : Table) :
    (asSide names rs t).shownNames = t.shownNames := by
  rcases asSide_cases names rs t with heq | heq <;> rw [heq]
  obtain ⟨isUnique, hcolumns, -⟩ := t.exists_columns_referenceable
  have hshown : (Sql.isShown ∘ fun c : Column => { c with isUnique := isUnique c }) = Sql.isShown :=
    rfl
  rw [shownNames, hcolumns, List.filter_map, hshown, List.map_map]
  rfl

end Table

namespace Sql

variable {tables : List Table} {r : Relationship} {source target : Table}

/-- The label for the target of a junction, which is another one than that for the source. -/
def targetLabel (source target : Table) : String :=
  if source.name = target.name then "related_" ++ target.name else target.name

/-- The columns of a side that are shown, with their names behind a label. -/
def labelled (label : String) (side : Table) : List (String × String) :=
  side.shownNames.map fun name => (name, label ++ "_" ++ name)

/-- The view of the junction of two tables for a relationship. -/
def junctionView (r : Relationship) (source target : Table) : JunctionView where
  junction := junctionName source.name target.name
  columns := (junctionNames r source target).filter fun name => !stampNames.contains name
  source :=
    { letter := "s"
      table := source.name
      tableColumn := source.referencedKey.name
      junctionColumn := (junctionKeyNames source target).1
      columns := labelled source.name source }
  target :=
    { letter := "t"
      table := target.name
      tableColumn := target.referencedKey.name
      junctionColumn := (junctionKeyNames source target).2
      columns := labelled (targetLabel source target) target }

theorem ViewSide.of_eq {letter label : String} {c : Column} {reference : Reference}
    {side side' : Table} (hname : side'.name = side.name)
    (hshown : side'.shownNames = side.shownNames) :
    ViewSide.of letter label (c, reference, side') =
      { letter, table := side.name, tableColumn := reference.column, junctionColumn := c.name
        columns := labelled label side } := by
  have hcolumns : (side'.columns.filter isShown).map (fun c => (c.name, label ++ "_" ++ c.name)) =
      labelled label side := by
    rw [labelled, ← hshown, Table.shownNames, List.map_map]
    rfl
  simp only [ViewSide.of, hname, hcolumns]

/-- **A junction has a view** wherever its sides are found, which may have been marked since. -/
theorem JunctionView.of?_junctionTable (h : (tables.map (·.name)).Nodup) {names : List String}
    {rs : List Relationship} (hsource : asSide names rs source ∈ tables)
    (htarget : asSide names rs target ∈ tables) :
    JunctionView.of? tables (junctionTable r source target) = some (junctionView r source target) := by
  have hfound : ∀ {side : Table}, asSide names rs side ∈ tables →
      tables.find? (·.name == side.name) = some (asSide names rs side) := by
    intro side hside
    rw [← name_asSide names rs side]
    exact find?_name h hside
  have hsides : referredSides tables (junctionTable r source target) =
      [(junctionKey (junctionKeyNames source target).1 source, source.reference,
          asSide names rs source),
        (junctionKey (junctionKeyNames source target).2 target, target.reference,
          asSide names rs target)] := by
    rw [referredSides, keyColumns_junctionTable]
    simp [junctionKey, Table.foreignKeyColumn, Table.reference, hfound hsource, hfound htarget]
  have hcolumns : ((junctionTable r source target).columns.map (·.name)).filter
      (fun name => !stampNames.contains name) =
        (junctionNames r source target).filter fun name => !stampNames.contains name := by
    have hstamps : stampNames.filter (fun name => !stampNames.contains name) = [] := by decide
    rw [← Table.columnNames, columnNames_junctionTable, List.filter_append, hstamps, List.append_nil]
  rw [JunctionView.of?, hsides]
  simp only [name_asSide, hcolumns, ViewSide.of_eq (name_asSide names rs source)
    (Table.shownNames_asSide names rs source), ViewSide.of_eq (name_asSide names rs target)
      (Table.shownNames_asSide names rs target)]
  rfl

/-! ## Columns -/

/-- Every column that a view mentions is one of the table for which its letter stands. -/
structure JunctionView.IsGrounded (tables : List Table) (v : JunctionView) : Prop where
  /-- The columns of the junction that are shown or joined are there. -/
  junction : ∃ t ∈ tables, t.name = v.junction ∧ (∀ name ∈ v.columns, t.hasColumn name = true) ∧
    t.hasColumn v.source.junctionColumn = true ∧ t.hasColumn v.target.junctionColumn = true
  /-- The columns of the sides that are shown or joined are there. -/
  side : ∀ side ∈ [v.source, v.target], ∃ t ∈ tables, t.name = side.table ∧
    t.hasColumn side.tableColumn = true ∧ ∀ shown ∈ side.columns, t.hasColumn shown.1 = true

theorem isGrounded_junctionView {names : List String} {rs : List Relationship}
    (hjunction : junctionTable r source target ∈ tables) (hsource : asSide names rs source ∈ tables)
    (htarget : asSide names rs target ∈ tables) (hsourceKeyed : source.keyColumns ≠ [])
    (htargetKeyed : target.keyColumns ≠ []) :
    (junctionView r source target).IsGrounded tables := by
  have hcolumn : ∀ name ∈ junctionNames r source target,
      (junctionTable r source target).hasColumn name = true := by
    intro name hname
    rw [← Table.mem_columnNames, columnNames_junctionTable]
    exact List.mem_append_left _ hname
  have hside : ∀ {label : String} {side : Table}, asSide names rs side ∈ tables →
      side.keyColumns ≠ [] → ∃ t ∈ tables, t.name = side.name ∧
        t.hasColumn side.referencedKey.name = true ∧
          ∀ shown ∈ labelled label side, t.hasColumn shown.1 = true := by
    intro label side hside hkeyed
    have hkeeps : ∀ name, side.hasColumn name = true →
        (asSide names rs side).hasColumn name = true := by
      intro name hname
      rwa [← Table.mem_columnNames, columnNames_asSide, Table.mem_columnNames]
    refine ⟨_, hside, name_asSide names rs side, hkeeps _ (Table.hasColumn_referencedKey hkeyed), ?_⟩
    intro shown hshown
    obtain ⟨name, hname, rfl⟩ := List.mem_map.1 hshown
    exact hkeeps name (Table.hasColumn_of_mem_shownNames hname)
  refine ⟨⟨_, hjunction, rfl, fun name hname => hcolumn name (List.mem_filter.1 hname).1,
    hcolumn _ (by simp [junctionView, junctionNames]),
    hcolumn _ (by simp [junctionView, junctionNames])⟩, ?_⟩
  simp only [List.forall_mem_cons, List.not_mem_nil, false_implies, implies_true, and_true]
  exact ⟨hside hsource hsourceKeyed, hside htarget htargetKeyed⟩

/-! ## Names -/

/-- The names of the columns of the query, in order. -/
def JunctionView.outputs (v : JunctionView) : List String :=
  v.columns ++ v.source.columns.map (·.2) ++ v.target.columns.map (·.2)

/-- The columns of the sides of a junction are shown under names that no column of the junction has,
the moments of the row apart, and that the other side does not give. -/
structure ShownApart (r : Relationship) (source target : Table) : Prop where
  ofSource : ∀ name ∈ source.shownNames, ∀ other ∈ junctionNames r source target,
    other = source.name ++ "_" ++ name → other ∈ stampNames
  ofTarget : ∀ name ∈ target.shownNames, ∀ other ∈ junctionNames r source target,
    other = targetLabel source target ++ "_" ++ name → other ∈ stampNames
  ofSides : ∀ name ∈ source.shownNames, ∀ other ∈ target.shownNames,
    source.name ++ "_" ++ name ≠ targetLabel source target ++ "_" ++ other

theorem mem_labels {label shown : String} {side : Table} :
    shown ∈ (labelled label side).map (·.2) ↔
      ∃ name ∈ side.shownNames, label ++ "_" ++ name = shown := by
  simp only [labelled, List.map_map, List.mem_map, Function.comp_apply]

theorem nodup_labels {side : Table} (h : side.shownNames.Nodup) (label : String) :
    ((labelled label side).map (·.2)).Nodup := by
  rw [labelled, List.map_map]
  exact h.map fun name other heq => (String.append_right_inj _).1 heq

/-- The columns of a junction have other names than those of a side just if only moments of the row
are called as a column of the side is labelled. -/
theorem disjoint_columns_labels {label : String} {side : Table} :
    List.Disjoint (junctionView r source target).columns ((labelled label side).map (·.2)) ↔
      ∀ name ∈ side.shownNames, ∀ other ∈ junctionNames r source target,
        other = label ++ "_" ++ name → other ∈ stampNames := by
  constructor
  · rintro h name hname other hother rfl
    by_contra hfree
    exact h (List.mem_filter.2 ⟨hother, by simpa using hfree⟩) (mem_labels.2 ⟨name, hname, rfl⟩)
  · intro h other hother hshown
    obtain ⟨name, hname, heq⟩ := mem_labels.1 hshown
    obtain ⟨hother, hfree⟩ := List.mem_filter.1 hother
    rw [List.contains_iff_mem.2 (h name hname other hother heq.symm)] at hfree
    contradiction

theorem disjoint_labels_labels {label label' : String} {side side' : Table} :
    List.Disjoint ((labelled label side).map (·.2)) ((labelled label' side').map (·.2)) ↔
      ∀ name ∈ side.shownNames, ∀ other ∈ side'.shownNames,
        label ++ "_" ++ name ≠ label' ++ "_" ++ other := by
  constructor
  · intro h name hname other hother heq
    exact h (mem_labels.2 ⟨name, hname, rfl⟩) (mem_labels.2 ⟨other, hother, heq.symm⟩)
  · intro h shown hshown hshown'
    obtain ⟨name, hname, rfl⟩ := mem_labels.1 hshown
    obtain ⟨other, hother, heq⟩ := mem_labels.1 hshown'
    exact h name hname other hother heq.symm

/-- **The names of the columns of a view are distinct** just if the columns of the sides are shown
apart. -/
theorem nodup_outputs_junctionView (hsource : source.shownNames.Nodup)
    (htarget : target.shownNames.Nodup) :
    (junctionView r source target).outputs.Nodup ↔ ShownApart r source target := by
  have hcolumns : (junctionView r source target).columns.Nodup :=
    (nodup_junctionNames r source target).filter fun name => !stampNames.contains name
  rw [JunctionView.outputs, List.append_assoc, List.nodup_append', List.nodup_append',
    List.disjoint_append_right]
  constructor
  · rintro ⟨-, ⟨-, -, hsides⟩, hs, ht⟩
    exact ⟨disjoint_columns_labels.1 hs, disjoint_columns_labels.1 ht,
      disjoint_labels_labels.1 hsides⟩
  · rintro ⟨hs, ht, hsides⟩
    exact ⟨hcolumns, ⟨nodup_labels hsource _, nodup_labels htarget _,
      disjoint_labels_labels.2 hsides⟩, disjoint_columns_labels.2 hs, disjoint_columns_labels.2 ht⟩

end Sql

end Schemata
