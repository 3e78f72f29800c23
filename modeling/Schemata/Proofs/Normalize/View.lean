import Schemata.Proofs.Normalize.Junction
import Schemata.Proofs.Normalize.Key
import Schemata.Proofs.Sql.View

/-!
# Views of the junctions of normalized extractions

No two columns of a normalized table that a view shows have one name: the column that may repeat a
name is a key column (`nodup_shownNames_normalize`). So every junction of the expanded schema of an
extraction has a view, all of whose columns are there, and `views_normalize` says when their names
are distinct. They are not if the attribute of a relationship is called as a column of a side is
labelled (`not_nodup_outputs_enrollments`).
-/

namespace Schemata

open Normalize
open Sql (JunctionView ShownApart isShown)

namespace Table

variable {t owner : Table}

/-- Putting a column that is not shown behind another one changes nothing of what is shown. -/
theorem filter_insertAfter {p : Column → Bool} {c : Column} (hc : p c = false) (name : String)
    (columns : List Column) : (insertAfter name c columns).filter p = columns.filter p := by
  induction columns with
  | nil => rfl
  | cons d columns ih =>
    rw [insertAfter]
    split
    · rw [List.filter_cons, List.filter_cons, hc, if_neg Bool.false_ne_true, List.filter_cons]
    · rw [List.filter_cons, List.filter_cons, ih]

/-- Columns that are changed so that they are not shown any more only leave gaps. -/
theorem sublist_filter_isShown {f : Column → Column} {columns : List Column}
    (hf : ∀ c ∈ columns, f c = c ∨ isShown (f c) = false) :
    ((columns.map f).filter isShown).Sublist (columns.filter isShown) := by
  induction columns with
  | nil => exact .refl _
  | cons c columns ih =>
    obtain ⟨hc, hcolumns⟩ := List.forall_mem_cons.1 hf
    rw [List.map_cons, List.filter_cons, List.filter_cons]
    rcases hc with heq | hhidden
    · rw [heq]
      split
      · exact (ih hcolumns).cons_cons c
      · exact ih hcolumns
    · rw [hhidden, if_neg Bool.false_ne_true]
      split
      · exact (ih hcolumns).cons c
      · exact ih hcolumns

/-- A table that is identified through an owner shows no column that it did not show before. -/
theorem shownNames_withIdentifyingKey (t owner : Table) :
    ((t.withIdentifyingKey owner).1.shownNames).Sublist t.shownNames := by
  have howner : ((columnsWithOwner t.columns owner).filter isShown).Sublist
      (t.columns.filter isShown) := by
    rcases columnsWithOwner_cases t owner with ⟨-, heq⟩ | ⟨c, -, heq⟩ <;> rw [heq]
    · exact .refl _
    · refine sublist_filter_isShown fun d _ => ?_
      split
      · exact .inr rfl
      · exact .inl rfl
  refine List.Sublist.map _ ?_
  unfold withIdentifyingKey
  dsimp only
  split
  · exact howner
  · rw [filter_insertAfter rfl]
    exact howner

theorem Owned.shownNames {w : Table} {owners : List String} (h : t.Owned owners w) :
    w.shownNames.Sublist t.shownNames := by
  induction h with
  | refl => exact .refl _
  | step owner _ ih => exact (shownNames_withIdentifyingKey _ owner).trans ih

theorem shownNames_withContiguousKey (t : Table) :
    t.withContiguousKey.shownNames = t.shownNames := by
  have hkeys : (t.keyColumns.map t.settledKey).filter isShown = [] := by
    rw [List.filter_eq_nil_iff, List.forall_mem_map]
    intro c hc
    simp [isShown, (mem_keyColumns.1 hc).2]
  rw [shownNames, columns_withContiguousKey, List.filter_append, hkeys, List.nil_append,
    List.filter_filter, shownNames]
  refine congrArg _ (List.filter_congr fun c _ => ?_)
  cases hkey : c.isPrimaryKey <;> simp [isShown, hkey]

end Table

namespace Normalize

theorem shownNames_finish (small : ℤ) (tables : List Table) (t : Table) :
    (finish small tables t).shownNames = t.shownNames := by
  obtain ⟨f, hcolumns, hf⟩ := exists_finished small tables t
  have hshown : isShown ∘ f = isShown := by
    funext c
    simp only [Function.comp_apply, isShown, (hf c).isPrimaryKey_eq, (hf c).isForeignKey_eq,
      (hf c).name_eq]
  rw [Table.shownNames, hcolumns, List.filter_map, hshown, List.map_map]
  exact List.map_congr_left fun c _ => (hf c).name_eq

end Normalize

variable {e : Extraction} {heading : Heading} {small : ℤ} {now : Moment}

/-- No two columns that a view shows of a table have one name. -/
theorem nodup_shownNames_normalize {t : Table}
    (ht : t ∈ (e.normalize heading small now).schema.tables) : t.shownNames.Nodup := by
  obtain ⟨entity, p, w, hstages, rfl⟩ := Extraction.exists_stages_of_mem ht
  obtain ⟨owners, hrun, -⟩ := hstages.owners
  rw [shownNames_finish, Table.shownNames_withContiguousKey]
  have hplaced : p.shownNames.Nodup := (List.filter_sublist.map _).nodup hstages.distinct
  exact hrun.shownNames.nodup hplaced

/-- **The views of the junctions of an extraction.** Every junction of its expanded schema is made
for a relationship and has a view, whose columns are all there; their names are distinct just if the
columns of the two sides are shown apart. -/
theorem views_normalize (e : Extraction) (heading : Heading) (small : ℤ) (now : Moment) :
    let s := (e.normalize heading small now).schema
    ∃ expanded, s.expandManyToMany = .ok expanded ∧
      ∀ junction ∈ expanded.tables, junction.isJunctionTable = true →
        ∃ r ∈ s.relationships, ∃ source ∈ s.tables, ∃ target ∈ s.tables,
          source.name = r.sourceTable ∧ target.name = r.targetTable ∧
          junction = junctionTable r source target ∧
          ∃ view, JunctionView.of? expanded.tables junction = some view ∧
            view.IsGrounded expanded.tables ∧
            (view.outputs.Nodup ↔ ShownApart r source target) := by
  intro s
  have hclosed : s.Closed := closed_normalize e heading small now
  obtain ⟨expanded, hexpanded, -⟩ := hclosed.expandManyToMany
  obtain ⟨junctions, rfl, hjunctions⟩ := hclosed.tables_expandManyToMany hexpanded
  have hnames := Schema.nodup_expandManyToMany hclosed.tables.names hexpanded
  refine ⟨_, hexpanded, fun junction hmem hyes => ?_⟩
  have hmade : junction ∈ junctions := by
    refine (List.mem_append.1 hmem).resolve_left fun hside => ?_
    obtain ⟨t, ht, rfl⟩ := List.mem_map.1 hside
    rw [isJunctionTable_asSide, e.isJunctionTable_normalize heading small now t ht] at hyes
    contradiction
  obtain ⟨r, hr, source, hsource, target, htarget, hsourceName, htargetName, rfl⟩ :=
    hjunctions junction hmade
  have hside : ∀ t ∈ s.tables, asSide s.tableNames s.relationships t ∈
      (s.withJunctions junctions).tables := fun t ht =>
    List.mem_append_left _ (List.mem_map_of_mem ht)
  exact ⟨r, hr, source, hsource, target, htarget, hsourceName, htargetName,
    rfl, _, JunctionView.of?_junctionTable hnames (hside source hsource) (hside target htarget),
    Sql.isGrounded_junctionView hmem (hside source hsource) (hside target htarget)
      (hclosed.tables.keyed source hsource) (hclosed.tables.keyed target htarget),
    Sql.nodup_outputs_junctionView (nodup_shownNames_normalize hsource)
      (nodup_shownNames_normalize htarget)⟩

/-- People who follow others, since a day. -/
def following : Extraction where
  entities := [{ name := some "Person", attributes := [{ name := some "name" }] }]
  relationships :=
    [{ sourceEntity := some "Person", targetEntity := some "Person", type := some "MANY_TO_MANY"
       attributes := [{ name := some "since" }] }]

theorem views_following :
    let s := (following.normalize {} 3 { year := 2024, month := 1, day := 1 }).schema
    ∃ expanded, s.expandManyToMany = .ok expanded ∧ ∃ junction ∈ expanded.tables,
      ∃ view, JunctionView.of? expanded.tables junction = some view ∧
        view.IsGrounded expanded.tables ∧ view.outputs =
          ["person_id", "related_person_id", "since", "person_name", "related_person_name"] ∧
        ∃ source ∈ s.tables, ∃ target ∈ s.tables, ∃ r, ShownApart r source target := by
  intro s
  have hshown : ∀ expanded ∈ s.expandManyToMany.toOption, ∃ junction ∈ expanded.tables,
      junction.isJunctionTable = true ∧
        ∀ view ∈ JunctionView.of? expanded.tables junction, view.outputs =
          ["person_id", "related_person_id", "since", "person_name", "related_person_name"] := by
    decide +kernel
  obtain ⟨expanded, hexpanded, hviews⟩ := views_normalize following {} 3
    { year := 2024, month := 1, day := 1 }
  obtain ⟨junction, hjunction, hyes, houtputs⟩ := hshown expanded (mem_toOption.2 hexpanded)
  obtain ⟨r, -, source, hsource, target, htarget, -, -, -, view, hview, hgrounded, hnodup⟩ :=
    hviews junction hjunction hyes
  have houtput := houtputs view hview
  exact ⟨expanded, hexpanded, junction, hjunction, view, hview, hgrounded, houtput, source, hsource,
    target, htarget, r, hnodup.1 (houtput ▸ by decide)⟩

/-- Students who take courses, each under the name by which the course knows them. -/
def enrollments : Extraction where
  entities :=
    [{ name := some "Student", attributes := [{ name := some "name" }] },
     { name := some "Course", attributes := [{ name := some "title" }] }]
  relationships :=
    [{ sourceEntity := some "Student", targetEntity := some "Course", type := some "MANY_TO_MANY"
       attributes := [{ name := some "student_name" }] }]

/-- The name of a student is shown twice under one name. -/
theorem not_nodup_outputs_enrollments :
    let s := (enrollments.normalize {} 3 { year := 2024, month := 1, day := 1 }).schema
    ∃ expanded ∈ s.expandManyToMany.toOption, ∃ junction ∈ expanded.tables,
      junction.isJunctionTable = true ∧
        ∃ view ∈ JunctionView.of? expanded.tables junction, view.outputs =
          ["student_id", "course_id", "student_name", "student_name", "course_title"] ∧
          ¬view.outputs.Nodup := by
  decide +kernel

end Schemata
