import Schemata.Proofs.Docs.Link
import Schemata.Proofs.Normalize.Contract

/-!
# Links in the documentation of normalized extractions

The names of the tables of a normalized extraction are plain, so that they are the names of the
places of their sections (`Docs.sectionAnchor_of_plain`), and no two tables have one name. But the
sections about the schema as a whole have places too: `links_normalize` says that the places of a
page have different names, and that the links to a section lead to it alone, just if no table is
called as one of these sections. A table of notes is (`not_nodup_places_notes`).
-/

namespace Schemata

namespace Docs

theorem sectionAnchor_of_plain {name : String} (h : Plain name) : sectionAnchor name = name := by
  have hblank : ∀ c ∈ name.toList, Text.isBlank c = false := fun c hc =>
    Text.isBlank_of_isWord (Text.isWord_of_isSnake (h c hc))
  rw [sectionAnchor, Text.lower_of_isSnake h, Text.replaceRuns_of_forall hblank,
    String.ofList_toList]

/-- The places of sections about schemas as a whole whose names can be names of tables. -/
def clashingNames : List String :=
  ["tables", "relationships", "notes"]

theorem mem_clashingNames_iff {name : String} (h : Plain name) :
    name ∈ clashingNames ↔ name ∈ generalSections.map (·.1) := by
  have hdiagram : name ≠ "er-diagram" := by
    rintro rfl
    exact absurd (h '-' (by decide)) (by decide)
  simp [clashingNames, generalSections, hdiagram]

/-- What the tables of a schema are called decides what is made of the sections of its page. -/
theorem sections_of {α : Type} {s : Schema} (h : ∀ t ∈ s.tables, Plain t.name) (now : Moment)
    (general : String × String → α) (table : String → String → α) :
    (Document.of s now).sections general (fun t => table t.anchor t.name) =
      (generalSections.take 1).map general ++ s.tableNames.map (fun name => table name name)
        ++ (generalSections.drop 1).map general := by
  have htables : (Document.of s now).tables.map (fun t => table t.anchor t.name) =
      s.tableNames.map fun name => table name name := by
    have hfacts : (Document.of s now).tables = s.tables.map .of := rfl
    rw [hfacts, Schema.tableNames, List.map_map, List.map_map]
    refine List.map_congr_left fun t ht => ?_
    exact congrArg (table · t.name) (sectionAnchor_of_plain (h t ht))
  rw [Document.sections, htables]

end Docs

open Docs

theorem count_append_eq_one_iff {names others : List String} (hothers : others.Nodup)
    {name : String} (hname : name ∈ others) : (names ++ others).count name = 1 ↔ name ∉ names := by
  rw [List.count_append, List.count_eq_one_of_mem hothers hname, ← List.count_eq_zero]
  omega

/-- **Where the links of a page lead.** The places of a page have different names, and the links to
a section lead to it alone, just if no table is called as a section about the schema as a whole. -/
theorem links_normalize (e : Extraction) (heading : Heading) (small : ℤ) (now later : Moment) :
    let s := (e.normalize heading small now).schema
    let page := readMarkup (Document.of s later).html.toList
    page.links = Anchor.link "tables" "Tables" :: s.tableNames.map (fun name => Anchor.link name name)
        ++ [Anchor.link "relationships" "Relationships", .link "er-diagram" "ER Diagram",
          .link "notes" "Notes"] ∧
      page.places = Anchor.place "tables" "Tables"
        :: s.tableNames.map (fun name => Anchor.place name (name ++ " "))
        ++ [Anchor.place "relationships" "Relationships", .place "er-diagram" "ER Diagram",
          .place "notes" "Notes"] ∧
      ((page.places.map (·.value)).Nodup ↔ ∀ name ∈ s.tableNames, name ∉ clashingNames) ∧
      (∀ name ∈ s.tableNames,
        page.targets (.link name name) = [.place name (name ++ " ")] ↔ name ∉ clashingNames) ∧
      ∀ g ∈ generalSections,
        page.targets (.link g.1 g.2) = [.place g.1 g.2] ↔ g.1 ∉ s.tableNames := by
  intro s page
  have hsound := Normalize.tablesAndRelationships_spec small e
  have hplain : ∀ t ∈ s.tables, Plain t.name := hsound.linked.plain
  have hnames : ∀ name ∈ s.tableNames, name ∈ clashingNames ↔ name ∈ generalSections.map (·.1) := by
    intro name hname
    obtain ⟨t, ht, rfl⟩ := List.mem_map.1 hname
    exact mem_clashingNames_iff (hplain t ht)
  have hdistinct : s.tableNames.Nodup := hsound.linked.names
  have hgeneral : (generalSections.map (·.1)).Nodup := by decide
  have hlinks : page.links = _ := (Document.links_html _).trans
    (sections_of hplain later (fun g => Anchor.link g.1 g.2) Anchor.link)
  have hplaces : page.places = _ := (Document.places_html _).trans
    (sections_of hplain later (fun g => Anchor.place g.1 g.2)
      fun anchor name => Anchor.place anchor (name ++ " "))
  have hvalues : (page.places.map (·.value)).Perm
      (generalSections.map (·.1) ++ s.tableNames) := by
    have hsections := sections_of hplain later (·.1) fun anchor _ => anchor
    rw [List.map_id'] at hsections
    rw [Document.values_places, hsections, List.append_assoc]
    exact (List.perm_append_comm.append_left _).trans (.of_eq (List.append_assoc ..).symm)
  refine ⟨hlinks, hplaces, ?_, fun name hname => ?_, fun g hg => ?_⟩
  · rw [hvalues.nodup_iff, List.nodup_append']
    exact ⟨fun h name hname hclash => h.2.2 ((hnames name hname).1 hclash) hname,
      fun h => ⟨hgeneral, hdistinct, fun name hclash hname => h name hname
        ((hnames name hname).2 hclash)⟩⟩
  · have hplace : Anchor.place name (name ++ " ") ∈ page.places := by
      rw [hplaces]
      exact List.mem_append_left _ (List.mem_append_right _ (List.mem_map_of_mem hname))
    rw [Markup.targets_eq_singleton_iff hplace, hvalues.count_eq,
      count_append_eq_one_iff hdistinct hname, hnames name hname]
  · have hplace : Anchor.place g.1 g.2 ∈ page.places := by
      rw [hplaces]
      have hparts : g ∈ generalSections.take 1 ++ generalSections.drop 1 := hg
      rcases List.mem_append.1 hparts with hg | hg
      · exact List.mem_append_left _ (List.mem_append_left _ (List.mem_map_of_mem hg))
      · exact List.mem_append_right _ (List.mem_map_of_mem hg)
    rw [Markup.targets_eq_singleton_iff hplace, (hvalues.trans List.perm_append_comm).count_eq,
      count_append_eq_one_iff hgeneral (List.mem_map_of_mem hg)]

/-- Notes, of which a table is made. -/
def noteTaking : Extraction where
  entities := [{ name := some "Notes" }]

/-- The places of a page need not have different names: a table of notes has the place of the
section of notes. -/
theorem not_nodup_places_notes :
    ¬∀ (e : Extraction) (heading : Heading) (small : ℤ) (now later : Moment),
      ((readMarkup (Document.of (e.normalize heading small now).schema later).html.toList).places.map
        (·.value)).Nodup := by
  intro h
  have hnodup := h noteTaking {} 3 { year := 2024, month := 1, day := 1 }
    { year := 2024, month := 1, day := 1 }
  have hplain := (Normalize.tablesAndRelationships_spec 3 noteTaking).linked.plain
  have hnames : (noteTaking.normalize {} 3 { year := 2024, month := 1, day := 1 }).schema.tableNames =
      ["notes"] := by
    decide +kernel
  rw [Document.values_places, sections_of hplain _ (·.1) fun anchor _ => anchor, hnames] at hnodup
  exact absurd hnodup (by decide)

end Schemata
