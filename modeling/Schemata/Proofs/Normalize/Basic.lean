import Schemata.Proofs.Normalize.Stage

/-!
# The foreign keys of a normalized extraction

`Normalize.tablesAndRelationships_spec` puts the stages together: the tables of a normalized
extraction are linked, consistent and settled, and the relationships join them. The foreign keys are
told exactly by `foreignKeys_normalize`: they are those that an entity declares, those that
relationships hold, and those through which relationships identify.
-/

namespace Schemata

namespace Normalize

/-- What holds of the tables and relationships made for entities. -/
structure Sound (entities : List Extraction.Entity) (tables : List Table)
    (relationships : List Relationship) : Prop where
  linked : Linked tables
  consistent : Consistent tables
  settled : Settled tables
  joins : ∀ r ∈ relationships, r.Joins (tables.map (·.name))
  changes : ∃ built, List.Forall₂ Built entities built ∧
    Changes (fun table column => ∃ r ∈ relationships, r.Holds table column ∨
      r.Identifies table column) (resolveDeclared built).value tables

variable {entities : List Extraction.Entity} {tables : List Table}
  {relationships : List Relationship}

/-- **What the passes make of an extraction.** -/
theorem tablesAndRelationships_spec (small : ℤ) (e : Extraction) :
    Sound e.entities (tablesAndRelationships small e).value.1
      (tablesAndRelationships small e).value.2 := by
  obtain ⟨-, hjoins, hholds⟩ := e.placed_spec
  obtain ⟨-, hidentifies⟩ := e.identified_spec
  obtain ⟨⟨hlinked, hconsistent⟩, hcontiguous⟩ := e.ordered_spec
  obtain ⟨⟨hlinked, hconsistent⟩, hsettled, hretarget⟩ := retarget_spec hlinked hconsistent
  obtain ⟨⟨hlinked, hconsistent⟩, hsettled, hlookups⟩ :=
    detectLookups_spec small hlinked hconsistent hsettled
  have hafter := ((hidentifies.trans hcontiguous).trans hretarget).trans hlookups
  refine ⟨hlinked, hconsistent, hsettled, fun r hr => ?_, e.built,
    (buildTables_spec e.entities).2, (hholds.trans hafter).congr fun table column => ?_⟩
  · have hnames_eq := hafter.names_eq
    exact hnames_eq ▸ hjoins r hr
  · simp only [or_false, ← exists_or, ← and_or_left]
    rfl

/-- The tables are those of the entities, in order, and have the foreign keys that were declared and
those of the relationships. -/
theorem Sound.hasForeignKey (h : Sound entities tables relationships) :
    tables.length = entities.length ∧ ∀ (i : ℕ) (t : Table) (entity : Extraction.Entity),
      tables[i]? = some t → entities[i]? = some entity → ∀ u ∈ tables,
        (t.HasForeignKey (foreignKeyName u.name) ↔ entity.Declares (foreignKeyName u.name) ∨
          ∃ r ∈ relationships, r.Holds t.name (foreignKeyName u.name) ∨
            r.Identifies t.name (foreignKeyName u.name)) := by
  obtain ⟨built, hbuilt, f, htables, hf⟩ := h.changes
  rw [value_resolveDeclared] at htables hf
  have hnames : tables.map (·.name) = built.map (·.name) := by
    rw [htables, map_name fun t ht => (hf t ht).1]
    exact map_name fun t _ => rfl
  refine ⟨?_, fun i t entity ht hentity u hu => ?_⟩
  · rw [htables, List.length_map, List.length_map, hbuilt.length_eq]
  · rw [htables, List.getElem?_map, List.getElem?_map] at ht
    cases hb : built[i]? with
    | none => simp [hb] at ht
    | some b =>
      have hmem : b ∈ built := List.mem_of_getElem? hb
      obtain ⟨hi, rfl⟩ := List.getElem?_eq_some_iff.1 hb
      obtain ⟨hi', rfl⟩ := List.getElem?_eq_some_iff.1 hentity
      have hentry : Built entities[i] built[i] := hbuilt.get hi' hi
      rw [hb] at ht
      obtain rfl := Option.some.inj ht
      obtain ⟨v, hv, hname⟩ : ∃ v ∈ built, v.name = u.name :=
        List.mem_map.1 (hnames ▸ List.mem_map_of_mem hu)
      obtain ⟨hname', hkeys⟩ := hf _ (List.mem_map_of_mem hmem)
      rw [hkeys, hname', hasForeignKey_resolved hentry.fresh, hentry.hasForeignKey, and_iff_left]
      · exact ⟨v, hv, by rw [hname]⟩
      · intro w hw
        exact (exists_entity hbuilt hw).elim fun _ h => h.plain

/-- A foreign key of sound tables is called after the table it leads to, and leads to its
`referencedKey` if the key of that table has a column of its own. -/
theorem Sound.references (h : Sound entities tables relationships) {t : Table} (ht : t ∈ tables)
    {c : Column} (hc : c ∈ t.columns) (hkey : c.isForeignKey = true) :
    ∃ r, c.references = some r ∧ ∃ u ∈ tables, r.table = u.name ∧ c.name = foreignKeyName u.name ∧
      ((u.keyColumns.length = 1 ∨ ∃ k ∈ u.keyColumns, k.isForeignKey = false) →
        r.column = u.referencedKey.name) := by
  have hsome : c.references.isSome = true := (h.consistent t ht c hc).symm.trans hkey
  obtain ⟨r, hr⟩ := Option.isSome_iff_exists.1 hsome
  obtain ⟨u, hu, htable, -, hname, -⟩ := h.linked.reaches t ht c hc r hr
  exact ⟨r, hr, u, hu, htable, hname, h.settled t ht c hc r hr u hu htable⟩

/-- The names of sound relationships are those of tables, so that the name of a foreign key tells
which table it belongs to. -/
theorem Sound.foreignKeyName_inj (h : Sound entities tables relationships) {r : Relationship}
    (hr : r ∈ relationships) {u : Table} (hu : u ∈ tables) :
    (foreignKeyName u.name = foreignKeyName r.sourceTable ↔ r.sourceTable = u.name) ∧
      (foreignKeyName u.name = foreignKeyName r.referenced ↔ r.referenced = u.name) := by
  have hplain : ∀ name ∈ tables.map (·.name), Plain name := by
    simpa only [List.forall_mem_map] using h.linked.plain
  obtain ⟨hsource, htarget⟩ := h.joins r hr
  refine ⟨?_, ?_⟩
  · rw [Schemata.foreignKeyName_inj (h.linked.plain u hu) (hplain _ hsource), eq_comm]
  · have hreferenced : r.referenced ∈ tables.map (·.name) := by
      unfold Relationship.referenced
      split
      · exact htarget
      · exact hsource
    rw [Schemata.foreignKeyName_inj (h.linked.plain u hu) (hplain _ hreferenced), eq_comm]

theorem Sound.holds_iff (h : Sound entities tables relationships) {r : Relationship}
    (hr : r ∈ relationships) {u : Table} (hu : u ∈ tables) (table : String) :
    r.Holds table (foreignKeyName u.name) ↔
      r.kind ≠ .manyToMany ∧ r.holder = table ∧ r.referenced = u.name := by
  rw [Relationship.Holds, (h.foreignKeyName_inj hr hu).2]

theorem Sound.identifies_iff (h : Sound entities tables relationships) {r : Relationship}
    (hr : r ∈ relationships) {t u : Table} (ht : t ∈ tables) (hu : u ∈ tables) :
    r.Identifies t.name (foreignKeyName u.name) ↔
      r.isIdentifying = true ∧ r.sourceTable = u.name ∧ r.targetTable = t.name ∧ u ≠ t := by
  rw [Relationship.Identifies, (h.foreignKeyName_inj hr hu).1]
  constructor
  · rintro ⟨hidentifying, hne, htarget, hsource⟩
    refine ⟨hidentifying, hsource, htarget, ?_⟩
    rintro rfl
    exact hne (hsource.trans htarget.symm)
  · rintro ⟨hidentifying, hsource, htarget, hne⟩
    refine ⟨hidentifying, fun heq => hne (h.linked.eq_of_name hu ht ?_), htarget, hsource⟩
    rw [← hsource, heq, htarget]

end Normalize

/-- **The foreign keys of a normalized extraction.** The tables are those of the entities, in order.
A table has a foreign key called after a table `u` just if its entity declares it, or a relationship
that is kept holds it there, or one identifies its rows through `u`. The reference in a foreign key
leads to the table that it is called after, and there to the `referencedKey` if the key is a single
column or has a member that is no reference. -/
theorem foreignKeys_normalize (e : Extraction) (heading : Heading) (small : ℤ) (now : Moment) :
    let s := (e.normalize heading small now).schema
    s.tables.length = e.entities.length ∧
      ∀ (i : ℕ) (t : Table) (entity : Extraction.Entity), s.tables[i]? = some t →
        e.entities[i]? = some entity →
        (∀ u ∈ s.tables, t.HasForeignKey (u.name ++ "_id") ↔
          entity.Declares (u.name ++ "_id") ∨
          (∃ r ∈ s.relationships,
            r.kind ≠ .manyToMany ∧ r.holder = t.name ∧ r.referenced = u.name) ∨
          ∃ r ∈ s.relationships, r.isIdentifying = true ∧ r.sourceTable = u.name ∧
            r.targetTable = t.name ∧ u ≠ t) ∧
        ∀ c ∈ t.columns, c.isForeignKey = true → ∃ r, c.references = some r ∧
          ∃ u ∈ s.tables, r.table = u.name ∧ c.name = u.name ++ "_id" ∧
            ((u.keyColumns.length = 1 ∨ ∃ k ∈ u.keyColumns, k.isForeignKey = false) →
              r.column = u.referencedKey.name) := by
  intro s
  have h : Normalize.Sound e.entities s.tables s.relationships :=
    Normalize.tablesAndRelationships_spec small e
  have hplain : ∀ u ∈ s.tables, foreignKeyName u.name = u.name ++ "_id" :=
    fun u hu => foreignKeyName_of_plain (h.linked.plain u hu)
  refine ⟨h.hasForeignKey.1, fun i t entity ht hentity => ⟨fun u hu => ?_, fun c hc hkey => ?_⟩⟩
  · have hmem : t ∈ s.tables := List.mem_of_getElem? ht
    rw [← hplain u hu, h.hasForeignKey.2 i t entity ht hentity u hu]
    simp only [and_or_left, exists_or]
    refine or_congr_right (or_congr ?_ ?_)
    · exact exists_congr fun r => and_congr_right fun hr => h.holds_iff hr hu t.name
    · exact exists_congr fun r => and_congr_right fun hr => h.identifies_iff hr hmem hu
  · obtain ⟨r, hr, u, hu, htable, hname, hcolumn⟩ := h.references (List.mem_of_getElem? ht) hc hkey
    exact ⟨r, hr, u, hu, htable, hname.trans (hplain u hu), hcolumn⟩

/-- Books that refer to their authors, copies that are identified through their books, and genres
that are joined with books. -/
def library : Extraction where
  entities :=
    [{ name := some "Author" }, { name := some "Book" }, { name := some "Copy" },
     { name := some "Genre" }]
  relationships :=
    [{ sourceEntity := some "Book", targetEntity := some "Author", type := some "many_to_one" },
     { sourceEntity := some "Book", targetEntity := some "Copy", isIdentifying := true },
     { sourceEntity := some "Book", targetEntity := some "Genre", type := some "many_to_many" }]

theorem foreignKeys_library :
    let s := (library.normalize {} 3 { year := 2024, month := 1, day := 1 }).schema
    ∃ t, s.tables[1]? = some t ∧ t.HasForeignKey "author_id" ∧
      ∃ c ∈ t.columns, c.name = "author_id" ∧ ∃ r, c.references = some r ∧
        ∃ u ∈ s.tables, r.table = u.name ∧ c.name = u.name ++ "_id" := by
  intro s
  have ⟨hnames, hholds⟩ : s.tables.map (·.name) = ["author", "book", "copy", "genre"] ∧
      ∃ r ∈ s.relationships,
        r.kind ≠ .manyToMany ∧ r.holder = "book" ∧ r.referenced = "author" := by
    decide +kernel
  have hlength : s.tables.length = 4 := by rw [← List.length_map, hnames]; rfl
  have hname : ∀ (i : ℕ) (hi : i < s.tables.length), ["author", "book", "copy", "genre"][i]? =
      some s.tables[i].name := by
    intro i hi
    rw [← hnames, List.getElem?_map, List.getElem?_eq_getElem hi, Option.map_some]
  have h0 : "author" = s.tables[0].name := Option.some.inj (hname 0 (by omega))
  have h1 : "book" = s.tables[1].name := Option.some.inj (hname 1 (by omega))
  have htable : s.tables[1]? = some s.tables[1] := List.getElem?_eq_getElem (by omega)
  obtain ⟨hkeys, hreferences⟩ := (foreignKeys_normalize library {} 3 _).2 1 _ _ htable rfl
  have hkey : s.tables[1].HasForeignKey "author_id" := by
    have hauthor := (hkeys s.tables[0] (List.getElem_mem _)).2
    rw [← h0, ← h1] at hauthor
    exact hauthor (.inr (.inl hholds))
  refine ⟨_, htable, hkey, ?_⟩
  obtain ⟨c, hc, hforeign, hname⟩ := hkey
  obtain ⟨r, hr, u, hu, htable, hcolumn, -⟩ := hreferences c hc hforeign
  exact ⟨c, hc, hname, r, hr, u, hu, htable, hcolumn⟩

end Schemata
