import Schemata.Proofs.Schema.Check
import Schemata.Schema.Junction

/-!
# Closed schemas and their junctions

In `Closed` tables every reference leads to a column that is there. Together with relationships
between tables that are there (`Schema.Closed`) this is what a schema is checked for
(`Schema.Closed.check`). Making junctions of the many-to-many relationships of a closed schema
succeeds and gives a closed schema (`Schema.Closed.expandManyToMany`).

`Expands` says all that a relationship does to tables, and `ExpandsAll` what a list of them does;
where tables have distinct names this is what is computed (`expandRelationship_eq_ok`,
`expandRelationships_eq_ok`). What tables keep is shown for `Expands`, one relationship at a time,
and then holds of a schema (`ExpandsAll.keeps`).
-/

namespace Schemata

/-- Tables of distinct names that have keys, and whose references lead to one another. -/
structure Closed (tables : List Table) : Prop where
  names : (tables.map (·.name)).Nodup
  keyed : ∀ t ∈ tables, t.keyColumns ≠ []
  consistent : ∀ t ∈ tables, ∀ c ∈ t.columns, c.IsConsistent
  resolves : ∀ t ∈ tables, ∀ c ∈ t.columns, ∀ r, c.references = some r →
    ∃ u ∈ tables, u.name = r.table ∧ u.hasColumn r.column = true

/-- Both sides of the relationship are among the names of tables. -/
def Relationship.Joins (r : Relationship) (names : List String) : Prop :=
  r.sourceTable ∈ names ∧ r.targetTable ∈ names

theorem Relationship.Joins.mono {r : Relationship} {names names' : List String}
    (h : r.Joins names) (hsub : names ⊆ names') : r.Joins names' :=
  ⟨hsub h.1, hsub h.2⟩

/-- A schema of closed tables and of relationships between them. -/
structure Schema.Closed (s : Schema) : Prop where
  tables : Schemata.Closed s.tables
  joins : ∀ r ∈ s.relationships, r.Joins s.tableNames

variable {tables : List Table}

theorem map_name {f : Table → Table} (hf : ∀ t ∈ tables, (f t).name = t.name) :
    (tables.map f).map (·.name) = tables.map (·.name) := by
  rw [List.map_map]
  exact List.map_congr_left hf

/-- Of tables of distinct names, the one of a name is found by it. -/
theorem find?_name (h : (tables.map (·.name)).Nodup) {t : Table} (ht : t ∈ tables) :
    tables.find? (·.name == t.name) = some t := by
  have hsome : (tables.find? (·.name == t.name)).isSome = true :=
    List.find?_isSome.2 ⟨t, ht, by simp⟩
  obtain ⟨u, hu⟩ := Option.isSome_iff_exists.1 hsome
  have hname : u.name = t.name := by simpa using List.find?_some hu
  rw [hu, List.inj_on_of_nodup_map h (List.mem_of_find?_eq_some hu) ht hname]

/-- Of tables of distinct names, the one of a name is found in any order. -/
theorem find?_perm {tables' : List Table} (h : (tables.map (·.name)).Nodup)
    (hperm : tables.Perm tables') (name : String) :
    tables.find? (·.name == name) = tables'.find? (·.name == name) := by
  cases hfind : tables'.find? (·.name == name) with
  | none =>
    rw [List.find?_eq_none] at hfind ⊢
    exact fun t ht => hfind t (hperm.subset ht)
  | some t =>
    obtain rfl : t.name = name := by simpa using List.find?_some hfind
    exact find?_name h (hperm.mem_iff.2 (List.mem_of_find?_eq_some hfind))

/-! ## The check -/

theorem Closed.eq_of_name (h : Closed tables) {t u : Table} (ht : t ∈ tables) (hu : u ∈ tables)
    (hname : t.name = u.name) : t = u :=
  List.inj_on_of_nodup_map h.names ht hu hname

/-- A foreign key of closed tables is in order. -/
theorem Closed.resolves_of_isForeignKey (h : Closed tables) {t : Table} (ht : t ∈ tables)
    {c : Column} (hc : c ∈ t.columns) (hforeign : c.isForeignKey = true) : c.Resolves tables := by
  have hconsistent := h.consistent t ht c hc
  rw [Column.IsConsistent, hforeign] at hconsistent
  obtain ⟨r, hr⟩ := Option.isSome_iff_exists.1 hconsistent.symm
  exact (Column.resolves_iff h.names).2 ⟨r, hr, h.resolves t ht c hc r hr⟩

/-- **Closed schemas pass the check.** -/
theorem Schema.Closed.check {s : Schema} (h : s.Closed) : s.check = .ok () :=
  check_eq_ok.2 ⟨fun _ ht _ hc hforeign => h.tables.resolves_of_isForeignKey ht hc hforeign, h.joins⟩

theorem mem_foreignKeys {t : Table} {key : Column × Reference} : key ∈ t.foreignKeys ↔
    key.1 ∈ t.columns ∧ key.1.isForeignKey = true ∧ key.1.references = some key.2 := by
  obtain ⟨c, r⟩ := key
  simp only [Table.foreignKeys, List.mem_filterMap, Option.map_eq_some_iff, Prod.mk.injEq]
  constructor
  · rintro ⟨d, hd, _, hkey, rfl, rfl⟩
    rw [Column.foreignKey?, Option.ite_none_right_eq_some] at hkey
    exact ⟨hd, hkey⟩
  · rintro ⟨hc, hforeign, hr⟩
    exact ⟨c, hc, r, by rw [Column.foreignKey?, if_pos hforeign, hr], rfl, rfl⟩

/-- The foreign keys of a schema that passes the check refer to tables of the schema. -/
theorem Schema.mem_tableNames_of_check {s : Schema} (h : s.check = .ok ()) {t : Table}
    (ht : t ∈ s.tables) {key : Column × Reference} (hkey : key ∈ t.foreignKeys) :
    key.2.table ∈ s.tableNames := by
  obtain ⟨hc, hforeign, hr⟩ := mem_foreignKeys.1 hkey
  obtain ⟨r, hr', u, ⟨hname, before, after, htables, -⟩, -⟩ := (check_eq_ok.1 h).1 t ht _ hc hforeign
  obtain rfl := Option.some.inj (hr.symm.trans hr')
  exact List.mem_map.2 ⟨u, by simp [htables], hname⟩

/-! ## Where references lead -/

/-- Every reference of the tables leads to one of them of which, and of the column, `p` is true. -/
def Resolving (p : Table → String → Prop) (tables : List Table) : Prop :=
  ∀ t ∈ tables, ∀ c ∈ t.columns, ∀ ref, c.references = some ref →
    ∃ u ∈ tables, u.name = ref.table ∧ p u ref.column

variable {tables' : List Table} {r : Relationship} {rs new : List Relationship}
  {t source target : Table} {name : String} {p : Table → String → Prop}

theorem Resolving.map (h : Resolving p tables) {f : Table → Table}
    (hf : ∀ t ∈ tables, Table.Alike t (f t))
    (hp : ∀ t ∈ tables, ∀ column, p t column → p (f t) column) :
    Resolving p (tables.map f) := by
  unfold Resolving
  simp only [List.forall_mem_map]
  intro t ht d hd ref href
  obtain ⟨g, hcolumns, hg⟩ := (hf t ht).exists_map
  rw [hcolumns] at hd
  obtain ⟨c, hc, rfl⟩ := List.mem_map.1 hd
  rw [(hg c hc).2.2.2] at href
  obtain ⟨u, hu, hname, hcolumn⟩ := h t ht c hc ref href
  exact ⟨f u, List.mem_map_of_mem hu, (hf u hu).name_eq.trans hname, hp u hu _ hcolumn⟩

theorem mem_junctionTable {c : Column} (hc : c ∈ (junctionTable r source target).columns) :
    (∃ name, c = junctionKey name source ∨ c = junctionKey name target) ∨
      c.isForeignKey = false ∧ c.references = none := by
  rcases List.mem_append.1 hc with hc | hc
  · rcases List.mem_append.1 hc with hc | hc
    · rcases List.mem_cons.1 hc with rfl | hc
      · exact .inl ⟨_, .inl rfl⟩
      · exact .inl ⟨_, .inr (List.mem_singleton.1 hc)⟩
    · obtain ⟨a, -, rfl⟩ := List.mem_map.1 hc
      exact .inr ⟨rfl, rfl⟩
  · obtain ⟨name, -, rfl⟩ := List.mem_map.1 hc
    exact .inr ⟨rfl, rfl⟩

/-- A junction may be added to tables among which its sides are found. -/
theorem Resolving.append_junction (h : Resolving p tables)
    (hsource : ∃ u ∈ tables, u.name = source.name ∧ p u source.referencedKey.name)
    (htarget : ∃ u ∈ tables, u.name = target.name ∧ p u target.referencedKey.name) :
    Resolving p (tables ++ [junctionTable r source target]) := by
  intro t ht c hc ref href
  have hfound : ∃ u ∈ tables, u.name = ref.table ∧ p u ref.column := by
    rcases List.mem_append.1 ht with ht | ht
    · exact h t ht c hc ref href
    · rw [List.mem_singleton.1 ht] at hc
      rcases mem_junctionTable hc with ⟨name, rfl | rfl⟩ | ⟨-, hreferences⟩
      · obtain rfl : source.reference = ref := Option.some.inj href
        exact hsource
      · obtain rfl : target.reference = ref := Option.some.inj href
        exact htarget
      · rw [hreferences] at href
        contradiction
  obtain ⟨u, hu, hname, hcolumn⟩ := hfound
  exact ⟨u, List.mem_append_left _ hu, hname, hcolumn⟩

/-! ## Columns to refer to -/

namespace Table

/-- The table with the column marked that references go to, where it is one of several key
columns. -/
def referenceable (t : Table) : Table :=
  if t.keyColumns.length < 2 || t.referencedKey.isForeignKey || t.referencedKey.isUnique then t
  else t.mapColumns t.referencedKey.name fun c => { c with isUnique := true }

theorem alike_referenceable (t : Table) : Alike t t.referenceable := by
  unfold referenceable
  split
  · exact .refl t
  · exact .markUnique t _

/-- A table when the junction of a relationship is made: the sides are marked. -/
def asSideOf (r : Relationship) (t : Table) : Table :=
  if t.name = r.sourceTable ∨ t.name = r.targetTable then t.referenceable else t

theorem asSideOf_cases (r : Relationship) (t : Table) :
    t.asSideOf r = t ∨ t.asSideOf r = t.referenceable := by
  unfold asSideOf
  split
  · exact .inr rfl
  · exact .inl rfl

theorem alike_asSideOf (r : Relationship) (t : Table) : Alike t (t.asSideOf r) := by
  rcases t.asSideOf_cases r with heq | heq <;> rw [heq]
  · exact .refl t
  · exact t.alike_referenceable

end Table

/-- Marking a column of a table that may have been marked before. -/
theorem makeReferenceable_map_eq (h : (tables.map (·.name)).Nodup) {f : Table → Table}
    (hf : ∀ u ∈ tables, (f u).name = u.name) (ht : t ∈ tables)
    (hft : f t = t ∨ f t = t.referenceable) :
    makeReferenceable (tables.map f) t =
      tables.map fun u => if u.name = t.name then u.referenceable else f u := by
  have hsame : ∀ u ∈ tables, u.name = t.name → u = t :=
    fun u hu hname => List.inj_on_of_nodup_map h hu ht hname
  unfold makeReferenceable
  dsimp only
  split
  · rename_i hno
    refine List.map_congr_left fun u hu => ?_
    split
    · rename_i hname
      obtain rfl := hsame u hu hname
      have hkept : u.referenceable = u := if_pos hno
      rw [hkept] at hft ⊢
      exact hft.elim id id
    · rfl
  · rename_i hyes
    rw [List.map_map]
    refine List.map_congr_left fun u hu => ?_
    rw [Function.comp_apply, hf u hu]
    by_cases hname : u.name = t.name
    · obtain rfl := hsame u hu hname
      have hmarked : u.referenceable =
          u.mapColumns u.referencedKey.name fun c => { c with isUnique := true } := if_neg hyes
      rw [if_pos (by simp), if_pos rfl]
      rcases hft with hft | hft <;> rw [hft, hmarked] <;> rfl
    · rw [if_neg (by simpa using hname), if_neg hname]

/-- The tables after the columns that a junction refers to have been marked. -/
theorem makeReferenceable_sides (h : (tables.map (·.name)).Nodup) (hsource : source ∈ tables)
    (htarget : target ∈ tables) (hsourceName : source.name = r.sourceTable)
    (htargetName : target.name = r.targetTable) :
    makeReferenceable (makeReferenceable tables source) target =
      tables.map fun u => u.asSideOf r := by
  have hfirst := makeReferenceable_map_eq h (f := id) (fun u _ => rfl) hsource (.inl rfl)
  rw [List.map_id] at hfirst
  rw [hfirst, makeReferenceable_map_eq h (fun u _ => ?_) htarget ?_]
  · refine List.map_congr_left fun u _ => ?_
    rw [Table.asSideOf, ← hsourceName, ← htargetName]
    by_cases hu : u.name = target.name <;> simp [hu]
  · split
    · exact .inr rfl
    · exact .inl rfl
  · split
    · exact (Table.alike_referenceable _).name_eq
    · rfl

/-! ## One relationship -/

/-- The name of the junction of a relationship. -/
def Relationship.junction (r : Relationship) : String :=
  junctionName r.sourceTable r.targetTable

/-- The relationships from the sides of a relationship to its junction. -/
def Relationship.sides (r : Relationship) : List Relationship :=
  junctionSides r { name := r.sourceTable } { name := r.targetTable } { name := r.junction }

/-- What becomes of tables when the junction of a relationship is made, and what stands in the place
of the relationship. -/
inductive Expands (tables : List Table) (r : Relationship) :
    List Table → List Relationship → Prop
  /-- A relationship of another kind stays. -/
  | plain (hkind : r.kind ≠ .manyToMany) : Expands tables r tables [r]
  /-- A relationship stays if there is a table of the name of its junction. -/
  | taken (hkind : r.kind = .manyToMany) (hjoins : r.Joins (tables.map (·.name)))
      (hmem : r.junction ∈ tables.map (·.name)) : Expands tables r tables [r]
  /-- A relationship gives way to those from its sides to its junction. -/
  | made {source target : Table} (hkind : r.kind = .manyToMany) (hsource : source ∈ tables)
      (htarget : target ∈ tables) (hsourceName : source.name = r.sourceTable)
      (htargetName : target.name = r.targetTable) (hfree : r.junction ∉ tables.map (·.name)) :
      Expands tables r (tables.map (·.asSideOf r) ++ [junctionTable r source target]) r.sides

theorem name_junctionTable (hsourceName : source.name = r.sourceTable)
    (htargetName : target.name = r.targetTable) :
    (junctionTable r source target).name = r.junction := by
  rw [Relationship.junction, ← hsourceName, ← htargetName]
  rfl

theorem junctionSides_eq (hsourceName : source.name = r.sourceTable)
    (htargetName : target.name = r.targetTable) :
    junctionSides r source target (junctionTable r source target) = r.sides := by
  simp only [junctionSides, junctionSide, Relationship.sides,
    name_junctionTable hsourceName htargetName, hsourceName, htargetName]

theorem requireSide_eq_ok (h : (tables.map (·.name)).Nodup) :
    requireSide tables r name = .ok t ↔ t ∈ tables ∧ t.name = name := by
  unfold requireSide
  constructor
  · intro heq
    split at heq
    · rename_i hfind
      obtain rfl := Except.ok.inj heq
      exact ⟨List.mem_of_find?_eq_some hfind, by simpa using List.find?_some hfind⟩
    · contradiction
  · rintro ⟨ht, rfl⟩
    rw [find?_name h ht]

/-- **What one relationship does**, where the tables have distinct names. -/
theorem expandRelationship_eq_ok (h : (tables.map (·.name)).Nodup) :
    expandRelationship tables r = .ok (tables', new) ↔ Expands tables r tables' new := by
  have hany : tables.any (·.name == r.junction) = true ↔ r.junction ∈ tables.map (·.name) := by
    simp
  unfold expandRelationship
  constructor
  · intro heq
    split at heq
    · rename_i hkind
      obtain ⟨source, hsource, heq⟩ := bind_eq_ok.1 heq
      obtain ⟨target, htarget, heq⟩ := bind_eq_ok.1 heq
      obtain ⟨hsource, hsourceName⟩ := (requireSide_eq_ok h).1 hsource
      obtain ⟨htarget, htargetName⟩ := (requireSide_eq_ok h).1 htarget
      rw [hsourceName, htargetName] at heq
      split at heq
      · rename_i hmem
        obtain ⟨rfl, rfl⟩ := Prod.mk.inj (Except.ok.inj heq)
        exact .taken hkind ⟨hsourceName ▸ List.mem_map_of_mem hsource,
          htargetName ▸ List.mem_map_of_mem htarget⟩ (hany.1 hmem)
      · rename_i hfree
        obtain ⟨rfl, rfl⟩ := Prod.mk.inj (Except.ok.inj heq)
        rw [makeReferenceable_sides h hsource htarget hsourceName htargetName,
          junctionSides_eq hsourceName htargetName]
        exact .made hkind hsource htarget hsourceName htargetName fun hmem => hfree (hany.2 hmem)
    · obtain ⟨rfl, rfl⟩ := Prod.mk.inj (Except.ok.inj heq)
      exact .plain ‹_›
  · rintro (hkind | ⟨hkind, hjoins, hmem⟩ |
      ⟨hkind, hsource, htarget, hsourceName, htargetName, hfree⟩)
    · rw [if_neg hkind]
      rfl
    · obtain ⟨source, hsource, hsourceName⟩ := List.mem_map.1 hjoins.1
      obtain ⟨target, htarget, htargetName⟩ := List.mem_map.1 hjoins.2
      rw [if_pos hkind, (requireSide_eq_ok h).2 ⟨hsource, hsourceName⟩,
        (requireSide_eq_ok h).2 ⟨htarget, htargetName⟩]
      simp only [bind, Except.bind, hsourceName, htargetName]
      exact if_pos (hany.2 hmem)
    · rw [if_pos hkind, (requireSide_eq_ok h).2 ⟨hsource, hsourceName⟩,
        (requireSide_eq_ok h).2 ⟨htarget, htargetName⟩]
      simp only [bind, Except.bind, junctionSides_eq hsourceName htargetName,
        makeReferenceable_sides h hsource htarget hsourceName htargetName]
      rw [hsourceName, htargetName]
      exact if_neg fun hmem => hfree (hany.1 hmem)

/-- A relationship between tables is of one of the three kinds. -/
theorem Relationship.Joins.exists_expands (h : r.Joins (tables.map (·.name))) :
    ∃ tables' new, Expands tables r tables' new := by
  by_cases hkind : r.kind = .manyToMany
  · by_cases hmem : r.junction ∈ tables.map (·.name)
    · exact ⟨_, _, .taken hkind h hmem⟩
    · obtain ⟨source, hsource, hsourceName⟩ := List.mem_map.1 h.1
      obtain ⟨target, htarget, htargetName⟩ := List.mem_map.1 h.2
      exact ⟨_, _, .made hkind hsource htarget hsourceName htargetName hmem⟩
  · exact ⟨_, _, .plain hkind⟩

namespace Expands

/-- The name of a junction comes behind those of the tables, if it is free. -/
theorem names_eq (h : Expands tables r tables' new) :
    tables'.map (·.name) = tables.map (·.name) ∨ r.junction ∉ tables.map (·.name) ∧
      tables'.map (·.name) = tables.map (·.name) ++ [r.junction] := by
  cases h with
  | plain | taken => exact .inl rfl
  | made _ _ _ hsourceName htargetName hfree =>
    refine .inr ⟨hfree, ?_⟩
    rw [List.map_append, map_name fun t _ => (t.alike_asSideOf r).name_eq, List.map_singleton,
      name_junctionTable hsourceName htargetName]

theorem nodup (h : Expands tables r tables' new) (hnodup : (tables.map (·.name)).Nodup) :
    (tables'.map (·.name)).Nodup := by
  rcases h.names_eq with heq | ⟨hfree, heq⟩ <;> rw [heq]
  · exact hnodup
  · exact hnodup.append (List.nodup_singleton _) (List.disjoint_singleton.2 hfree)

theorem names_subset (h : Expands tables r tables' new) :
    tables.map (·.name) ⊆ tables'.map (·.name) := by
  rcases h.names_eq with heq | ⟨-, heq⟩ <;> rw [heq]
  · exact List.Subset.refl _
  · exact List.subset_append_left _ _

/-- What stands in the place of a relationship between tables is between tables. -/
theorem joins (h : Expands tables r tables' new) (hjoins : r.Joins (tables.map (·.name))) :
    ∀ q ∈ new, q.Joins (tables'.map (·.name)) := by
  have hsub := h.names_subset
  cases h with
  | plain | taken => simpa using hjoins
  | made _ hsource htarget hsourceName htargetName hfree =>
    have hjunction := List.mem_map.2
      ⟨_, List.mem_append_right (tables.map (·.asSideOf r)) (List.mem_singleton_self _),
        name_junctionTable hsourceName htargetName⟩
    simp only [Relationship.sides, junctionSides, List.forall_mem_cons, List.not_mem_nil,
      false_imp_iff, implies_true, and_true]
    exact ⟨⟨hsub hjoins.1, hjunction⟩, hsub hjoins.2, hjunction⟩

/-- What is true of every table still is when a junction is made, if it is true of junctions and
goes on to be true of tables in which a column is marked. -/
theorem forall_mem {p : Table → Prop} (h : Expands tables r tables' new) (hp : ∀ t ∈ tables, p t)
    (hmark : ∀ t, p t → p t.referenceable)
    (hjunction : ∀ source target, p (junctionTable r source target)) : ∀ t ∈ tables', p t := by
  cases h with
  | plain | taken => exact hp
  | made =>
    simp only [List.forall_mem_append, List.forall_mem_map, List.forall_mem_singleton]
    refine ⟨fun t ht => ?_, hjunction _ _⟩
    rcases t.asSideOf_cases r with heq | heq <;> rw [heq]
    · exact hp t ht
    · exact hmark t (hp t ht)

/-- The references of a junction lead to its sides. -/
theorem resolving (h : Expands tables r tables' new) (hresolving : Resolving p tables)
    (hmark : ∀ t column, p t column → p t.referenceable column)
    (hside : ∀ t ∈ tables, p t.referenceable t.referencedKey.name) : Resolving p tables' := by
  cases h with
  | plain | taken => exact hresolving
  | made _ hsource htarget hsourceName htargetName _ =>
    have hmarked : Resolving p (tables.map (·.asSideOf r)) := by
      refine hresolving.map (fun t _ => t.alike_asSideOf r) fun t _ column hcolumn => ?_
      rcases t.asSideOf_cases r with heq | heq <;> rw [heq]
      · exact hcolumn
      · exact hmark t column hcolumn
    have hfound : ∀ t ∈ tables, t.name = r.sourceTable ∨ t.name = r.targetTable →
        ∃ u ∈ tables.map (·.asSideOf r), u.name = t.name ∧ p u t.referencedKey.name := by
      intro t ht hname
      refine ⟨_, List.mem_map_of_mem ht, (t.alike_asSideOf r).name_eq, ?_⟩
      rw [Table.asSideOf, if_pos hname]
      exact hside t ht
    exact hmarked.append_junction (hfound _ hsource (.inl hsourceName))
      (hfound _ htarget (.inr htargetName))

/-- **Closed tables stay closed** when a junction is made. -/
theorem closed (h : Expands tables r tables' new) (hclosed : Closed tables) : Closed tables' where
  names := h.nodup hclosed.names
  keyed := h.forall_mem hclosed.keyed
    (fun t => (Table.Grows.of_alike [] t.alike_referenceable).keyed)
    fun _ _ => List.ne_nil_of_mem (Table.mem_keyColumns.2 ⟨List.mem_cons_self, rfl⟩)
  consistent := by
    refine h.forall_mem hclosed.consistent
      (fun t => (Table.Grows.of_alike [] t.alike_referenceable).consistent)
      fun source target c hc => ?_
    rcases mem_junctionTable hc with ⟨name, rfl | rfl⟩ | ⟨hforeign, hreferences⟩
    · rfl
    · rfl
    · rw [Column.IsConsistent, hforeign, hreferences]
      rfl
  resolves := h.resolving (p := fun t column => t.hasColumn column = true) hclosed.resolves
    (fun t _ => t.alike_referenceable.sameKeys.hasColumn)
    fun t ht => t.alike_referenceable.sameKeys.hasColumn
      (Table.hasColumn_referencedKey (hclosed.keyed t ht))

end Expands

/-! ## All relationships -/

/-- What becomes of tables when the junctions of relationships are made one after the other, and
what stands in the place of the relationships. -/
inductive ExpandsAll : List Table → List Relationship → List Table → List Relationship → Prop
  | nil (tables : List Table) : ExpandsAll tables [] tables []
  | cons {tables middle tables' : List Table} {r : Relationship}
      {rs first rest : List Relationship} (h : Expands tables r middle first)
      (hrest : ExpandsAll middle rs tables' rest) :
      ExpandsAll tables (r :: rs) tables' (first ++ rest)

/-- **What the relationships do**, where the tables have distinct names. -/
theorem expandRelationships_eq_ok (h : (tables.map (·.name)).Nodup) :
    expandRelationships tables rs = .ok (tables', new) ↔ ExpandsAll tables rs tables' new := by
  induction rs generalizing tables new with
  | nil =>
    constructor
    · intro heq
      obtain ⟨rfl, rfl⟩ := Prod.mk.inj (Except.ok.inj heq)
      exact .nil _
    · rintro ⟨⟩
      rfl
  | cons r rs ih =>
    rw [expandRelationships]
    constructor
    · intro heq
      obtain ⟨⟨middle, first⟩, hfirst, heq⟩ := bind_eq_ok.1 heq
      obtain ⟨⟨last, rest⟩, hrest, heq⟩ := bind_eq_ok.1 heq
      obtain ⟨rfl, rfl⟩ := Prod.mk.inj (Except.ok.inj heq)
      have hstep := (expandRelationship_eq_ok h).1 hfirst
      exact .cons hstep ((ih (hstep.nodup h)).1 hrest)
    · rintro (_ | ⟨hstep, hrest⟩)
      rw [(expandRelationship_eq_ok h).2 hstep]
      simp only [bind, Except.bind, (ih (hstep.nodup h)).2 hrest]
      rfl

theorem ExpandsAll.names_subset (h : ExpandsAll tables rs tables' new) :
    tables.map (·.name) ⊆ tables'.map (·.name) := by
  induction h with
  | nil => exact List.Subset.refl _
  | cons hstep _ ih => exact List.Subset.trans hstep.names_subset ih

/-- **What every junction keeps** is kept when all of them are made. -/
theorem ExpandsAll.keeps {q : List Table → Prop} (h : ExpandsAll tables rs tables' new)
    (hstep : ∀ tables r tables' new, Expands tables r tables' new → q tables → q tables')
    (hq : q tables) : q tables' := by
  induction h with
  | nil => exact hq
  | cons hfirst _ ih => exact ih (hstep _ _ _ _ hfirst hq)

/-- Relationships between tables can be expanded one after the other, and what stands in their place
is between tables. -/
theorem exists_expandsAll (hjoins : ∀ r ∈ rs, r.Joins (tables.map (·.name))) :
    ∃ tables' new, ExpandsAll tables rs tables' new ∧
      ∀ q ∈ new, q.Joins (tables'.map (·.name)) := by
  induction rs generalizing tables with
  | nil => exact ⟨tables, [], .nil tables, by simp⟩
  | cons r rs ih =>
    obtain ⟨middle, first, hstep⟩ := (hjoins r List.mem_cons_self).exists_expands
    obtain ⟨tables', rest, hrest, hnew⟩ := ih fun q hq =>
      (hjoins q (List.mem_cons_of_mem r hq)).mono hstep.names_subset
    refine ⟨tables', first ++ rest, .cons hstep hrest, fun q hq => ?_⟩
    rcases List.mem_append.1 hq with hq | hq
    · exact (hstep.joins (hjoins r List.mem_cons_self) q hq).mono hrest.names_subset
    · exact hnew q hq

theorem Schema.expandManyToMany_eq_ok {s expanded : Schema} (h : s.tableNames.Nodup) :
    s.expandManyToMany = .ok expanded ↔
      ∃ tables relationships, ExpandsAll s.tables s.relationships tables relationships ∧
        expanded = { s with tables, relationships } := by
  rw [Schema.expandManyToMany]
  constructor
  · intro heq
    obtain ⟨⟨tables, relationships⟩, hrun, heq⟩ := bind_eq_ok.1 heq
    exact ⟨tables, relationships, (expandRelationships_eq_ok h).1 hrun, (Except.ok.inj heq).symm⟩
  · rintro ⟨tables, relationships, hrun, rfl⟩
    rw [(expandRelationships_eq_ok h).2 hrun]
    rfl

/-- **Making junctions of a closed schema succeeds and gives a closed schema.** -/
theorem Schema.Closed.expandManyToMany {s : Schema} (h : s.Closed) :
    ∃ expanded, s.expandManyToMany = .ok expanded ∧ expanded.Closed := by
  obtain ⟨tables, relationships, hrun, hjoins⟩ := exists_expandsAll h.joins
  exact ⟨_, (expandManyToMany_eq_ok h.tables.names).2 ⟨tables, relationships, hrun, rfl⟩,
    hrun.keeps (fun _ _ _ _ hstep => hstep.closed) h.tables, hjoins⟩

/-- **The names of tables stay distinct** when junctions are made. -/
theorem Schema.nodup_expandManyToMany {s expanded : Schema} (h : s.tableNames.Nodup)
    (heq : s.expandManyToMany = .ok expanded) : expanded.tableNames.Nodup := by
  obtain ⟨tables, relationships, hrun, rfl⟩ := (expandManyToMany_eq_ok h).1 heq
  exact hrun.keeps (q := fun tables => (tables.map Table.name).Nodup)
    (fun _ _ _ _ hstep => hstep.nodup) h

/-- **What is true of every table** still is when junctions are made, if it is true of junctions and
goes on to be true of tables in which a column is marked. -/
theorem Schema.forall_expandManyToMany {s expanded : Schema} {p : Table → Prop}
    (h : s.tableNames.Nodup) (hp : ∀ t ∈ s.tables, p t) (hmark : ∀ t, p t → p t.referenceable)
    (hjunction : ∀ r source target, p (junctionTable r source target))
    (heq : s.expandManyToMany = .ok expanded) : ∀ t ∈ expanded.tables, p t := by
  obtain ⟨tables, relationships, hrun, rfl⟩ := (expandManyToMany_eq_ok h).1 heq
  exact hrun.keeps (q := fun tables => ∀ t ∈ tables, p t)
    (fun _ r _ _ hstep hp => hstep.forall_mem hp hmark (hjunction r)) hp

end Schemata
