import Mathlib.Data.List.Induction
import Mathlib.Data.List.Permutation
import Schemata.Proofs.Schema.Enforceable

/-!
# What becomes of a schema when its junctions are made

`Schema.Expansion` accounts for all that `Schema.expandManyToMany` does. A junction is made for a
many-to-many relationship if its name belongs to no table and to no many-to-many relationship before
it (`MakesJunction`); such a relationship is replaced, in its place, by the relationships from its
sides to the junction. The tables stay what they are, in their order, but that references to the
sides may need a unique column, and the junctions follow them.

`exists_expandsAll_asSide` is proved along the relationships, from the first to the last: what has
become of the tables up to there is known (`asSide`), and marking a table again changes nothing
(`Table.referenceable_referenceable`). `Schema.expansion_expandManyToMany` says it of a schema, and
that making junctions again changes nothing.
-/

namespace Schemata

/-! ## Marking a column again -/

namespace Table

variable {t : Table}

theorem referenceable_cases (t : Table) : t.referenceable = t ∨
    1 < t.keyColumns.length ∧ t.HasOwnKey ∧ t.referencedKey.isUnique = false ∧ t.referenceable =
      t.mapColumns t.referencedKey.name fun c => { c with isUnique := true } := by
  unfold referenceable
  split
  · exact .inl rfl
  · rename_i hyes
    simp only [Bool.or_eq_true, decide_eq_true_eq, not_or, not_lt, Bool.not_eq_true] at hyes
    have hne : t.keyColumns ≠ [] := List.ne_nil_of_length_pos (by omega)
    exact .inr ⟨by omega, ⟨_, referencedKey_mem hne, hyes.1.2⟩, hyes.2, rfl⟩

theorem dataType_referencedKey_referenceable (t : Table) :
    t.referenceable.referencedKey.dataType = t.referencedKey.dataType := by
  rcases t.referenceable_cases with heq | ⟨hmany, -, -, heq⟩
  · rw [heq]
  · have hne : t.keyColumns ≠ [] := List.ne_nil_of_length_pos (by omega)
    have hkeys : t.referenceable.keyColumns = t.keyColumns.map _ :=
      keyColumns_of_map (congrArg columns heq) fun c _ => by split <;> rfl
    rw [referencedKey_of_map hkeys hne fun c _ => by split <;> rfl]
    split <;> rfl

theorem referenceable_referenceable (t : Table) :
    t.referenceable.referenceable = t.referenceable := by
  rcases t.referenceable_cases with heq | ⟨hmany, hown, -, -⟩
  · rw [heq, heq]
  · rcases t.referenceable.referenceable_cases with heq | ⟨-, -, hunique, -⟩
    · exact heq
    · rw [referencedKey_isUnique_referenceable hmany hown] at hunique
      contradiction

end Table

/-! ## Which junctions are made -/

/-- The junction of a relationship is made, if `names` are those of the tables and `before` are the
relationships in front of it. -/
def MakesJunction (names : List String) (before : List Relationship) (r : Relationship) : Prop :=
  r.kind = .manyToMany ∧ r.junction ∉ names ∧
    ∀ q ∈ before, q.kind = .manyToMany → q.junction ≠ r.junction

instance (names : List String) (before : List Relationship) :
    DecidablePred (MakesJunction names before) := fun r =>
  inferInstanceAs (Decidable (r.kind = .manyToMany ∧ r.junction ∉ names ∧
    ∀ q ∈ before, q.kind = .manyToMany → q.junction ≠ r.junction))

/-- The relationships, each with whether its junction is made. -/
def markJunctions (names : List String) (rs : List Relationship) : List (Relationship × Bool) :=
  rs.mapIdx fun i r => (r, decide (MakesJunction names (rs.take i) r))

/-- The relationships whose junctions are made. -/
def joining (names : List String) (rs : List Relationship) : List Relationship :=
  ((markJunctions names rs).filter (·.2)).map (·.1)

/-- The relationships, those to the junctions in the place of the ones whose junctions are made. -/
def replaceJoining (names : List String) (rs : List Relationship) : List Relationship :=
  (markJunctions names rs).flatMap fun (r, makes) => if makes then r.sides else [r]

/-- A table as the side of the relationships whose junctions are made. -/
def asSide (names : List String) (rs : List Relationship) (t : Table) : Table :=
  if ∃ r ∈ joining names rs, t.name = r.sourceTable ∨ t.name = r.targetTable then t.referenceable
  else t

/-- A table is the junction of a relationship between tables: its key consists of one reference to
the key of either side. -/
structure IsJunction (tables : List Table) (r : Relationship) (junction : Table) : Prop where
  name_eq : junction.name = r.junction
  isJunctionTable : junction.isJunctionTable = true
  keyColumns_eq : ∃ source ∈ tables, ∃ target ∈ tables, source.name = r.sourceTable ∧
    target.name = r.targetTable ∧ ∃ first second, junction.keyColumns = [first, second] ∧
      first.name ≠ second.name ∧ first.foreignKey? = some source.reference ∧
      second.foreignKey? = some target.reference

/-- A table is the one that is made for a relationship between tables. -/
def IsMadeFor (tables : List Table) (r : Relationship) (junction : Table) : Prop :=
  ∃ source ∈ tables, ∃ target ∈ tables, source.name = r.sourceTable ∧
    target.name = r.targetTable ∧ junction = junctionTable r source target

variable {names : List String} {rs : List Relationship} {r : Relationship} {tables : List Table}
  {t source target : Table}

theorem markJunctions_append_singleton (names : List String) (rs : List Relationship)
    (r : Relationship) : markJunctions names (rs ++ [r]) =
      markJunctions names rs ++ [(r, decide (MakesJunction names rs r))] := by
  rw [markJunctions, List.mapIdx_concat, List.take_left]
  congr 1
  rw [markJunctions, List.mapIdx_eq_mapIdx_iff]
  intro i hi
  rw [List.take_append_of_le_length (Nat.le_of_lt hi)]

theorem joining_append_singleton (names : List String) (rs : List Relationship)
    (r : Relationship) : joining names (rs ++ [r]) =
      joining names rs ++ if MakesJunction names rs r then [r] else [] := by
  rw [joining, markJunctions_append_singleton, List.filter_append, List.map_append, joining]
  by_cases h : MakesJunction names rs r <;> simp [h]

theorem replaceJoining_append_singleton (names : List String) (rs : List Relationship)
    (r : Relationship) : replaceJoining names (rs ++ [r]) =
      replaceJoining names rs ++ if MakesJunction names rs r then r.sides else [r] := by
  rw [replaceJoining, markJunctions_append_singleton, List.flatMap_append, replaceJoining]
  by_cases h : MakesJunction names rs r <;> simp [h]

/-- The names of the junctions that are made are those of many-to-many relationships that belong to
no table. -/
theorem mem_junction_joining {name : String} : name ∈ (joining names rs).map (·.junction) ↔
    name ∉ names ∧ ∃ q ∈ rs, q.kind = .manyToMany ∧ q.junction = name := by
  induction rs using List.reverseRecOn with
  | nil => simp [joining, markJunctions]
  | append_singleton rs r ih =>
    rw [joining_append_singleton, List.map_append, List.mem_append, ih]
    by_cases h : MakesJunction names rs r
    · rw [if_pos h, List.map_singleton, List.mem_singleton]
      constructor
      · rintro (⟨hname, q, hq, hkind, hjunction⟩ | rfl)
        · exact ⟨hname, q, List.mem_append_left _ hq, hkind, hjunction⟩
        · exact ⟨h.2.1, r, by simp, h.1, rfl⟩
      · rintro ⟨hname, q, hq, hkind, hjunction⟩
        rcases List.mem_append.1 hq with hq | hq
        · exact .inl ⟨hname, q, hq, hkind, hjunction⟩
        · exact .inr (by rw [← hjunction, List.mem_singleton.1 hq])
    · rw [if_neg h, List.map_nil, or_iff_left List.not_mem_nil]
      refine and_congr_right fun hname => ⟨?_, ?_⟩
      · rintro ⟨q, hq, hrest⟩
        exact ⟨q, List.mem_append_left _ hq, hrest⟩
      · rintro ⟨q, hq, hkind, hjunction⟩
        rcases List.mem_append.1 hq with hq | hq
        · exact ⟨q, hq, hkind, hjunction⟩
        · -- the junction of the last relationship is not made, so one before it has the name
          rw [List.mem_singleton.1 hq] at hkind hjunction
          by_contra hnone
          refine h ⟨hkind, hjunction ▸ hname, fun q hq hkind' hsame => hnone ⟨q, hq, hkind', ?_⟩⟩
          rw [hsame, hjunction]

/-- The junction of a many-to-many relationship is made unless there is a table of the name. -/
theorem makesJunction_iff (hkind : r.kind = .manyToMany) : MakesJunction names rs r ↔
    r.junction ∉ names ++ (joining names rs).map (·.junction) := by
  rw [List.mem_append, mem_junction_joining, MakesJunction, and_iff_right hkind]
  simp only [not_or, not_and, not_exists]
  exact ⟨fun h => ⟨h.1, fun _ q hq hq' => h.2 q hq hq'⟩, fun h => ⟨h.1, h.2 h.1⟩⟩

/-- A relationship whose junction is made is the first of its junction's name. -/
theorem mem_joining : r ∈ joining names rs ↔
    ∃ i, rs[i]? = some r ∧ MakesJunction names (rs.take i) r := by
  simp only [joining, markJunctions, List.mem_map, List.mem_filter, List.mem_mapIdx]
  constructor
  · rintro ⟨⟨q, makes⟩, ⟨⟨i, hi, heq⟩, hmakes⟩, rfl⟩
    obtain ⟨rfl, rfl⟩ := Prod.mk.inj heq
    exact ⟨i, List.getElem?_eq_getElem hi, of_decide_eq_true hmakes⟩
  · rintro ⟨i, hr, hmakes⟩
    obtain ⟨hi, rfl⟩ := List.getElem?_eq_some_iff.1 hr
    exact ⟨_, ⟨⟨i, hi, rfl⟩, decide_eq_true hmakes⟩, rfl⟩

/-- A many-to-many relationship is left in place only if there is a table of the name of its
junction. -/
theorem mem_replaceJoining (h : r ∈ replaceJoining names rs) (hkind : r.kind = .manyToMany) :
    r ∈ rs ∧ r.junction ∈ names ++ (joining names rs).map (·.junction) := by
  induction rs using List.reverseRecOn with
  | nil => contradiction
  | append_singleton rs q ih =>
    rw [replaceJoining_append_singleton, List.mem_append] at h
    rw [joining_append_singleton, List.map_append, ← List.append_assoc, List.mem_append,
      List.mem_append]
    rcases h with h | h
    · exact ⟨.inl (ih h).1, .inl (ih h).2⟩
    · split at h
      · -- the relationships to junctions are one-to-many
        have hside : r.kind = .oneToMany := by
          rcases List.mem_cons.1 h with rfl | h
          · rfl
          · rw [List.mem_singleton.1 h]
            rfl
        rw [hside] at hkind
        contradiction
      · rename_i hno
        obtain rfl := List.mem_singleton.1 h
        rw [makesJunction_iff hkind, not_not] at hno
        exact ⟨.inr (List.mem_singleton_self r), .inl hno⟩

/-! ## The junction -/

/-- A junction refers to the sides in the same way when columns of theirs have been marked. -/
theorem junctionTable_of_marked {source' target' : Table}
    (hsource : source' = source ∨ source' = source.referenceable)
    (htarget : target' = target ∨ target' = target.referenceable) :
    junctionTable r source' target' = junctionTable r source target := by
  have hsame : ∀ u u' : Table, u' = u ∨ u' = u.referenceable → u'.name = u.name ∧
      u'.referencedKey.name = u.referencedKey.name ∧
        u'.referencedKey.dataType = u.referencedKey.dataType := by
    rintro u u' (rfl | rfl)
    · exact ⟨rfl, rfl, rfl⟩
    · have halike := Table.alike_referenceable u
      exact ⟨halike.name_eq, halike.sameKeys.referencedKey_name,
        u.dataType_referencedKey_referenceable⟩
  obtain ⟨hname, hkey, htype⟩ := hsame _ _ hsource
  obtain ⟨hname', hkey', htype'⟩ := hsame _ _ htarget
  simp only [junctionTable, junctionKeyNames, junctionKey, Table.foreignKeyColumn, Table.reference,
    hname, hkey, htype, hname', hkey', htype']

/-- The columns of a junction: a key column for each side, the attributes of the relationship and the
moments of the row. -/
theorem mem_columns_junctionTable {c : Column} : c ∈ (junctionTable r source target).columns ↔
    c = junctionKey (junctionKeyNames source target).1 source ∨
      c = junctionKey (junctionKeyNames source target).2 target ∨
      (∃ a ∈ untaken ([(junctionKeyNames source target).1, (junctionKeyNames source target).2] ++
        stampNames) r.attributes, c = junctionColumn a) ∨
      ∃ name ∈ stampNames, c = .stamp name := by
  simp only [junctionTable, List.mem_append, List.mem_cons, List.not_mem_nil, or_false,
    List.mem_map, or_assoc, eq_comm (b := c)]

theorem untaken_subset (taken : List String) (attributes : List Column) :
    untaken taken attributes ⊆ attributes := by
  induction attributes generalizing taken with
  | nil => exact List.Subset.refl _
  | cons a attributes ih =>
    rw [untaken]
    split
    · exact List.subset_cons_of_subset _ (ih _)
    · exact List.cons_subset_cons _ (ih _)

/-- The attributes of a relationship that a junction takes over have names of their own. -/
theorem untaken_spec (taken : List String) (attributes : List Column) :
    ((untaken taken attributes).map (·.name)).Nodup ∧
      ∀ a ∈ untaken taken attributes, a.name ∉ taken := by
  induction attributes generalizing taken with
  | nil => exact ⟨.nil, by simp [untaken]⟩
  | cons a attributes ih =>
    rw [untaken]
    split
    · exact ih taken
    · rename_i hfree
      obtain ⟨hnodup, hothers⟩ := ih (a.name :: taken)
      simp only [List.mem_cons, not_or] at hothers
      refine ⟨List.nodup_cons.2 ⟨?_, hnodup⟩, ?_⟩
      · intro hmem
        obtain ⟨other, hother, hname⟩ := List.mem_map.1 hmem
        exact (hothers other hother).1 hname
      · simp only [List.forall_mem_cons]
        exact ⟨hfree, fun other hother => (hothers other hother).2⟩

theorem junctionKeyNames_ne (source target : Table) :
    (junctionKeyNames source target).1 ≠ (junctionKeyNames source target).2 := by
  unfold junctionKeyNames
  dsimp only
  split
  · rename_i hsame
    intro heq
    have hlength := congrArg String.length heq
    simp only [String.length_append, ← hsame] at hlength
    have hpos : 0 < "related_".length := by decide
    omega
  · assumption

/-- The names of the columns of a junction but for the moments of the row. -/
def junctionNames (r : Relationship) (source target : Table) : List String :=
  let keys := [(junctionKeyNames source target).1, (junctionKeyNames source target).2]
  keys ++ (untaken (keys ++ stampNames) r.attributes).map (·.name)

theorem columnNames_junctionTable (r : Relationship) (source target : Table) :
    (junctionTable r source target).columnNames = junctionNames r source target ++ stampNames := by
  simp only [Table.columnNames, junctionTable, junctionNames, List.map_append, List.map_map,
    List.map_cons, List.map_nil]
  rfl

/-- The columns of a junction have names of their own, the moments of the row left aside. -/
theorem nodup_junctionNames (r : Relationship) (source target : Table) :
    (junctionNames r source target).Nodup := by
  set keys := [(junctionKeyNames source target).1, (junctionKeyNames source target).2] with hkeys
  obtain ⟨hnodup, hfree⟩ := untaken_spec (keys ++ stampNames) r.attributes
  have hdistinct : keys.Nodup := by simpa [hkeys] using junctionKeyNames_ne source target
  refine hdistinct.append hnodup fun name hkey hmem => ?_
  obtain ⟨a, ha, rfl⟩ := List.mem_map.1 hmem
  exact hfree a ha (List.mem_append_left _ hkey)

theorem isJunction_junctionTable (hsource : source ∈ tables) (htarget : target ∈ tables)
    (hsourceName : source.name = r.sourceTable) (htargetName : target.name = r.targetTable) :
    IsJunction tables r (junctionTable r source target) where
  name_eq := name_junctionTable hsourceName htargetName
  isJunctionTable := rfl
  keyColumns_eq := ⟨source, hsource, target, htarget, hsourceName, htargetName, _, _,
    keyColumns_junctionTable r source target, junctionKeyNames_ne source target, rfl, rfl⟩

theorem IsMadeFor.isJunction {junction : Table} (h : IsMadeFor tables r junction) :
    IsJunction tables r junction := by
  obtain ⟨source, hsource, target, htarget, hsourceName, htargetName, rfl⟩ := h
  exact isJunction_junctionTable hsource htarget hsourceName htargetName

/-! ## All relationships -/

theorem asSide_cases (names : List String) (rs : List Relationship) (t : Table) :
    asSide names rs t = t ∨ asSide names rs t = t.referenceable := by
  unfold asSide
  split
  · exact .inr rfl
  · exact .inl rfl

theorem name_asSide (names : List String) (rs : List Relationship) (t : Table) :
    (asSide names rs t).name = t.name := by
  rcases asSide_cases names rs t with heq | heq <;> rw [heq]
  exact (Table.alike_referenceable t).name_eq

theorem columnNames_asSide (names : List String) (rs : List Relationship) (t : Table) :
    (asSide names rs t).columnNames = t.columnNames := by
  rcases asSide_cases names rs t with heq | heq <;> rw [heq]
  obtain ⟨isUnique, hcolumns, -⟩ := t.exists_columns_referenceable
  rw [Table.columnNames, hcolumns, List.map_map]
  rfl

/-- Tables do not become sides of a relationship whose junction is not made. -/
theorem asSide_append_of_not (h : ¬MakesJunction names rs r) :
    asSide names (rs ++ [r]) = asSide names rs := by
  funext t
  rw [asSide, asSide, joining_append_singleton, if_neg h, List.append_nil]

/-- Of the sides of a relationship whose junction is made, columns are marked. -/
theorem asSide_append (h : MakesJunction names rs r) (t : Table) :
    asSide names (rs ++ [r]) t = (asSide names rs t).asSideOf r := by
  have hexists : (∃ q ∈ joining names (rs ++ [r]),
      t.name = q.sourceTable ∨ t.name = q.targetTable) ↔
      (∃ q ∈ joining names rs, t.name = q.sourceTable ∨ t.name = q.targetTable) ∨
        (t.name = r.sourceTable ∨ t.name = r.targetTable) := by
    rw [joining_append_singleton, if_pos h]
    simp only [List.mem_append, List.mem_singleton, or_and_right, exists_or, exists_eq_left]
  rw [Table.asSideOf, name_asSide]
  by_cases hside : t.name = r.sourceTable ∨ t.name = r.targetTable
  · rw [asSide, if_pos (hexists.2 (.inr hside)), if_pos hside]
    rcases asSide_cases names rs t with heq | heq <;> rw [heq]
    exact t.referenceable_referenceable.symm
  · rw [if_neg hside, asSide, asSide]
    simp only [hexists, hside, or_false]

theorem ExpandsAll.append_singleton {tables' tables'' : List Table} {new new' : List Relationship}
    (h : ExpandsAll tables rs tables' new) (hlast : Expands tables' r tables'' new') :
    ExpandsAll tables (rs ++ [r]) tables'' (new ++ new') := by
  induction h with
  | nil => simpa using ExpandsAll.cons hlast (.nil _)
  | cons hfirst _ ih =>
    rw [List.append_assoc]
    exact .cons hfirst (ih hlast)

theorem map_name_of_isJunction {junctions : List Table}
    (h : List.Forall₂ (IsJunction tables) rs junctions) :
    junctions.map (·.name) = rs.map (·.junction) := by
  induction h with
  | nil => rfl
  | cons hjunction _ ih => rw [List.map_cons, List.map_cons, hjunction.name_eq, ih]

section

variable {junctions : List Table}

/-- The sides are tables of the schema, so no junction is marked. -/
theorem map_asSideOf_of_makes (h : MakesJunction names rs r) (hjoins : r.Joins names)
    (hapart : ∀ u ∈ junctions, u.name ∉ names) :
    (tables.map (asSide names rs) ++ junctions).map (·.asSideOf r) =
      tables.map (asSide names (rs ++ [r])) ++ junctions := by
  rw [List.map_append, List.map_map]
  congr 1
  · exact List.map_congr_left fun t _ => (asSide_append h t).symm
  · conv_rhs => rw [← List.map_id junctions]
    refine List.map_congr_left fun u hu => if_neg fun hside => hapart u hu ?_
    rcases hside with hside | hside <;> rw [hside]
    · exact hjoins.1
    · exact hjoins.2

/-- A relationship whose junction is made, with the junctions of the ones before it there. -/
theorem exists_expands_of_makes (hnames : tables.map (·.name) = names)
    (hjunctions : junctions.map (·.name) = (joining names rs).map (·.junction))
    (hmakes : MakesJunction names rs r) (hjoins : r.Joins names) :
    ∃ junction, IsMadeFor tables r junction ∧
      Expands (tables.map (asSide names rs) ++ junctions) r
        (tables.map (asSide names (rs ++ [r])) ++ (junctions ++ [junction])) r.sides := by
  obtain ⟨source, hsource, hsourceName⟩ := List.mem_map.1 (hnames ▸ hjoins.1)
  obtain ⟨target, htarget, htargetName⟩ := List.mem_map.1 (hnames ▸ hjoins.2)
  have hmem : ∀ t ∈ tables, asSide names rs t ∈ tables.map (asSide names rs) ++ junctions :=
    fun t ht => List.mem_append_left _ (List.mem_map_of_mem ht)
  have hfree : r.junction ∉ (tables.map (asSide names rs) ++ junctions).map (·.name) := by
    rw [List.map_append, map_name fun t _ => name_asSide names rs t, hnames, hjunctions]
    exact (makesJunction_iff hmakes.1).1 hmakes
  have hstep := Expands.made hmakes.1 (hmem source hsource) (hmem target htarget)
    ((name_asSide names rs source).trans hsourceName)
    ((name_asSide names rs target).trans htargetName) hfree
  have hapart : ∀ u ∈ junctions, u.name ∉ names := fun u hu =>
    (mem_junction_joining.1 (hjunctions ▸ List.mem_map_of_mem hu)).1
  rw [junctionTable_of_marked (asSide_cases names rs source) (asSide_cases names rs target),
    map_asSideOf_of_makes hmakes hjoins hapart, List.append_assoc] at hstep
  exact ⟨_, ⟨source, hsource, target, htarget, hsourceName, htargetName, rfl⟩, hstep⟩

end

/-- A relationship whose junction is not made stays, and so do the tables. -/
theorem expands_of_not_makes
    (hnames : tables.map (·.name) = names ++ (joining names rs).map (·.junction))
    (hjoins : r.kind = .manyToMany → r.Joins names) (hmakes : ¬MakesJunction names rs r) :
    Expands tables r tables [r] := by
  by_cases hkind : r.kind = .manyToMany
  · rw [makesJunction_iff hkind, not_not, ← hnames] at hmakes
    refine .taken hkind ((hjoins hkind).mono ?_) hmakes
    rw [hnames]
    exact List.subset_append_left _ _
  · exact .plain hkind

/-- The names of the tables and of the junctions that are made are distinct. -/
theorem nodup_junction_joining (h : names.Nodup) (rs : List Relationship) :
    (names ++ (joining names rs).map (·.junction)).Nodup := by
  induction rs using List.reverseRecOn with
  | nil => simpa [joining, markJunctions] using h
  | append_singleton rs r ih =>
    rw [joining_append_singleton]
    by_cases hmakes : MakesJunction names rs r
    · rw [if_pos hmakes, List.map_append, ← List.append_assoc]
      exact ih.append (List.nodup_singleton _)
        (List.disjoint_singleton.2 ((makesJunction_iff hmakes.1).1 hmakes))
    · rwa [if_neg hmakes, List.append_nil]

/-- **What becomes of tables and relationships** when all junctions are made. -/
theorem exists_expandsAll_asSide (hnames : tables.map (·.name) = names)
    (hjoins : ∀ r ∈ rs, r.kind = .manyToMany → r.Joins names) :
    ∃ junctions, ExpandsAll tables rs (tables.map (asSide names rs) ++ junctions)
        (replaceJoining names rs) ∧
      List.Forall₂ (IsMadeFor tables) (joining names rs) junctions := by
  induction rs using List.reverseRecOn with
  | nil =>
    have hid : asSide names [] = id := funext fun t => by simp [asSide, joining, markJunctions]
    exact ⟨[], by simpa [hid, replaceJoining, markJunctions] using ExpandsAll.nil tables, .nil⟩
  | append_singleton rs r ih =>
    obtain ⟨junctions, hrun, hjunctions⟩ := ih fun q hq => hjoins q (by simp [hq])
    have hjunctionNames : junctions.map (·.name) = (joining names rs).map (·.junction) :=
      map_name_of_isJunction (hjunctions.imp fun _ _ h => h.isJunction)
    rw [joining_append_singleton, replaceJoining_append_singleton]
    by_cases hmakes : MakesJunction names rs r
    · rw [if_pos hmakes, if_pos hmakes]
      obtain ⟨junction, hmade, hstep⟩ := exists_expands_of_makes hnames hjunctionNames hmakes
        (hjoins r (by simp) hmakes.1)
      exact ⟨junctions ++ [junction], hrun.append_singleton hstep,
        List.rel_append hjunctions (.cons hmade .nil)⟩
    · rw [if_neg hmakes, if_neg hmakes, List.append_nil, asSide_append_of_not hmakes]
      refine ⟨junctions, hrun.append_singleton (expands_of_not_makes ?_ (hjoins r (by simp)) hmakes),
        hjunctions⟩
      rw [List.map_append, map_name fun t _ => name_asSide names rs t, hnames, hjunctionNames]

/-- Where all junctions are there, nothing changes. -/
theorem expandsAll_of_mem (hmem : ∀ r ∈ rs, r.kind = .manyToMany →
    r.Joins (tables.map (·.name)) ∧ r.junction ∈ tables.map (·.name)) :
    ExpandsAll tables rs tables rs := by
  induction rs with
  | nil => exact .nil tables
  | cons r rs ih =>
    have hfirst : Expands tables r tables [r] := by
      by_cases hkind : r.kind = .manyToMany
      · obtain ⟨hjoins, hjunction⟩ := hmem r List.mem_cons_self hkind
        exact .taken hkind hjoins hjunction
      · exact .plain hkind
    exact .cons hfirst (ih fun q hq => hmem q (List.mem_cons_of_mem r hq))

/-! ## Schemas -/

/-- The schema with junctions behind its tables: references to the sides may need a unique column,
and each relationship whose junction is made gives way to those from its sides. -/
def Schema.withJunctions (s : Schema) (junctions : List Table) : Schema :=
  { s with
    tables := s.tables.map (asSide s.tableNames s.relationships) ++ junctions
    relationships := replaceJoining s.tableNames s.relationships }

/-- The junctions of a schema are the tables that are made for the relationships whose junctions are
made. -/
theorem Schema.exists_isMadeFor {s : Schema} (hnames : s.tableNames.Nodup)
    (hjoins : ∀ r ∈ s.relationships, r.kind = .manyToMany → r.Joins s.tableNames) :
    ∃ junctions, s.expandManyToMany = .ok (s.withJunctions junctions) ∧
      List.Forall₂ (IsMadeFor s.tables) (joining s.tableNames s.relationships) junctions ∧
      (s.tableNames ++ (joining s.tableNames s.relationships).map (·.junction)).Nodup := by
  obtain ⟨junctions, hrun, hjunctions⟩ := exists_expandsAll_asSide rfl hjoins
  exact ⟨junctions, (expandManyToMany_eq_ok hnames).2 ⟨_, _, hrun, rfl⟩, hjunctions,
    nodup_junction_joining hnames _⟩

theorem Schema.exists_withJunctions {s : Schema} (hnames : s.tableNames.Nodup)
    (hjoins : ∀ r ∈ s.relationships, r.kind = .manyToMany → r.Joins s.tableNames) :
    ∃ junctions, s.expandManyToMany = .ok (s.withJunctions junctions) ∧
      List.Forall₂ (IsJunction s.tables) (joining s.tableNames s.relationships) junctions ∧
      (s.tableNames ++ (joining s.tableNames s.relationships).map (·.junction)).Nodup := by
  obtain ⟨junctions, hexpanded, hjunctions, hnodup⟩ := Schema.exists_isMadeFor hnames hjoins
  exact ⟨junctions, hexpanded, hjunctions.imp fun _ _ h => h.isJunction, hnodup⟩

/-- The tables of an expanded schema: those of the schema, as sides of junctions, and tables that
are made for relationships. -/
theorem Schema.Closed.tables_expandManyToMany {s expanded : Schema} (h : s.Closed)
    (heq : s.expandManyToMany = .ok expanded) : ∃ junctions, expanded = s.withJunctions junctions ∧
      ∀ junction ∈ junctions, ∃ r ∈ s.relationships, IsMadeFor s.tables r junction := by
  obtain ⟨junctions, hexpanded, hjunctions, -⟩ :=
    Schema.exists_isMadeFor h.tables.names fun r hr _ => h.joins r hr
  refine ⟨junctions, Except.ok.inj (heq.symm.trans hexpanded), fun junction hjunction => ?_⟩
  obtain ⟨r, hr, hmade⟩ := exists_left_of_forall₂ hjunctions hjunction
  obtain ⟨i, hi, -⟩ := mem_joining.1 hr
  exact ⟨r, List.mem_of_getElem? hi, hmade⟩

theorem Schema.tableNames_withJunctions {s : Schema} {junctions : List Table}
    (h : List.Forall₂ (IsJunction s.tables) (joining s.tableNames s.relationships) junctions) :
    (s.withJunctions junctions).tableNames =
      s.tableNames ++ (joining s.tableNames s.relationships).map (·.junction) := by
  rw [tableNames, withJunctions, List.map_append, map_name fun t _ => name_asSide _ _ t,
    map_name_of_isJunction h]
  rfl

/-- What a schema becomes when its junctions are made. -/
structure Schema.Expansion (s expanded : Schema) (junctions : List Table) : Prop where
  /-- The tables stay in order, in front of the junctions, and relationships stay in place. -/
  eq : expanded = s.withJunctions junctions
  /-- A table changes only as the side of a junction, if its key has several columns. -/
  asSide_eq : ∀ t ∈ s.tables, asSide s.tableNames s.relationships t = t ∨
    (∃ r ∈ joining s.tableNames s.relationships, t.name = r.sourceTable ∨ t.name = r.targetTable) ∧
      1 < t.keyColumns.length ∧ asSide s.tableNames s.relationships t =
        t.mapColumns t.referencedKey.name fun c => { c with isUnique := true }
  /-- There is a junction for each relationship whose junction is made. -/
  isJunction : List.Forall₂ (IsJunction s.tables) (joining s.tableNames s.relationships) junctions
  /-- The names of the tables are distinct. -/
  nodup : expanded.tableNames.Nodup
  /-- A many-to-many relationship is left only if there is a table of the name of its junction. -/
  junction_mem : ∀ r ∈ expanded.relationships, r.kind = .manyToMany →
    r ∈ s.relationships ∧ r.junction ∈ expanded.tableNames
  /-- Making junctions again changes nothing. -/
  again : expanded.expandManyToMany = .ok expanded

/-- **What becomes of a schema** when junctions are made of its many-to-many relationships. -/
theorem Schema.expansion_expandManyToMany {s : Schema} (hnames : s.tableNames.Nodup)
    (hjoins : ∀ r ∈ s.relationships, r.kind = .manyToMany → r.Joins s.tableNames) :
    ∃ expanded junctions, s.expandManyToMany = .ok expanded ∧ s.Expansion expanded junctions := by
  obtain ⟨junctions, hexpanded, hjunctions, hnodup⟩ := Schema.exists_withJunctions hnames hjoins
  have htableNames := Schema.tableNames_withJunctions hjunctions
  have hleft : ∀ r ∈ (s.withJunctions junctions).relationships, r.kind = .manyToMany →
      r ∈ s.relationships ∧ r.junction ∈ (s.withJunctions junctions).tableNames :=
    fun r hr hkind => htableNames ▸ mem_replaceJoining hr hkind
  have hkept : ∀ name ∈ s.tableNames, name ∈ (s.withJunctions junctions).tableNames :=
    fun name hname => htableNames ▸ List.mem_append_left _ hname
  have hdistinct : (s.withJunctions junctions).tableNames.Nodup := htableNames ▸ hnodup
  refine ⟨_, junctions, hexpanded, rfl, fun t _ => ?_, hjunctions, hdistinct, hleft, ?_⟩
  · unfold asSide
    split
    · rename_i hside
      exact t.referenceable_cases.imp_right fun h => ⟨hside, h.1, h.2.2.2⟩
    · exact .inl rfl
  · refine (expandManyToMany_eq_ok hdistinct).2 ⟨_, _, expandsAll_of_mem fun r hr hkind => ?_, rfl⟩
    obtain ⟨hmem, hjunction⟩ := hleft r hr hkind
    exact ⟨(hjoins r hmem hkind).mono hkept, hjunction⟩

/-- Items of orders, which have a column of the name of the one that numbers them, and tags. -/
def tagging : Schema where
  tables :=
    [{ name := "order", columns := [.defaultKey] },
     { name := "item"
       columns := [
        { name := "order_id", isPrimaryKey := true, isForeignKey := true
          references := some ⟨"order", "id", "", ""⟩ },
        .partialKey, { name := "partial_id" }] },
     { name := "tag", columns := [.defaultKey] }]
  relationships :=
    [{ name := "bears", sourceTable := "item", targetTable := "tag", sourceEntity := "Item"
       targetEntity := "Tag", kind := .manyToMany },
     { name := "names", sourceTable := "tag", targetTable := "item", sourceEntity := "Tag"
       targetEntity := "Item", kind := .manyToMany },
     { name := "bears again", sourceTable := "item", targetTable := "tag", sourceEntity := "Item"
       targetEntity := "Tag", kind := .manyToMany }]
  createdAt := { year := 2024, month := 1, day := 1 }
  updatedAt := { year := 2024, month := 1, day := 1 }

theorem expansion_tagging : ∃ expanded junctions, tagging.expandManyToMany = .ok expanded ∧
    junctions.map (·.name) = ["item_tag", "tag_item"] ∧ tagging.Expansion expanded junctions := by
  have hnames : tagging.tableNames.Nodup := by decide
  have hjoins : ∀ r ∈ tagging.relationships, r.kind = .manyToMany →
      r.Joins tagging.tableNames := by
    unfold Relationship.Joins
    decide
  obtain ⟨expanded, junctions, hexpanded, h⟩ := Schema.expansion_expandManyToMany hnames hjoins
  refine ⟨expanded, junctions, hexpanded, ?_, h⟩
  rw [map_name_of_isJunction h.isJunction]
  decide

/-- Not only the column to which the junction refers becomes unique, but every one of its name. -/
theorem not_only_referencedKey_tagging : tagging.tableNames.Nodup ∧
    (∀ r ∈ tagging.relationships, r.sourceTable ∈ tagging.tableNames ∧
      r.targetTable ∈ tagging.tableNames) ∧
    ∃ expanded ∈ tagging.expandManyToMany.toOption,
      ¬∀ t ∈ tagging.tables, ∀ u ∈ expanded.tables, u.name = t.name →
        ∀ c ∈ t.columns, c ≠ t.referencedKey → c ∈ u.columns := by
  decide

/-! ## Which relationships have a junction -/

/-- There is a junction with a key column that refers to the source of a relationship, and another
one that refers to its target. -/
def Schema.Represents (s : Schema) (r : Relationship) : Prop :=
  ∃ junction ∈ s.tables, junction.isJunctionTable = true ∧ ∃ first second,
    [first, second].Subperm junction.keyColumns ∧
      first.foreignKey?.map (·.table) = some r.sourceTable ∧
      second.foreignKey?.map (·.table) = some r.targetTable

/-- Two relationships join the same tables. -/
def Relationship.JoinsAs (q r : Relationship) : Prop :=
  q.sourceTable = r.sourceTable ∧ q.targetTable = r.targetTable ∨
    q.sourceTable = r.targetTable ∧ q.targetTable = r.sourceTable

theorem isJunctionTable_asSide (names : List String) (rs : List Relationship) (t : Table) :
    (asSide names rs t).isJunctionTable = t.isJunctionTable := by
  rcases asSide_cases names rs t with heq | heq <;> rw [heq]
  rcases t.referenceable_cases with heq | ⟨-, -, -, heq⟩ <;> rw [heq]
  rfl

/-- What the two key columns of a junction refer to. -/
theorem IsJunction.exists_keyColumns {junction : Table} (h : IsJunction tables r junction) :
    ∃ first second, junction.keyColumns = [first, second] ∧
      first.foreignKey?.map (·.table) = some r.sourceTable ∧
      second.foreignKey?.map (·.table) = some r.targetTable := by
  obtain ⟨source, -, target, -, hsource, htarget, first, second, hkeys, -, hfirst, hsecond⟩ :=
    h.keyColumns_eq
  refine ⟨first, second, hkeys, ?_, ?_⟩
  · rw [hfirst, ← hsource]
    rfl
  · rw [hsecond, ← htarget]
    rfl

/-- Two key columns of a junction refer to the sides of a relationship just if the junction joins
its tables. -/
theorem IsJunction.joinsAs_iff {junction : Table} {q : Relationship}
    (h : IsJunction tables q junction) : (∃ first second,
      [first, second].Subperm junction.keyColumns ∧
        first.foreignKey?.map (·.table) = some r.sourceTable ∧
        second.foreignKey?.map (·.table) = some r.targetTable) ↔ q.JoinsAs r := by
  obtain ⟨key, key', hkeys, hkey, hkey'⟩ := h.exists_keyColumns
  rw [hkeys]
  constructor
  · rintro ⟨first, second, hsub, hfirst, hsecond⟩
    rcases List.perm_pair.1 (hsub.perm_of_length_le (by simp)) with hpair | hpair
    · obtain ⟨rfl, htail⟩ := List.cons.inj hpair
      obtain ⟨rfl, -⟩ := List.cons.inj htail
      exact .inl ⟨Option.some.inj (hkey.symm.trans hfirst),
        Option.some.inj (hkey'.symm.trans hsecond)⟩
    · obtain ⟨rfl, htail⟩ := List.cons.inj hpair
      obtain ⟨rfl, -⟩ := List.cons.inj htail
      exact .inr ⟨Option.some.inj (hkey.symm.trans hsecond),
        Option.some.inj (hkey'.symm.trans hfirst)⟩
  · rintro (⟨hsource, htarget⟩ | ⟨hsource, htarget⟩)
    · exact ⟨key, key', .refl _, hsource ▸ hkey, htarget ▸ hkey'⟩
    · exact ⟨key', key, (List.Perm.swap _ _ _).subperm, htarget ▸ hkey', hsource ▸ hkey⟩

/-- **Which relationships have a junction**: those between tables that are joined by a relationship
whose junction is made, in either direction. -/
theorem Schema.represents_withJunctions {s : Schema} {junctions : List Table}
    (h : List.Forall₂ (IsJunction s.tables) (joining s.tableNames s.relationships) junctions)
    (hplain : ∀ t ∈ s.tables, t.isJunctionTable = false) :
    (s.withJunctions junctions).Represents r ↔
      ∃ q ∈ joining s.tableNames s.relationships, q.JoinsAs r := by
  have hlength := h.length_eq
  constructor
  · rintro ⟨junction, hmem, hyes, hkeys⟩
    rcases List.mem_append.1 hmem with hmem | hmem
    · obtain ⟨t, ht, rfl⟩ := List.mem_map.1 hmem
      rw [isJunctionTable_asSide, hplain t ht] at hyes
      contradiction
    · obtain ⟨i, hi, rfl⟩ := List.getElem_of_mem hmem
      have hi' : i < (joining s.tableNames s.relationships).length := hlength ▸ hi
      exact ⟨_, List.getElem_mem hi', (h.get hi' hi).joinsAs_iff.1 hkeys⟩
  · rintro ⟨q, hq, hjoins⟩
    obtain ⟨i, hi, rfl⟩ := List.getElem_of_mem hq
    have hi' : i < junctions.length := hlength ▸ hi
    have hjunction := h.get hi hi'
    exact ⟨_, List.mem_append_right _ (List.getElem_mem hi'), hjunction.isJunctionTable,
      hjunction.joinsAs_iff.2 hjoins⟩

end Schemata
