import Schemata.Proofs.Schema.Key

/-!
# The names of columns of weak entities

A table is identified through one owner after another (`Table.Owned`). The columns that this adds
have names of their own, with one exception: the column that completes a key without a member of its
own is called `partial_id` whether or not there is such a column already.

`NamesKept` accounts for the names after any number of owners, and says exactly when two columns
share a name (`NamesKept.distinct_iff`): the table is identified through some owner, every column of
the key it started with has become a foreign key, and there is a column of that name, its own or a
foreign key. All other names stay apart (`count_columnNames_withIdentifyingKey`).
-/

namespace Schemata

namespace Table

/-- What a table becomes through owners of the given names, the last one in front. -/
inductive Owned (t : Table) : List String → Table → Prop
  | refl : Owned t [] t
  | step {u : Table} {owners : List String} (owner : Table) (h : Owned t owners u) :
      Owned t (owner.name :: owners) (u.withIdentifyingKey owner).1

variable {t t' u owner : Table} {name : String}

/-- The names of the columns, in order. -/
def columnNames (t : Table) : List String :=
  t.columns.map (·.name)

theorem mem_columnNames : name ∈ t.columnNames ↔ t.hasColumn name = true := by
  rw [hasColumn_iff, columnNames, List.mem_map]

theorem Distinct.eq_of_name (h : t.Distinct) {c d : Column} (hc : c ∈ t.columns)
    (hd : d ∈ t.columns) (hname : c.name = d.name) : c = d :=
  List.inj_on_of_nodup_map h hc hd hname

theorem columnNames_mapColumns {f : Column → Column} (hf : ∀ c, (f c).name = name) :
    (t.mapColumns name f).columnNames = t.columnNames := by
  rw [columnNames, mapColumns, List.map_map]
  refine List.map_congr_left fun d _ => ?_
  by_cases hd : d.name = name <;> simp [hd, hf]

theorem hasColumn_eq_false (h : t.column? name = none) : ¬t.hasColumn name = true := by
  intro hname
  obtain ⟨c, hc, hname⟩ := hasColumn_iff.1 hname
  exact name_ne_of_column?_eq_none h hc hname

theorem HasForeignKey.hasColumn (h : t.HasForeignKey name) : t.hasColumn name = true := by
  obtain ⟨c, hc, -, hname⟩ := h
  exact hasColumn_iff.2 ⟨c, hc, hname⟩

theorem isOwnKey_iff {c : Column} :
    isOwnKey c = true ↔ c.isPrimaryKey = true ∧ c.isForeignKey = false := by
  simp [isOwnKey]

/-! ## One owner -/

/-- No key column of the table's own is left when it refers to an owner. -/
def Loses (t owner : Table) : Prop :=
  ∀ c ∈ t.columns, isOwnKey c = true → c.name = foreignKeyName owner.name

theorem isOwnKey_columnsWithOwner {c : Column} :
    (c ∈ columnsWithOwner t.columns owner ∧ isOwnKey c = true) ↔
      c ∈ t.columns ∧ isOwnKey c = true ∧ c.name ≠ foreignKeyName owner.name := by
  constructor
  · rintro ⟨hc, hown⟩
    rcases mem_columnsWithOwner hc with ⟨hc, hne⟩ | rfl | ⟨d, -, rfl⟩
    · exact ⟨hc, hown, hne⟩
    · simp [isOwnKey, newOwnerKey, foreignKeyColumn] at hown
    · simp [isOwnKey, ownerKey] at hown
  · rintro ⟨hc, hown, hne⟩
    exact ⟨mem_columnsWithOwner_of_name_ne hc hne, hown⟩

theorem loses_iff : t.Loses owner ↔
    ∀ c ∈ columnsWithOwner t.columns owner, isOwnKey c = false := by
  constructor
  · intro h c hc
    by_contra hown
    obtain ⟨hmem, hown, hne⟩ := isOwnKey_columnsWithOwner.1 ⟨hc, by simpa using hown⟩
    exact hne (h c hmem hown)
  · intro h c hc hown
    by_contra hne
    obtain ⟨hmem, hown⟩ : c ∈ columnsWithOwner t.columns owner ∧ isOwnKey c = true :=
      isOwnKey_columnsWithOwner.2 ⟨hc, hown, hne⟩
    rw [h c hmem] at hown
    contradiction

/-- The key columns of the table's own after it has been identified through an owner. -/
theorem isOwnKey_withIdentifyingKey {c : Column} :
    (c ∈ (t.withIdentifyingKey owner).1.columns ∧ isOwnKey c = true) ↔
      (c ∈ t.columns ∧ isOwnKey c = true ∧ c.name ≠ foreignKeyName owner.name) ∨
        (c = .partialKey ∧ t.Loses owner) := by
  rw [mem_columns_withIdentifyingKey, ← loses_iff, or_and_right, isOwnKey_columnsWithOwner]
  refine or_congr_right ⟨fun h => h.1, fun h => ⟨h, ?_⟩⟩
  rw [h.1]
  rfl

theorem columnNames_columnsWithOwner (t owner : Table) :
    (columnsWithOwner t.columns owner).map (·.name) =
      if t.hasColumn (foreignKeyName owner.name) then t.columnNames
      else foreignKeyName owner.name :: t.columnNames := by
  rcases columnsWithOwner_cases t owner with ⟨hnone, heq⟩ | ⟨c, hc, heq⟩ <;> rw [heq]
  · rw [if_neg (hasColumn_eq_false hnone)]
    rfl
  · obtain ⟨hmem, hname⟩ := mem_of_column? hc
    rw [if_pos (hasColumn_iff.2 ⟨c, hmem, hname⟩)]
    exact columnNames_mapColumns fun _ => hname

theorem perm_insertAfter {c : Column} {columns : List Column} (h : ∃ d ∈ columns, d.name = name) :
    (insertAfter name c columns).Perm (c :: columns) := by
  induction columns with
  | nil => simp at h
  | cons d columns ih =>
    rw [insertAfter]
    split
    · exact .swap _ _ _
    · rename_i hne
      have hrest : ∃ d ∈ columns, d.name = name := by
        rw [List.exists_mem_cons_iff] at h
        exact h.resolve_left (by simpa using hne)
      exact ((ih hrest).cons d).trans (.swap _ _ _)

/-- **The names of a table identified through an owner**, in some order: those it had, the one of
the reference to the owner if it is new, and the one of the column that completes the key. -/
theorem perm_columnNames_withIdentifyingKey (t owner : Table) :
    (¬t.Loses owner ∧ (t.withIdentifyingKey owner).1.columnNames =
        (columnsWithOwner t.columns owner).map (·.name)) ∨
      t.Loses owner ∧ (t.withIdentifyingKey owner).1.columnNames.Perm
        (partialKeyName :: (columnsWithOwner t.columns owner).map (·.name)) := by
  rw [loses_iff]
  unfold withIdentifyingKey
  dsimp only
  split
  · rename_i hany
    obtain ⟨c, hc, hown⟩ := List.any_eq_true.1 hany
    refine .inl ⟨fun h => ?_, rfl⟩
    rw [h c hc] at hown
    contradiction
  · rename_i hany
    obtain ⟨c, hc, hname, -⟩ := exists_ownerKey t owner
    refine .inr ⟨fun c hc => by simpa using fun hown => hany (List.any_eq_true.2 ⟨c, hc, hown⟩), ?_⟩
    exact (perm_insertAfter ⟨c, hc, hname⟩).map (·.name)

theorem mem_columnNames_columnsWithOwner :
    name ∈ (columnsWithOwner t.columns owner).map (·.name) ↔
      t.hasColumn name = true ∨ name = foreignKeyName owner.name := by
  rw [columnNames_columnsWithOwner]
  split
  · rename_i htaken
    rw [mem_columnNames]
    exact ⟨.inl, fun h => h.elim id fun heq => heq ▸ htaken⟩
  · rw [List.mem_cons, mem_columnNames, or_comm]

theorem distinct_columnsWithOwner :
    ((columnsWithOwner t.columns owner).map (·.name)).Nodup ↔ t.Distinct := by
  rw [columnNames_columnsWithOwner]
  split
  · rfl
  · rename_i hno
    rw [List.nodup_cons, mem_columnNames]
    exact and_iff_right hno

/-- The names stay distinct unless the key has to be completed and the name for it is taken. -/
theorem distinct_withIdentifyingKey : (t.withIdentifyingKey owner).1.Distinct ↔
    t.Distinct ∧ (t.Loses owner →
      ¬(t.hasColumn partialKeyName = true ∨ partialKeyName = foreignKeyName owner.name)) := by
  rcases perm_columnNames_withIdentifyingKey t owner with ⟨hkept, heq⟩ | ⟨hlost, hperm⟩
  · rw [Distinct, ← columnNames, heq, distinct_columnsWithOwner,
      and_iff_left fun hlost => absurd hlost hkept]
  · rw [Distinct, ← columnNames, hperm.nodup_iff, List.nodup_cons,
      mem_columnNames_columnsWithOwner, distinct_columnsWithOwner, and_comm,
      forall_prop_of_true hlost]

/-- Names other than `partial_id` stay apart. -/
theorem count_columnNames_withIdentifyingKey (owner : Table) (hname : name ≠ partialKeyName)
    (h : t.columnNames.count name ≤ 1) :
    (t.withIdentifyingKey owner).1.columnNames.count name ≤ 1 := by
  have hcount : ((columnsWithOwner t.columns owner).map (·.name)).count name ≤ 1 := by
    rw [columnNames_columnsWithOwner]
    split
    · exact h
    · rename_i hno
      by_cases hfk : foreignKeyName owner.name = name
      · subst hfk
        rw [List.count_cons_self, List.count_eq_zero.2 fun hmem => hno (mem_columnNames.1 hmem)]
      · rwa [List.count_cons_of_ne hfk]
  rcases perm_columnNames_withIdentifyingKey t owner with ⟨-, heq⟩ | ⟨-, hperm⟩
  · rwa [heq]
  · rwa [hperm.count_eq, List.count_cons_of_ne hname.symm]

theorem hasColumn_withIdentifyingKey :
    (t.withIdentifyingKey owner).1.hasColumn name = true ↔ t.hasColumn name = true ∨
      name = foreignKeyName owner.name ∨ name = partialKeyName ∧ t.Loses owner := by
  rw [← or_assoc, ← mem_columnNames_columnsWithOwner, ← mem_columnNames]
  rcases perm_columnNames_withIdentifyingKey t owner with ⟨hkept, heq⟩ | ⟨hlost, hperm⟩
  · rw [heq, or_iff_left fun h => hkept h.2]
  · rw [hperm.mem_iff, List.mem_cons, and_iff_left hlost, or_comm]

/-! ## Any number of owners -/

/-- Every key column of a table has become a foreign key. -/
def Exhausted (t t' : Table) : Prop :=
  ∀ key ∈ t.keyNames, t'.HasForeignKey key

/-- What the names of columns are after a table `t` has been identified through owners. -/
structure NamesKept (t : Table) (owners : List String) (t' : Table) : Prop where
  grows : ∀ name, t.hasColumn name = true → t'.hasColumn name = true
  origin : ∀ name, t'.hasColumn name = true → t.hasColumn name = true ∨ t'.HasForeignKey name ∨
    name = partialKeyName ∧ ∃ c ∈ t'.columns, isOwnKey c = true ∧ c.name = name
  own : ∀ c ∈ t'.columns, isOwnKey c = true → c.name ∈ t.keyNames ∨
    owners ≠ [] ∧ c.name = partialKeyName ∧ t.Exhausted t'
  key : ∀ key ∈ t.keyNames, t'.HasForeignKey key ∨
    ∃ c ∈ t'.columns, isOwnKey c = true ∧ c.name = key
  count_le_one : ∀ name ≠ partialKeyName, t'.columnNames.count name ≤ 1
  distinct_iff : t'.Distinct ↔ ¬(owners ≠ [] ∧ t.Exhausted t' ∧
    (t.hasColumn partialKeyName = true ∨ t'.HasForeignKey partialKeyName))

/-- The table with which the owners start. -/
theorem NamesKept.refl (h : t.Distinct) : NamesKept t [] t where
  grows _ h := h
  origin _ h := .inl h
  own c hc hown := .inl (List.mem_map_of_mem (mem_keyColumns.2 ⟨hc, (isOwnKey_iff.1 hown).1⟩))
  key key hkey := by
    obtain ⟨c, hc, rfl⟩ := List.mem_map.1 hkey
    obtain ⟨hmem, hprimary⟩ := mem_keyColumns.1 hc
    cases hforeign : c.isForeignKey with
    | true => exact .inl ⟨c, hmem, hforeign, rfl⟩
    | false => exact .inr ⟨c, hmem, isOwnKey_iff.2 ⟨hprimary, hforeign⟩, rfl⟩
  count_le_one name _ := List.nodup_iff_count_le_one.1 h name
  distinct_iff := iff_of_true h (by simp)

theorem Exhausted.withIdentifyingKey (h : t.Exhausted u) (owner : Table) :
    t.Exhausted (u.withIdentifyingKey owner).1 :=
  fun key hkey => (hasForeignKey_withIdentifyingKey u owner).2 (.inl (h key hkey))

/-- A key column of the table's own is still there unless it refers to the owner now. -/
theorem isOwnKey_or_hasForeignKey {c : Column} (hc : c ∈ t.columns) (hown : isOwnKey c = true)
    (owner : Table) : (t.withIdentifyingKey owner).1.HasForeignKey c.name ∨
      ∃ d ∈ (t.withIdentifyingKey owner).1.columns, isOwnKey d = true ∧ d.name = c.name := by
  by_cases hfk : c.name = foreignKeyName owner.name
  · exact .inl ((hasForeignKey_withIdentifyingKey t owner).2 (.inr hfk))
  · have hmem := isOwnKey_withIdentifyingKey.2 (.inl ⟨hc, hown, hfk⟩)
    exact .inr ⟨c, hmem.1, hmem.2, rfl⟩

namespace NamesKept

variable {owners : List String}

theorem exhausted (h : NamesKept t owners u) (hlost : u.Loses owner) :
    t.Exhausted (u.withIdentifyingKey owner).1 := by
  intro key hkey
  rw [hasForeignKey_withIdentifyingKey]
  rcases h.key key hkey with hkey | ⟨c, hc, hown, rfl⟩
  · exact .inl hkey
  · exact .inr (hlost c hc hown)

/-- The key has to be completed as soon as all of it refers to owners. -/
theorem loses (h : NamesKept t owners u) (hdistinct : u.Distinct)
    (hall : t.Exhausted (u.withIdentifyingKey owner).1)
    (htaken : t.hasColumn partialKeyName = true ∨
      (u.withIdentifyingKey owner).1.HasForeignKey partialKeyName) : u.Loses owner := by
  intro c hc hown
  have hno : ¬u.HasForeignKey c.name := by
    rintro ⟨d, hd, hforeign, hname⟩
    rw [hdistinct.eq_of_name hd hc hname, (isOwnKey_iff.1 hown).2] at hforeign
    contradiction
  rcases h.own c hc hown with hkey | ⟨howners, hname, hall⟩
  · exact ((hasForeignKey_withIdentifyingKey u owner).1 (hall _ hkey)).resolve_left hno
  · -- the column has completed the key before, so that its name was free then
    have hfree := h.distinct_iff.1 hdistinct
    rw [hasForeignKey_withIdentifyingKey] at htaken
    rcases htaken with htaken | htaken | htaken
    · exact absurd ⟨howners, hall, .inl htaken⟩ hfree
    · exact absurd (hname ▸ htaken) hno
    · exact hname.trans htaken

/-- **One more owner.** -/
theorem step (h : NamesKept t owners u) (owner : Table) :
    NamesKept t (owner.name :: owners) (u.withIdentifyingKey owner).1 where
  grows name hname := hasColumn_withIdentifyingKey.2 (.inl (h.grows name hname))
  origin name hname := by
    rw [hasForeignKey_withIdentifyingKey]
    rcases hasColumn_withIdentifyingKey.1 hname with hname | hname | ⟨rfl, hlost⟩
    · rcases h.origin name hname with hname | hname | ⟨rfl, c, hc, hown, hname⟩
      · exact .inl hname
      · exact .inr (.inl (.inl hname))
      · have hstays := isOwnKey_or_hasForeignKey hc hown owner
        rw [hname, hasForeignKey_withIdentifyingKey] at hstays
        exact .inr (hstays.imp_right fun hstays => ⟨rfl, hstays⟩)
    · exact .inr (.inl (.inr hname))
    · obtain ⟨hmem, hown⟩ : .partialKey ∈ (u.withIdentifyingKey owner).1.columns ∧
          isOwnKey .partialKey = true := isOwnKey_withIdentifyingKey.2 (.inr ⟨rfl, hlost⟩)
      exact .inr (.inr ⟨rfl, .partialKey, hmem, hown, rfl⟩)
  own c hc hown := by
    rcases isOwnKey_withIdentifyingKey.1 ⟨hc, hown⟩ with ⟨hc, hown, -⟩ | ⟨rfl, hlost⟩
    · exact (h.own c hc hown).imp_right fun ⟨_, hname, hall⟩ =>
        ⟨List.cons_ne_nil _ _, hname, hall.withIdentifyingKey owner⟩
    · exact .inr ⟨List.cons_ne_nil _ _, rfl, h.exhausted hlost⟩
  key key hkey := by
    rcases h.key key hkey with hkey | ⟨c, hc, hown, rfl⟩
    · exact .inl ((hasForeignKey_withIdentifyingKey u owner).2 (.inl hkey))
    · exact isOwnKey_or_hasForeignKey hc hown owner
  count_le_one name hname :=
    count_columnNames_withIdentifyingKey owner hname (h.count_le_one name hname)
  distinct_iff := by
    have hforeign : (u.withIdentifyingKey owner).1.HasForeignKey partialKeyName ↔
        u.HasForeignKey partialKeyName ∨ partialKeyName = foreignKeyName owner.name :=
      hasForeignKey_withIdentifyingKey u owner
    rw [distinct_withIdentifyingKey]
    constructor
    · rintro ⟨hdistinct, hfree⟩ ⟨-, hall, htaken⟩
      refine hfree (h.loses hdistinct hall htaken) ?_
      rcases htaken with htaken | htaken
      · exact .inl (h.grows _ htaken)
      · exact (hforeign.1 htaken).imp_left HasForeignKey.hasColumn
    · intro hno
      constructor
      · rw [h.distinct_iff]
        rintro ⟨-, hall, htaken⟩
        exact hno ⟨List.cons_ne_nil _ _, hall.withIdentifyingKey owner,
          htaken.imp_right fun htaken => hforeign.2 (.inl htaken)⟩
      · intro hlost htaken
        refine hno ⟨List.cons_ne_nil _ _, h.exhausted hlost, ?_⟩
        rcases htaken with htaken | htaken
        · rcases h.origin _ htaken with htaken | htaken | ⟨-, c, hc, hown, hname⟩
          · exact .inl htaken
          · exact .inr (hforeign.2 (.inl htaken))
          · exact .inr (hforeign.2 (.inr (hname ▸ hlost c hc hown)))
        · exact .inr (hforeign.2 (.inr htaken))

end NamesKept

namespace Owned

variable {owners owners' : List String}

theorem trans (h : t.Owned owners u) (h' : u.Owned owners' t') :
    t.Owned (owners' ++ owners) t' := by
  induction h' with
  | refl => exact h
  | step owner _ ih => exact ih.step owner

theorem name_eq (h : t.Owned owners t') : t'.name = t.name := by
  induction h with
  | refl => rfl
  | @step u _ owner _ ih => exact (grows_withIdentifyingKey u owner).name_eq.trans ih

theorem hasForeignKey (h : t.Owned owners t') : t'.HasForeignKey name ↔
    t.HasForeignKey name ∨ ∃ owner ∈ owners, name = foreignKeyName owner := by
  induction h with
  | refl => simp
  | @step u _ owner _ ih =>
    rw [hasForeignKey_withIdentifyingKey, ih, List.exists_mem_cons_iff, or_assoc]
    exact or_congr_right or_comm

/-- **The names of a table after any number of owners.** -/
theorem namesKept (h : t.Owned owners t') (hdistinct : t.Distinct) : NamesKept t owners t' := by
  induction h with
  | refl => exact .refl hdistinct
  | step owner _ ih => exact ih.step owner

end Owned

end Table

end Schemata
