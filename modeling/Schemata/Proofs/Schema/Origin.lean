import Schemata.Proofs.Schema.Unique

/-!
# Where the columns of a table come from

Foreign keys are placed in a table at its end or in columns that are there (`Table.Enlarged`). Of
the columns that belong to the key without being references (`Table.ownKeys`) a table loses those
that are to refer to its owners, and gets one if none would be left (`Table.Owned.ownKeys_eq`).

Both say all that matters of a table without mention of the order in which it came to its
references. So two tables that were made of one table through the same references in two orders
resemble each other (`Table.Enlarged.resembles`, `Table.Owned.resembles`): for each column of the
one there is a column of the other that differs in what is taken over from other tables only.
-/

namespace Schemata

/-- A column that is as it was, or has come to be a foreign key. -/
structure Column.Raised (c d : Column) : Prop where
  name_eq : d.name = c.name
  isPrimaryKey_eq : d.isPrimaryKey = c.isPrimaryKey
  isNullable_eq : d.isNullable = c.isNullable
  isUnique_eq : d.isUnique = c.isUnique
  eq_or : d = c ∨ c.isForeignKey = false ∧ d.isForeignKey = true

/-- A foreign key that was put at the end of a table. -/
structure Column.IsAppended (c : Column) : Prop where
  isForeignKey : c.isForeignKey = true
  isPrimaryKey : c.isPrimaryKey = false
  isNullable : c.isNullable = true
  isUnique : c.isUnique = false

/-- A key column that refers to an owner of its table. -/
structure Column.IsOwnerKey (c : Column) : Prop where
  isPrimaryKey : c.isPrimaryKey = true
  isForeignKey : c.isForeignKey = true
  isNullable : c.isNullable = false

/-- Two columns that agree in all that they have of their own. Foreign keys may differ in their
types and in what they refer to, and key columns in whether they are unique. -/
structure Column.Resembles (c d : Column) : Prop where
  name_eq : d.name = c.name
  isPrimaryKey_eq : d.isPrimaryKey = c.isPrimaryKey
  isForeignKey_eq : d.isForeignKey = c.isForeignKey
  isNullable_eq : d.isNullable = c.isNullable
  isUnique_eq : c.isPrimaryKey = false → d.isUnique = c.isUnique
  dataType_eq : c.isForeignKey = false → d.dataType = c.dataType

theorem Column.Raised.refl (c : Column) : c.Raised c :=
  ⟨rfl, rfl, rfl, rfl, .inl rfl⟩

theorem Column.Raised.trans {c d e : Column} (h : c.Raised d) (h' : d.Raised e) : c.Raised e where
  name_eq := h'.name_eq.trans h.name_eq
  isPrimaryKey_eq := h'.isPrimaryKey_eq.trans h.isPrimaryKey_eq
  isNullable_eq := h'.isNullable_eq.trans h.isNullable_eq
  isUnique_eq := h'.isUnique_eq.trans h.isUnique_eq
  eq_or := by
    rcases h.eq_or with rfl | ⟨hplain, hforeign⟩
    · exact h'.eq_or
    · rcases h'.eq_or with rfl | ⟨hno, -⟩
      · exact .inr ⟨hplain, hforeign⟩
      · rw [hforeign] at hno
        contradiction

/-- A foreign key is not changed. -/
theorem Column.Raised.eq_of_isForeignKey {c d : Column} (h : c.Raised d)
    (hforeign : c.isForeignKey = true) : d = c := by
  refine h.eq_or.resolve_right fun hplain => ?_
  rw [hforeign] at hplain
  exact absurd hplain.1 (by simp)

/-- A column that is no foreign key has not been changed. -/
theorem Column.Raised.eq_of_plain {c d : Column} (h : c.Raised d)
    (hplain : d.isForeignKey = false) : d = c := by
  refine h.eq_or.resolve_right fun hforeign => ?_
  rw [hplain] at hforeign
  exact absurd hforeign.2 (by simp)

theorem Column.Resembles.refl (c : Column) : c.Resembles c :=
  ⟨rfl, rfl, rfl, rfl, fun _ => rfl, fun _ => rfl⟩

/-- Two columns that were made of one resemble each other if both are foreign keys or neither is. -/
theorem Column.Raised.resembles {a c d : Column} (h : a.Raised c) (h' : a.Raised d)
    (hforeign : d.isForeignKey = c.isForeignKey) : c.Resembles d where
  name_eq := h'.name_eq.trans h.name_eq.symm
  isPrimaryKey_eq := h'.isPrimaryKey_eq.trans h.isPrimaryKey_eq.symm
  isForeignKey_eq := hforeign
  isNullable_eq := h'.isNullable_eq.trans h.isNullable_eq.symm
  isUnique_eq _ := h'.isUnique_eq.trans h.isUnique_eq.symm
  dataType_eq hplain := by
    rw [h.eq_of_plain hplain, h'.eq_of_plain (hforeign.trans hplain)]

theorem Column.IsAppended.resembles {c d : Column} (h : c.IsAppended) (h' : d.IsAppended)
    (hname : d.name = c.name) : c.Resembles d where
  name_eq := hname
  isPrimaryKey_eq := h'.isPrimaryKey.trans h.isPrimaryKey.symm
  isForeignKey_eq := h'.isForeignKey.trans h.isForeignKey.symm
  isNullable_eq := h'.isNullable.trans h.isNullable.symm
  isUnique_eq _ := h'.isUnique.trans h.isUnique.symm
  dataType_eq hplain := by
    rw [h.isForeignKey] at hplain
    contradiction

theorem Column.IsOwnerKey.resembles {c d : Column} (h : c.IsOwnerKey) (h' : d.IsOwnerKey)
    (hname : d.name = c.name) : c.Resembles d where
  name_eq := hname
  isPrimaryKey_eq := h'.isPrimaryKey.trans h.isPrimaryKey.symm
  isForeignKey_eq := h'.isForeignKey.trans h.isForeignKey.symm
  isNullable_eq := h'.isNullable.trans h.isNullable.symm
  isUnique_eq hkey := by
    rw [h.isPrimaryKey] at hkey
    contradiction
  dataType_eq hplain := by
    rw [h.isForeignKey] at hplain
    contradiction

namespace Table

variable {t t' t'' p p' w w' owner : Table} {owners owners' : List String} {name : String}

/-- The columns that belong to the key without being references, in order. -/
def ownKeys (t : Table) : List Column :=
  t.columns.filter isOwnKey

/-- Two tables whose columns resemble each other, with the same key columns of their own. -/
structure Resembles (t t' : Table) : Prop where
  columns : ∀ c ∈ t.columns, ∃ d ∈ t'.columns, c.Resembles d
  ownKeys_eq : t'.ownKeys = t.ownKeys
  many_iff : 1 < t'.keyColumns.length ↔ 1 < t.keyColumns.length

theorem mem_ownKeys {c : Column} : c ∈ t.ownKeys ↔ c ∈ t.columns ∧ isOwnKey c = true :=
  List.mem_filter

theorem Distinct.isForeignKey_iff (h : t.Distinct) {c : Column} (hc : c ∈ t.columns) :
    c.isForeignKey = true ↔ t.HasForeignKey c.name := by
  constructor
  · exact fun hforeign => ⟨c, hc, hforeign, rfl⟩
  · rintro ⟨d, hd, hforeign, hname⟩
    rwa [← h.eq_of_name hd hc hname]

/-! ## Foreign keys that are placed -/

/-- A table in which foreign keys have been placed. -/
def Enlarged (t t' : Table) : Prop :=
  ∃ (f : Column → Column) (new : List Column), t'.columns = t.columns.map f ++ new ∧
    (∀ c ∈ t.columns, c.Raised (f c)) ∧ ∀ c ∈ new, c.IsAppended

theorem Enlarged.refl (t : Table) : t.Enlarged t :=
  ⟨id, [], by simp, fun c _ => .refl c, by simp⟩

theorem Enlarged.trans (h : t.Enlarged t') (h' : t'.Enlarged t'') : t.Enlarged t'' := by
  obtain ⟨f, new, hcolumns, hf, hnew⟩ := h
  obtain ⟨g, new', hcolumns', hg, hnew'⟩ := h'
  rw [hcolumns] at hcolumns' hg
  refine ⟨g ∘ f, new ++ new', ?_, fun c hc => ?_, fun c hc => ?_⟩
  · have hsame : new.map g = new := by
      refine (List.map_congr_left fun c hc => ?_).trans (List.map_id new)
      exact (hg c (List.mem_append_right _ hc)).eq_of_isForeignKey (hnew c hc).isForeignKey
    rw [hcolumns', List.map_append, hsame, List.map_map, List.append_assoc]
  · exact (hf c hc).trans (hg (f c) (List.mem_append_left _ (List.mem_map_of_mem hc)))
  · exact (List.mem_append.1 hc).elim (hnew c) (hnew' c)

theorem enlarged_withForeignKey (h : t.Distinct) (hconsistent : ∀ c ∈ t.columns, c.IsConsistent)
    (other : Table) : t.Enlarged (t.withForeignKey other) := by
  rcases withForeignKey_cases t other with
    ⟨-, heq⟩ | ⟨c, hc, ⟨-, heq⟩ | ⟨hnone, heq⟩⟩ <;> rw [heq]
  · refine ⟨id, [other.foreignKeyColumn (foreignKeyName other.name) true], by simp,
      fun c _ => .refl c, fun c hc => ?_⟩
    rw [List.mem_singleton.1 hc]
    exact ⟨rfl, rfl, rfl, rfl⟩
  · exact .refl t
  · obtain ⟨hmem, hname⟩ := mem_of_column? hc
    have hplain : c.isForeignKey = false := by
      by_contra hforeign
      rw [Bool.not_eq_false] at hforeign
      have hsome : c.references.isSome = true := (hconsistent c hmem).symm.trans hforeign
      rw [Column.foreignKey?, if_pos hforeign] at hnone
      simp [hnone] at hsome
    refine ⟨fun d => if d.name == foreignKeyName other.name then other.referring c else d, [], ?_,
      fun d hd => ?_, by simp⟩
    · rw [List.append_nil]
      rfl
    · dsimp only
      split
      · rename_i hfk
        obtain rfl := h.eq_of_column? hc hd (by simpa using hfk)
        exact ⟨rfl, rfl, rfl, rfl, .inr ⟨hplain, rfl⟩⟩
      · exact .refl d

/-- A foreign key stays as it is. -/
theorem Enlarged.mem_columns (h : t.Enlarged t') {c : Column} (hc : c ∈ t.columns)
    (hforeign : c.isForeignKey = true) : c ∈ t'.columns := by
  obtain ⟨f, new, hcolumns, hf, -⟩ := h
  rw [hcolumns, ← (hf c hc).eq_of_isForeignKey hforeign]
  exact List.mem_append_left _ (List.mem_map_of_mem hc)

theorem Enlarged.keyNames_eq (h : t.Enlarged t') : t'.keyNames = t.keyNames := by
  obtain ⟨f, new, hcolumns, hf, hnew⟩ := h
  have hnone : new.filter (·.isPrimaryKey) = [] := by
    refine List.filter_eq_nil_iff.2 fun c hc => ?_
    rw [(hnew c hc).isPrimaryKey]
    simp
  have hkeys : (t.columns.map f).filter (·.isPrimaryKey) = t.keyColumns.map f := by
    rw [List.filter_map]
    refine congrArg _ (List.filter_congr fun c hc => ?_)
    exact (hf c hc).isPrimaryKey_eq
  rw [keyNames, keyColumns, hcolumns, List.filter_append, hnone, List.append_nil, hkeys,
    List.map_map, keyNames]
  exact List.map_congr_left fun c hc => (hf c (mem_keyColumns.1 hc).1).name_eq

section Enlarged

variable (h : t.Enlarged p) (h' : t.Enlarged p') (hdistinct : p.Distinct)
  (hdistinct' : p'.Distinct) (hforeign : ∀ name, p'.HasForeignKey name ↔ p.HasForeignKey name)

include h h' hdistinct hdistinct' hforeign

/-- What is left of the key without references depends on the foreign keys only. -/
theorem Enlarged.ownKeys_eq : p'.ownKeys = p.ownKeys := by
  obtain ⟨f, new, hcolumns, hf, hnew⟩ := h
  obtain ⟨g, new', hcolumns', hg, hnew'⟩ := h'
  have hnone : ∀ new : List Column, (∀ c ∈ new, c.IsAppended) → new.filter isOwnKey = [] := by
    intro new hnew
    refine List.filter_eq_nil_iff.2 fun c hc => ?_
    simp [isOwnKey, (hnew c hc).isPrimaryKey]
  have hsame : ∀ c ∈ t.columns, isOwnKey (g c) = isOwnKey (f c) := by
    intro c hc
    have hmem : f c ∈ p.columns := hcolumns ▸ List.mem_append_left _ (List.mem_map_of_mem hc)
    have hmem' : g c ∈ p'.columns := hcolumns' ▸ List.mem_append_left _ (List.mem_map_of_mem hc)
    have hiff : (g c).isForeignKey = true ↔ (f c).isForeignKey = true := by
      rw [hdistinct.isForeignKey_iff hmem, hdistinct'.isForeignKey_iff hmem', (hf c hc).name_eq,
        (hg c hc).name_eq, hforeign]
    rw [isOwnKey, isOwnKey, (hf c hc).isPrimaryKey_eq, (hg c hc).isPrimaryKey_eq,
      Bool.eq_iff_iff.2 hiff]
  have hfilter : t.columns.filter (isOwnKey ∘ g) = t.columns.filter (isOwnKey ∘ f) :=
    List.filter_congr hsame
  rw [ownKeys, ownKeys, hcolumns, hcolumns', List.filter_append, List.filter_append, hnone _ hnew,
    hnone _ hnew', List.append_nil, List.append_nil, List.filter_map, List.filter_map, hfilter]
  refine List.map_congr_left fun c hc => ?_
  obtain ⟨hmem, hown⟩ := List.mem_filter.1 hc
  have hplain := (isOwnKey_iff.1 hown).2
  have hplain' := (isOwnKey_iff.1 ((hsame c hmem).trans hown)).2
  rw [(hf c hmem).eq_of_plain hplain, (hg c hmem).eq_of_plain hplain']

/-- **The order in which foreign keys are placed** does not matter but for what they take over from
the tables that they refer to. -/
theorem Enlarged.resembles : p.Resembles p' where
  ownKeys_eq := h.ownKeys_eq h' hdistinct hdistinct' hforeign
  many_iff := by
    rw [← List.length_map (·.name), ← keyNames, h'.keyNames_eq, ← h.keyNames_eq, keyNames,
      List.length_map]
  columns := by
    obtain ⟨f, new, hcolumns, hf, hnew⟩ := h
    obtain ⟨g, new', hcolumns', hg, hnew'⟩ := h'
    intro c hc
    have hc' := hc
    rw [hcolumns] at hc
    rcases List.mem_append.1 hc with hc | hc
    · obtain ⟨a, ha, rfl⟩ := List.mem_map.1 hc
      have hmem : g a ∈ p'.columns := hcolumns' ▸ List.mem_append_left _ (List.mem_map_of_mem ha)
      refine ⟨g a, hmem, (hf a ha).resembles (hg a ha) (Bool.eq_iff_iff.2 ?_)⟩
      rw [hdistinct.isForeignKey_iff hc', hdistinct'.isForeignKey_iff hmem, (hf a ha).name_eq,
        (hg a ha).name_eq, hforeign]
    · -- the column is not one of the table that both were made of
      have hfree : ∀ a ∈ t.columns, a.name ≠ c.name := by
        intro a ha
        have hdisjoint := hdistinct
        rw [Distinct, hcolumns, List.map_append, List.nodup_append] at hdisjoint
        rw [← (hf a ha).name_eq]
        exact hdisjoint.2.2 _ (List.mem_map_of_mem (List.mem_map_of_mem ha)) _
          (List.mem_map_of_mem hc)
      obtain ⟨d, hd, -, hname⟩ := (hforeign c.name).2
        ((hdistinct.isForeignKey_iff hc').1 (hnew c hc).isForeignKey)
      have hd' := hd
      rw [hcolumns'] at hd
      rcases List.mem_append.1 hd with hd | hd
      · obtain ⟨a, ha, rfl⟩ := List.mem_map.1 hd
        exact absurd ((hg a ha).name_eq.symm.trans hname) (hfree a ha)
      · exact ⟨d, hd', (hnew c hc).resembles (hnew' d hd) hname⟩

end Enlarged

/-! ## Owners -/

/-- Whether a column is called after none of the owners. -/
def isApart (owners : List String) (c : Column) : Bool :=
  owners.all fun owner => c.name != foreignKeyName owner

/-- The key columns of its own of a table with owners: another one is added if none is left. -/
def completed (own : List Column) : List Column :=
  if own.isEmpty then [.partialKey] else own

theorem isApart_iff {c : Column} :
    isApart owners c = true ↔ ∀ owner ∈ owners, c.name ≠ foreignKeyName owner := by
  simp [isApart]

theorem ownKeys_columnsWithOwner (t owner : Table) :
    (columnsWithOwner t.columns owner).filter isOwnKey =
      t.ownKeys.filter (isApart [owner.name]) := by
  rcases columnsWithOwner_cases t owner with ⟨hnone, heq⟩ | ⟨c, hc, heq⟩ <;> rw [heq]
  · have hall : t.ownKeys.filter (isApart [owner.name]) = t.ownKeys := by
      refine List.filter_eq_self.2 fun d hd => isApart_iff.2 ?_
      simpa using name_ne_of_column?_eq_none hnone (mem_ownKeys.1 hd).1
    rw [hall, List.filter_cons_of_neg (by simp [isOwnKey, newOwnerKey, foreignKeyColumn])]
    rfl
  · have hown : ∀ d ∈ t.columns, isOwnKey
        (if d.name == foreignKeyName owner.name then ownerKey owner c else d) =
          (isApart [owner.name] d && isOwnKey d) := by
      intro d _
      by_cases hfk : d.name = foreignKeyName owner.name <;> simp [hfk, isApart, isOwnKey, ownerKey]
    rw [ownKeys, List.filter_filter, mapColumns, List.filter_map, ← List.filter_congr hown]
    refine (List.map_congr_left fun d hd => ?_).trans (List.map_id _)
    obtain ⟨hmem, hkeeps⟩ := List.mem_filter.1 hd
    rw [Function.comp_apply, hown d hmem, Bool.and_eq_true] at hkeeps
    have hne := isApart_iff.1 hkeeps.1 owner.name (by simp)
    simp [hne]

theorem ownKeys_withIdentifyingKey (t owner : Table) : (t.withIdentifyingKey owner).1.ownKeys =
    completed (t.ownKeys.filter (isApart [owner.name])) := by
  rw [← ownKeys_columnsWithOwner]
  unfold withIdentifyingKey
  dsimp only
  split
  · rename_i hany
    obtain ⟨c, hc, hown⟩ := List.any_eq_true.1 hany
    have hne := List.ne_nil_of_mem (List.mem_filter.2 ⟨hc, hown⟩)
    rw [completed, if_neg (by simpa using hne)]
    rfl
  · rename_i hany
    have hnil : (columnsWithOwner t.columns owner).filter isOwnKey = [] := by
      refine List.filter_eq_nil_iff.2 fun c hc hown => hany ?_
      exact List.any_eq_true.2 ⟨c, hc, hown⟩
    obtain ⟨c, hc, hname, -⟩ := exists_ownerKey t owner
    have hperm := (perm_insertAfter (c := .partialKey) ⟨c, hc, hname⟩).filter isOwnKey
    rw [List.filter_cons_of_pos (by rfl), hnil] at hperm
    rw [hnil]
    exact List.perm_singleton.1 hperm

/-- **What is left of the key without references** depends on which the owners are. -/
theorem Owned.ownKeys_eq (h : p.Owned owners w) : w.ownKeys =
    if owners.isEmpty then p.ownKeys else completed (p.ownKeys.filter (isApart owners)) := by
  induction h with
  | refl => rfl
  | @step u owners owner h ih =>
    rw [ownKeys_withIdentifyingKey, ih]
    cases owners with
    | nil => rfl
    | cons first owners =>
      have hfilter : p.ownKeys.filter (isApart (owner.name :: first :: owners)) =
          (p.ownKeys.filter (isApart (first :: owners))).filter (isApart [owner.name]) := by
        rw [List.filter_filter]
        exact List.filter_congr fun c _ => by simp [isApart]
      simp only [List.isEmpty_cons, Bool.false_eq_true, if_false]
      rw [hfilter]
      by_cases hnil : p.ownKeys.filter (isApart (first :: owners)) = []
      · have hnew : completed [] = [.partialKey] := rfl
        rw [hnil, hnew, List.filter_nil, hnew]
        by_cases hpartial : isApart [owner.name] .partialKey = true
        · rw [List.filter_cons_of_pos hpartial]
          rfl
        · rw [List.filter_cons_of_neg hpartial]
          rfl
      · have hkeeps : completed (p.ownKeys.filter (isApart (first :: owners))) =
            p.ownKeys.filter (isApart (first :: owners)) := by
          rw [completed, if_neg (by simpa using hnil)]
        rw [hkeeps]

theorem exists_isOwnerKey (t owner : Table) :
    ∃ c ∈ (t.withIdentifyingKey owner).1.columns, c.name = foreignKeyName owner.name ∧
      c.IsOwnerKey := by
  have hmem : ∀ {c : Column}, c ∈ columnsWithOwner t.columns owner →
      c ∈ (t.withIdentifyingKey owner).1.columns :=
    fun hc => mem_columns_withIdentifyingKey.2 (.inl hc)
  rcases columnsWithOwner_cases t owner with ⟨-, heq⟩ | ⟨c, hc, heq⟩
  · exact ⟨_, hmem (heq ▸ List.mem_cons_self), rfl, rfl, rfl, rfl⟩
  · obtain ⟨hc, hname⟩ := mem_of_column? hc
    have hkey : ownerKey owner c ∈ columnsWithOwner t.columns owner := by
      rw [heq]
      exact mem_columns_mapColumns.2 ⟨c, hc, .inl ⟨hname, rfl⟩⟩
    exact ⟨_, hmem hkey, hname, rfl, rfl, rfl⟩

/-- A column that is called after none of the owners stays as it is. -/
theorem Owned.mem_columns (h : p.Owned owners w) {c : Column} (hc : c ∈ p.columns)
    (hapart : ∀ owner ∈ owners, c.name ≠ foreignKeyName owner) : c ∈ w.columns := by
  induction h with
  | refl => exact hc
  | step owner h ih =>
    rw [List.forall_mem_cons] at hapart
    have hmem := mem_columnsWithOwner_of_name_ne (ih hapart.2) hapart.1
    exact mem_columns_withIdentifyingKey.2 (.inl hmem)

/-- There is a reference to every owner. -/
theorem Owned.exists_isOwnerKey (h : p.Owned owners w) {name : String} (hname : name ∈ owners) :
    ∃ c ∈ w.columns, c.name = foreignKeyName name ∧ c.IsOwnerKey := by
  induction h with
  | refl => contradiction
  | @step u owners owner h ih =>
    by_cases hfk : foreignKeyName name = foreignKeyName owner.name
    · rw [hfk]
      exact Table.exists_isOwnerKey u owner
    · have hne : name ≠ owner.name := fun heq => hfk (heq ▸ rfl)
      obtain ⟨c, hc, hc_name, hkey⟩ := ih ((List.mem_cons.1 hname).resolve_left hne)
      have hmem := mem_columnsWithOwner_of_name_ne hc (hc_name ▸ hfk)
      exact ⟨c, mem_columns_withIdentifyingKey.2 (.inl hmem), hc_name, hkey⟩

/-- A column of a table with owners is its own key, was there before, or refers to an owner. -/
theorem Owned.column_cases (h : p.Owned owners w) {c : Column} (hc : c ∈ w.columns) :
    isOwnKey c = true ∨ (c ∈ p.columns ∧ ∀ owner ∈ owners, c.name ≠ foreignKeyName owner) ∨
      ∃ owner ∈ owners, c.name = foreignKeyName owner ∧ c.IsOwnerKey := by
  induction h with
  | refl => exact .inr (.inl ⟨hc, by simp⟩)
  | @step u owners owner h ih =>
    rcases mem_columns_withIdentifyingKey.1 hc with hc | ⟨rfl, -⟩
    · rcases mem_columnsWithOwner hc with ⟨hc, hne⟩ | rfl | ⟨d, hd, rfl⟩
      · rcases ih hc with hown | ⟨hc, hapart⟩ | ⟨name, hname, hkey⟩
        · exact .inl hown
        · exact .inr (.inl ⟨hc, List.forall_mem_cons.2 ⟨hne, hapart⟩⟩)
        · exact .inr (.inr ⟨name, List.mem_cons_of_mem _ hname, hkey⟩)
      · exact .inr (.inr ⟨owner.name, List.mem_cons_self, rfl, rfl, rfl, rfl⟩)
      · exact .inr (.inr ⟨owner.name, List.mem_cons_self, (mem_of_column? hd).2, rfl, rfl, rfl⟩)
    · exact .inl rfl

/-- A reference stays in its column, and the column keeps its type. -/
theorem Owned.exists_references (h : p.Owned owners w) (hdistinct : w.Distinct) {c : Column}
    (hc : c ∈ p.columns) {r : Reference} (hr : c.references = some r) :
    ∃ d ∈ w.columns, d.name = c.name ∧ d.dataType = c.dataType ∧ d.references = some r := by
  induction h with
  | refl => exact ⟨c, hc, rfl, rfl, hr⟩
  | @step u owners owner h ih =>
    have hu : u.Distinct := (distinct_withIdentifyingKey.1 hdistinct).1
    obtain ⟨d, hd, hname, htype, hr'⟩ := ih hu
    have hmem : ∀ {d : Column}, d ∈ columnsWithOwner u.columns owner →
        d ∈ (u.withIdentifyingKey owner).1.columns :=
      fun hd => mem_columns_withIdentifyingKey.2 (.inl hd)
    by_cases hfk : d.name = foreignKeyName owner.name
    · rcases columnsWithOwner_cases u owner with ⟨hnone, -⟩ | ⟨first, hfirst, heq⟩
      · exact absurd hfk (name_ne_of_column?_eq_none hnone hd)
      · obtain rfl := hu.eq_of_column? hfirst hd hfk
        have hkey : ownerKey owner d ∈ columnsWithOwner u.columns owner := by
          rw [heq]
          exact mem_columns_mapColumns.2 ⟨d, hd, .inl ⟨hfk, rfl⟩⟩
        refine ⟨_, hmem hkey, hname, htype, ?_⟩
        rw [ownerKey, hr', Option.getD_some]
    · exact ⟨d, hmem (mem_columnsWithOwner_of_name_ne hd hfk), hname, htype, hr'⟩

theorem Owned.one_lt_length (h : p.Owned owners w) (hne : owners ≠ []) :
    1 < w.keyColumns.length := by
  cases h with
  | refl => contradiction
  | @step u owners owner h =>
    obtain ⟨c, hc, -, hkey⟩ := Table.exists_isOwnerKey u owner
    have hpos := List.length_pos_of_mem (mem_keyColumns.2 ⟨hc, hkey.isPrimaryKey⟩)
    by_contra hle
    have hlength : (u.withIdentifyingKey owner).1.keyColumns.length = 1 := by omega
    obtain ⟨key, hone⟩ := List.length_eq_one_iff.1 hlength
    refine keyNames_withIdentifyingKey_ne u owner key.name ?_
    rw [keyNames, hone, List.map_singleton]

/-- **The order of the owners** does not matter but for what is taken over from them. -/
theorem Owned.resembles (h : p.Owned owners w) (h' : p'.Owned owners' w')
    (howners : ∀ name, name ∈ owners' ↔ name ∈ owners) (hp : p.Resembles p') : w.Resembles w' := by
  have hown : w'.ownKeys = w.ownKeys := by
    have hempty : owners'.isEmpty = owners.isEmpty := by
      rw [Bool.eq_iff_iff, List.isEmpty_iff, List.isEmpty_iff, List.eq_nil_iff_forall_not_mem,
        List.eq_nil_iff_forall_not_mem]
      exact forall_congr' fun name => not_congr (howners name)
    have hapart : ∀ c, isApart owners' c = isApart owners c := by
      intro c
      rw [Bool.eq_iff_iff, isApart_iff, isApart_iff]
      exact forall_congr' fun name => imp_congr_left (howners name)
    rw [h'.ownKeys_eq, h.ownKeys_eq, hempty, hp.ownKeys_eq, funext hapart]
  refine ⟨fun c hc => ?_, hown, ?_⟩
  · rcases h.column_cases hc with hkey | ⟨hc, hapart⟩ | ⟨owner, howner, hname, hkey⟩
    · have hmem : c ∈ w'.ownKeys := hown ▸ mem_ownKeys.2 ⟨hc, hkey⟩
      exact ⟨c, (mem_ownKeys.1 hmem).1, .refl c⟩
    · obtain ⟨d, hd, hresembles⟩ := hp.columns c hc
      refine ⟨d, h'.mem_columns hd fun owner howner => ?_, hresembles⟩
      rw [hresembles.name_eq]
      exact hapart owner ((howners owner).1 howner)
    · obtain ⟨d, hd, hname', hkey'⟩ := h'.exists_isOwnerKey ((howners owner).2 howner)
      exact ⟨d, hd, hkey.resembles hkey' (hname'.trans hname.symm)⟩
  · by_cases hnil : owners = []
    · have hnil' : owners' = [] := by
        rw [List.eq_nil_iff_forall_not_mem] at hnil ⊢
        exact fun name hname => hnil name ((howners name).1 hname)
      subst hnil hnil'
      cases h
      cases h'
      exact hp.many_iff
    · have hnil' : owners' ≠ [] := by
        obtain ⟨name, hname⟩ := List.exists_mem_of_ne_nil _ hnil
        exact List.ne_nil_of_mem ((howners name).2 hname)
      exact iff_of_true (h'.one_lt_length hnil') (h.one_lt_length hnil)

/-! ## The key in front -/

theorem ownKeys_eq_filter (t : Table) : t.ownKeys = t.keyColumns.filter (!·.isForeignKey) := by
  rw [ownKeys, keyColumns, List.filter_filter]
  exact List.filter_congr fun c _ => Bool.and_comm _ _

/-- Where a key has several columns, the one that references are moved to is the first of its own
columns. -/
theorem ownKeys_head? (hmany : 1 < t.keyColumns.length) : t.ownKeys.head? =
    if t.referencedKey.isForeignKey then none else some t.referencedKey := by
  rw [ownKeys_eq_filter, List.head?_filter]
  unfold referencedKey
  split
  · simp_all
  · simp_all
  · rename_i key keys _ hkeys
    rcases Option.eq_none_or_eq_some ((key :: keys).find? (!·.isForeignKey)) with
      hnone | ⟨own, hsome⟩
    · have hforeign := List.find?_eq_none.1 hnone key List.mem_cons_self
      rw [hkeys, hnone, Option.getD_none, if_pos (by simpa using hforeign)]
    · have hown := List.find?_some hsome
      rw [hkeys, hsome, Option.getD_some, if_neg (by simpa using hown)]

theorem ownKeys_withContiguousKey (t : Table) :
    t.withContiguousKey.ownKeys = t.ownKeys.map t.settledKey := by
  rw [ownKeys_eq_filter, ownKeys_eq_filter, keyColumns_withContiguousKey, List.filter_map]
  refine congrArg _ (List.filter_congr fun c _ => ?_)
  rw [Function.comp_apply, settledKey_isForeignKey]

theorem resembles_settledKey {c d : Column} (h : c.Resembles d) (hkey : c.isPrimaryKey = true) :
    (w.settledKey c).Resembles (w'.settledKey d) where
  name_eq := by rw [settledKey_name, settledKey_name, h.name_eq]
  isPrimaryKey_eq := by rw [settledKey_isPrimaryKey, settledKey_isPrimaryKey, h.isPrimaryKey_eq]
  isForeignKey_eq := by rw [settledKey_isForeignKey, settledKey_isForeignKey, h.isForeignKey_eq]
  isNullable_eq := by rw [settledKey_isNullable, settledKey_isNullable]
  isUnique_eq hplain := by
    rw [settledKey_isPrimaryKey, hkey] at hplain
    contradiction
  dataType_eq hplain := by
    rw [settledKey_isForeignKey] at hplain
    rw [settledKey_dataType, settledKey_dataType, h.dataType_eq hplain]

theorem exists_references_withContiguousKey {c : Column} (hc : c ∈ t.columns) :
    ∃ d ∈ t.withContiguousKey.columns, d.name = c.name ∧ d.dataType = c.dataType ∧
      d.references = c.references := by
  by_cases hkey : c.isPrimaryKey = true
  · refine ⟨t.settledKey c, List.mem_append_left _ (List.mem_map_of_mem ?_), ?_⟩
    · exact mem_keyColumns.2 ⟨hc, hkey⟩
    · unfold settledKey
      split <;> exact ⟨rfl, rfl, rfl⟩
  · exact ⟨c, List.mem_append_right _ (List.mem_filter.2 ⟨hc, by simpa using hkey⟩), rfl, rfl, rfl⟩

theorem Resembles.withContiguousKey (h : w.Resembles w') :
    w.withContiguousKey.Resembles w'.withContiguousKey where
  columns c hc := by
    rw [columns_withContiguousKey] at hc
    rcases List.mem_append.1 hc with hc | hc
    · obtain ⟨key, hkey, rfl⟩ := List.mem_map.1 hc
      obtain ⟨hmem, hprimary⟩ := mem_keyColumns.1 hkey
      obtain ⟨d, hd, hresembles⟩ := h.columns key hmem
      have hd' := mem_keyColumns.2 ⟨hd, hresembles.isPrimaryKey_eq.trans hprimary⟩
      refine ⟨_, List.mem_append_left _ (List.mem_map_of_mem hd'), ?_⟩
      exact resembles_settledKey hresembles hprimary
    · obtain ⟨hmem, hplain⟩ := List.mem_filter.1 hc
      obtain ⟨d, hd, hresembles⟩ := h.columns c hmem
      refine ⟨d, List.mem_append_right _ (List.mem_filter.2 ⟨hd, ?_⟩), hresembles⟩
      rwa [hresembles.isPrimaryKey_eq]
  ownKeys_eq := by
    have hsettled : w'.settledKey = w.settledKey := by
      funext c
      unfold settledKey
      rw [if_congr h.many_iff rfl rfl]
    rw [ownKeys_withContiguousKey, ownKeys_withContiguousKey, h.ownKeys_eq, hsettled]
  many_iff := by
    rw [keyColumns_withContiguousKey, keyColumns_withContiguousKey, List.length_map,
      List.length_map]
    exact h.many_iff

/-- The column that references to a table lead to has the same name, if the key is a single column
or has a member that is no reference. -/
theorem Resembles.referencedKey_name (h : t.Resembles t') (hne : t.keyColumns ≠ [])
    (hne' : t'.keyColumns ≠ [])
    (hown : t.keyColumns.length = 1 ∨ ∃ key ∈ t.keyColumns, key.isForeignKey = false) :
    t'.referencedKey.name = t.referencedKey.name := by
  by_cases hmany : 1 < t.keyColumns.length
  · have hhead := ownKeys_head? (h.many_iff.2 hmany)
    have hplain := referencedKey_isForeignKey (hown.resolve_left (by omega)) hmany
    rw [h.ownKeys_eq, ownKeys_head? hmany, if_neg (by simp [hplain])] at hhead
    split at hhead
    · contradiction
    · rw [Option.some.inj hhead]
  · have hpos := List.length_pos_iff.2 hne
    have hpos' := List.length_pos_iff.2 hne'
    have hfew := mt h.many_iff.1 hmany
    obtain ⟨key, hkey⟩ := List.length_eq_one_iff.1 (show t.keyColumns.length = 1 by omega)
    obtain ⟨key', hkey'⟩ := List.length_eq_one_iff.1 (show t'.keyColumns.length = 1 by omega)
    obtain ⟨hmem, hprimary⟩ := mem_keyColumns.1 (show key ∈ t.keyColumns by simp [hkey])
    obtain ⟨d, hd, hresembles⟩ := h.columns key hmem
    have hd' := mem_keyColumns.2 ⟨hd, hresembles.isPrimaryKey_eq.trans hprimary⟩
    rw [hkey', List.mem_singleton] at hd'
    have hsole : t.referencedKey = key := by simp [referencedKey, hkey]
    have hsole' : t'.referencedKey = key' := by simp [referencedKey, hkey']
    rw [hsole, hsole', ← hd', hresembles.name_eq]

end Table

end Schemata
