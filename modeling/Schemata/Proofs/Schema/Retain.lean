import Schemata.Proofs.Schema.Origin

/-!
# What columns keep

What is done to a table on the way to a schema changes the flags of its columns and lets some of
them become references. A column that is no reference keeps its name, its type, its default value
and its description (`Column.Retains`), and a table keeps a column of every name (`Table.Carries`).
Each change to a table has its lemma, and `Table.Carries.trans` puts them together.
-/

namespace Schemata

/-- A column that has the name of another and says the same of its contents. -/
structure Column.Retains (c d : Column) : Prop where
  name_eq : d.name = c.name
  dataType_eq : d.dataType = c.dataType
  defaultValue_eq : d.defaultValue = c.defaultValue
  description_eq : d.description = c.description

theorem Column.Retains.refl (c : Column) : c.Retains c :=
  ⟨rfl, rfl, rfl, rfl⟩

theorem Column.Retains.trans {c d e : Column} (h : c.Retains d) (h' : d.Retains e) :
    c.Retains e where
  name_eq := h'.name_eq.trans h.name_eq
  dataType_eq := h'.dataType_eq.trans h.dataType_eq
  defaultValue_eq := h'.defaultValue_eq.trans h.defaultValue_eq
  description_eq := h'.description_eq.trans h.description_eq

namespace Table

/-- A table that has a column of every name that another has, and all that the columns of the other
hold, as far as their names are apart from those of references. -/
structure Carries (apart : String → Prop) (t t' : Table) : Prop where
  hasColumn : ∀ name, t.hasColumn name = true → t'.hasColumn name = true
  retains : ∀ c ∈ t.columns, apart c.name → ∃ d ∈ t'.columns, c.Retains d

variable {apart : String → Prop} {t t' t'' p w : Table}

theorem Carries.trans (h : t.Carries apart t') (h' : t'.Carries apart t'') :
    t.Carries apart t'' where
  hasColumn name hname := h'.hasColumn name (h.hasColumn name hname)
  retains c hc hapart := by
    obtain ⟨d, hd, hcd⟩ := h.retains c hc hapart
    obtain ⟨e, he, hde⟩ := h'.retains d hd (hcd.name_eq ▸ hapart)
    exact ⟨e, he, hcd.trans hde⟩

/-- Where every column is retained, the names are as well. -/
theorem Carries.of_retains (h : ∀ c ∈ t.columns, ∃ d ∈ t'.columns, c.Retains d) :
    t.Carries apart t' where
  hasColumn name hname := by
    obtain ⟨c, hc, rfl⟩ := hasColumn_iff.1 hname
    obtain ⟨d, hd, hcd⟩ := h c hc
    exact hasColumn_iff.2 ⟨d, hd, hcd.name_eq⟩
  retains c hc _ := h c hc

theorem Carries.of_columns_subset (h : t.columns ⊆ t'.columns) : t.Carries apart t' :=
  .of_retains fun c hc => ⟨c, h hc, .refl c⟩

/-- A key column that is made of a column of the table retains what it holds. -/
theorem carries_withPrimaryKey (h : t.Distinct) : t.Carries apart t.withPrimaryKey.1 := by
  rcases withPrimaryKey_cases t with ⟨-, heq⟩ | ⟨-, heq⟩ | ⟨key, hkey, heq⟩ <;> rw [heq]
  · exact .of_columns_subset (List.Subset.refl _)
  · exact .of_columns_subset (List.subset_cons_self _ _)
  · refine .of_retains fun c hc => ?_
    by_cases hname : c.name = defaultKeyName
    · obtain rfl := h.eq_of_column? hkey hc hname
      exact ⟨promote c, mem_columns_mapColumns.2 ⟨c, hc, .inl ⟨hname, rfl⟩⟩, rfl, rfl, rfl, rfl⟩
    · exact ⟨c, mem_columns_mapColumns.2 ⟨c, hc, .inr ⟨hname, rfl⟩⟩, .refl c⟩

theorem carries_withStamp (t : Table) (stamp : String) : t.Carries apart (t.withStamp stamp) := by
  unfold withStamp
  split
  · exact .of_columns_subset (List.Subset.refl _)
  · exact .of_columns_subset (List.subset_append_left _ _)

/-- What makes a table of the columns of an entity. -/
theorem carries_withStamps (h : t.Distinct) : t.Carries apart t.withPrimaryKey.1.withStamps :=
  ((carries_withPrimaryKey h).trans (carries_withStamp _ _)).trans (carries_withStamp _ _)

theorem carries_withContiguousKey (t : Table) : t.Carries apart t.withContiguousKey := by
  refine .of_retains fun c hc => ?_
  rw [columns_withContiguousKey]
  by_cases hkey : c.isPrimaryKey = true
  · have hmem : t.settledKey c ∈ t.keyColumns.map t.settledKey :=
      List.mem_map_of_mem (mem_keyColumns.2 ⟨hc, hkey⟩)
    refine ⟨_, List.mem_append_left _ hmem, ?_⟩
    unfold settledKey
    split <;> exact ⟨rfl, rfl, rfl, rfl⟩
  · exact ⟨c, List.mem_append_right _ (List.mem_filter.2 ⟨hc, by simpa using hkey⟩), .refl c⟩

/-- Foreign keys that are placed change no other column. -/
theorem Enlarged.carries (h : t.Enlarged t')
    (hplain : ∀ d ∈ t'.columns, apart d.name → d.isForeignKey = false) : t.Carries apart t' := by
  obtain ⟨f, new, hcolumns, hf, -⟩ := h
  have hmem : ∀ c ∈ t.columns, f c ∈ t'.columns := fun c hc =>
    hcolumns ▸ List.mem_append_left _ (List.mem_map_of_mem hc)
  constructor
  · intro name hname
    obtain ⟨c, hc, rfl⟩ := hasColumn_iff.1 hname
    exact hasColumn_iff.2 ⟨f c, hmem c hc, (hf c hc).name_eq⟩
  · intro c hc hapart
    have hsame := (hf c hc).eq_of_plain (hplain _ (hmem c hc) ((hf c hc).name_eq.symm ▸ hapart))
    refine ⟨f c, hmem c hc, ?_⟩
    rw [hsame]
    exact .refl c

/-- Owners change none but the references to them. -/
theorem Owned.carries {owners : List String} (h : p.Owned owners w) (hdistinct : p.Distinct)
    (hapart : ∀ owner ∈ owners, ¬apart (foreignKeyName owner)) : p.Carries apart w where
  hasColumn := (h.namesKept hdistinct).grows
  retains c hc hname :=
    ⟨c, h.mem_columns hc fun owner howner heq => hapart owner howner (heq ▸ hname), .refl c⟩

end Table

end Schemata
