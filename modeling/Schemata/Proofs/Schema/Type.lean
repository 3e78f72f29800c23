import Schemata.Proofs.Schema.Unique

/-!
# The types of foreign keys

A foreign key that is placed in a table gets the type of the key that it leads to
(`Table.TypedFor`). A column that is made a key for the sake of an owner keeps its type:
`reference_withIdentifyingKey` tells where a reference comes from. All other columns stay as they
are, so that the types of the columns referred to are kept too.
-/

namespace Schemata

namespace Table

variable {t other owner : Table} {d : Column} {r : Reference}

/-- A column that refers to a table and has the type of its key. -/
structure TypedFor (other : Table) (d : Column) : Prop where
  name_eq : d.name = foreignKeyName other.name
  isForeignKey : d.isForeignKey = true
  dataType_eq : d.dataType = other.referencedKey.dataType
  references_eq : d.references = some other.reference

/-- A column of a table that has been given a foreign key was there before, or is the foreign key
and was none before. -/
theorem mem_columns_withForeignKey (h : t.Distinct) (hconsistent : ∀ c ∈ t.columns, c.IsConsistent)
    (hd : d ∈ (t.withForeignKey other).columns) :
    d ∈ t.columns ∨ TypedFor other d ∧ ¬t.HasForeignKey d.name := by
  rcases withForeignKey_cases t other with
    ⟨hnone, heq⟩ | ⟨c, hc, ⟨-, heq⟩ | ⟨hplain, heq⟩⟩ <;> rw [heq] at hd
  · rcases List.mem_append.1 hd with hd | hd
    · exact .inl hd
    · obtain rfl := List.mem_singleton.1 hd
      refine .inr ⟨⟨rfl, rfl, rfl, rfl⟩, fun hforeign => ?_⟩
      exact hasColumn_eq_false hnone hforeign.hasColumn
  · exact .inl hd
  · obtain ⟨hmem, hname⟩ := mem_of_column? hc
    obtain ⟨e, he, ⟨-, rfl⟩ | ⟨-, rfl⟩⟩ := mem_columns_mapColumns.1 hd
    · refine .inr ⟨⟨hname, rfl, rfl, rfl⟩, ?_⟩
      rintro ⟨c', hc', hforeign, hname'⟩
      obtain rfl := h.eq_of_name hc' hmem hname'
      have hsome : c'.references.isSome = true := (hconsistent c' hmem).symm.trans hforeign
      rw [Column.foreignKey?, if_pos hforeign] at hplain
      simp [hplain] at hsome
    · exact .inl he

/-- The columns of a table that has been identified through an owner. -/
theorem withIdentifyingKey_cases (hd : d ∈ (t.withIdentifyingKey owner).1.columns) :
    d ∈ t.columns ∨
      (d = owner.newOwnerKey ∧ ¬t.hasColumn d.name = true) ∨
      (∃ c ∈ t.columns, c.name = foreignKeyName owner.name ∧ d = ownerKey owner c) ∨
      (d = .partialKey ∧ t.Loses owner) := by
  rcases mem_columns_withIdentifyingKey.1 hd with hd | ⟨hpartial, hlost⟩
  · rcases columnsWithOwner_cases t owner with ⟨hnone, heq⟩ | ⟨c, hc, heq⟩ <;> rw [heq] at hd
    · rcases List.mem_cons.1 hd with rfl | hd
      · exact .inr (.inl ⟨rfl, hasColumn_eq_false hnone⟩)
      · exact .inl hd
    · obtain ⟨hmem, hname⟩ := mem_of_column? hc
      obtain ⟨e, he, ⟨-, rfl⟩ | ⟨-, rfl⟩⟩ := mem_columns_mapColumns.1 hd
      · exact .inr (.inr (.inl ⟨c, hmem, hname, rfl⟩))
      · exact .inl he
  · exact .inr (.inr (.inr ⟨hpartial, loses_iff.2 hlost⟩))

/-- A column that was there before an owner keeps its type, and stays a foreign key if it is one. -/
theorem exists_dataType_withIdentifyingKey (h : (t.withIdentifyingKey owner).1.Distinct)
    (hd : d ∈ (t.withIdentifyingKey owner).1.columns) (hname : t.hasColumn d.name = true) :
    ∃ c ∈ t.columns, c.name = d.name ∧ c.dataType = d.dataType ∧
      (c.isForeignKey = true → d.isForeignKey = true) := by
  rcases withIdentifyingKey_cases hd with hd | ⟨-, hnew⟩ | ⟨c, hc, -, rfl⟩ | ⟨rfl, hlost⟩
  · exact ⟨d, hd, rfl, rfl, id⟩
  · exact absurd hname hnew
  · exact ⟨c, hc, rfl, rfl, fun _ => rfl⟩
  · exact absurd (.inl hname) ((distinct_withIdentifyingKey.1 h).2 hlost)

/-- A reference in a table with an owner was there before, leads to the owner in a column of the
right type, or leads to the owner in a column that was none before. -/
theorem reference_withIdentifyingKey (hd : d ∈ (t.withIdentifyingKey owner).1.columns)
    (hr : d.references = some r) :
    (∃ c ∈ t.columns, c.name = d.name ∧ c.dataType = d.dataType ∧ c.references = some r) ∨
      TypedFor owner d ∨
      ∃ c ∈ t.columns, c.name = d.name ∧ c.references = none ∧
        d.name = foreignKeyName owner.name := by
  rcases withIdentifyingKey_cases hd with hd | ⟨rfl, -⟩ | ⟨c, hc, hname, rfl⟩ | ⟨rfl, -⟩
  · exact .inl ⟨d, hd, rfl, rfl, hr⟩
  · exact .inr (.inl ⟨rfl, rfl, rfl, rfl⟩)
  · have hr : c.references.getD owner.reference = r := Option.some.inj hr
    cases hold : c.references with
    | some old =>
      rw [hold, Option.getD_some] at hr
      exact .inl ⟨c, hc, rfl, rfl, hold.trans (congrArg some hr)⟩
    | none => exact .inr (.inr ⟨c, hc, rfl, hold, hname⟩)
  · simp [Column.partialKey] at hr

/-- A plain column that comes to refer to an owner was there before all owners: the one that
completes the key cannot, for then another one has to. -/
theorem NamesKept.hasColumn_of_plain {u : Table} {owners : List String} (h : NamesKept t owners u)
    (hdistinct : (u.withIdentifyingKey owner).1.Distinct) {c : Column} (hc : c ∈ u.columns)
    (hplain : c.isForeignKey = false) (hname : c.name = foreignKeyName owner.name) :
    t.hasColumn c.name = true ∧ ¬u.HasForeignKey c.name := by
  have hu : u.Distinct := (distinct_withIdentifyingKey.1 hdistinct).1
  have hno : ¬u.HasForeignKey c.name := by
    rintro ⟨d, hd, hforeign, hdc⟩
    rw [hu.eq_of_name hd hc hdc, hplain] at hforeign
    contradiction
  refine ⟨?_, hno⟩
  rcases h.origin c.name (hasColumn_iff.2 ⟨c, hc, rfl⟩) with hcolumn | hforeign | ⟨hpartial, hown⟩
  · exact hcolumn
  · exact absurd hforeign hno
  · obtain ⟨c', hc', hown, hname'⟩ := hown
    rcases h.own c' hc' hown with hkey | ⟨-, -, hall⟩
    · obtain ⟨key, hkey, hkey_name⟩ := List.mem_map.1 hkey
      exact hasColumn_iff.2 ⟨key, (mem_keyColumns.1 hkey).1, hkey_name.trans hname'⟩
    · have hforeign : (u.withIdentifyingKey owner).1.HasForeignKey partialKeyName :=
        (hasForeignKey_withIdentifyingKey u owner).2 (.inr (hpartial.symm.trans hname))
      exact absurd ⟨List.cons_ne_nil _ _, hall.withIdentifyingKey owner, .inr hforeign⟩
        ((h.step owner).distinct_iff.1 hdistinct)

end Table

end Schemata
