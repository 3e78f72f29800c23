import Schemata.Proofs.Normalize.Contract
import Schemata.Proofs.Normalize.Stage
import Schemata.Proofs.Schema.Type

/-!
# The types of the foreign keys of a normalized extraction

When a relationship places a foreign key, the key gets the type of the column that it leads to. It
can lose it in three ways: a key that an entity declares keeps the type that is given there, a plain
column that is made a key for the sake of an owner keeps its type as well, and the type of the
column led to may change afterwards, if that column comes to refer to another table.

`Typed` says that all other foreign keys have the right type, and is kept by every pass. Which keys
are excepted is told by names: `stale` ones, and those that lead to a foreign key which is not
`declared`.
-/

namespace Schemata

open Normalize

/-- A column refers to a column of a table. -/
def Column.LeadsTo (c : Column) (u : Table) (d : Column) : Prop :=
  ∃ r, c.references = some r ∧ r.table = u.name ∧ r.column = d.name

namespace Normalize

variable {declared stale : String → String → Prop} {tables placed : List Table}
  {relationships : List Relationship}

/-- Foreign keys have the type of the columns that they lead to. -/
def Typed (declared stale : String → String → Prop) (tables : List Table) : Prop :=
  ∀ t ∈ tables, ∀ u ∈ tables, t.Distinct → u.Distinct →
    ∀ c ∈ t.columns, ∀ d ∈ u.columns, c.LeadsTo u d → ¬stale t.name c.name →
      (d.isForeignKey = true → declared u.name d.name) → c.dataType = d.dataType

/-- The foreign keys that are declared are there. -/
def Keeps (declared : String → String → Prop) (tables : List Table) : Prop :=
  ∀ t ∈ tables, ∀ u ∈ tables, declared t.name (foreignKeyName u.name) →
    t.HasForeignKey (foreignKeyName u.name)

theorem Keeps.map (h : Keeps declared tables) {f : Table → Table}
    (hname : ∀ t ∈ tables, (f t).name = t.name)
    (hforeign : ∀ t ∈ tables, ∀ name, t.HasForeignKey name → (f t).HasForeignKey name) :
    Keeps declared (tables.map f) := by
  intro t' ht' u' hu' hdeclared
  obtain ⟨t, ht, rfl⟩ := List.mem_map.1 ht'
  obtain ⟨u, hu, rfl⟩ := List.mem_map.1 hu'
  rw [hname t ht, hname u hu] at hdeclared
  rw [hname u hu]
  exact hforeign t ht _ (h t ht u hu hdeclared)

/-- A foreign key that has the type of the key of a table leads to a column of this type. -/
theorem dataType_of_typedFor (h : Linked tables) {u other : Table} (hu : u ∈ tables)
    (hother : other ∈ tables) (hdistinct : u.Distinct) {c d : Column}
    (hc : Table.TypedFor other c) (hd : d ∈ u.columns) (hleads : c.LeadsTo u d) :
    c.dataType = d.dataType := by
  obtain ⟨r, hr, htable, hcolumn⟩ := hleads
  obtain rfl : other.reference = r := Option.some.inj (hc.references_eq.symm.trans hr)
  obtain rfl : other = u := h.eq_of_name hother hu htable
  have hkey := Table.mem_keyColumns.1 (Table.referencedKey_mem (h.keyed other hother))
  rw [hc.dataType_eq, hdistinct.eq_of_name hkey.1 hd hcolumn]

/-! ## Foreign keys of relationships -/

theorem mem_columns_placeIn {other t : Table} {holder : String} (h : t.Distinct)
    (hconsistent : ∀ c ∈ t.columns, c.IsConsistent) {c : Column}
    (hc : c ∈ (placeIn other holder t).columns) :
    c ∈ t.columns ∨ Table.TypedFor other c ∧ ¬t.HasForeignKey c.name := by
  unfold placeIn at hc
  split at hc
  · exact Table.mem_columns_withForeignKey h hconsistent hc
  · exact .inl hc

/-- **A foreign key that is placed** has the right type. A column that becomes one was not declared
so, and may have been referred to by its old type. -/
theorem Typed.map_placeIn (h : Placed tables) (hkeeps : Keeps declared tables)
    (htyped : Typed declared stale tables) {other : Table} (hother : other ∈ tables)
    (holder : String) : Typed declared stale (tables.map (placeIn other holder)) := by
  have hname : ∀ t ∈ tables, (placeIn other holder t).name = t.name :=
    fun t ht => (extends_placeIn (h.distinct t ht) other holder).name_eq
  intro t' ht' u' hu' _ _ c hc d hd ⟨r, hr, htable, hcolumn⟩ hstale hdeclared
  obtain ⟨t, ht, rfl⟩ := List.mem_map.1 ht'
  obtain ⟨u, hu, rfl⟩ := List.mem_map.1 hu'
  rw [hname t ht] at hstale
  rw [hname u hu] at hdeclared htable
  rcases mem_columns_placeIn (h.distinct u hu) (h.consistent u hu) hd with hd | ⟨hplaced, hnew⟩
  · rcases mem_columns_placeIn (h.distinct t ht) (h.consistent t ht) hc with hc | ⟨hplaced, -⟩
    · exact htyped t ht u hu (h.distinct t ht) (h.distinct u hu) c hc d hd
        ⟨r, hr, htable, hcolumn⟩ hstale hdeclared
    · exact dataType_of_typedFor h.linked hu hother (h.distinct u hu) hplaced hd
        ⟨r, hr, htable, hcolumn⟩
  · have hforeign := hdeclared hplaced.isForeignKey
    rw [hplaced.name_eq] at hforeign hnew
    exact absurd (hkeeps u hu other hother hforeign) hnew

/-- The types after the foreign keys of a list of relationships have been placed. -/
theorem Typed.foldl_place (h : Placed tables) (hkeeps : Keeps declared tables)
    (htyped : Typed declared stale tables)
    (hjoins : ∀ r ∈ relationships, r.Joins (tables.map (·.name))) :
    Typed declared stale (relationships.foldl Normalize.place tables) := by
  have hboth := h.foldl_place_induction hjoins
    (p := fun tables => Keeps declared tables ∧ Typed declared stale tables) ⟨hkeeps, htyped⟩ ?_
  · exact hboth.2
  · rintro tables hplaced ⟨hkeeps, htyped⟩ other hother holder
    have hextends : ∀ t ∈ tables, Table.Extends t (placeIn other holder t) :=
      fun t ht => extends_placeIn (hplaced.distinct t ht) other holder
    exact ⟨hkeeps.map (fun t ht => (hextends t ht).name_eq)
      fun t ht => (hextends t ht).hasForeignKey, htyped.map_placeIn hplaced hkeeps hother holder⟩

/-! ## Owners -/

/-- Every table comes from a table whose foreign keys had been placed, through owners. -/
def Traced (placed tables : List Table) : Prop :=
  ∀ t ∈ tables, ∃ p ∈ placed, ∃ owners, p.Owned owners t

section IdentifyThrough

variable {owner t : Table} {target : String} {c : Column}

theorem distinct_of_identifyThrough (h : (identifyThrough owner target t).Distinct) :
    t.Distinct := by
  unfold identifyThrough at h
  split at h
  · exact (Table.distinct_withIdentifyingKey.1 h).1
  · exact h

theorem exists_dataType_identifyThrough (h : (identifyThrough owner target t).Distinct)
    (hc : c ∈ (identifyThrough owner target t).columns) (hname : t.hasColumn c.name = true) :
    ∃ c' ∈ t.columns, c'.name = c.name ∧ c'.dataType = c.dataType ∧
      (c'.isForeignKey = true → c.isForeignKey = true) := by
  unfold identifyThrough at h hc
  split at h
  · rename_i htarget
    rw [if_pos htarget] at hc
    exact Table.exists_dataType_withIdentifyingKey h hc hname
  · rename_i htarget
    rw [if_neg htarget] at hc
    exact ⟨c, hc, rfl, rfl, id⟩

theorem reference_identifyThrough {r : Reference}
    (hc : c ∈ (identifyThrough owner target t).columns) (hr : c.references = some r) :
    (∃ c' ∈ t.columns, c'.name = c.name ∧ c'.dataType = c.dataType ∧ c'.references = some r) ∨
      Table.TypedFor owner c ∨ ∃ c' ∈ t.columns, c'.name = c.name ∧ c'.references = none ∧
        c.name = foreignKeyName owner.name ∧ t.name = target := by
  unfold identifyThrough at hc
  split at hc
  · rename_i htarget
    refine (Table.reference_withIdentifyingKey hc hr).imp_right (Or.imp_right ?_)
    rintro ⟨c', hc', hname, hnone, hfk⟩
    exact ⟨c', hc', hname, hnone, hfk, by simpa using htarget⟩
  · exact .inl ⟨c, hc, rfl, rfl, hr⟩

end IdentifyThrough

theorem Traced.map_identifyThrough (h : Traced placed tables) (owner : Table) (target : String) :
    Traced placed (tables.map (identifyThrough owner target)) := by
  intro t' ht'
  obtain ⟨t, ht, rfl⟩ := List.mem_map.1 ht'
  obtain ⟨p, hp, owners, hrun⟩ := h t ht
  unfold identifyThrough
  split
  · exact ⟨p, hp, _, hrun.step owner⟩
  · exact ⟨p, hp, owners, hrun⟩

/-- A column that comes to refer to an owner without the right type was plain when the foreign keys
had been placed. -/
theorem Traced.exists_plain (h : Traced placed tables) (hconsistent : Consistent tables)
    (hdistinct : ∀ p ∈ placed, p.Distinct) {owner t : Table} (ht : t ∈ tables)
    (howned : (identifyThrough owner t.name t).Distinct) {c : Column} (hc : c ∈ t.columns)
    (hnone : c.references = none) (hname : c.name = foreignKeyName owner.name) :
    ∃ p ∈ placed, p.name = t.name ∧ p.hasColumn c.name = true ∧ ¬p.HasForeignKey c.name := by
  obtain ⟨p, hp, owners, hrun⟩ := h t ht
  have hforeign : c.isForeignKey = false := by
    rw [hconsistent t ht c hc, hnone]
    rfl
  rw [identifyThrough, if_pos (by simp)] at howned
  obtain ⟨hcolumn, hno⟩ :=
    (hrun.namesKept (hdistinct p hp)).hasColumn_of_plain howned hc hforeign hname
  exact ⟨p, hp, hrun.name_eq.symm, hcolumn, fun h => hno (hrun.hasForeignKey.2 (.inl h))⟩

/-- **One more owner** keeps the types, if the columns that were plain when the foreign keys had
been placed are excepted. -/
theorem Typed.map_identifyThrough (h : Linked tables) (hconsistent : Consistent tables)
    (htraced : Traced placed tables) (hdistinct : ∀ p ∈ placed, p.Distinct)
    (hplain : ∀ p ∈ placed, ∀ name, p.hasColumn name = true → ¬p.HasForeignKey name →
      stale p.name name)
    (htyped : Typed declared stale tables) {owner : Table} (howner : owner ∈ tables)
    {target : String} (hne : owner.name ≠ target) :
    Typed declared stale (tables.map (identifyThrough owner target)) := by
  intro t' ht' u' hu' hdt hdu c hc d hd ⟨r, hr, htable, hcolumn⟩ hstale hdeclared
  obtain ⟨t, ht, rfl⟩ := List.mem_map.1 ht'
  obtain ⟨u, hu, rfl⟩ := List.mem_map.1 hu'
  rw [(grows_identifyThrough howner target _).name_eq] at htable hstale hdeclared
  rcases reference_identifyThrough hc hr with
    ⟨c', hc', hname, htype, hr'⟩ | hnew | ⟨c', hc', hname, hnone, hfk, rfl⟩
  · -- the reference was there before, and so was the column that it leads to
    obtain ⟨v, hv, htable', hcolumn', -⟩ := h.reaches t ht c' hc' r hr'
    obtain rfl := h.eq_of_name hu hv (htable.symm.trans htable')
    obtain ⟨d', hd', hname', htype', hforeign⟩ :=
      exists_dataType_identifyThrough hdu hd (hcolumn ▸ hcolumn')
    rw [← htype, ← htype']
    refine htyped t ht u hu (distinct_of_identifyThrough hdt) (distinct_of_identifyThrough hdu)
      c' hc' d' hd' ⟨r, hr', htable, hcolumn.trans hname'.symm⟩ (hname ▸ hstale) fun h => ?_
    rw [hname']
    exact hdeclared (hforeign h)
  · obtain rfl : owner.reference = r := Option.some.inj (hnew.references_eq.symm.trans hr)
    obtain rfl : owner = u := h.eq_of_name howner hu htable
    rw [identifyThrough_of_name_ne hne] at hdu hd
    exact dataType_of_typedFor h howner howner hdu hnew hd ⟨_, hr, rfl, hcolumn⟩
  · obtain ⟨p, hp, hname', hcolumn, hno⟩ :=
      htraced.exists_plain hconsistent hdistinct ht hdt hc' hnone (hname.trans hfk)
    rw [hname] at hcolumn hno
    exact absurd (hname' ▸ hplain p hp c.name hcolumn hno) hstale

/-- The types after the tables have been identified through their owners. -/
theorem Typed.identifyAll (h : Placed placed)
    (hplain : ∀ p ∈ placed, ∀ name, p.hasColumn name = true → ¬p.HasForeignKey name →
      stale p.name name)
    (htyped : Typed declared stale placed)
    (hjoins : ∀ r ∈ relationships, r.Joins (placed.map (·.name))) :
    Typed declared stale (identifyAll placed relationships).value := by
  have hboth := identifyAll_induction h.linked h.consistent hjoins
    (p := fun tables => Traced placed tables ∧ Typed declared stale tables)
    ⟨fun p hp => ⟨p, hp, [], .refl⟩, htyped⟩ ?_
  · exact hboth.2
  · rintro tables hlinked hconsistent ⟨htraced, htyped⟩ owner howner target hne
    exact ⟨htraced.map_identifyThrough owner target, htyped.map_identifyThrough hlinked hconsistent
      htraced h.distinct hplain howner hne.symm⟩

/-! ## The last stages -/

theorem Typed.withContiguousKey (h : Typed declared stale tables) :
    Typed declared stale (tables.map (·.withContiguousKey)) := by
  intro t' ht' u' hu' hdt hdu c hc d hd ⟨r, hr, htable, hcolumn⟩ hstale hdeclared
  obtain ⟨t, ht, rfl⟩ := List.mem_map.1 ht'
  obtain ⟨u, hu, rfl⟩ := List.mem_map.1 hu'
  obtain ⟨c', hc', hname, -, -, hr', htype⟩ := Table.mem_columns_withContiguousKey hc
  obtain ⟨d', hd', hname', -, hforeign, -, htype'⟩ := Table.mem_columns_withContiguousKey hd
  rw [htype, htype']
  refine h t ht u hu (Table.distinct_withContiguousKey.1 hdt)
    (Table.distinct_withContiguousKey.1 hdu) c' hc' d' hd'
    ⟨r, hr' ▸ hr, htable, hcolumn.trans hname'⟩ (hname ▸ hstale) fun hd' => ?_
  rw [← hname']
  exact hdeclared (hforeign.trans hd')

theorem exists_ownTarget {name : String} {key : Column} (h : ownTarget? tables name = some key) :
    ∃ u ∈ tables, u.name = name ∧ 1 < u.keyColumns.length ∧ key = u.referencedKey := by
  unfold ownTarget? at h
  split at h
  · rename_i u hu
    obtain ⟨hmem, hname⟩ := mem_of_table? hu
    rw [Option.ite_none_right_eq_some, Bool.and_eq_true, decide_eq_true_eq] at h
    exact ⟨u, hmem, hname, h.1.1, (Option.some.inj h.2).symm⟩
  · contradiction

/-- A column keeps its type in the last stages unless it refers to a key of several columns. -/
theorem Finished.dataType_eq_of_single {t : Table} {c d : Column} (h : Finished tables t c d)
    (hsingle : ∀ r, d.references = some r → ∀ u ∈ tables, u.name = r.table →
      u.keyColumns.length = 1) : d.dataType = c.dataType := by
  rw [h.dataType_eq]
  rcases value_retargetColumn tables t.name c with ⟨heq, -⟩ | ⟨r, key, -, hkey, heq⟩
  · rw [heq]
  · obtain ⟨u, hu, hname, hmany, -⟩ := exists_ownTarget hkey
    have hr : d.references = some { r with column := key.name } := by rw [h.references_eq, heq]
    have hone := hsingle _ hr u hu hname
    omega

/-- **The types after references have been moved.** One that is moved gets the type of the column
that it is moved to. -/
theorem Typed.finish (small : ℤ) (h : Linked tables) (hconsistent : Consistent tables)
    (htyped : Typed declared stale tables) {t u : Table} (ht : t ∈ tables) (hu : u ∈ tables)
    (hdt : t.Distinct) (hdu : u.Distinct) {c d : Column}
    (hc : c ∈ (finish small tables t).columns) (hd : d ∈ (finish small tables u).columns)
    (hleads : c.LeadsTo u d) (hstale : ¬stale t.name c.name)
    (hdeclared : d.isForeignKey = true → declared u.name d.name ∧ ∀ r, d.references = some r →
      ∀ w ∈ tables, w.name = r.table → w.keyColumns.length = 1) : c.dataType = d.dataType := by
  obtain ⟨r, hr, htable, hcolumn⟩ := hleads
  obtain ⟨f, hcolumns, hf⟩ := exists_finished small tables t
  obtain ⟨g, hcolumns', hg⟩ := exists_finished small tables u
  rw [hcolumns] at hc
  rw [hcolumns'] at hd
  obtain ⟨c', hc', rfl⟩ := List.mem_map.1 hc
  obtain ⟨d', hd', rfl⟩ := List.mem_map.1 hd
  rw [(hf c').name_eq] at hstale
  rw [(hg d').name_eq] at hcolumn hdeclared
  have htype : (g d').dataType = d'.dataType := by
    refine (hg d').dataType_eq_of_single fun r hr => (hdeclared ?_).2 r hr
    rw [(hg d').isConsistent (hconsistent u hu d' hd'), hr]
    rfl
  rw [htype, (hf c').dataType_eq]
  rw [(hf c').references_eq] at hr
  rcases value_retargetColumn tables t.name c' with ⟨heq, -⟩ | ⟨r', key, -, hkey, heq⟩ <;>
    rw [heq] at hr ⊢
  · refine htyped t ht u hu hdt hdu c' hc' d' hd' ⟨r, hr, htable, hcolumn⟩ hstale fun h => ?_
    exact (hdeclared ((hg d').isForeignKey_eq.trans h)).1
  · obtain ⟨v, hv, hname, -, rfl⟩ := exists_ownTarget hkey
    obtain rfl := Option.some.inj hr
    obtain rfl := h.eq_of_name hv hu (hname.trans htable)
    have hmem := (Table.mem_keyColumns.1 (Table.referencedKey_mem (h.keyed v hv))).1
    rw [hdu.eq_of_name hmem hd' hcolumn]

end Normalize

/-! ## The types of an extraction -/

/-- No column that every table may get has the name of a foreign key. -/
theorem foreignKeyName_notMem_defaults {name : String} (h : Plain name) :
    foreignKeyName name ∉ Column.defaults.map (·.name) := by
  have hends : ∀ d ∈ Column.defaults.map (·.name), ¬"_id".toList <:+ d.toList := by decide
  intro hmem
  refine hends _ hmem ?_
  rw [foreignKeyName_of_plain h, String.toList_append]
  exact List.suffix_append _ _

namespace Extraction

/-- A foreign key does not get its type from the column that it leads to: its entity declares it, or
it was a plain column when the foreign keys had been placed. -/
def KeepsType (e : Extraction) (table column : String) : Prop :=
  e.DeclaresIn table column ∨
    ∃ p ∈ e.placed, p.name = table ∧ p.hasColumn column = true ∧ ¬p.HasForeignKey column

variable (e : Extraction)

theorem typed_resolved : Typed e.DeclaresIn e.KeepsType e.resolved := by
  intro t ht u _ _ _ c hc d _ ⟨r, hr, _⟩ hkeeps _
  rw [resolved_eq] at ht
  obtain ⟨b, hb, rfl⟩ := List.mem_map.1 ht
  obtain ⟨c', hc', rfl⟩ := List.mem_map.1 hc
  obtain ⟨entity, hbuilt⟩ := e.exists_built hb
  refine absurd (.inl ⟨b, hb, rfl, ?_⟩) hkeeps
  rcases value_resolveColumn e.built b.name c' (hbuilt.fresh.bare c' hc') with
    ⟨-, heq⟩ | ⟨hforeign, ⟨v, -, -, heq⟩ | ⟨-, heq⟩⟩ <;> rw [heq] at hr ⊢
  · rw [hbuilt.fresh.bare c' hc'] at hr
    contradiction
  · exact ⟨c', hc', hforeign, rfl⟩
  · exact ⟨c', hc', hforeign, rfl⟩

theorem keeps_resolved : Keeps e.DeclaresIn e.resolved := by
  intro t ht u hu ⟨b', hb', hname, hforeign⟩
  rw [resolved_eq] at ht hu
  obtain ⟨b, hb, rfl⟩ := List.mem_map.1 ht
  obtain ⟨v, hv, rfl⟩ := List.mem_map.1 hu
  obtain rfl : b' = b := List.inj_on_of_nodup_map e.built_spec.1 hb' hb hname
  obtain ⟨entity, hbuilt⟩ := e.exists_built hb
  refine (hasForeignKey_resolved hbuilt.fresh (fun w hw => ?_) _).2 ⟨hforeign, v, hv, rfl⟩
  exact (e.exists_built hw).elim fun _ h => h.plain

theorem typed_ordered : Typed e.DeclaresIn e.KeepsType e.ordered := by
  obtain ⟨hplaced, hjoins, -⟩ := e.placed_spec
  have htyped : Typed e.DeclaresIn e.KeepsType e.placed := by
    obtain ⟨heq, hjoins⟩ := value_placeAll e.placed_resolved e.relationships
    rw [placed, heq]
    exact e.typed_resolved.foldl_place e.placed_resolved e.keeps_resolved hjoins
  exact (htyped.identifyAll hplaced
    (fun p hp name hcolumn hno => .inr ⟨p, hp, rfl, hcolumn, hno⟩) hjoins).withContiguousKey

variable {e}

/-- Which foreign keys keep the type of their column, told by the entity of the table. -/
theorem Stages.keepsType {entity : Extraction.Entity} {p w : Table} (h : Stages e entity p w)
    {column : String} (hcolumn : column ∉ Column.defaults.map (·.name))
    (hkeeps : e.KeepsType p.name column) : entity.Declares column ∨
      entity.HasAttribute column ∧ ¬∃ r ∈ e.kept, r.Holds p.name column := by
  refine hkeeps.imp (h.declares column).1 fun ⟨p', hp', hname, hhas, hno⟩ => ?_
  obtain ⟨hplaced, -, f, heq, hf⟩ := e.placed_spec
  obtain rfl := hplaced.linked.eq_of_name hp' h.placed hname
  have hbrings := (h.hasColumn column (Entity.notMem_systemColumns hcolumn)).1 hhas
  refine ⟨(Entity.brings_iff hcolumn).1 (hbrings.resolve_right hno), fun hholds => hno ?_⟩
  rw [heq] at hp'
  obtain ⟨b, hb, rfl⟩ := List.mem_map.1 hp'
  rw [(hf b hb).1] at hholds
  exact ((hf b hb).2 column).2 (.inr hholds)

end Extraction

/-- A foreign key of the schema has the type of the column that it leads to, if it was placed for a
relationship and that column has its final type from the beginning. -/
theorem Extraction.dataType_eq {e : Extraction} {heading : Heading} {small : ℤ} {now : Moment}
    {i j : ℕ} {t u : Table} {entity other : Extraction.Entity}
    (ht : (e.normalize heading small now).schema.tables[i]? = some t)
    (hentity : e.entities[i]? = some entity) (hdt : t.Distinct)
    (hu : (e.normalize heading small now).schema.tables[j]? = some u)
    (hother : e.entities[j]? = some other) (hdu : u.Distinct) {c d : Column}
    (hc : c ∈ t.columns) (hd : d ∈ u.columns) (hleads : c.LeadsTo u d)
    (hdeclares : ¬entity.Declares c.name)
    (hholds : entity.HasAttribute c.name →
      ∃ r ∈ e.kept, r.kind ≠ .manyToMany ∧ r.holder = t.name ∧ r.referenced = u.name)
    (hled : d.isForeignKey = true → other.Declares d.name ∧ ∀ r, d.references = some r →
      ∀ w ∈ (e.normalize heading small now).schema.tables, w.name = r.table →
        w.keyColumns.length = 1) : c.dataType = d.dataType := by
  obtain ⟨r, hr, htable, hcolumn⟩ := hleads
  have hsound := tablesAndRelationships_spec small e
  have hname : c.name = foreignKeyName u.name := by
    obtain ⟨v, -, htable', -, hname, -⟩ :=
      hsound.linked.reaches t (List.mem_of_getElem? ht) c hc r hr
    rw [hname, ← htable', htable]
  have hplain : Plain u.name := hsound.linked.plain u (List.mem_of_getElem? hu)
  obtain ⟨p, w, hstages, rfl⟩ := Extraction.exists_stages ht hentity
  obtain ⟨p', w', hstages', rfl⟩ := Extraction.exists_stages hu hother
  have hsame := sameKeys_finish small e.ordered w'.withContiguousKey
  refine e.typed_ordered.finish small e.ordered_spec.1.1 e.ordered_spec.1.2
    (List.mem_map_of_mem hstages.identified) (List.mem_map_of_mem hstages'.identified)
    (distinct_finish.1 hdt) (distinct_finish.1 hdu) hc hd
    ⟨r, hr, htable.trans hsame.name_eq, hcolumn⟩ (fun hkeeps => ?_) fun hforeign => ⟨?_, ?_⟩
  · rw [← (sameKeys_finish small e.ordered _).name_eq, hstages.name_eq] at hkeeps
    rcases hstages.keepsType (hname ▸ foreignKeyName_notMem_defaults hplain) hkeeps with
      hdeclares' | ⟨hattribute, hnone⟩
    · exact hdeclares hdeclares'
    · obtain ⟨rel, hrel, hkind, hholder, hreferenced⟩ := hholds hattribute
      refine hnone ⟨rel, hrel, hkind, hholder.trans hstages.name_eq, ?_⟩
      rw [hname, hreferenced]
  · rw [← hsame.name_eq, hstages'.name_eq]
    exact (hstages'.declares d.name).2 (hled hforeign).1
  · intro r' hr' v hv hv_name
    have hsame' := sameKeys_finish small e.ordered v
    rw [← hsame'.length_keyColumns]
    refine (hled hforeign).2 r' hr' _ ?_ (hsame'.name_eq.trans hv_name)
    exact tables_normalize e heading small now ▸ List.mem_map_of_mem hv

/-- **The types of foreign keys in a normalized extraction.** A foreign key has the type of the
column that it leads to if its entity does not declare it, a relationship holds it where the entity
has an attribute of its name, and the column that it leads to is no foreign key itself, or is one
that is declared and leads to a single key column. -/
theorem dataType_normalize (e : Extraction) (heading : Heading) (small : ℤ) (now : Moment) :
    let s := (e.normalize heading small now).schema
    s.tables.length = e.entities.length ∧
      ∀ (i j : ℕ) (t u : Table) (entity other : Extraction.Entity),
        s.tables[i]? = some t → e.entities[i]? = some entity → t.Distinct →
        s.tables[j]? = some u → e.entities[j]? = some other → u.Distinct →
        ∀ c ∈ t.columns, ∀ d ∈ u.columns, c.LeadsTo u d → ¬entity.Declares c.name →
          (entity.HasAttribute c.name →
            ∃ r ∈ s.relationships, r.kind ≠ .manyToMany ∧ r.holder = t.name ∧
              r.referenced = u.name) →
          (d.isForeignKey = true → other.Declares d.name ∧ ∀ r, d.references = some r →
            ∀ w ∈ s.tables, w.name = r.table → w.keyColumns.length = 1) →
          c.dataType = d.dataType := by
  intro s
  refine ⟨Extraction.length_normalize, ?_⟩
  intro i j t u entity other ht hentity hdt hu hother hdu c hc d hd hleads hdeclares hholds hled
  exact Extraction.dataType_eq ht hentity hdt hu hother hdu hc hd hleads hdeclares hholds hled

/-- Customers with a key of their own, and orders and invoices that refer to them. The orders
declare the reference, with a type that is not the one of the key. -/
def billing : Extraction where
  entities :=
    [{ name := some "Customer"
       attributes := [{ name := some "code", dataType := some "CHAR(8)", isPrimaryKey := true }] },
     { name := some "Order"
       attributes :=
        [{ name := some "customer_id", dataType := some "TEXT", isForeignKey := true }] },
     { name := some "Invoice" }]
  relationships :=
    [{ sourceEntity := some "Customer", targetEntity := some "Order",
       type := some "one_to_many" },
     { sourceEntity := some "Customer", targetEntity := some "Invoice",
       type := some "one_to_many" }]

theorem dataType_billing :
    let s := (billing.normalize {} 3 { year := 2024, month := 1, day := 1 }).schema
    ∃ t, s.tables[2]? = some t ∧ t.name = "invoice" ∧
      ∃ c ∈ t.columns, c.name = "customer_id" ∧ c.dataType = "CHAR(8)" := by
  intro s
  have ⟨hlength, h⟩ : s.tables.length = 3 ∧ ∀ t ∈ s.tables[2]?, ∀ u ∈ s.tables[0]?,
      t.name = "invoice" ∧ (t.columns.map (·.name)).Nodup ∧ (u.columns.map (·.name)).Nodup ∧
        ∃ c ∈ t.columns, c.name = "customer_id" ∧ ∃ d ∈ u.columns, d.dataType = "CHAR(8)" ∧
          d.isForeignKey = false ∧ ∃ r ∈ c.references, r.table = u.name ∧ r.column = d.name := by
    decide +kernel
  have ht : s.tables[2]? = some s.tables[2] := List.getElem?_eq_getElem (by omega)
  have hu : s.tables[0]? = some s.tables[0] := List.getElem?_eq_getElem (by omega)
  obtain ⟨hname, hdt, hdu, c, hc, hc_name, d, hd, htype, hplain, hleads⟩ := h _ ht _ hu
  refine ⟨_, ht, hname, c, hc, hc_name, ?_⟩
  rw [← htype]
  refine (dataType_normalize billing {} 3 _).2 2 0 _ _ _ _ ht rfl hdt hu rfl hdu c hc d hd hleads
    ?_ ?_ ?_
  · rintro ⟨a, ha, -⟩
    simp at ha
  · rintro ⟨a, ha, -⟩
    simp at ha
  · simp [hplain]

/-- Not every foreign key of a normalized extraction has the type of the column that it leads to. -/
theorem dataType_ne_billing :
    ¬∀ (e : Extraction) (heading : Heading) (small : ℤ) (now : Moment),
      let s := (e.normalize heading small now).schema
      ∀ t ∈ s.tables, ∀ u ∈ s.tables, ∀ c ∈ t.columns, ∀ d ∈ u.columns,
        c.isForeignKey = true → c.LeadsTo u d → c.dataType = d.dataType := by
  intro h
  obtain ⟨t, ht, u, hu, c, hc, d, hd, hforeign, hleads, hne⟩ :
      let s := (billing.normalize {} 3 { year := 2024, month := 1, day := 1 }).schema
      ∃ t ∈ s.tables, ∃ u ∈ s.tables, ∃ c ∈ t.columns, ∃ d ∈ u.columns, c.isForeignKey = true ∧
        (∃ r ∈ c.references, r.table = u.name ∧ r.column = d.name) ∧ c.dataType ≠ d.dataType := by
    decide +kernel
  exact hne (h billing {} 3 _ t ht u hu c hc d hd hforeign hleads)

end Schemata
