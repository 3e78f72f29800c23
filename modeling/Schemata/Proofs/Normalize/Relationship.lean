import Schemata.Normalize.Relationship
import Schemata.Proofs.Normalize.Link

/-!
# The passes over relationships

What `placeAll`, `identifyAll`, `retarget` and `detectLookups` do to linked tables: they stay linked
and consistent, and the foreign keys that a relationship adds are told by its `Holds` and its
`Identifies` (`placeAll_spec`, `identifyAll_spec`). After `retarget`, every reference to a table
with a key column that is no reference leads to the `referencedKey` of that table
(`retarget_spec`).
-/

namespace Schemata

namespace Relationship

/-- The table that holds the foreign key of a relationship: the side of which there are many, and
the target where neither or both are. -/
def holder (r : Relationship) : String :=
  if r.kind = .manyToOne then r.sourceTable else r.targetTable

/-- The table that the foreign key of a relationship refers to. -/
def referenced (r : Relationship) : String :=
  if r.kind = .manyToOne then r.targetTable else r.sourceTable

/-- The relationship has its foreign key in a table, as a column of a name. -/
def Holds (r : Relationship) (table column : String) : Prop :=
  r.kind ≠ .manyToMany ∧ r.holder = table ∧ column = foreignKeyName r.referenced

/-- The relationship identifies the rows of a table through the source, whose key is the column of
a name. -/
def Identifies (r : Relationship) (table column : String) : Prop :=
  r.isIdentifying = true ∧ r.sourceTable ≠ r.targetTable ∧ r.targetTable = table ∧
    column = foreignKeyName r.sourceTable

end Relationship

namespace Normalize

variable {tables : List Table}

theorem mem_of_table? {name : String} {t : Table} (h : table? tables name = some t) :
    t ∈ tables ∧ t.name = name :=
  ⟨List.mem_of_find?_eq_some h, by simpa using List.find?_some h⟩

theorem exists_table? {name : String} (h : name ∈ tables.map (·.name)) :
    ∃ t, table? tables name = some t := by
  obtain ⟨t, ht, hname⟩ := List.mem_map.1 h
  exact Option.isSome_iff_exists.1 (List.find?_isSome.2 ⟨t, ht, by simpa using hname⟩)

theorem table?_of_mem (h : (tables.map (·.name)).Nodup) {t : Table} (ht : t ∈ tables) :
    table? tables t.name = some t :=
  find?_name h ht

/-! ## Foreign keys -/

/-- The tables with the foreign key of a relationship that is kept. -/
def place (tables : List Table) (r : Relationship) : List Table :=
  placeForeignKey tables r.kind r.sourceTable r.targetTable

/-- A relationship that is kept joins two tables, and its foreign key is placed. -/
theorem value_placeRelationship (tables : List Table) (r : Extraction.Relationship) :
    (placeRelationship tables r).value = (tables, none) ∨
      ∃ kept, (placeRelationship tables r).value = (place tables kept, some kept) ∧
        kept.Joins (tables.map (·.name)) := by
  unfold placeRelationship
  split
  · exact .inl rfl
  · rename_i source target _
    dsimp only
    split
    · rename_i s t hs ht
      refine .inr ⟨relationshipFor r (RelationshipKind.assumed r.type).1 source target s.name
        t.name, rfl, ?_, ?_⟩
      · exact List.mem_map_of_mem (mem_of_table? hs).1
      · exact List.mem_map_of_mem (mem_of_table? ht).1
    · exact .inl rfl

theorem holder?_eq (r : Relationship) : holder? r.kind r.sourceTable r.targetTable =
    if r.kind = .manyToMany then none else some (r.holder, r.referenced) := by
  unfold holder? Relationship.holder Relationship.referenced
  cases r.kind <;> rfl

/-- The tables changed by the foreign key of a relationship. -/
theorem place_cases (tables : List Table) {r : Relationship}
    (hjoins : r.Joins (tables.map (·.name))) :
    (r.kind = .manyToMany ∧ place tables r = tables) ∨
      r.kind ≠ .manyToMany ∧ ∃ other ∈ tables, other.name = r.referenced ∧ place tables r =
        tables.map fun t => if t.name == r.holder then t.withForeignKey other else t := by
  unfold place placeForeignKey
  rw [holder?_eq]
  by_cases hkind : r.kind = .manyToMany
  · exact .inl ⟨hkind, by simp [hkind]⟩
  · have hmem : r.referenced ∈ tables.map (·.name) := by
      unfold Relationship.referenced
      split
      · exact hjoins.2
      · exact hjoins.1
    obtain ⟨other, hother⟩ := exists_table? hmem
    obtain ⟨hmem, hname⟩ := mem_of_table? hother
    refine .inr ⟨hkind, other, hmem, hname, ?_⟩
    simp only [hkind, if_false, hother]
    rfl

/-- What a pass keeps: linked and consistent tables with distinct columns. -/
structure Placed (tables : List Table) : Prop where
  linked : Linked tables
  consistent : Consistent tables
  distinct : ∀ t ∈ tables, t.Distinct

theorem Placed.place (h : Placed tables) {r : Relationship}
    (hjoins : r.Joins (tables.map (·.name))) :
    Placed (place tables r) ∧ Changes r.Holds tables (place tables r) := by
  rcases place_cases tables hjoins with ⟨hkind, heq⟩ | ⟨hkind, other, hother, hname, heq⟩
  · rw [heq]
    refine ⟨h, (Changes.refl tables).congr fun table column => ?_⟩
    simp [Relationship.Holds, hkind]
  · have hgrows : ∀ t ∈ tables, Table.Grows tables t
        (if t.name == r.holder then t.withForeignKey other else t) := by
      intro t ht
      split
      · exact (Table.grows_withForeignKey (h.distinct t ht) other).mono (by simpa using hother)
      · exact Table.Grows.refl _ _
    rw [heq]
    refine ⟨⟨h.linked.map hgrows, h.consistent.map hgrows, ?_⟩, _, rfl, fun t ht =>
      ⟨(hgrows t ht).name_eq, fun column => ?_⟩⟩
    · simp only [List.forall_mem_map]
      intro t ht
      split
      · exact (h.distinct t ht).withForeignKey other
      · exact h.distinct t ht
    · by_cases hholder : t.name = r.holder
      · simp only [hholder, beq_self_eq_true, if_true, Table.hasForeignKey_withForeignKey, hname]
        simp [Relationship.Holds, hkind]
      · simp [hholder, Relationship.Holds, Ne.symm hholder]

/-- **Placing the foreign keys of a list of relationships** keeps the tables linked and adds just
the foreign keys that the relationships hold. -/
theorem Placed.foldl_place (h : Placed tables) {relationships : List Relationship}
    (hjoins : ∀ r ∈ relationships, r.Joins (tables.map (·.name))) :
    Placed (relationships.foldl Normalize.place tables) ∧
      Changes (fun table column => ∃ r ∈ relationships, r.Holds table column) tables
        (relationships.foldl Normalize.place tables) := by
  induction relationships generalizing tables with
  | nil => exact ⟨h, (Changes.refl tables).congr fun _ _ => by simp⟩
  | cons r relationships ih =>
    obtain ⟨hplaced, hchanges⟩ := h.place (hjoins r (by simp))
    obtain ⟨hrest, hchanges'⟩ := ih hplaced fun r' hr' => by
      rw [hchanges.names_eq]
      exact hjoins r' (by simp [hr'])
    exact ⟨hrest, (hchanges.trans hchanges').congr fun _ _ => by simp⟩

/-- The tables after all relationships are those after the ones that are kept. -/
theorem value_placeAll (h : Placed tables) (relationships : List Extraction.Relationship) :
    (placeAll tables relationships).value.1 =
        (placeAll tables relationships).value.2.foldl place tables ∧
      ∀ r ∈ (placeAll tables relationships).value.2, r.Joins (tables.map (·.name)) := by
  suffices hgen : ∀ (relationships : List Extraction.Relationship) (kept : List Relationship),
      (∀ r ∈ kept, r.Joins (tables.map (·.name))) → ∀ result,
      relationships.foldl (fun state r => ((placeRelationship state.1 r).value.1,
        state.2 ++ (placeRelationship state.1 r).value.2.toList)) (kept.foldl place tables, kept) =
          result →
      result.1 = result.2.foldl place tables ∧ ∀ r ∈ result.2, r.Joins (tables.map (·.name)) by
    refine hgen relationships [] (by simp) _ ?_
    simp [placeAll, Noted.value_fold]
  intro relationships
  induction relationships with
  | nil => exact fun kept hkept result hresult => hresult ▸ ⟨rfl, hkept⟩
  | cons r relationships ih =>
    intro kept hkept result hresult
    have hnames := (h.foldl_place hkept).2.names_eq
    rw [List.foldl_cons] at hresult
    rcases value_placeRelationship (kept.foldl place tables) r with hvalue | ⟨new, hvalue, hjoins⟩
    · rw [hvalue] at hresult
      exact ih kept hkept result (by simpa using hresult)
    · rw [hvalue] at hresult
      refine ih (kept ++ [new]) ?_ result (by simpa using hresult)
      simp only [List.mem_append, List.mem_singleton]
      rintro r' (hr' | rfl)
      · exact hkept r' hr'
      · rwa [hnames] at hjoins

theorem placeAll_spec (h : Placed tables) (relationships : List Extraction.Relationship) :
    Placed (placeAll tables relationships).value.1 ∧
      (∀ r ∈ (placeAll tables relationships).value.2, r.Joins (tables.map (·.name))) ∧
      Changes (fun table column =>
          ∃ r ∈ (placeAll tables relationships).value.2, r.Holds table column)
        tables (placeAll tables relationships).value.1 := by
  obtain ⟨heq, hjoins⟩ := value_placeAll h relationships
  rw [heq]
  exact ⟨(h.foldl_place hjoins).1, hjoins, (h.foldl_place hjoins).2⟩

/-! ## Weak entities -/

/-- The tables changed by an identifying relationship. -/
theorem identify_cases (h : Linked tables) {r : Relationship}
    (hjoins : r.Joins (tables.map (·.name))) :
    (¬(r.isIdentifying = true ∧ r.sourceTable ≠ r.targetTable) ∧
        (identify tables r).value = tables) ∨
      (r.isIdentifying = true ∧ r.sourceTable ≠ r.targetTable) ∧
        ∃ owner ∈ tables, owner.name = r.sourceTable ∧ (identify tables r).value =
          tables.map fun t =>
            if t.name == r.targetTable then (t.withIdentifyingKey owner).1 else t := by
  unfold identify
  cases hidentifying : r.isIdentifying with
  | false => exact .inl ⟨by simp, rfl⟩
  | true =>
    by_cases hself : r.sourceTable = r.targetTable
    · refine .inl ⟨by simp [hself], ?_⟩
      rw [if_neg (by simp), if_pos hself]
      rfl
    · obtain ⟨owner, howner⟩ := exists_table? hjoins.1
      obtain ⟨dependent, hdependent⟩ := exists_table? hjoins.2
      obtain ⟨hmem, hname⟩ := mem_of_table? howner
      obtain ⟨hmem', hname'⟩ := mem_of_table? hdependent
      refine .inr ⟨⟨rfl, hself⟩, owner, hmem, hname, ?_⟩
      rw [if_neg (by simp), if_neg hself]
      simp only [howner, hdependent, Noted.value_bind, Noted.value_pure, mapTable]
      refine List.map_congr_left fun t ht => ?_
      by_cases htarget : t.name = r.targetTable
      · rw [h.eq_of_name ht hmem' (htarget.trans hname'.symm)]
      · simp [htarget]

theorem linked_identify (h : Linked tables) (hconsistent : Consistent tables) {r : Relationship}
    (hjoins : r.Joins (tables.map (·.name))) :
    (Linked (identify tables r).value ∧ Consistent (identify tables r).value) ∧
      Changes r.Identifies tables (identify tables r).value := by
  rcases identify_cases h hjoins with ⟨hno, heq⟩ | ⟨⟨hidentifying, hne⟩, owner, howner, hname, heq⟩
  · rw [heq]
    refine ⟨⟨h, hconsistent⟩, (Changes.refl tables).congr fun table column => ?_⟩
    simp only [Relationship.Identifies, false_iff]
    exact fun hr => hno ⟨hr.1, hr.2.1⟩
  · have hgrows : ∀ t ∈ tables, Table.Grows tables t
        (if t.name == r.targetTable then (t.withIdentifyingKey owner).1 else t) := by
      intro t _
      split
      · exact (Table.grows_withIdentifyingKey t owner).mono (by simpa using howner)
      · exact Table.Grows.refl _ _
    rw [heq]
    refine ⟨⟨h.map hgrows, hconsistent.map hgrows⟩, _, rfl, fun t ht =>
      ⟨(hgrows t ht).name_eq, fun column => ?_⟩⟩
    by_cases htarget : t.name = r.targetTable
    · simp only [htarget, beq_self_eq_true, if_true, Table.hasForeignKey_withIdentifyingKey, hname]
      simp [Relationship.Identifies, hidentifying, hne]
    · simp [htarget, Relationship.Identifies, Ne.symm htarget]

/-- **Weak entities**: the tables stay linked, and each identifying relationship adds the foreign
key to the owner. -/
theorem identifyAll_spec (h : Linked tables) (hconsistent : Consistent tables)
    {relationships : List Relationship}
    (hjoins : ∀ r ∈ relationships, r.Joins (tables.map (·.name))) :
    (Linked (identifyAll tables relationships).value ∧
        Consistent (identifyAll tables relationships).value) ∧
      Changes (fun table column => ∃ r ∈ relationships, r.Identifies table column) tables
        (identifyAll tables relationships).value := by
  rw [identifyAll, Noted.value_fold]
  induction relationships generalizing tables with
  | nil => exact ⟨⟨h, hconsistent⟩, (Changes.refl tables).congr fun _ _ => by simp⟩
  | cons r relationships ih =>
    obtain ⟨⟨hlinked, hconsistent⟩, hchanges⟩ := linked_identify h hconsistent (hjoins r (by simp))
    obtain ⟨hrest, hchanges'⟩ := ih hlinked hconsistent fun r' hr' => by
      rw [hchanges.names_eq]
      exact hjoins r' (by simp [hr'])
    exact ⟨hrest, (hchanges.trans hchanges').congr fun _ _ => by simp⟩

theorem contiguous_spec (h : Linked tables) (hconsistent : Consistent tables) :
    (Linked (tables.map (·.withContiguousKey)) ∧
        Consistent (tables.map (·.withContiguousKey))) ∧
      Changes (fun _ _ => False) tables (tables.map (·.withContiguousKey)) := by
  refine ⟨⟨h.map fun t _ => Table.grows_withContiguousKey _ t,
    hconsistent.map fun t _ => Table.grows_withContiguousKey [] t⟩, _, rfl, fun t _ =>
      ⟨rfl, fun column => ?_⟩⟩
  rw [Table.hasForeignKey_withContiguousKey, or_false]

/-! ## References to keys of several columns -/

/-- Every reference to a table that has a single key column, or one that is no reference, leads to
the `referencedKey` of the table. -/
def Settled (tables : List Table) : Prop :=
  ∀ t ∈ tables, ∀ c ∈ t.columns, ∀ r, c.references = some r → ∀ u ∈ tables, r.table = u.name →
    (u.keyColumns.length = 1 ∨ ∃ k ∈ u.keyColumns, k.isForeignKey = false) →
    r.column = u.referencedKey.name

theorem ownTarget?_of_mem (h : Linked tables) {u : Table} (hu : u ∈ tables) :
    ownTarget? tables u.name =
      if 1 < u.keyColumns.length && !u.referencedKey.isForeignKey then some u.referencedKey
      else none := by
  rw [ownTarget?, table?_of_mem h.names hu]

/-- A column after references have been moved: it is as before, or its reference leads to another
column of the same table. -/
theorem value_retargetColumn (tables : List Table) (table : String) (c : Column) :
    ((retargetColumn tables table c).value = c ∧ ∀ r, c.references = some r →
        ∀ key, ownTarget? tables r.table = some key → r.column = key.name) ∨
      ∃ r key, c.references = some r ∧ ownTarget? tables r.table = some key ∧
        (retargetColumn tables table c).value = { c with
          dataType := key.dataType, references := some { r with column := key.name } } := by
  unfold retargetColumn
  cases hr : c.references with
  | none => exact .inl ⟨rfl, by simp⟩
  | some r =>
    dsimp only
    cases hkey : ownTarget? tables r.table with
    | none =>
      refine .inl ⟨rfl, fun r' hr' key hkey' => ?_⟩
      rw [← Option.some.inj hr', hkey] at hkey'
      contradiction
    | some key =>
      dsimp only
      split
      · rename_i hcolumn
        refine .inl ⟨rfl, fun r' hr' key' hkey' => ?_⟩
        rw [← Option.some.inj hr', hkey] at hkey'
        rw [← Option.some.inj hr', ← Option.some.inj hkey', hcolumn]
      · exact .inr ⟨r, key, rfl, hkey, rfl⟩

/-- The table with its references moved. -/
def moved (tables : List Table) (t : Table) : Table :=
  { t with columns := t.columns.map fun c => (retargetColumn tables t.name c).value }

theorem value_retarget (tables : List Table) : (retarget tables).value =
    (tables.map (moved tables)).map (markUnique tables) := by
  simp [retarget, moved, Noted.value_each]

theorem sameKeys_moved (tables : List Table) (t : Table) : Table.SameKeys t (moved tables t) := by
  refine ⟨rfl, _, rfl, fun c _ => ?_⟩
  rcases value_retargetColumn tables t.name c with ⟨heq, -⟩ | ⟨r, key, -, -, heq⟩ <;> rw [heq]
  · exact ⟨rfl, rfl, rfl⟩
  · exact ⟨rfl, rfl, rfl⟩

/-- A reference that has been moved leads to the key column it was moved to. -/
theorem references_moved (h : Linked tables) {t : Table} (ht : t ∈ tables) {c : Column}
    (hc : c ∈ t.columns) {r : Reference}
    (hr : (retargetColumn tables t.name c).value.references = some r) :
    ∃ old, c.references = some old ∧ r.table = old.table ∧ ∃ u ∈ tables, old.table = u.name ∧
      c.name = foreignKeyName u.name ∧
      (r = old ∧ (1 < u.keyColumns.length → u.referencedKey.isForeignKey = false →
        r.column = u.referencedKey.name) ∨ r.column = u.referencedKey.name) := by
  rcases value_retargetColumn tables t.name c with ⟨heq, hkept⟩ | ⟨old, key, hold, hkey, heq⟩ <;>
    rw [heq] at hr
  · obtain ⟨u, hu, htable, -, hname, -⟩ := h.reaches t ht c hc r hr
    refine ⟨r, hr, rfl, u, hu, htable, hname, .inl ⟨rfl, fun hmany hown => ?_⟩⟩
    refine hkept r hr _ ?_
    rw [htable, ownTarget?_of_mem h hu, if_pos (by simp [hmany, hown])]
  · obtain rfl : { old with column := key.name } = r := Option.some.inj hr
    obtain ⟨u, hu, htable, -, hname, -⟩ := h.reaches t ht c hc old hold
    refine ⟨old, hold, rfl, u, hu, htable, hname, .inr ?_⟩
    rw [htable, ownTarget?_of_mem h hu] at hkey
    split at hkey
    · rw [← Option.some.inj hkey]
    · contradiction

theorem grows_moved (h : Linked tables) {t : Table} (ht : t ∈ tables) :
    Table.Grows tables t (moved tables t) := by
  refine .of_sameKeys (sameKeys_moved tables t) (fun hconsistent d hd => ?_) fun d hd r hr => ?_
  · obtain ⟨c, hc, rfl⟩ := List.mem_map.1 hd
    have hc := hconsistent c hc
    rcases value_retargetColumn tables t.name c with ⟨heq, -⟩ | ⟨r, key, hr, -, heq⟩ <;> rw [heq]
    · exact hc
    · rw [Column.IsConsistent, hr] at hc
      exact hc
  · obtain ⟨c, hc, rfl⟩ := List.mem_map.1 hd
    obtain ⟨f, hcolumns, hf⟩ := (sameKeys_moved tables t).exists_map
    have hname : (retargetColumn tables t.name c).value.name = c.name := by
      rcases value_retargetColumn tables t.name c with ⟨heq, -⟩ | ⟨r, key, -, -, heq⟩ <;> rw [heq]
    obtain ⟨old, hold, htable, u, hu, htable', hfk, ⟨rfl, -⟩ | hcolumn⟩ :=
      references_moved h ht hc hr
    · exact .inl ⟨c, hc, hname.symm, hold⟩
    · exact .inr ⟨u, hu, htable.trans htable', hcolumn, hname.trans hfk⟩

theorem settled_moved (h : Linked tables) : Settled (tables.map (moved tables)) := by
  have hlinked := h.map fun t ht => grows_moved h ht
  intro t' ht' d hd r hr u' hu' htable hkey
  by_cases hsingle : u'.keyColumns.length = 1
  · -- a key of one column is what references lead to in linked tables
    obtain ⟨u, hu, htable', -, -, hcolumn⟩ := hlinked.reaches t' ht' d hd r hr
    obtain rfl := hlinked.eq_of_name hu hu' (htable'.symm.trans htable)
    obtain ⟨k, hk⟩ := List.length_eq_one_iff.1 hsingle
    have hnames : u.keyNames = [k.name] := by rw [Table.keyNames, hk, List.map_singleton]
    rw [hcolumn _ hnames, Table.referencedKey_name_of_keyNames hnames]
  · have hown := hkey.resolve_left hsingle
    have hpos := List.length_pos_iff.2 (hlinked.keyed u' hu')
    obtain ⟨t, ht, rfl⟩ := List.mem_map.1 ht'
    obtain ⟨c, hc, rfl⟩ := List.mem_map.1 hd
    obtain ⟨u, hu, rfl⟩ := List.mem_map.1 hu'
    have hsame := sameKeys_moved tables u
    rw [hsame.length_keyColumns] at hsingle hpos
    rw [hsame.referencedKey_name]
    obtain ⟨old, -, htable', v, hv, hv', -, hcolumn⟩ := references_moved h ht hc hr
    obtain rfl : v = u := h.eq_of_name hv hu (by rw [← hv', ← htable', htable, hsame.name_eq])
    rcases hcolumn with ⟨-, hcolumn⟩ | hcolumn
    · have hmany : 1 < v.keyColumns.length := by omega
      exact hcolumn hmany (Table.referencedKey_isForeignKey (hsame.exists_own hown) hmany)
    · exact hcolumn

theorem Settled.map (h : Settled tables) {f : Table → Table}
    (hf : ∀ t ∈ tables, Table.Alike t (f t)) : Settled (tables.map f) := by
  intro t' ht' d hd r hr u' hu' htable hkey
  obtain ⟨t, ht, rfl⟩ := List.mem_map.1 ht'
  obtain ⟨u, hu, rfl⟩ := List.mem_map.1 hu'
  have hsame := (hf u hu).sameKeys
  obtain ⟨g, hcolumns, hg⟩ := (hf t ht).exists_map
  rw [hcolumns] at hd
  obtain ⟨c, hc, rfl⟩ := List.mem_map.1 hd
  rw [(hg c hc).2.2.2] at hr
  rw [hsame.length_keyColumns] at hkey
  rw [hsame.referencedKey_name]
  exact h t ht c hc r hr u hu (htable.trans hsame.name_eq) (hkey.imp_right hsame.exists_own)

theorem alike_markUnique (tables : List Table) (t : Table) :
    Table.Alike t (markUnique tables t) := by
  unfold markUnique
  split
  · split
    · exact .markUnique t _
    · exact .refl t
  · exact .refl t

/-- **Moving references**: the tables stay linked, no foreign key is added, and every reference to a
key of several columns leads to the one among them that is no reference. -/
theorem retarget_spec (h : Linked tables) (hconsistent : Consistent tables) :
    (Linked (retarget tables).value ∧ Consistent (retarget tables).value) ∧
      Settled (retarget tables).value ∧
      Changes (fun _ _ => False) tables (retarget tables).value := by
  rw [value_retarget]
  have hmoved : Linked (tables.map (moved tables)) := h.map fun t ht => grows_moved h ht
  have hgrows : ∀ t ∈ tables.map (moved tables),
      Table.Grows (tables.map (moved tables)) t (markUnique tables t) :=
    fun t _ => .of_alike _ (alike_markUnique tables t)
  refine ⟨⟨hmoved.map hgrows, (hconsistent.map fun t ht => grows_moved h ht).map hgrows⟩,
    (settled_moved h).map fun t _ => alike_markUnique tables t, markUnique tables ∘ moved tables,
    List.map_map, fun t _ => ?_⟩
  have hsame := (alike_markUnique tables (moved tables t)).sameKeys
  refine ⟨hsame.name_eq, fun column => ?_⟩
  rw [Function.comp_apply, hsame.hasForeignKey, (sameKeys_moved tables t).hasForeignKey, or_false]

/-! ## Lookup tables -/

theorem alike_detectLookup (small : ℤ) (t : Table) :
    Table.Alike t (detectLookup small t).value := by
  unfold detectLookup
  split
  · exact .of_columns rfl rfl
  · exact .refl t

theorem detectLookups_spec (small : ℤ) (h : Linked tables) (hconsistent : Consistent tables)
    (hsettled : Settled tables) :
    (Linked (detectLookups small tables).value ∧ Consistent (detectLookups small tables).value) ∧
      Settled (detectLookups small tables).value ∧
      Changes (fun _ _ => False) tables (detectLookups small tables).value := by
  rw [detectLookups, Noted.value_each]
  have hgrows : ∀ t ∈ tables, Table.Grows tables t (detectLookup small t).value :=
    fun t _ => .of_alike _ (alike_detectLookup small t)
  refine ⟨⟨h.map hgrows, hconsistent.map hgrows⟩,
    hsettled.map fun t _ => alike_detectLookup small t, _, rfl, fun t _ => ?_⟩
  have hsame := (alike_detectLookup small t).sameKeys
  exact ⟨hsame.name_eq, fun column => by rw [hsame.hasForeignKey, or_false]⟩

end Normalize

end Schemata
