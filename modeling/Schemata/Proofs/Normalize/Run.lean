import Schemata.Proofs.Normalize.Relationship
import Schemata.Proofs.Schema.Origin

/-!
# Runs over relationships

A relationship changes one table: it gives it a foreign key to another (`placeIn`), or identifies it
through an owner (`identifyThrough`). What every such step keeps is kept by the whole run over the
relationships (`Placed.foldl_place_induction`, `identifyAll_induction`).

`Placed.exists_extends`, `Placed.exists_enlarged` and `exists_owned` say what a run makes of each
table on its own.
-/

namespace Schemata

namespace Normalize

variable {tables : List Table} {relationships : List Relationship}

/-! ## Foreign keys -/

/-- The table of a name with a foreign key to another; other tables stay as they are. -/
def placeIn (other : Table) (holder : String) (t : Table) : Table :=
  if t.name == holder then t.withForeignKey other else t

theorem grows_placeIn {other t : Table} (hother : other ∈ tables) (h : t.Distinct)
    (holder : String) : Table.Grows tables t (placeIn other holder t) := by
  unfold placeIn
  split
  · exact (Table.grows_withForeignKey h other).mono (by simpa using hother)
  · exact .refl tables t

theorem extends_placeIn {t : Table} (h : t.Distinct) (other : Table) (holder : String) :
    Table.Extends t (placeIn other holder t) := by
  unfold placeIn
  split
  · exact Table.extends_withForeignKey h other
  · exact .refl t

/-- **What every foreign key keeps** is kept when those of a list of relationships are placed. -/
theorem Placed.foldl_place_induction {p : List Table → Prop} (h : Placed tables)
    (hjoins : ∀ r ∈ relationships, r.Joins (tables.map (·.name))) (hp : p tables)
    (hstep : ∀ tables, Placed tables → p tables → ∀ other ∈ tables, ∀ holder,
      p (tables.map (placeIn other holder))) : p (relationships.foldl Normalize.place tables) := by
  induction relationships generalizing tables with
  | nil => exact hp
  | cons r relationships ih =>
    obtain ⟨hplaced, hchanges⟩ := h.place (hjoins r (by simp))
    refine ih hplaced (fun r' hr' => ?_) ?_
    · rw [hchanges.names_eq]
      exact hjoins r' (by simp [hr'])
    · rcases place_cases tables (hjoins r (by simp)) with ⟨-, heq⟩ | ⟨-, other, hother, -, heq⟩ <;>
        rw [heq]
      · exact hp
      · exact hstep tables h hp other hother r.holder

/-- The tables change one by one, each as one that is given foreign keys. -/
theorem Placed.exists_foldl_place {R : Table → Table → Prop} (h : Placed tables)
    (hjoins : ∀ r ∈ relationships, r.Joins (tables.map (·.name))) (hrefl : ∀ t, R t t)
    (htrans : ∀ t t' t'', R t t' → R t' t'' → R t t'')
    (hstep : ∀ t : Table, t.Distinct → (∀ c ∈ t.columns, c.IsConsistent) →
      ∀ other, R t (t.withForeignKey other)) :
    ∃ f : Table → Table, relationships.foldl Normalize.place tables = tables.map f ∧
      ∀ t ∈ tables, R t (f t) := by
  refine h.foldl_place_induction hjoins (p := fun tables' => ∃ f : Table → Table,
    tables' = tables.map f ∧ ∀ t ∈ tables, R t (f t)) ⟨id, by simp, fun t _ => hrefl t⟩ ?_
  rintro _ hplaced ⟨f, rfl, hf⟩ other - holder
  refine ⟨placeIn other holder ∘ f, List.map_map, fun t ht => htrans _ _ _ (hf t ht) ?_⟩
  have hmem : f t ∈ tables.map f := List.mem_map_of_mem ht
  rw [Function.comp_apply, placeIn]
  split
  · exact hstep _ (hplaced.distinct _ hmem) (hplaced.consistent _ hmem) other
  · exact hrefl _

/-- Placing foreign keys leaves the keys of the tables alone. -/
theorem Placed.exists_extends (h : Placed tables)
    (hjoins : ∀ r ∈ relationships, r.Joins (tables.map (·.name))) :
    ∃ f : Table → Table, relationships.foldl Normalize.place tables = tables.map f ∧
      ∀ t ∈ tables, Table.Extends t (f t) :=
  h.exists_foldl_place hjoins .refl (fun _ _ _ h h' => h.trans h') fun _ hdistinct _ other =>
    Table.extends_withForeignKey hdistinct other

/-- Placing foreign keys enlarges the tables. -/
theorem Placed.exists_enlarged (h : Placed tables)
    (hjoins : ∀ r ∈ relationships, r.Joins (tables.map (·.name))) :
    ∃ f : Table → Table, relationships.foldl Normalize.place tables = tables.map f ∧
      ∀ t ∈ tables, t.Enlarged (f t) :=
  h.exists_foldl_place hjoins .refl (fun _ _ _ h h' => h.trans h') fun _ hdistinct hconsistent =>
    Table.enlarged_withForeignKey hdistinct hconsistent

/-! ## Owners -/

/-- The table of a name as one that is identified through an owner; other tables stay as they
are. -/
def identifyThrough (owner : Table) (target : String) (t : Table) : Table :=
  if t.name == target then (t.withIdentifyingKey owner).1 else t

theorem identifyThrough_of_name_ne {owner t : Table} {target : String} (h : t.name ≠ target) :
    identifyThrough owner target t = t :=
  if_neg (by simpa using h)

theorem grows_identifyThrough {owner : Table} (howner : owner ∈ tables) (target : String)
    (t : Table) : Table.Grows tables t (identifyThrough owner target t) := by
  unfold identifyThrough
  split
  · exact (Table.grows_withIdentifyingKey t owner).mono (by simpa using howner)
  · exact .refl tables t

/-- **What every owner keeps** is kept when the tables are identified. -/
theorem identifyAll_induction {p : List Table → Prop} (h : Linked tables)
    (hconsistent : Consistent tables)
    (hjoins : ∀ r ∈ relationships, r.Joins (tables.map (·.name))) (hp : p tables)
    (hstep : ∀ tables, Linked tables → Consistent tables → p tables → ∀ owner ∈ tables,
      ∀ target ≠ owner.name, p (tables.map (identifyThrough owner target))) :
    p (identifyAll tables relationships).value := by
  rw [identifyAll, Noted.value_fold]
  induction relationships generalizing tables with
  | nil => exact hp
  | cons r relationships ih =>
    obtain ⟨⟨hlinked, hconsistent'⟩, hchanges⟩ :=
      linked_identify h hconsistent (hjoins r (by simp))
    have hidentified : p (identify tables r).value := by
      rcases identify_cases h (hjoins r (by simp)) with
        ⟨-, heq⟩ | ⟨⟨-, hne⟩, owner, howner, hname, heq⟩ <;> rw [heq]
      · exact hp
      · exact hstep tables h hconsistent hp owner howner r.targetTable (hname ▸ hne.symm)
    refine ih hlinked hconsistent' (fun r' hr' => ?_) hidentified
    rw [hchanges.names_eq]
    exact hjoins r' (by simp [hr'])

/-- A table is identified, one after another, through the sources of the relationships that
identify it. -/
theorem exists_owned (h : Linked tables) (hconsistent : Consistent tables)
    (hjoins : ∀ r ∈ relationships, r.Joins (tables.map (·.name))) :
    ∃ f : Table → Table, (identifyAll tables relationships).value = tables.map f ∧
      ∀ t ∈ tables, ∃ owners, t.Owned owners (f t) ∧ ∀ name, name ∈ owners ↔
        ∃ r ∈ relationships, r.sourceTable = name ∧ r.Identifies t.name (foreignKeyName name) := by
  rw [identifyAll, Noted.value_fold]
  induction relationships generalizing tables with
  | nil => exact ⟨id, by simp, fun t _ => ⟨[], .refl, by simp⟩⟩
  | cons r relationships ih =>
    obtain ⟨⟨hlinked, hconsistent⟩, hchanges⟩ := linked_identify h hconsistent (hjoins r (by simp))
    obtain ⟨f, hrest, hf⟩ := ih hlinked hconsistent fun r' hr' => by
      rw [hchanges.names_eq]
      exact hjoins r' (by simp [hr'])
    rcases identify_cases h (hjoins r (by simp)) with
      ⟨hno, heq⟩ | ⟨⟨hidentifying, hne⟩, owner, -, hname, heq⟩
    · rw [heq] at hrest hf
      refine ⟨f, by rw [List.foldl_cons, heq, hrest], fun t ht => ?_⟩
      obtain ⟨owners, hrun, howners⟩ := hf t ht
      refine ⟨owners, hrun, fun name => ?_⟩
      rw [howners, List.exists_mem_cons_iff, or_iff_right fun h => hno ⟨h.2.1, h.2.2.1⟩]
    · rw [heq, List.forall_mem_map] at hf
      refine ⟨_, by rw [List.foldl_cons, hrest, heq, List.map_map], fun t ht => ?_⟩
      obtain ⟨owners, hrun, howners⟩ := hf t ht
      rw [Function.comp_apply]
      by_cases htarget : t.name = r.targetTable
      · rw [if_pos (by simpa using htarget)] at hrun howners ⊢
        rw [(Table.grows_withIdentifyingKey t owner).name_eq] at howners
        refine ⟨owners ++ [owner.name], .trans (.step owner .refl) hrun, fun name => ?_⟩
        rw [List.mem_append, List.mem_singleton, howners, List.exists_mem_cons_iff, or_comm, hname]
        refine or_congr_left ⟨?_, fun h => h.1.symm⟩
        rintro rfl
        exact ⟨rfl, hidentifying, hne, htarget.symm, rfl⟩
      · rw [if_neg (by simpa using htarget)] at hrun howners ⊢
        refine ⟨owners, hrun, fun name => ?_⟩
        rw [howners, List.exists_mem_cons_iff, or_iff_right fun h => htarget h.2.2.2.1.symm]

end Normalize

end Schemata
