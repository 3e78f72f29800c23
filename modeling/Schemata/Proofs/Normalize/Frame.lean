import Schemata.Proofs.Normalize.Note

/-!
# What is left alone

Once the table for an entity is built, changes to its key and its references touch only its columns
and its marks. Its frame, which is its place on a drawing and whether it is a junction, stays as it
was built (`Extraction.map_frame_normalize`): at the place that the entity gives or on the grid, and
no junction.
-/

namespace Schemata

open Normalize

namespace Table

/-- The place of a table, and whether it is a junction. -/
def frame (t : Table) : Option Position × Bool :=
  (t.position, t.isJunctionTable)

theorem frame_withPrimaryKey (t : Table) : t.withPrimaryKey.1.frame = t.frame := by
  unfold withPrimaryKey
  split
  · split <;> rfl
  · rfl

theorem frame_withStamps (t : Table) : t.withStamps.frame = t.frame := by
  have hstamp (t : Table) (name : String) : (t.withStamp name).frame = t.frame := by
    unfold withStamp
    split <;> rfl
  rw [withStamps, hstamp, hstamp]

theorem frame_withForeignKey (t other : Table) : (t.withForeignKey other).frame = t.frame := by
  unfold withForeignKey
  dsimp only
  split
  · rfl
  · split <;> rfl

theorem frame_withIdentifyingKey (t owner : Table) :
    (t.withIdentifyingKey owner).1.frame = t.frame := by
  unfold withIdentifyingKey
  dsimp only
  split <;> rfl

theorem frame_withContiguousKey (t : Table) : t.withContiguousKey.frame = t.frame := rfl

end Table

namespace Normalize

theorem frame_buildTable (taken : List String) (entity : Extraction.Entity) (index : ℕ) :
    (buildTable taken entity index).value.frame =
      (some (placeAt entity.position index), false) := by
  unfold buildTable
  simp only [Noted.value_bind]
  split <;> exact (Table.frame_withStamps _).trans (Table.frame_withPrimaryKey _)

theorem map_frame_buildTables (entities : List Extraction.Entity) :
    (buildTables entities).value.map Table.frame =
      entities.zipIdx.map fun item => (some (placeAt item.1.position item.2), false) := by
  induction entities using List.reverseRecOn with
  | nil => rfl
  | append_singleton entities entity ih =>
    obtain ⟨hvalue, -⟩ := buildTables_append_singleton entities entity
    rw [hvalue, List.map_append, ih, List.map_singleton, frame_buildTable, List.zipIdx_append,
      List.map_append, Nat.zero_add]
    rfl

theorem frame_placeIn (other : Table) (holder : String) (t : Table) :
    (placeIn other holder t).frame = t.frame := by
  unfold placeIn
  split
  · exact Table.frame_withForeignKey t other
  · rfl

theorem frame_identifyThrough (owner : Table) (target : String) (t : Table) :
    (identifyThrough owner target t).frame = t.frame := by
  unfold identifyThrough
  split
  · exact Table.frame_withIdentifyingKey t owner
  · rfl

theorem frame_finish (small : ℤ) (tables : List Table) (t : Table) :
    (finish small tables t).frame = t.frame := by
  have hmark : ∀ u, (markUnique tables u).frame = u.frame := by
    intro u
    unfold markUnique
    split
    · split <;> rfl
    · rfl
  have hlookup : ∀ u, (detectLookup small u).value.frame = u.frame := by
    intro u
    unfold detectLookup
    split <;> rfl
  rw [finish, hlookup, hmark]
  rfl

end Normalize

namespace Extraction

variable (e : Extraction)

/-- Changes that leave the frames alone one by one leave all of them alone. -/
theorem map_frame_of_map {f : Table → Table} (hf : ∀ t, (f t).frame = t.frame)
    (tables : List Table) : (tables.map f).map Table.frame = tables.map Table.frame := by
  rw [List.map_map]
  exact List.map_congr_left fun t _ => hf t

theorem map_frame_placed : e.placed.map Table.frame = e.built.map Table.frame := by
  obtain ⟨heq, hjoins⟩ := value_placeAll e.placed_resolved e.relationships
  rw [placed, heq]
  refine e.placed_resolved.foldl_place_induction
    (p := fun tables => tables.map Table.frame = e.built.map Table.frame) hjoins ?_ ?_
  · have hresolve : ∀ b, (e.resolve b).frame = b.frame := fun _ => rfl
    rw [resolved_eq, map_frame_of_map hresolve]
  · intro tables _ h other _ holder
    rw [map_frame_of_map (frame_placeIn other holder), h]

theorem map_frame_identified : e.identified.map Table.frame = e.built.map Table.frame := by
  obtain ⟨hplaced, hjoins, -⟩ := e.placed_spec
  refine identifyAll_induction
    (p := fun tables => tables.map Table.frame = e.built.map Table.frame)
    hplaced.linked hplaced.consistent hjoins e.map_frame_placed ?_
  intro tables _ _ h owner _ target _
  rw [map_frame_of_map (frame_identifyThrough owner target), h]

/-- **The tables of a normalized extraction stand where they were built**, and none of them is a
junction. -/
theorem map_frame_normalize (heading : Heading) (small : ℤ) (now : Moment) :
    (e.normalize heading small now).schema.tables.map Table.frame =
      e.entities.zipIdx.map fun item => (some (placeAt item.1.position item.2), false) := by
  rw [tables_normalize, map_frame_of_map (frame_finish small e.ordered), ordered,
    map_frame_of_map Table.frame_withContiguousKey, map_frame_identified]
  exact map_frame_buildTables e.entities

/-- The frame of a table is that of some entity. -/
theorem exists_frame {heading : Heading} {small : ℤ} {now : Moment} {t : Table}
    (ht : t ∈ (e.normalize heading small now).schema.tables) :
    ∃ entity ∈ e.entities, ∃ index, t.frame = (some (placeAt entity.position index), false) := by
  have hframe : t.frame ∈ (e.normalize heading small now).schema.tables.map Table.frame :=
    List.mem_map_of_mem ht
  rw [map_frame_normalize] at hframe
  obtain ⟨⟨entity, index⟩, hitem, heq⟩ := List.mem_map.1 hframe
  have hentity : entity ∈ e.entities := (List.mem_zipIdx' hitem).2 ▸ List.getElem_mem _
  exact ⟨entity, hentity, index, heq.symm⟩

end Extraction

end Schemata
