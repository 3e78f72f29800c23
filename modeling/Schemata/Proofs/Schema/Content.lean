import Schemata.Proofs.Schema.Expansion
import Schemata.Proofs.Schema.Type

/-!
# Where types and default values come from

Whatever is done to a table, its columns have types and default values that were there before or are
those of the usual columns: `Table.Within` says that all of them belong to some class of types and
some class of texts, and is kept by every change to a table if the usual ones belong to the classes
(`Usual`). References take their type from the key that they lead to, so two tables are involved
there, and three when a junction is made.
-/

namespace Schemata

/-- Classes of types and of default values to which those of the usual columns belong. -/
structure Usual (types texts : String → Prop) : Prop where
  integer : types "INTEGER"
  timestamp : types "TIMESTAMP"
  unspecified : types defaultType
  moment : texts "CURRENT_TIMESTAMP"

/-- The type of a column belongs to one class, and its default value to another. -/
structure Column.Within (types texts : String → Prop) (c : Column) : Prop where
  dataType : types c.dataType
  defaultValue : ∀ text ∈ c.defaultValue, texts text

/-- The types of all columns of a table belong to one class, and their default values to another. -/
def Table.Within (types texts : String → Prop) (t : Table) : Prop :=
  ∀ c ∈ t.columns, c.Within types texts

variable {types texts : String → Prop} {t other owner source target : Table} {c d : Column}
  {r : Relationship}

namespace Column

theorem Within.of_eq (h : c.Within types texts) (htype : d.dataType = c.dataType)
    (hdefault : d.defaultValue = c.defaultValue) : d.Within types texts :=
  ⟨htype ▸ h.dataType, hdefault ▸ h.defaultValue⟩

theorem Within.of_none (htype : types c.dataType) (hnone : c.defaultValue = none) :
    c.Within types texts :=
  ⟨htype, by simp [hnone]⟩

theorem within_stamp (h : Usual types texts) (name : String) :
    (Column.stamp name).Within types texts :=
  ⟨h.timestamp, by simpa [stamp] using h.moment⟩

theorem within_defaults (h : Usual types texts) : ∀ c ∈ Column.defaults,
    c.Within types texts := by
  intro c hc
  simp only [defaults, List.mem_cons, List.not_mem_nil, or_false] at hc
  rcases hc with rfl | rfl | rfl | rfl
  · exact .of_none h.integer rfl
  · exact .of_none h.unspecified rfl
  · exact within_stamp h _
  · exact within_stamp h _

end Column

namespace Table

theorem Within.referencedKey (h : Usual types texts) (ht : t.Within types texts) :
    types t.referencedKey.dataType := by
  by_cases hkeys : t.keyColumns = []
  · rw [Table.referencedKey, hkeys]
    exact h.integer
  · exact (ht _ (mem_keyColumns.1 (referencedKey_mem hkeys)).1).dataType

theorem Within.foreignKeyColumn (h : Usual types texts) (ht : t.Within types texts)
    (name : String) (nullable : Bool) : (t.foreignKeyColumn name nullable).Within types texts :=
  .of_none (ht.referencedKey h) rfl

/-- A change to the columns of one name keeps the classes if it does so for each of the columns. -/
theorem Within.mapColumns (ht : t.Within types texts) {name : String} {f : Column → Column}
    (hf : ∀ c ∈ t.columns, c.name = name → (f c).Within types texts) :
    (t.mapColumns name f).Within types texts := by
  intro d hd
  obtain ⟨c, hc, ⟨hname, rfl⟩ | ⟨-, rfl⟩⟩ := mem_columns_mapColumns.1 hd
  · exact hf c hc hname
  · exact ht d hc

theorem Within.withPrimaryKey (h : Usual types texts) (ht : t.Within types texts) :
    t.withPrimaryKey.1.Within types texts := by
  rcases withPrimaryKey_cases t with ⟨-, heq⟩ | ⟨-, heq⟩ | ⟨key, hkey, heq⟩ <;> rw [heq]
  · exact ht
  · exact List.forall_mem_cons.2 ⟨.of_none h.integer rfl, ht⟩
  · exact ht.mapColumns fun _ _ _ => (ht key (mem_of_column? hkey).1).of_eq rfl rfl

theorem Within.withStamp (h : Usual types texts) (ht : t.Within types texts)
    (name : String) : (t.withStamp name).Within types texts := by
  unfold Table.withStamp
  split
  · exact ht
  · exact List.forall_mem_append.2 ⟨ht, by simpa using Column.within_stamp h name⟩

theorem Within.withForeignKey (h : Usual types texts) (ht : t.Within types texts)
    (hother : other.Within types texts) :
    (t.withForeignKey other).Within types texts := by
  rcases withForeignKey_cases t other with
    ⟨-, heq⟩ | ⟨c, hc, ⟨-, heq⟩ | ⟨-, heq⟩⟩ <;> rw [heq]
  · exact List.forall_mem_append.2 ⟨ht, by simpa using hother.foreignKeyColumn h _ true⟩
  · exact ht
  · exact ht.mapColumns fun _ _ _ =>
      ⟨hother.referencedKey h, (ht c (mem_of_column? hc).1).defaultValue⟩

theorem Within.withIdentifyingKey (h : Usual types texts) (ht : t.Within types texts)
    (howner : owner.Within types texts) :
    (t.withIdentifyingKey owner).1.Within types texts := by
  intro d hd
  rcases withIdentifyingKey_cases hd with hd | ⟨rfl, -⟩ | ⟨c, hc, -, rfl⟩ | ⟨rfl, -⟩
  · exact ht d hd
  · exact .of_none (howner.referencedKey h) rfl
  · exact (ht c hc).of_eq rfl rfl
  · exact .of_none h.integer rfl

theorem Within.withContiguousKey (ht : t.Within types texts) :
    t.withContiguousKey.Within types texts := by
  intro d hd
  rw [columns_withContiguousKey] at hd
  rcases List.mem_append.1 hd with hd | hd
  · obtain ⟨c, hc, rfl⟩ := List.mem_map.1 hd
    refine (ht c (mem_keyColumns.1 hc).1).of_eq ?_ ?_ <;> unfold settledKey <;> split <;> rfl
  · exact ht d (List.mem_filter.1 hd).1

theorem Within.referenceable (ht : t.Within types texts) :
    t.referenceable.Within types texts := by
  rcases t.referenceable_cases with heq | ⟨-, -, -, heq⟩ <;> rw [heq]
  · exact ht
  · exact ht.mapColumns fun c hc _ => (ht c hc).of_eq rfl rfl

theorem Within.asSide (ht : t.Within types texts) (names : List String)
    (rs : List Relationship) : (Schemata.asSide names rs t).Within types texts := by
  rcases asSide_cases names rs t with heq | heq <;> rw [heq]
  · exact ht
  · exact ht.referenceable

/-- The columns of a junction have the types of the keys of its sides, or come from the attributes
of the relationship. -/
theorem within_junctionTable (h : Usual types texts) (hsource : source.Within types texts)
    (htarget : target.Within types texts) (hr : ∀ a ∈ r.attributes, a.Within types texts) :
    (junctionTable r source target).Within types texts := by
  intro c hc
  rcases mem_columns_junctionTable.1 hc with rfl | rfl | ⟨a, ha, rfl⟩ | ⟨name, -, rfl⟩
  · exact .of_none (hsource.referencedKey h) rfl
  · exact .of_none (htarget.referencedKey h) rfl
  · have hattribute := hr a (untaken_subset _ _ ha)
    refine ⟨?_, hattribute.defaultValue⟩
    unfold junctionColumn
    dsimp only
    split
    · exact h.unspecified
    · exact hattribute.dataType
  · exact Column.within_stamp h name

end Table

end Schemata
