import Schemata.Extraction.Reader
import Schemata.Proofs.Json.Null
import Schemata.Proofs.Reading

/-!
# Nulls in the documents of extractions

In the document of an extraction, null says as much as nothing: without its nulls (`withoutNulls`)
it is read as before, or has the same faults. Only a coordinate that is null is told apart from one
that is not given; what the extraction says about the place of an entity is the same
(`Entity.settled`).

`GivesOnce` is what this asks of a document: none of its objects gives one field under both of its
spellings. Then every reader is followed along the fields that it reads, from attributes to entities
and relationships (`settled_read_withoutNulls`).
-/

namespace Schemata

open Json (Value Members)

/-! ## Items and members of a document -/

/-- The items of the document, if it is a list. -/
def Json.Value.items : Value → List Value
  | .list items => items
  | _ => []

/-- The member of a name, if the document is an object with one. -/
def Json.Value.member? (name : String) : Value → Option Value
  | .object members => Members.get? members name
  | _ => none

/-- The items of the list that is the member of a name. -/
def Json.Value.itemsAt (name : String) (value : Value) : List Value :=
  ((value.member? name).map (·.items)).getD []

namespace Extraction

/-- The lists whose nulls do not count. -/
def itemLists : List String := ["entities", "relationships", "attributes"]

/-- The document without members that are null and without items that are null in lists of entities,
relationships and attributes. -/
def withoutNulls (document : Value) : Value :=
  document.withoutNulls itemLists

/-! ## Fields that are given once -/

/-- The fields of an attribute that have two spellings. -/
def Attribute.fields : List FieldName :=
  [⟨"dataType", "data_type"⟩, ⟨"isPrimaryKey", "is_primary_key"⟩,
   ⟨"isForeignKey", "is_foreign_key"⟩, ⟨"isNullable", "is_nullable"⟩, ⟨"isUnique", "is_unique"⟩,
   ⟨"defaultValue", "default_value"⟩]

/-- The fields of an entity that have two spellings. -/
def Entity.fields : List FieldName :=
  [⟨"isWeakEntity", "is_weak_entity"⟩, ⟨"isLookupTable", "is_lookup_table"⟩]

/-- The fields of a relationship that have two spellings. -/
def Relationship.fields : List FieldName :=
  [⟨"sourceEntity", "source_entity"⟩, ⟨"targetEntity", "target_entity"⟩,
   ⟨"sourceTable", "source_table"⟩, ⟨"targetTable", "target_table"⟩,
   ⟨"isIdentifying", "is_identifying"⟩, ⟨"sourceCardinality", "source_cardinality"⟩,
   ⟨"targetCardinality", "target_cardinality"⟩,
   ⟨"sourceParticipation", "source_participation"⟩,
   ⟨"targetParticipation", "target_participation"⟩]

/-- The document of an entity gives each field once, and so do its parts. -/
structure Entity.GivesOnce (entity : Value) : Prop where
  fields : entity.GivesOnce Entity.fields
  position : ∀ position ∈ entity.member? "position", position.GivesOnce []
  attributes : ∀ a ∈ entity.itemsAt "attributes", a.GivesOnce Attribute.fields

/-- The document of a relationship gives each field once, and so do its parts. -/
structure Relationship.GivesOnce (relationship : Value) : Prop where
  fields : relationship.GivesOnce Relationship.fields
  cardinality : ∀ sides ∈ relationship.member? "cardinality", sides.GivesOnce []
  attributes : ∀ a ∈ relationship.itemsAt "attributes", a.GivesOnce Attribute.fields

/-- No object of the document that is read gives one field twice, be it under one spelling or under
both. -/
structure GivesOnce (document : Value) : Prop where
  fields : document.GivesOnce []
  entities : ∀ e ∈ document.itemsAt "entities", Entity.GivesOnce e
  relationships : ∀ r ∈ document.itemsAt "relationships", Relationship.GivesOnce r

/-! ## Values without parts -/

theorem seesNoParts_readLabel : Json.SeesNoParts readLabel :=
  ⟨fun _ _ => rfl, fun _ _ => rfl⟩

theorem seesNoParts_readSwitch : Json.SeesNoParts readSwitch :=
  ⟨fun _ _ => rfl, fun _ _ => rfl⟩

theorem seesNoParts_readFlag (origin : Origin) : Json.SeesNoParts (readFlag origin) :=
  ⟨fun _ _ => rfl, fun _ _ => rfl⟩

theorem seesNoParts_readNumber (origin : Origin) : Json.SeesNoParts (readNumber origin) :=
  ⟨fun _ _ => rfl, fun _ _ => rfl⟩

theorem seesNoParts_readNumeralText : Json.SeesNoParts readNumeralText :=
  ⟨fun _ _ => rfl, fun _ _ => rfl⟩

section Fields

variable {members : Members} {fields : List FieldName} {name : FieldName}

/-- A field without parts, null standing for its default. -/
theorem fieldD_withoutNulls {α : Type} {default : α} {read : Value → Reading α}
    (h : members.GivesOnce fields) (hname : name.camel = name.snake ∨ name ∈ fields)
    (hnull : read .null = .read default) (hread : Json.SeesNoParts read) :
    (members.withoutNulls itemLists).fieldD name default read =
      members.fieldD name default read :=
  h.fieldD_withoutNulls hname hnull fun _ _ _ => hread.clean _ _

theorem fieldD_readLabel (h : members.GivesOnce fields)
    (hname : name.camel = name.snake ∨ name ∈ fields) :
    (members.withoutNulls itemLists).fieldD name none readLabel =
      members.fieldD name none readLabel :=
  fieldD_withoutNulls h hname rfl seesNoParts_readLabel

theorem fieldD_readSwitch (h : members.GivesOnce fields)
    (hname : name.camel = name.snake ∨ name ∈ fields) :
    (members.withoutNulls itemLists).fieldD name false readSwitch =
      members.fieldD name false readSwitch :=
  fieldD_withoutNulls h hname rfl seesNoParts_readSwitch

theorem fieldD_readFlag (h : members.GivesOnce fields)
    (hname : name.camel = name.snake ∨ name ∈ fields) :
    (members.withoutNulls itemLists).fieldD name none (readNullable (readFlag .caller)) =
      members.fieldD name none (readNullable (readFlag .caller)) :=
  fieldD_withoutNulls h hname rfl (seesNoParts_readFlag .caller).readNullable

/-- The field under a single spelling. -/
theorem field?_single (members : Members) (name : String) :
    members.field? (.single name) = (members.get? name).map (name, ·) := by
  rw [Members.field?, FieldName.single]
  cases members.get? name <;> rfl

end Fields

/-! ## Attributes -/

theorem Attribute.read_withoutNulls {value : Value} (h : value.GivesOnce Attribute.fields) :
    Attribute.read (withoutNulls value) = Attribute.read value := by
  cases value with
  | object members =>
    rw [withoutNulls, Json.withoutNulls_object, Attribute.read, readObject, readObject]
    simp (disch := decide) only [fieldD_readLabel h, fieldD_readSwitch h, fieldD_readFlag h]
  | list items => rw [withoutNulls, Json.withoutNulls_list]; rfl
  | _ => rw [withoutNulls, Json.Value.withoutNulls] <;> simp

/-! ## Lists -/

theorem map_readItems {α β : Type} (f : α → β) (read : Value → Reading α) (value : Value) :
    List.map f <$> readItems read value = readItems (fun item => f <$> read item) value := by
  cases value with
  | list items => exact Reading.map_items f read 0 _
  | _ => rfl

/-- A list whose nulls do not count, each item being read as before. -/
theorem readItems_clean {α : Type} {read : Value → Reading α} {name : String} {value : Value}
    (hname : name ∈ itemLists)
    (hread : ∀ item ∈ value.items, read (withoutNulls item) = read item) :
    readItems read (Json.clean itemLists name value) = readItems read value := by
  rw [Json.clean, if_pos hname]
  cases value with
  | list items =>
    have hfilter : ((items.map withoutNulls).filter fun item => !item.isNull) =
        (items.filter fun item => !item.isNull).map withoutNulls := by
      rw [List.filter_map]
      exact congrArg _ (List.filter_congr fun item _ =>
        congrArg (!·) (Json.isNull_withoutNulls item))
    rw [Json.withoutNulls_list, Json.Value.withoutNullItems, readItems, readItems, readList,
      readList, List.filter_filter]
    change Reading.items read 0 (((items.map withoutNulls)).filter _) = _
    simp only [Bool.and_self]
    rw [hfilter, Reading.items_map]
    exact Reading.items_congr 0 fun item hitem => hread item (List.mem_filter.1 hitem).1
  | object members => rw [Json.withoutNulls_object]; rfl
  | _ => rw [Json.Value.withoutNulls] <;> simp [Json.Value.withoutNullItems]

theorem fieldD_readItems {α : Type} {read : Value → Reading α} {members : Members}
    {fields : List FieldName} {name : String} (h : members.GivesOnce fields)
    (hname : name ∈ itemLists)
    (hread : ∀ item ∈ (Value.object members).itemsAt name, read (withoutNulls item) = read item) :
    (members.withoutNulls itemLists).fieldD (.single name) [] (readItems read) =
      members.fieldD (.single name) [] (readItems read) := by
  refine h.fieldD_withoutNulls (.inl rfl) rfl fun spelling value hfield => ?_
  rw [field?_single] at hfield
  obtain ⟨found, hfound, heq⟩ := Option.map_eq_some_iff.1 hfield
  obtain ⟨rfl, rfl⟩ := Prod.mk.inj heq
  refine readItems_clean hname fun item hitem => hread item ?_
  rwa [Json.Value.itemsAt, Json.Value.member?, hfound]

theorem fieldD_attributes {members : Members} {fields : List FieldName}
    (h : members.GivesOnce fields)
    (hattributes : ∀ a ∈ (Value.object members).itemsAt "attributes",
      a.GivesOnce Attribute.fields) :
    (members.withoutNulls itemLists).fieldD (.single "attributes") []
      (readItems Attribute.read) =
      members.fieldD (.single "attributes") [] (readItems Attribute.read) :=
  fieldD_readItems h (by decide) fun a ha => Attribute.read_withoutNulls (hattributes a ha)

/-! ## Relationships -/

theorem Sides.read_withoutNulls {members : Members} (h : members.GivesOnce []) :
    Sides.read (members.withoutNulls itemLists) = Sides.read members := by
  have hside := fun (name : FieldName) (hname : name.camel = name.snake ∨ name ∈ []) =>
    @fieldD_withoutNulls members [] name _ none (readNullable readNumeralText) h hname rfl
      seesNoParts_readNumeralText.readNullable
  rw [Sides.read, Sides.read, hside _ (.inl rfl), hside _ (.inl rfl)]

theorem fieldD_readSides {members : Members} {fields : List FieldName}
    (h : members.GivesOnce fields)
    (hsides : ∀ sides ∈ (Value.object members).member? "cardinality", sides.GivesOnce []) :
    (members.withoutNulls itemLists).fieldD (.single "cardinality") none readSides =
      members.fieldD (.single "cardinality") none readSides := by
  refine h.fieldD_withoutNulls (.inl rfl) rfl fun spelling value hfield => ?_
  rw [field?_single] at hfield
  obtain ⟨found, hfound, heq⟩ := Option.map_eq_some_iff.1 hfield
  obtain ⟨rfl, rfl⟩ := Prod.mk.inj heq
  rw [Json.clean, if_neg (by decide)]
  cases found with
  | object sides =>
    rw [Json.withoutNulls_object, readSides, readSides,
      Sides.read_withoutNulls (hsides _ hfound)]
  | list items => rw [Json.withoutNulls_list]; rfl
  | _ => rw [Json.Value.withoutNulls] <;> simp

theorem Relationship.read_withoutNulls {value : Value} (h : Relationship.GivesOnce value) :
    Relationship.read (withoutNulls value) = Relationship.read value := by
  obtain ⟨hfields, hsides, hattributes⟩ := h
  cases value with
  | object members =>
    rw [withoutNulls, Json.withoutNulls_object, Relationship.read, readObject, readObject,
      fieldD_readSides hfields hsides, fieldD_attributes hfields hattributes]
    simp (disch := decide) only [fieldD_readLabel hfields, fieldD_readSwitch hfields]
  | list items => rw [withoutNulls, Json.withoutNulls_list]; rfl
  | _ => rw [withoutNulls, Json.Value.withoutNulls] <;> simp

/-! ## Entities -/

/-- The coordinate that is given for an axis. -/
def coordinate? (position : Option (List (String × Option Binary64))) (axis : String) :
    Option Binary64 :=
  ((position.getD []).lookup axis).bind id

/-- The place with the coordinates of the two axes only. -/
def settledPosition (position : Option (List (String × Option Binary64))) :
    Option (List (String × Option Binary64)) :=
  some [("x", coordinate? position "x"), ("y", coordinate? position "y")]

/-- The entity with what it says about its place. -/
def Entity.settled (e : Entity) : Entity :=
  { e with position := settledPosition e.position }

/-- The extraction with what it says about the places of entities. -/
def settled (e : Extraction) : Extraction :=
  { e with entities := e.entities.map (·.settled) }

/-- A coordinate that is null is none. -/
theorem coordinate?_filter {axes : List (String × Option Binary64)} (h : (axes.map (·.1)).Nodup)
    (axis : String) :
    coordinate? (some (axes.filter (·.2.isSome))) axis = coordinate? (some axes) axis := by
  induction axes with
  | nil => rfl
  | cons a axes ih =>
    obtain ⟨hfresh, hnodup⟩ := List.nodup_cons.1 h
    obtain ⟨name, value⟩ := a
    specialize ih hnodup
    simp only [coordinate?, Option.getD_some] at ih ⊢
    cases value with
    | some x =>
      rw [List.filter_cons_of_pos (by rfl), lookup_cons_if, lookup_cons_if]
      split
      · rfl
      · exact ih
    | none =>
      rw [List.filter_cons_of_neg (by simp), ih, lookup_cons_if]
      split
      · subst axis
        rw [lookup_eq_none hfresh]
        rfl
      · rfl

/-- Coordinates that are null are passed over. -/
theorem members_withoutNulls {α : Type} {read : Value → Reading α}
    (hread : Json.SeesNoParts read) (members : Members) :
    (∃ axes, Reading.members (readNullable read) members = .read axes ∧
      axes.map (·.1) = members.map (·.1) ∧
      Reading.members (readNullable read) (members.withoutNulls itemLists) =
        .read (axes.filter (·.2.isSome))) ∨
      ∃ faults, Reading.members (readNullable read) members = .faulty faults ∧
        Reading.members (readNullable read) (members.withoutNulls itemLists) =
          .faulty faults := by
  induction members with
  | nil => exact .inl ⟨[], rfl, rfl, rfl⟩
  | cons m members ih =>
    rw [Json.withoutNulls_cons, Reading.members]
    cases hnull : m.2.isNull with
    | true =>
      have hnone : readNullable read m.2 = .read none := by
        rw [Json.eq_null hnull]
        rfl
      rw [hnone, if_pos rfl]
      rcases ih with ⟨axes, hread, hnames, hclean⟩ | ⟨faults, hread, hclean⟩
      · exact .inl ⟨(m.1, none) :: axes, by rw [hread]; rfl, by simp [hnames], by simpa using hclean⟩
      · exact .inr ⟨faults, by rw [hread]; rfl, hclean⟩
    | false =>
      rw [if_neg (by simp), Reading.members, hread.readNullable.clean,
        readNullable_of_isNull_eq_false hnull]
      rcases ih with ⟨axes, hread, hnames, hclean⟩ | ⟨faults, hread, hclean⟩
      · rw [hread, hclean]
        cases read m.2 with
        | read a => exact .inl ⟨(m.1, some a) :: axes, rfl, by simp [hnames], rfl⟩
        | faulty faults => exact .inr ⟨_, rfl, rfl⟩
      · rw [hread, hclean]
        cases read m.2 with
        | read a => exact .inr ⟨_, rfl, rfl⟩
        | faulty faults' => exact .inr ⟨_, rfl, rfl⟩

theorem settledPosition_readCoordinates {value : Value} (h : value.GivesOnce []) :
    settledPosition <$> readCoordinates (withoutNulls value) =
      settledPosition <$> readCoordinates value := by
  cases value with
  | object members =>
    rw [withoutNulls, Json.withoutNulls_object, readCoordinates, readCoordinates]
    rcases members_withoutNulls (seesNoParts_readNumber .caller) members with
      ⟨axes, hread, hnames, hclean⟩ | ⟨faults, hread, hclean⟩
    · have hnodup : (axes.map (·.1)).Nodup := hnames ▸ h.nodup
      rw [hread, hclean]
      simp [settledPosition, coordinate?_filter hnodup]
    · rw [hread, hclean]
  | list items => rw [withoutNulls, Json.withoutNulls_list]; rfl
  | _ => rw [withoutNulls, Json.Value.withoutNulls] <;> simp

theorem fieldD_readCoordinates {members : Members} {fields : List FieldName}
    (h : members.GivesOnce fields)
    (hposition : ∀ position ∈ (Value.object members).member? "position", position.GivesOnce []) :
    settledPosition <$> (members.withoutNulls itemLists).fieldD (.single "position") none
      readCoordinates =
      settledPosition <$> members.fieldD (.single "position") none readCoordinates := by
  rw [Members.map_fieldD, Members.map_fieldD]
  refine h.fieldD_withoutNulls (.inl rfl) rfl fun spelling value hfield => ?_
  rw [field?_single] at hfield
  obtain ⟨found, hfound, heq⟩ := Option.map_eq_some_iff.1 hfield
  obtain ⟨rfl, rfl⟩ := Prod.mk.inj heq
  rw [Json.clean, if_neg (by decide)]
  exact settledPosition_readCoordinates (hposition _ hfound)

/-- What an entity says is read field by field, its place being settled. -/
theorem settled_readEntity (members : Members) :
    Entity.settled <$> Entity.read (.object members) = Entity.mk
      <$> members.fieldD (.single "name") none readLabel
      <*> members.fieldD (.single "description") none readLabel
      <*> members.fieldD ⟨"isWeakEntity", "is_weak_entity"⟩ false readSwitch
      <*> members.fieldD ⟨"isLookupTable", "is_lookup_table"⟩ false readSwitch
      <*> members.fieldD (.single "attributes") [] (readItems Attribute.read)
      <*> settledPosition <$> members.fieldD (.single "position") none readCoordinates := by
  rw [Entity.read, readObject]
  simp only [map_seq, seq_map_assoc, Functor.map_map]
  rfl

theorem Entity.settled_read_withoutNulls {value : Value} (h : Entity.GivesOnce value) :
    Entity.settled <$> Entity.read (withoutNulls value) =
      Entity.settled <$> Entity.read value := by
  obtain ⟨hfields, hposition, hattributes⟩ := h
  cases value with
  | object members =>
    rw [withoutNulls, Json.withoutNulls_object, settled_readEntity, settled_readEntity,
      fieldD_readCoordinates hfields hposition, fieldD_attributes hfields hattributes]
    simp (disch := decide) only [fieldD_readLabel hfields, fieldD_readSwitch hfields]
  | list items => rw [withoutNulls, Json.withoutNulls_list]; rfl
  | _ => rw [withoutNulls, Json.Value.withoutNulls] <;> simp

/-! ## Extractions -/

theorem settled_readExtraction (members : Members) :
    settled <$> read (.object members) = Extraction.mk
      <$> members.fieldD (.single "entities") []
        (readItems fun value => Entity.settled <$> Entity.read value)
      <*> members.fieldD (.single "relationships") [] (readItems Relationship.read) := by
  have hentities : (fun value => List.map Entity.settled <$> readItems Entity.read value) =
      readItems fun value => Entity.settled <$> Entity.read value :=
    funext fun value => map_readItems Entity.settled Entity.read value
  rw [read, readObject, ← hentities, ← List.map_nil, ← Members.map_fieldD]
  simp only [map_seq, Functor.map_map]
  rfl

/-- **Null means absent in the document of an extraction**: without nulls it says the same, or has
the same faults. -/
theorem settled_read_withoutNulls {document : Value} (h : GivesOnce document) :
    settled <$> read (withoutNulls document) = settled <$> read document := by
  obtain ⟨hfields, hentities, hrelationships⟩ := h
  cases document with
  | object members =>
    rw [withoutNulls, Json.withoutNulls_object, settled_readExtraction, settled_readExtraction,
      fieldD_readItems hfields (by decide) fun e he =>
        Entity.settled_read_withoutNulls (hentities e he),
      fieldD_readItems hfields (by decide) fun r hr =>
        Relationship.read_withoutNulls (hrelationships r hr)]
  | list items => rw [withoutNulls, Json.withoutNulls_list]; rfl
  | _ => rw [withoutNulls, Json.Value.withoutNulls] <;> simp

end Extraction

end Schemata
