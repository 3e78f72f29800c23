import Mathlib.Data.List.Nodup
import Schemata.Reading.Basic

/-!
# Documents without nulls

`Value.withoutNulls` takes the members that are null out of all objects of a document, and the items
that are null out of the lists under some names. What is left of a member is told by `clean`, so
that looking up a name in an object without nulls is looking it up in the object, a null being none
(`get?_withoutNulls`). Where a field is given once, this is so for fields with two spellings as
well (`GivesOnce.field?_withoutNulls`).
-/

namespace Schemata

/-! ## Looking up names -/

theorem lookup_cons_if {β : Type} (m : String × β) (members : List (String × β)) (name : String) :
    (m :: members).lookup name = if name = m.1 then some m.2 else members.lookup name := by
  rw [List.lookup_cons]
  by_cases h : name = m.1
  · rw [if_pos h, beq_iff_eq.2 h]
  · rw [if_neg h, beq_false_of_ne h]

theorem lookup_eq_none {β : Type} {members : List (String × β)} {name : String}
    (h : name ∉ members.map (·.1)) : members.lookup name = none := by
  refine List.lookup_eq_none_iff.2 fun m hm => bne_iff_ne.2 ?_
  rintro rfl
  exact h (List.mem_map_of_mem hm)

namespace Json

variable {itemLists : List String} {members : Members} {fields : List FieldName}

/-! ## Leaving nulls out -/

/-- The document with the items that are null left out, if it is a list. -/
def Value.withoutNullItems : Value → Value
  | .list items => .list (items.filter fun item => !item.isNull)
  | value => value

mutual

/-- The document without members that are null, and without items that are null in the lists under
the names `itemLists`. -/
def Value.withoutNulls (itemLists : List String) : Value → Value
  | .list items => .list (Value.itemsWithoutNulls itemLists items)
  | .object members => .object (Value.membersWithoutNulls itemLists members)
  | value => value

/-- The items of a list, each without nulls. -/
def Value.itemsWithoutNulls (itemLists : List String) : List Value → List Value
  | [] => []
  | item :: items => item.withoutNulls itemLists :: Value.itemsWithoutNulls itemLists items

/-- The members of an object that are not null, each without nulls. -/
def Value.membersWithoutNulls (itemLists : List String) :
    List (String × Value) → List (String × Value)
  | [] => []
  | (name, value) :: members =>
    let rest := Value.membersWithoutNulls itemLists members
    let inside := value.withoutNulls itemLists
    if value.isNull then rest
    else (name, if name ∈ itemLists then inside.withoutNullItems else inside) :: rest

end

/-- What is left of the value of a member of a name. -/
def clean (itemLists : List String) (name : String) (value : Value) : Value :=
  if name ∈ itemLists then (value.withoutNulls itemLists).withoutNullItems
  else value.withoutNulls itemLists

/-- The members without nulls. -/
def Members.withoutNulls (itemLists : List String) (members : Members) : Members :=
  (members.filter fun m => !m.2.isNull).map fun m => (m.1, clean itemLists m.1 m.2)

theorem withoutNulls_list (items : List Value) : (Value.list items).withoutNulls itemLists =
    .list (items.map (·.withoutNulls itemLists)) := by
  have hitems : ∀ items, Value.itemsWithoutNulls itemLists items =
      items.map (·.withoutNulls itemLists) := by
    intro items
    induction items with
    | nil => rw [Value.itemsWithoutNulls, List.map_nil]
    | cons item items ih => rw [Value.itemsWithoutNulls, ih, List.map_cons]
  rw [Value.withoutNulls, hitems]

theorem withoutNulls_object (members : Members) : (Value.object members).withoutNulls itemLists =
    .object (members.withoutNulls itemLists) := by
  have hmembers : ∀ members, Value.membersWithoutNulls itemLists members =
      Members.withoutNulls itemLists members := by
    intro members
    induction members with
    | nil => rw [Value.membersWithoutNulls]; rfl
    | cons m members ih =>
      rw [Value.membersWithoutNulls, ih]
      cases hnull : m.2.isNull <;> simp [Members.withoutNulls, clean, hnull]
  rw [Value.withoutNulls, hmembers]

theorem isNull_withoutNulls (value : Value) :
    (value.withoutNulls itemLists).isNull = value.isNull := by
  cases value <;> simp [Value.withoutNulls, Value.isNull]

theorem eq_null {value : Value} (h : value.isNull = true) : value = .null := by
  cases value with
  | null => rfl
  | _ => contradiction

/-! ## Readers that see only the kind of a document with parts -/

/-- Of lists and of objects, the reader sees only that they are such. -/
structure SeesNoParts {α : Type} (read : Value → α) : Prop where
  list : ∀ items items', read (.list items) = read (.list items')
  object : ∀ members members', read (.object members) = read (.object members')

theorem SeesNoParts.withoutNulls {α : Type} {read : Value → α} (h : SeesNoParts read)
    (value : Value) : read (value.withoutNulls itemLists) = read value := by
  cases value with
  | list items => rw [withoutNulls_list]; exact h.list _ _
  | object members => rw [withoutNulls_object]; exact h.object _ _
  | _ => rw [Value.withoutNulls] <;> simp

theorem SeesNoParts.clean {α : Type} {read : Value → α} (h : SeesNoParts read) (name : String)
    (value : Value) : read (clean itemLists name value) = read value := by
  rw [Json.clean]
  split
  · rw [← h.withoutNulls value]
    cases value.withoutNulls itemLists with
    | list items => exact h.list _ _
    | _ => rfl
  · exact h.withoutNulls value

theorem SeesNoParts.readNullable {α : Type} {read : Value → Reading α} (h : SeesNoParts read) :
    SeesNoParts (readNullable read) :=
  ⟨fun items items' => congrArg (some <$> ·) (h.list items items'),
    fun members members' => congrArg (some <$> ·) (h.object members members')⟩

/-! ## Fields -/

/-- An object gives no name twice, and none of some fields under both of its spellings. -/
structure Members.GivesOnce (members : Members) (fields : List FieldName) : Prop where
  nodup : (members.map (·.1)).Nodup
  spelling : ∀ field ∈ fields, members.get? field.camel = none ∨ members.get? field.snake = none

/-- If the document is an object, it gives the fields once. -/
def Value.GivesOnce (fields : List FieldName) : Value → Prop
  | .object members => Members.GivesOnce members fields
  | _ => True

theorem get?_cons (m : String × Value) (members : Members) (name : String) :
    Members.get? (m :: members) name = if name = m.1 then some m.2 else members.get? name :=
  lookup_cons_if m members name

theorem withoutNulls_cons (m : String × Value) (members : Members) :
    Members.withoutNulls itemLists (m :: members) = if m.2.isNull then
      Members.withoutNulls itemLists members
    else (m.1, clean itemLists m.1 m.2) :: Members.withoutNulls itemLists members := by
  cases hnull : m.2.isNull <;> simp [Members.withoutNulls, hnull]

/-- Looking up a name in an object without nulls. -/
theorem get?_withoutNulls (h : (members.map (·.1)).Nodup) (name : String) :
    (members.withoutNulls itemLists).get? name =
      ((members.get? name).filter fun value => !value.isNull).map (clean itemLists name) := by
  induction members with
  | nil => rfl
  | cons m members ih =>
    obtain ⟨hfresh, hnodup⟩ := List.nodup_cons.1 h
    specialize ih hnodup
    rw [get?_cons, withoutNulls_cons]
    by_cases hname : name = m.1
    · subst hname
      have hnone : Members.get? members m.1 = none := lookup_eq_none hfresh
      rw [hnone] at ih
      cases hnull : m.2.isNull with
      | true => simpa [hnull, Option.filter_some] using ih
      | false => simp [hnull, Option.filter_some, get?_cons]
    · cases m.2.isNull with
      | true => simpa [hname] using ih
      | false => simpa [hname, get?_cons] using ih

/-- Looking up a field in an object without nulls. -/
theorem Members.GivesOnce.field?_withoutNulls (h : Members.GivesOnce members fields)
    {name : FieldName} (hname : name.camel = name.snake ∨ name ∈ fields) :
    (members.withoutNulls itemLists).field? name =
      ((members.field? name).filter fun f => !f.2.isNull).map
        fun f => (f.1, clean itemLists f.1 f.2) := by
  have hsnake : ∀ value, members.get? name.camel = some value → value.isNull = true →
      (members.withoutNulls itemLists).get? name.snake = none := by
    intro value hvalue hnull
    rw [get?_withoutNulls h.nodup]
    rcases hname with heq | hmem
    · simp [← heq, hvalue, hnull, Option.filter_some]
    · have hnone := (h.spelling name hmem).resolve_left (by simp [hvalue])
      simp [hnone]
  rw [Members.field?, Members.field?, get?_withoutNulls h.nodup]
  cases hcamel : members.get? name.camel with
  | none =>
    rw [get?_withoutNulls h.nodup]
    cases hvalue : members.get? name.snake with
    | none => rfl
    | some value => cases hnull : value.isNull <;> simp [hnull, Option.filter_some]
  | some value =>
    cases hnull : value.isNull with
    | true => simp [hnull, hsnake value hcamel hnull, Option.filter_some]
    | false => simp [hnull, Option.filter_some]

variable {α : Type} {name : FieldName} {default : α} {read : Value → Reading α}

/-- **A field of an object without nulls** is read as before, if null is read as the field left out,
and what is left of a value as the value. -/
theorem Members.GivesOnce.fieldD_withoutNulls (h : Members.GivesOnce members fields)
    (hname : name.camel = name.snake ∨ name ∈ fields) (hnull : read .null = .read default)
    (hread : ∀ spelling value, members.field? name = some (spelling, value) →
      read (clean itemLists spelling value) = read value) :
    (members.withoutNulls itemLists).fieldD name default read =
      members.fieldD name default read := by
  rw [Members.fieldD, Members.fieldD, h.field?_withoutNulls hname]
  cases hfield : members.field? name with
  | none => rfl
  | some f =>
    obtain ⟨spelling, value⟩ := f
    cases value with
    | null => simp [Value.isNull, hnull, Reading.under, Option.filter_some]
    | _ => simp [Value.isNull, hread _ _ hfield, Option.filter_some]

end Json

end Schemata
