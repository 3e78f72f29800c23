import Mathlib.Control.Basic
import Schemata.Proofs.Result
import Schemata.Reading.Basic

/-!
# Reading side by side

Readings obey the laws of an applicative functor, so that a function of what is read can be moved
into the parts of which it is made.
-/

namespace Schemata

variable {α β γ : Type}

instance : LawfulApplicative Reading where
  map_const := rfl
  id_map x := by cases x <;> rfl
  seqLeft_eq _ _ := rfl
  seqRight_eq x y := by cases x <;> cases y <;> rfl
  pure_seq f x := by cases x <;> rfl
  map_pure _ _ := rfl
  seq_pure f _ := by cases f <;> rfl
  seq_assoc x f g := by
    cases x <;> cases f <;> cases g <;> simp [Seq.seq, Functor.map, Reading.map, Reading.both]

namespace Reading

theorem map_under (f : α → β) (step : Step) (x : Reading α) :
    f <$> x.under step = (f <$> x).under step := by
  cases x <;> rfl

theorem map_items (f : α → β) (read : γ → Reading α) (index : Nat) (items : List γ) :
    List.map f <$> Reading.items read index items =
      Reading.items (fun item => f <$> read item) index items := by
  induction items generalizing index with
  | nil => rfl
  | cons item items ih =>
    rw [Reading.items, Reading.items, ← ih, ← map_under]
    simp only [map_seq, seq_map_assoc, Functor.map_map]
    rfl

theorem items_map (read : γ → Reading α) (f : β → γ) (index : Nat) (items : List β) :
    Reading.items read index (items.map f) =
      Reading.items (fun item => read (f item)) index items := by
  induction items generalizing index with
  | nil => rfl
  | cons item items ih => rw [List.map_cons, Reading.items, Reading.items, ih]

theorem items_congr {read read' : γ → Reading α} {items : List γ} (index : Nat)
    (h : ∀ item ∈ items, read item = read' item) :
    Reading.items read index items = Reading.items read' index items := by
  induction items generalizing index with
  | nil => rfl
  | cons item items ih =>
    rw [Reading.items, Reading.items, h item (by simp),
      ih _ fun item hitem => h item (by simp [hitem])]

theorem map_eq_read {f : α → β} {x : Reading α} {b : β} :
    f <$> x = .read b ↔ ∃ a, x = .read a ∧ f a = b := by
  cases x <;> simp [Functor.map, Reading.map]

theorem seq_eq_read {f : Reading (α → β)} {x : Reading α} {b : β} :
    f <*> x = .read b ↔ ∃ g, f = .read g ∧ ∃ a, x = .read a ∧ g a = b := by
  cases f <;> cases x <;> simp [Seq.seq, both]

theorem under_eq_read {step : Step} {x : Reading α} {a : α} :
    x.under step = .read a ↔ x = .read a := by
  cases x <;> simp [under]

/-- Every item that is read is read off an item of the list. -/
theorem exists_of_items {read : γ → Reading α} {index : Nat} {items : List γ} {found : List α}
    (h : Reading.items read index items = .read found) :
    ∀ a ∈ found, ∃ item ∈ items, read item = .read a := by
  induction items generalizing index found with
  | nil =>
    obtain rfl : [] = found := by simpa [Reading.items] using h
    simp
  | cons item items ih =>
    rw [Reading.items, seq_eq_read] at h
    obtain ⟨_, hfirst, rest, hrest, rfl⟩ := h
    obtain ⟨a, ha, rfl⟩ := map_eq_read.1 hfirst
    refine List.forall_mem_cons.2 ⟨⟨item, by simp, under_eq_read.1 ha⟩, fun b hb => ?_⟩
    obtain ⟨item', hitem, hread⟩ := ih hrest b hb
    exact ⟨item', List.mem_cons_of_mem _ hitem, hread⟩

/-- Every member that is read is read off a member of the object. -/
theorem exists_of_members {read : Json.Value → Reading α} {members : Json.Members}
    {found : List (String × α)} (h : Reading.members read members = .read found) :
    ∀ a ∈ found, ∃ member ∈ members, read member.2 = .read a.2 := by
  induction members generalizing found with
  | nil =>
    obtain rfl : [] = found := by simpa [Reading.members] using h
    simp
  | cons member members ih =>
    rw [Reading.members, seq_eq_read] at h
    obtain ⟨_, hfirst, rest, hrest, rfl⟩ := h
    obtain ⟨a, ha, rfl⟩ := map_eq_read.1 hfirst
    refine List.forall_mem_cons.2 ⟨⟨member, by simp, under_eq_read.1 ha⟩, fun b hb => ?_⟩
    obtain ⟨member', hmember, hread⟩ := ih hrest b hb
    exact ⟨member', List.mem_cons_of_mem _ hmember, hread⟩

end Reading

theorem readNullable_of_isNull_eq_false {read : Json.Value → Reading α} {value : Json.Value}
    (h : value.isNull = false) : readNullable read value = some <$> read value := by
  cases value with
  | null => contradiction
  | _ => rfl

/-- What is read of a field that may be null is read off it, if it is not null. -/
theorem read_of_readNullable {read : Json.Value → Reading α} {value : Json.Value} {a : α}
    (h : readNullable read value = .read (some a)) : read value = .read a := by
  have hnull : value.isNull = false := by
    cases value with
    | null => exact absurd (Reading.read.inj h) nofun
    | _ => rfl
  rw [readNullable_of_isNull_eq_false hnull] at h
  obtain ⟨b, hb, heq⟩ := Reading.map_eq_read.1 h
  rw [hb, Option.some.inj heq]

theorem Json.Members.mem_of_get? {members : Json.Members} {name : String} {value : Json.Value}
    (h : members.get? name = some value) : (name, value) ∈ members := by
  exact mem_of_lookup h

/-- What is read of a field is its default or read off a member. -/
theorem Json.Members.eq_or_exists_of_fieldD {members : Json.Members} {name : FieldName}
    {default a : α} {read : Json.Value → Reading α}
    (h : members.fieldD name default read = .read a) :
    a = default ∨ ∃ member ∈ members, read member.2 = .read a := by
  rw [Json.Members.fieldD] at h
  split at h
  · next spelling value hfield =>
    refine .inr ⟨(spelling, value), ?_, Reading.under_eq_read.1 h⟩
    unfold Json.Members.field? at hfield
    split at hfield
    · next hcamel =>
      obtain ⟨rfl, rfl⟩ := Prod.mk.inj (Option.some.inj hfield)
      exact Json.Members.mem_of_get? hcamel
    · obtain ⟨value', hsnake, heq⟩ := Option.map_eq_some_iff.1 hfield
      obtain ⟨rfl, rfl⟩ := Prod.mk.inj heq
      exact Json.Members.mem_of_get? hsnake
  · exact .inl (Reading.read.inj h).symm

/-- A function of what is read of a field. -/
theorem Json.Members.map_fieldD (f : α → β) (members : Json.Members) (name : FieldName)
    (default : α) (read : Json.Value → Reading α) :
    f <$> members.fieldD name default read =
      members.fieldD name (f default) (fun value => f <$> read value) := by
  rw [Json.Members.fieldD, Json.Members.fieldD]
  cases members.field? name with
  | none => rfl
  | some field => exact Reading.map_under f _ _

end Schemata
