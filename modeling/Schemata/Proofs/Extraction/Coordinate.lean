import Schemata.Proofs.Json.Canonical
import Schemata.Proofs.Loading
import Schemata.Proofs.Reading

/-!
# Coordinates in normal form

The coordinates of an extraction that was loaded are numbers in normal form
(`Extraction.isPlaced_of_loadExtraction`), whether they stand in the document as numbers or are
spelled in texts (`isCanonical_of_readNumber`).
-/

namespace Schemata

open Json (Value)

variable {x : Binary64} {value : Value}

/-! ## Numbers -/

namespace Numeral

theorem isCanonical_unsigned? {negative : Bool} {s : List Char}
    (h : unsigned? negative s = some x) : x.IsCanonical := by
  obtain ⟨digits, -, h⟩ := Option.bind_eq_some_iff.1 h
  obtain ⟨power, -, h⟩ := Option.bind_eq_some_iff.1 h
  obtain rfl := Option.some.inj h
  exact Binary64.isCanonical_ofDecimal _ _ _

theorem isCanonical_binary64? {s : List Char} (h : binary64? s = some x) : x.IsCanonical := by
  unfold binary64? at h
  dsimp only at h
  split at h
  · obtain rfl := Option.some.inj h
    trivial
  split at h
  · obtain rfl := Option.some.inj h
    trivial
  · exact isCanonical_unsigned? h

/-- A number that a text spells is in normal form. -/
theorem isCanonical_number? {s : List Char} (h : number? s = some x) : x.IsCanonical := by
  rcases Option.or_eq_some_iff.1 h with h | ⟨-, h⟩ <;> exact isCanonical_binary64? h

end Numeral

/-- **A number that is read is in normal form.** -/
theorem isCanonical_of_readNumber {origin : Origin} (hvalue : value.IsCanonical)
    (h : readNumber origin value = .read x) : x.IsCanonical := by
  cases hvalue with
  | float hx =>
    obtain rfl := Reading.read.inj h
    exact hx
  | integer n =>
    have hnumber : origin.number? n = some x := by
      rw [readNumber] at h
      split at h
      · next hnumber => exact hnumber.trans (congrArg some (Reading.read.inj h))
      · contradiction
    have hx : x = .ofInt n := by
      cases origin with
      | text => exact (Option.some.inj hnumber).symm
      | caller =>
        rw [Origin.number?] at hnumber
        split at hnumber
        · exact (Option.some.inj hnumber).symm
        · contradiction
    exact hx ▸ Binary64.isCanonical_ofInt n
  | bool b =>
    obtain rfl := Reading.read.inj h
    exact Binary64.isCanonical_ofInt _
  | text s =>
    rw [readNumber] at h
    split at h
    · next hnumber =>
      obtain rfl := Reading.read.inj h
      exact Numeral.isCanonical_number? hnumber
    · contradiction
  | null => contradiction
  | list => contradiction
  | object => contradiction

/-! ## Places -/

namespace Extraction

/-- The coordinates of the entity are in normal form. -/
def Entity.IsPlaced (entity : Entity) : Prop :=
  ∀ axis ∈ entity.position.getD [], ∀ x ∈ axis.2, x.IsCanonical

theorem isCanonical_of_readCoordinates {position : Option (List (String × Option Binary64))}
    (hvalue : value.IsCanonical) (h : readCoordinates value = .read position) :
    ∀ axis ∈ position.getD [], ∀ x ∈ axis.2, x.IsCanonical := by
  cases hvalue with
  | object hmembers =>
    obtain ⟨axes, haxes, rfl⟩ := Reading.map_eq_read.1 h
    intro axis haxis x hx
    obtain ⟨member, hmember, hread⟩ := Reading.exists_of_members haxes axis haxis
    rw [Option.mem_def.1 hx] at hread
    exact isCanonical_of_readNumber (hmembers member hmember) (read_of_readNullable hread)
  | _ =>
    obtain rfl := Reading.read.inj h
    simp

theorem Entity.isPlaced_of_read {entity : Entity} (hvalue : value.IsCanonical)
    (h : Entity.read value = .read entity) : entity.IsPlaced := by
  cases hvalue with
  | object hmembers =>
    obtain ⟨make, hmake, position, hposition, rfl⟩ := Reading.seq_eq_read.1 h
    -- the place is the last field, and the others leave it alone
    have hfield : (make position).position = position := by
      simp only [Reading.seq_eq_read, Reading.map_eq_read] at hmake
      obtain ⟨_, ⟨_, ⟨_, ⟨_, ⟨_, -, rfl⟩, _, -, rfl⟩, _, -, rfl⟩, _, -, rfl⟩, _, -, rfl⟩ := hmake
      rfl
    rw [IsPlaced, hfield]
    rcases Json.Members.eq_or_exists_of_fieldD hposition with rfl | ⟨member, hmember, hread⟩
    · simp
    · exact isCanonical_of_readCoordinates (hmembers member hmember) hread
  | _ => contradiction

theorem isPlaced_of_readItems {found : List Entity} (hvalue : value.IsCanonical)
    (h : readItems Entity.read value = .read found) : ∀ entity ∈ found, entity.IsPlaced := by
  cases hvalue with
  | null =>
    obtain rfl := Reading.read.inj h
    simp
  | list hitems =>
    intro entity hentity
    obtain ⟨item, hitem, hread⟩ := Reading.exists_of_items h entity hentity
    exact Entity.isPlaced_of_read (hitems item (List.mem_of_mem_filter hitem)) hread
  | _ => contradiction

theorem isPlaced_of_read {e : Extraction} (hvalue : value.IsCanonical)
    (h : Extraction.read value = .read e) : ∀ entity ∈ e.entities, entity.IsPlaced := by
  cases hvalue with
  | object hmembers =>
    obtain ⟨_, hmake, _, -, rfl⟩ := Reading.seq_eq_read.1 h
    obtain ⟨entities, hentities, rfl⟩ := Reading.map_eq_read.1 hmake
    rcases Json.Members.eq_or_exists_of_fieldD hentities with rfl | ⟨member, hmember, hread⟩
    · simp
    · exact isPlaced_of_readItems (hmembers member hmember) hread
  | _ => contradiction

/-- **The coordinates of an extraction that was loaded are in normal form.** -/
theorem isPlaced_of_loadExtraction {content : Option String} {e : Extraction}
    (h : loadExtraction content = .ok e) : ∀ entity ∈ e.entities, entity.IsPlaced := by
  obtain ⟨text, value, hvalue, hread⟩ := exists_of_load h
  exact isPlaced_of_read (Json.Value.isCanonical_of_read? hvalue) hread

end Extraction

end Schemata
