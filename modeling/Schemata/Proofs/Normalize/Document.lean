import Schemata.Proofs.Extraction.Coordinate
import Schemata.Proofs.Extraction.Null
import Schemata.Proofs.Normalize.Frame
import Schemata.Proofs.Schema.Document

/-!
# A normalized extraction is loaded back

The schema of an extraction that was loaded can be stored, and is loaded back as it was unless an
entity has a coordinate that is not finite (`loadSchema_normalize`). Documents of extractions may
spell such coordinates, as texts or as numbers too large for the format, but documents of schemas
have no number for them: then loading fails with a fault for every such coordinate
(`Extraction.lostCoordinates`). On the grid all coordinates are finite, so that only those that
entities give can be lost (`Extraction.mem_lostCoordinates`).
-/

namespace Schemata

open Normalize
open Extraction (coordinate?)

-- powers as the core library defines them, whatever is imported
attribute [local instance (2000)] instPowNat

/-! ## Coordinates -/

theorem isCanonical_getD {given : Option Binary64} {otherwise : ℕ}
    (h : ∀ x ∈ given, x.IsCanonical) : (given.getD (.ofInt otherwise)).IsCanonical := by
  cases given with
  | none => exact Binary64.isCanonical_ofInt _
  | some x => exact h x rfl

theorem Extraction.Entity.IsPlaced.isCanonical {entity : Extraction.Entity} (h : entity.IsPlaced)
    (index : ℕ) : (placeAt entity.position index).IsCanonical := by
  have hgiven : ∀ axis, ∀ x ∈ coordinate? entity.position axis, x.IsCanonical := by
    intro axis x hx
    obtain ⟨coordinate, hlookup, rfl⟩ := Option.bind_eq_some_iff.1 hx
    exact h (axis, some x) (mem_of_lookup hlookup) x rfl
  exact ⟨isCanonical_getD (hgiven "x"), isCanonical_getD (hgiven "y")⟩

theorem isFinite_getD {given : Option Binary64} {otherwise : ℕ} (h : otherwise < 2 ^ 53) :
    (given.getD (.ofInt otherwise)).isFinite = false ↔
      ∃ x, given = some x ∧ x.isFinite = false := by
  cases given with
  | none => simp [Binary64.isFinite_ofInt (n := otherwise) (by simpa using h)]
  | some x => simp

/-- Only coordinates that are given can be lost: those of the grid are finite. -/
theorem mem_unboundedAxes_placeAt {position : Option (List (String × Option Binary64))}
    {index : ℕ} (hindex : index < 2 ^ 40) {axis : String} :
    axis ∈ (placeAt position index).unboundedAxes ↔ axis ∈ ["x", "y"] ∧
      ∃ x, coordinate? position axis = some x ∧ x.isFinite = false := by
  have hx : (placeAt position index).x.isFinite = false ↔
      ∃ x, coordinate? position "x" = some x ∧ x.isFinite = false :=
    isFinite_getD (by unfold gridWidth; omega)
  have hy : (placeAt position index).y.isFinite = false ↔
      ∃ x, coordinate? position "y" = some x ∧ x.isFinite = false :=
    isFinite_getD (by unfold gridWidth; omega)
  have haxes : axis ∈ (placeAt position index).unboundedAxes ↔
      axis = "x" ∧ (placeAt position index).x.isFinite = false ∨
        axis = "y" ∧ (placeAt position index).y.isFinite = false := by
    unfold Position.unboundedAxes
    cases (placeAt position index).x.isFinite <;> cases (placeAt position index).y.isFinite <;>
      simp
  rw [haxes, hx, hy, List.mem_pair, or_and_right]
  refine or_congr (and_congr_right ?_) (and_congr_right ?_) <;> rintro rfl <;> rfl

/-! ## Schemas -/

namespace Extraction

/-- The faults in the document of the normalized extraction: the coordinates that are not finite. -/
def lostCoordinates (e : Extraction) : List Fault :=
  e.entities.zipIdx.flatMap fun item =>
    (placeAt item.1.position item.2).unboundedAxes.map fun axis =>
      ⟨.notANumber, [.member "tables", .item item.2, .member "position", .member axis]⟩

variable {e : Extraction}

/-- **Which coordinates are lost**: those that an entity gives and that are not finite. -/
theorem mem_lostCoordinates {i : ℕ} {entity : Entity} (hentity : e.entities[i]? = some entity)
    (hi : i < 2 ^ 40) (axis : String) :
    ⟨.notANumber, [.member "tables", .item i, .member "position", .member axis]⟩ ∈
        e.lostCoordinates ↔
      axis ∈ ["x", "y"] ∧
        ∃ x, coordinate? entity.position axis = some x ∧ x.isFinite = false := by
  rw [← mem_unboundedAxes_placeAt hi, lostCoordinates, List.mem_flatMap]
  constructor
  · rintro ⟨⟨entity', index⟩, hitem, hmem⟩
    obtain ⟨axis', haxis, heq⟩ := List.mem_map.1 hmem
    obtain ⟨rfl, rfl⟩ : index = i ∧ axis' = axis := by simpa using heq
    obtain rfl : entity' = entity := by
      have hat := List.mem_zipIdx_iff_getElem?.1 hitem
      exact Option.some.inj (hat.symm.trans hentity)
    exact haxis
  · intro haxis
    exact ⟨(entity, i), List.mem_zipIdx_iff_getElem?.2 hentity, List.mem_map.2 ⟨axis, haxis, rfl⟩⟩

theorem zipIdx_zipIdx {α : Type} (items : List α) (k : ℕ) :
    (items.zipIdx k).zipIdx k = (items.zipIdx k).map fun item => (item, item.2) := by
  induction items generalizing k with
  | nil => rfl
  | cons item items ih => rw [List.zipIdx_cons, List.zipIdx_cons, ih, List.map_cons]

theorem lostCoordinates_normalize (e : Extraction) (heading : Heading) (small : ℤ)
    (now : Moment) : (e.normalize heading small now).schema.lostCoordinates = e.lostCoordinates := by
  have hframes : ∀ tables : List Table, (tables.zipIdx.flatMap fun item =>
      (item.1.position.elim [] Position.unboundedAxes).map fun axis =>
        (⟨.notANumber, [.member "tables", .item item.2, .member "position", .member axis]⟩ :
          Fault)) = (tables.map Table.frame).zipIdx.flatMap fun item =>
      (item.1.1.elim [] Position.unboundedAxes).map fun axis =>
        ⟨.notANumber, [.member "tables", .item item.2, .member "position", .member axis]⟩ := by
    intro tables
    rw [List.zipIdx_map, List.flatMap_map]
    rfl
  rw [Schema.lostCoordinates, hframes, map_frame_normalize, List.zipIdx_map, zipIdx_zipIdx,
    List.map_map, List.flatMap_map]
  rfl

/-- The schema of an extraction that was loaded can be stored. -/
theorem isStorable_normalize {content : Option String} (h : loadExtraction content = .ok e)
    (heading : Heading) (small : ℤ) {now : Moment} (hnow : now.IsReal) :
    (e.normalize heading small now).schema.IsStorable where
  places := by
    intro t ht p hp
    obtain ⟨entity, hentity, index, hframe⟩ := e.exists_frame ht
    obtain rfl : p = placeAt entity.position index :=
      Option.some.inj (hp.symm.trans (congrArg Prod.fst hframe))
    exact (isPlaced_of_loadExtraction h entity hentity).isCanonical index
  version := by
    have hversion : Json.Limits.keeps fileLimits.whole
        (Json.wholeLength (toString (1 : ℤ)).toList) = true := by
      decide +kernel
    exact hversion
  created := hnow
  updated := hnow

end Extraction

/-- **The schema of an extraction that was loaded is loaded back as it was**, unless it has
coordinates that are not finite: then loading fails with a fault for each of them. -/
theorem loadSchema_normalize {content : Option String} {e : Extraction}
    (h : loadExtraction content = .ok e) (heading : Heading) (small : ℤ) {now : Moment}
    (hnow : now.IsReal) (later : Moment) :
    let s := (e.normalize heading small now).schema
    loadSchema later (some (s.toJson.indented 2)) =
      if e.lostCoordinates.isEmpty then .ok s else .error (.faulty e.lostCoordinates) := by
  intro s
  rw [loadSchema_toJson (Extraction.isStorable_normalize h heading small hnow) later,
    e.lostCoordinates_normalize]

/-- The start of 2024, in universal time. -/
def newYear : Moment := { year := 2024, month := 1, day := 1, offset := some 0 }

theorem isReal_newYear : newYear.IsReal where
  isValid := by decide
  year_pos := by decide
  year_lt := by decide
  microsecond_lt := by decide
  offset_lt := by decide

/-- Books with a coordinate. -/
def shelved : Extraction where
  entities := [{ name := some "Book", position := some [("x", some (.ofDecimal false 125 (-1)))] }]

theorem loadSchema_normalize_shelved :
    let s := (shelved.normalize {} 3 newYear).schema
    loadExtraction (some ("\x7b\"entities\": [\x7b\"name\": \"Book\", "
        ++ "\"position\": \x7b\"x\": \"12.5\"\x7d\x7d]\x7d")) = .ok shelved ∧
      newYear.IsReal ∧ loadSchema newYear (some (s.toJson.indented 2)) = .ok s := by
  intro s
  have hload : loadExtraction (some ("\x7b\"entities\": [\x7b\"name\": \"Book\", "
      ++ "\"position\": \x7b\"x\": \"12.5\"\x7d\x7d]\x7d")) = .ok shelved :=
    mem_toOption.1 (by decide +kernel)
  have hlost : shelved.lostCoordinates.isEmpty = true := by decide +kernel
  exact ⟨hload, isReal_newYear,
    (loadSchema_normalize hload {} 3 isReal_newYear newYear).trans (if_pos hlost)⟩

/-- Books beyond all bounds. -/
def unbounded : Extraction where
  entities := [{ name := some "Book", position := some [("x", some (.infinite false))] }]

/-- An infinite coordinate is taken for an extraction, and not loaded back. -/
theorem not_loadSchema_normalize_unbounded :
    ¬∀ (content : Option String) (e : Extraction) (heading : Heading) (small : ℤ)
        (now later : Moment), loadExtraction content = .ok e → now.IsReal →
      let s := (e.normalize heading small now).schema
      loadSchema later (some (s.toJson.indented 2)) = .ok s := by
  intro h
  have hload : loadExtraction (some ("\x7b\"entities\": [\x7b\"name\": \"Book\", "
      ++ "\"position\": \x7b\"x\": \"inf\"\x7d\x7d]\x7d")) = .ok unbounded :=
    mem_toOption.1 (by decide +kernel)
  have hlost : ¬unbounded.lostCoordinates.isEmpty = true := by decide +kernel
  have hfails := loadSchema_toJson
    (Extraction.isStorable_normalize hload {} 3 isReal_newYear) newYear
  rw [unbounded.lostCoordinates_normalize, if_neg hlost] at hfails
  have hsame := h _ _ {} 3 newYear newYear hload isReal_newYear
  exact absurd (hfails.symm.trans hsame) nofun

end Schemata
