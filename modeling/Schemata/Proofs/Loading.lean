import Schemata.Loading
import Schemata.Proofs.Json.RoundTrip
import Schemata.Proofs.Result
import Schemata.Proofs.Text.Blank

/-!
# Loading what was written

What is loaded was read off a document (`exists_of_load`), and the text of a document is loaded
as that document (`load_of_read?`).
-/

namespace Schemata

open Json (Value)

variable {α : Type} {read : Value → Reading α} {a : α}

theorem Reading.toExcept_eq_ok {x : Reading α} : x.toExcept = .ok a ↔ x = .read a := by
  cases x <;> simp [toExcept]

/-- What is loaded was read off a document. -/
theorem exists_of_load {content : Option String} (h : load read content = .ok a) :
    ∃ text value, Value.read? fileLimits text = some value ∧ read value = .read a := by
  cases content with
  | none => exact absurd h nofun
  | some text =>
    rw [load] at h
    split at h
    · exact absurd h nofun
    · rw [mapError_eq_ok, Reading.toExcept_eq_ok, readDocument] at h
      split at h
      · exact absurd h nofun
      · next value hvalue => exact ⟨_, value, hvalue, h⟩

/-- A text without blanks at its ends is loaded as the document that it spells. -/
theorem load_of_read? {text : String} {value : Value} (hne : text.toList ≠ [])
    (hstrip : Text.strip text.toList = text.toList)
    (hvalue : Value.read? fileLimits text = some value) :
    load read (some text) = (read value).toExcept.mapError .faulty := by
  have hempty : text.isEmpty = false := by
    rw [Bool.eq_false_iff]
    intro hempty
    exact hne (by rw [String.isEmpty_iff.1 hempty]; rfl)
  rw [load, hstrip, String.ofList_toList, hempty, readDocument, hvalue]
  rfl

end Schemata
