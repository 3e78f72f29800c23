import Schemata.Moment
import Schemata.Proofs.Json.Number
import Schemata.Reading.Scalar

/-!
# Moments are read back

A moment of the calendar is read back from the notation in which documents hold it
(`Moment.read?_document`), to the microsecond and with the distance of its clock from universal
time. Its parts are numbers of a fixed number of digits, which are read whatever follows
(`Moment.digits?_padded`).
-/

namespace Schemata

-- powers as the core library defines them, whatever is imported
attribute [local instance (2000)] instPowNat

open Json (AreDigits digitsValue)

namespace Moment

variable {m : Moment} {s rest : List Char}

/-- A moment of the calendar: its date and time of day are there, its year has at most four digits,
and its clock is less than a day away from universal time. -/
structure IsReal (m : Moment) : Prop where
  /-- The date and the time of day are there. -/
  isValid : m.isValid = true
  /-- The calendar has the year. -/
  year_pos : 0 < m.year
  /-- The year has at most four digits. -/
  year_lt : m.year < 10000
  /-- The fraction is less than a second. -/
  microsecond_lt : m.microsecond < 1000000
  /-- The distance is less than a day. -/
  offset_lt : ∀ minutes ∈ m.offset, minutes.natAbs < 1440

/-! ## Digits -/

theorem digitsValue_cons (c : Char) (s : List Char) :
    digitsValue (c :: s) = (c.toNat - 48) * 10 ^ s.length + digitsValue s := by
  rw [Json.digitsValue_eq, Nat.ofDigitChars_cons, Nat.ofDigitChars_eq_ofDigitChars_zero,
    Json.digitsValue_eq, Nat.mul_zero, Nat.zero_add, Nat.mul_comm]
  rfl

theorem digits?_append (hs : AreDigits s) (rest : List Char) :
    digits? s.length (s ++ rest) = some (digitsValue s, rest) := by
  induction s with
  | nil => rfl
  | cons c s ih =>
    have hc : c.isDigit = true := hs c (by simp)
    rw [List.length_cons, List.cons_append, digits?, if_pos hc,
      ih fun d hd => hs d (List.mem_cons_of_mem c hd), digitsValue_cons]
    rfl

theorem length_padded {width n : ℕ} (hwidth : 0 < width) (hn : n < 10 ^ width) :
    (DecimalStyle.padded width n).toList.length = width := by
  have hle := (Nat.length_toDigits_le_iff (by decide) hwidth).2 hn
  rw [Json.toList_padded, List.length_append, List.length_replicate]
  omega

/-- **A number of a fixed number of digits is read**, whatever follows. -/
theorem digits?_padded {width n : ℕ} (hwidth : 0 < width) (hn : n < 10 ^ width)
    (rest : List Char) :
    digits? width ((DecimalStyle.padded width n).toList ++ rest) = some (n, rest) := by
  have h := digits?_append (Json.areDigits_padded width n) rest
  rwa [length_padded hwidth hn, Json.digitsValue_padded] at h

theorem expect?_cons (c : Char) (s : List Char) : expect? c (c :: s) = some s :=
  if_pos rfl

theorem millionths_padded {n : ℕ} (hn : n < 1000000) :
    millionths (DecimalStyle.padded 6 n).toList = n := by
  have hlength := length_padded (by decide : 0 < 6) hn
  rw [millionths, List.take_append_of_le_length hlength.ge, List.take_of_length_le hlength.le]
  exact Json.digitsValue_padded 6 n

/-! ## Parts of the notation -/

/-- The fraction of a second in the notation. -/
def fractionText (microsecond : ℕ) : List Char :=
  if microsecond = 0 then [] else '.' :: (DecimalStyle.padded 6 microsecond).toList

/-- The distance from universal time in the notation. -/
def zoneText : Option Int → List Char
  | none => []
  | some minutes => if minutes = 0 then ['Z'] else (signedOffset minutes).toList

theorem toList_document (m : Moment) :
    m.document.toList =
      (DecimalStyle.padded 4 m.year).toList ++ '-' :: ((DecimalStyle.padded 2 m.month).toList ++
        '-' :: ((DecimalStyle.padded 2 m.day).toList ++ 'T' ::
        ((DecimalStyle.padded 2 m.hour).toList ++ ':' :: ((DecimalStyle.padded 2 m.minute).toList ++
        ':' :: ((DecimalStyle.padded 2 m.second).toList ++
        (fractionText m.microsecond ++ zoneText m.offset)))))) := by
  have hfraction : (if m.microsecond = 0 then "" else
      "." ++ DecimalStyle.padded 6 m.microsecond).toList = fractionText m.microsecond := by
    unfold fractionText
    split <;> simp
  have hzone : ∀ offset : Option Int, (match offset with
      | none => ""
      | some minutes => if minutes = 0 then "Z" else signedOffset minutes).toList =
      zoneText offset := by
    rintro (_ | minutes)
    · rfl
    · by_cases h : minutes = 0 <;> simp [zoneText, h]
  have hparts : m.document.toList =
      m.stamp.toList ++ (fractionText m.microsecond ++ zoneText m.offset) := by
    rw [← hfraction, ← hzone, ← String.toList_append, ← String.toList_append, ← String.append_assoc]
    rfl
  rw [hparts, stamp]
  simp

theorem toList_signedOffset (minutes : Int) :
    (signedOffset minutes).toList = (if minutes < 0 then '-' else '+') ::
      ((DecimalStyle.padded 2 (minutes.natAbs / 60)).toList ++ ':' ::
        (DecimalStyle.padded 2 (minutes.natAbs % 60)).toList) := by
  rw [signedOffset]
  split <;> simp

/-- A sign, hours and minutes are read as a distance. -/
theorem offset?_signed (isAhead : Bool) {hours minutes : ℕ} (hhours : hours ≤ 23)
    (hminutes : minutes ≤ 59) :
    offset? ((if isAhead then '+' else '-') :: ((DecimalStyle.padded 2 hours).toList ++ ':' ::
        (DecimalStyle.padded 2 minutes).toList)) =
      some (some (if isAhead then (60 * hours + minutes : Int) else -(60 * hours + minutes))) := by
  have hread := digits?_padded (by decide : 0 < 2) (by omega : hours < 10 ^ 2)
    (':' :: (DecimalStyle.padded 2 minutes).toList)
  have hrest := digits?_padded (by decide : 0 < 2) (by omega : minutes < 10 ^ 2) []
  rw [List.append_nil] at hrest
  cases isAhead <;> simp [offset?, isBehind, hread, hrest, hhours, hminutes]

/-- The distance of a clock is read back. -/
theorem offset?_zoneText {offset : Option Int} (h : ∀ minutes ∈ offset, minutes.natAbs < 1440) :
    offset? (zoneText offset) = some offset := by
  cases offset with
  | none => rfl
  | some minutes =>
    have hlt := h minutes rfl
    rw [zoneText]
    split
    · next hzero =>
      subst hzero
      rfl
    · have hread := offset?_signed (decide (0 ≤ minutes)) (by omega : minutes.natAbs / 60 ≤ 23)
        (by omega : minutes.natAbs % 60 ≤ 59)
      rw [toList_signedOffset, ← ite_not]
      simp only [decide_eq_true_eq, not_lt] at hread ⊢
      rw [hread]
      congr 2
      split <;> omega

theorem isDigit_head?_zoneText (offset : Option Int) :
    ∀ c ∈ (zoneText offset).head?, c.isDigit = false ∧ c ≠ '.' ∧ c ≠ ',' := by
  cases offset with
  | none => simp [zoneText]
  | some minutes =>
    rw [zoneText]
    split
    · simp
    · rw [toList_signedOffset]
      split <;> simp

/-- The seconds and their fraction are read back up to the distance of the clock. -/
theorem seconds?_append {second microsecond : ℕ} (hsecond : second < 100)
    (hmicrosecond : microsecond < 1000000) (offset : Option Int) :
    seconds? (':' :: ((DecimalStyle.padded 2 second).toList ++
        (fractionText microsecond ++ zoneText offset))) =
      some (second, microsecond, zoneText offset) := by
  have hzone := isDigit_head?_zoneText offset
  rw [seconds?, digits?_padded (by decide) hsecond, Option.bind_eq_bind, Option.bind_some]
  dsimp only
  by_cases hzero : microsecond = 0
  · subst hzero
    rw [fractionText, if_pos rfl, List.nil_append]
    cases hchars : zoneText offset with
    | nil => rfl
    | cons c cs =>
      have hc := (hzone c (by simp [hchars])).2
      simp [hc]
  · have hspan := Text.span_append (Json.areDigits_padded 6 microsecond)
      fun c hc => (hzone c hc).1
    have hne : (DecimalStyle.padded 6 microsecond).toList.isEmpty = false := by
      simpa using Json.padded_ne_nil 6 microsecond
    rw [fractionText, if_neg hzero, List.cons_append]
    dsimp only
    rw [if_pos (by decide), hspan]
    dsimp only
    rw [hne, millionths_padded hmicrosecond]
    rfl

/-- **A moment of the calendar is read back** from the notation of documents. -/
theorem read?_document (h : m.IsReal) : Moment.read? m.document = some m := by
  have hvalid := h.isValid
  simp only [isValid, Bool.and_eq_true, decide_eq_true_eq] at hvalid
  obtain ⟨⟨⟨⟨⟨⟨-, hmonth⟩, -⟩, hday⟩, hhour⟩, hminute⟩, hsecond⟩ := hvalid
  have hdays : daysIn m.year m.month ≤ 31 := by
    unfold daysIn
    split
    · split <;> decide
    · split <;> decide
  have hpair : 0 < 2 := by decide
  rw [read?, toList_document, digits?_padded (by decide) h.year_lt]
  simp only [Option.bind_eq_bind, Option.bind_some, expect?_cons,
    digits?_padded hpair (by omega : m.month < 10 ^ 2),
    digits?_padded hpair (by omega : m.day < 10 ^ 2),
    digits?_padded hpair (by omega : m.hour < 10 ^ 2),
    digits?_padded hpair (by omega : m.minute < 10 ^ 2),
    seconds?_append (by omega : m.second < 100) h.microsecond_lt,
    offset?_zoneText h.offset_lt]
  rw [if_pos (by decide)]
  exact if_pos h.isValid

/-- A moment of the calendar is read back as the moment that a document spells. -/
theorem readMoment_document (h : m.IsReal) (origin : Origin) :
    readMoment origin (.text m.document) = .read m := by
  rw [readMoment, spelledMoment?, read?_document h, Option.some_or, readFound,
    if_neg h.year_pos.ne']

end Moment

end Schemata
