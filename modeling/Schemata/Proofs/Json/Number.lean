import Schemata.Json.Token
import Schemata.Json.Writer
import Schemata.Proofs.Decimal.Shortest
import Schemata.Proofs.Text.Word

/-!
# Numbers of a document are read back

The digits of a number spell it (`digitsValue_toDigits`). A decimal, however it is laid out, is read
as its digits and its exponent say (`unsigned?_layout`), so that every finite number in normal form
is read back as it was written (`number?_render`), and so is every whole number
(`number?_toString`).
-/

namespace Schemata.Json

variable {negative : Bool} {s t digits : List Char} {n : Nat} {c : Char}

/-! ## Digits -/

/-- The characters are digits. -/
def AreDigits (s : List Char) : Prop :=
  ∀ c ∈ s, c.isDigit = true

theorem AreDigits.append (hs : AreDigits s) (ht : AreDigits t) : AreDigits (s ++ t) := by
  intro c hc
  exact (List.mem_append.1 hc).elim (hs c) (ht c)

theorem areDigits_zeros (n : Nat) : AreDigits (List.replicate n '0') := by
  intro c hc
  rw [(List.mem_replicate.1 hc).2]
  rfl

theorem areDigits_toDigits (n : Nat) : AreDigits (Nat.toDigits 10 n) := fun _ =>
  Nat.isDigit_of_mem_toDigits (by decide) (by decide)

theorem digitsValue_eq (s : List Char) : digitsValue s = Nat.ofDigitChars 10 s 0 := rfl

/-- Zeros in front do not count. -/
theorem digitsValue_zeros_append (n : Nat) (s : List Char) :
    digitsValue (List.replicate n '0' ++ s) = digitsValue s := by
  rw [digitsValue_eq, Nat.ofDigitChars_append, Nat.ofDigitChars_replicate_zero, Nat.mul_zero,
    digitsValue_eq]

/-- Zeros at the end count ten times each. -/
theorem digitsValue_append_zeros (s : List Char) (n : Nat) :
    digitsValue (s ++ List.replicate n '0') = digitsValue s * 10 ^ n := by
  rw [digitsValue_eq, Nat.ofDigitChars_append, Nat.ofDigitChars_replicate_zero, Nat.mul_comm,
    digitsValue_eq]

/-- **The digits of a number spell it.** -/
theorem digitsValue_toDigits (n : Nat) : digitsValue (Nat.toDigits 10 n) = n :=
  Nat.ofDigitChars_ten_toDigits

theorem head?_toDigits (hn : 0 < n) : (Nat.toDigits 10 n).head? ≠ some '0' := by
  induction n using Nat.strongRecOn with
  | ind n ih =>
    rw [Nat.toDigits_eq_if (by decide)]
    split
    · simpa using hn.ne'
    · have hhead := ih (n / 10) (by omega) (by omega)
      have hne := Nat.toDigits_ne_nil (n := n / 10) (b := 10)
      rwa [List.head?_append_of_ne_nil _ hne]

/-- A run of digits is read up to its end. -/
theorem takeDigits?_append (hs : AreDigits s) (hne : s ≠ []) (ht : ∀ c ∈ t.head?, c.isDigit = false) :
    takeDigits? (s ++ t) = some (s, t) := by
  rw [takeDigits?, Text.span_append hs ht]
  cases s with
  | nil => contradiction
  | cons c s => rfl

theorem takeDigits?_all (hs : AreDigits s) (hne : s ≠ []) : takeDigits? s = some (s, []) := by
  simpa using takeDigits?_append (t := []) hs hne (by simp)

/-! ## Forms of numbers -/

/-- An exponent with its sign. -/
theorem exponent?_signed (isBelow : Bool) (hdigits : AreDigits digits) (hne : digits ≠ []) :
    exponent? ('e' :: (if isBelow then '-' else '+') :: digits) =
      some (if isBelow then -(digitsValue digits : Int) else digitsValue digits) := by
  cases isBelow <;> simp [exponent?, takeDigits?_all hdigits hne]

/-- Digits in front of the fraction that are read: the first one is no zero unless it is alone. -/
structure IsWhole (whole : List Char) : Prop where
  /-- They are digits. -/
  areDigits : AreDigits whole
  /-- There are some. -/
  ne_nil : whole ≠ []
  /-- There is no zero too many. -/
  head : whole.length ≤ 1 ∨ whole.head? ≠ some '0'

variable {front behind : List Char}

theorem IsWhole.not_overlong (h : IsWhole front) :
    ¬ (front.length > 1 && front.head? == some '0') = true := by
  rcases h.head with h | h
  · simp [Nat.not_lt.2 h]
  · simp [h]

/-- Digits alone. -/
theorem unsigned?_whole (negative : Bool) (h : IsWhole front) :
    unsigned? negative front =
      some (.integer (if negative then -(digitsValue front : Int) else digitsValue front)) := by
  simp only [unsigned?, takeDigits?_all h.areDigits h.ne_nil, Option.bind_eq_bind, Option.bind_some,
    if_neg h.not_overlong]

/-- Digits with a fraction, behind which an exponent may follow. -/
theorem unsigned?_point (negative : Bool) (h : IsWhole front) (hbehind : AreDigits behind)
    (hne : behind ≠ []) {power : Int}
    (ht : t = [] ∧ power = 0 ∨ (∃ s, t = 'e' :: s) ∧ exponent? t = some power) :
    unsigned? negative (front ++ '.' :: (behind ++ t)) =
      some (.float (.ofDecimal negative (digitsValue (front ++ behind))
        (power - behind.length))) := by
  have hhead : ∀ c ∈ t.head?, c.isDigit = false := by
    rcases ht with ⟨rfl, -⟩ | ⟨⟨s, rfl⟩, -⟩ <;> simp
  have hwhole := takeDigits?_append (t := '.' :: (behind ++ t)) h.areDigits h.ne_nil
    (by simp)
  simp only [unsigned?, hwhole, Option.bind_eq_bind, Option.bind_some, if_neg h.not_overlong,
    takeDigits?_append hbehind hne hhead]
  rcases ht with ⟨rfl, rfl⟩ | ⟨⟨s, rfl⟩, hpower⟩
  · rfl
  · simp [hpower]

/-- Digits with an exponent. -/
theorem unsigned?_exponent (negative : Bool) (h : IsWhole front) {power : Int}
    (ht : exponent? ('e' :: s) = some power) :
    unsigned? negative (front ++ 'e' :: s) =
      some (.float (.ofDecimal negative (digitsValue front) power)) := by
  have hwhole := takeDigits?_append (t := 'e' :: s) h.areDigits h.ne_nil (by simp)
  simp only [unsigned?, hwhole, Option.bind_eq_bind, Option.bind_some, if_neg h.not_overlong]
  change (exponent? ('e' :: s)).bind _ = _
  rw [ht]
  rfl

/-! ## Layouts -/

theorem toList_padded (width n : Nat) :
    (DecimalStyle.padded width n).toList =
      List.replicate (width - (Nat.toDigits 10 n).length) '0' ++ Nat.toDigits 10 n :=
  String.toList_ofList

theorem areDigits_padded (width n : Nat) : AreDigits (DecimalStyle.padded width n).toList := by
  rw [toList_padded]
  exact (areDigits_zeros _).append (areDigits_toDigits n)

theorem padded_ne_nil (width n : Nat) : (DecimalStyle.padded width n).toList ≠ [] := by
  simp [toList_padded]

theorem digitsValue_padded (width n : Nat) :
    digitsValue (DecimalStyle.padded width n).toList = n := by
  rw [toList_padded, digitsValue_zeros_append, digitsValue_toDigits]

theorem isWhole_take (hn : 0 < n) (k : Nat) : IsWhole ((Nat.toDigits 10 n).take (k + 1)) where
  areDigits c hc := areDigits_toDigits n c (List.mem_of_mem_take hc)
  ne_nil := by simp
  head := .inr (by simpa [List.head?_take] using head?_toDigits hn)

variable {style : DecimalStyle} {d : Decimal}

/-- The exponent of the first digit of a decimal. -/
def leading (d : Decimal) : Int :=
  (Nat.toDigits 10 d.digits).length - 1 + d.exponent

/-- A decimal below one, without an exponent. -/
def below (d : Decimal) : List Char :=
  '0' :: '.' :: (List.replicate (-leading d - 1).toNat '0' ++ Nat.toDigits 10 d.digits)

/-- The digits of a decimal in front of its point. -/
def whole (d : Decimal) : List Char :=
  (Nat.toDigits 10 d.digits).take ((leading d).toNat + 1)
    ++ List.replicate ((leading d).toNat + 1 - (Nat.toDigits 10 d.digits).length) '0'

/-- The digits of a decimal behind its point. -/
def fraction (d : Decimal) : List Char :=
  let rest := (Nat.toDigits 10 d.digits).drop ((leading d).toNat + 1)
  if rest.isEmpty then ['0'] else rest

/-- A decimal with an exponent of a least number of digits. -/
def scientific (width : Nat) (d : Decimal) : List Char :=
  let rest := (Nat.toDigits 10 d.digits).drop 1
  (Nat.toDigits 10 d.digits).take 1
    ++ ((if rest.isEmpty then [] else '.' :: rest)
    ++ 'e' :: (if leading d < 0 then '-' else '+')
      :: (DecimalStyle.padded width (leading d).natAbs).toList)

/-- The layouts of a decimal. -/
theorem toList_layout (style : DecimalStyle) (d : Decimal) :
    leading d < 0 ∧ (style.layout d).toList = below d ∨
      0 ≤ leading d ∧ leading d < style.plainBelow ∧
        (style.layout d).toList = whole d ++ '.' :: fraction d ∨
      (style.layout d).toList = scientific style.exponentWidth d := by
  unfold DecimalStyle.layout
  dsimp only
  rw [← leading]
  split
  · next hplain =>
    split
    · next hneg => exact .inl ⟨hneg, String.toList_ofList⟩
    · next hpos =>
      simp only [Bool.and_eq_true, decide_eq_true_eq] at hplain
      refine .inr (.inl ⟨not_lt.1 hpos, hplain.2, ?_⟩)
      rw [String.toList_ofList, List.append_assoc]
      rfl
  · have hmark : (if leading d < 0 then "e-" else "e+").toList =
        ['e', if leading d < 0 then '-' else '+'] := by
      split <;> rfl
    refine .inr (.inr ?_)
    rw [String.toList_append, String.toList_append, String.toList_ofList, hmark, scientific,
      List.append_assoc, List.append_assoc]
    rfl

theorem unsigned?_below (hneg : leading d < 0) :
    unsigned? negative (below d) = some (.float (.ofDecimal negative d.digits d.exponent)) := by
  have hwhole : IsWhole ['0'] := ⟨by simp [AreDigits], by simp, .inl le_rfl⟩
  have hread := unsigned?_point negative (t := []) hwhole
    ((areDigits_zeros (-leading d - 1).toNat).append (areDigits_toDigits d.digits)) (by simp)
    (.inl ⟨rfl, rfl⟩)
  have hvalue : digitsValue (['0'] ++ (List.replicate (-leading d - 1).toNat '0' ++
      Nat.toDigits 10 d.digits)) = d.digits := by
    rw [← List.append_assoc, ← List.replicate_one, List.replicate_append_replicate,
      digitsValue_zeros_append, digitsValue_toDigits]
  have hpower : (0 : Int) - (List.replicate (-leading d - 1).toNat '0' ++
      Nat.toDigits 10 d.digits).length = d.exponent := by
    rw [List.length_append, List.length_replicate]
    unfold leading at *
    omega
  rw [hvalue, hpower, List.append_nil] at hread
  exact hread

theorem isWhole_whole (hd : 0 < d.digits) : IsWhole (whole d) where
  areDigits := (isWhole_take hd _).areDigits.append (areDigits_zeros _)
  ne_nil := by simp [whole]
  head := .inr (by
    have hne := (isWhole_take hd (leading d).toNat).ne_nil
    rw [whole, List.head?_append_of_ne_nil _ hne]
    simpa [List.head?_take] using head?_toDigits hd)

theorem areDigits_fraction (d : Decimal) : AreDigits (fraction d) := by
  unfold fraction
  dsimp only
  split
  · exact areDigits_zeros 1
  · exact fun c hc => areDigits_toDigits d.digits c (List.mem_of_mem_drop hc)

theorem fraction_ne_nil (d : Decimal) : fraction d ≠ [] := by
  unfold fraction
  dsimp only
  split
  · simp
  · next h => simpa using h

/-- The digits around the point are those of the decimal, with zeros filled in up to the point. -/
theorem ofDecimal_whole_fraction (hd : 0 < d.digits) (hpos : 0 ≤ leading d) :
    Binary64.ofDecimal negative (digitsValue (whole d ++ fraction d)) (0 - (fraction d).length) =
      .ofDecimal negative d.digits d.exponent := by
  rcases Nat.lt_or_ge ((leading d).toNat + 1) (Nat.toDigits 10 d.digits).length with hlt | hge
  · have hne : (Nat.toDigits 10 d.digits).drop ((leading d).toNat + 1) ≠ [] := by simpa using hlt
    have hfraction : fraction d = (Nat.toDigits 10 d.digits).drop ((leading d).toNat + 1) :=
      if_neg (by simpa using hne)
    have hwhole : whole d = (Nat.toDigits 10 d.digits).take ((leading d).toNat + 1) := by
      rw [whole, Nat.sub_eq_zero_of_le hlt.le, List.replicate_zero, List.append_nil]
    have hpower : (0 : Int) - (fraction d).length = d.exponent := by
      rw [hfraction, List.length_drop]
      unfold leading at *
      omega
    rw [hpower, hfraction, hwhole, List.take_append_drop, digitsValue_toDigits]
  · have hfraction : fraction d = List.replicate 1 '0' := if_pos (by simpa using hge)
    generalize hk : (leading d).toNat + 1 - (Nat.toDigits 10 d.digits).length = k
    have hvalue : digitsValue (whole d ++ fraction d) = d.digits * 10 ^ (k + 1) := by
      rw [whole, hk, hfraction, List.take_of_length_le hge, List.append_assoc,
        List.replicate_append_replicate, digitsValue_append_zeros, digitsValue_toDigits]
    have hpower : (0 : Int) - (fraction d).length + (k + 1 : Nat) = d.exponent := by
      rw [hfraction, List.length_replicate]
      unfold leading at *
      omega
    rw [hvalue, Binary64.ofDecimal_mul_pow negative hd, hpower]

theorem unsigned?_above (hd : 0 < d.digits) (hpos : 0 ≤ leading d) :
    unsigned? negative (whole d ++ '.' :: fraction d) =
      some (.float (.ofDecimal negative d.digits d.exponent)) := by
  have hread := unsigned?_point negative (t := []) (isWhole_whole hd)
    (areDigits_fraction d) (fraction_ne_nil d) (.inl ⟨rfl, rfl⟩)
  rwa [ofDecimal_whole_fraction hd hpos, List.append_nil] at hread

theorem unsigned?_scientific (hd : 0 < d.digits) (width : Nat) :
    unsigned? negative (scientific width d) =
      some (.float (.ofDecimal negative d.digits d.exponent)) := by
  have hlength : 0 < (Nat.toDigits 10 d.digits).length := Nat.length_toDigits_pos
  have hwhole := isWhole_take hd 0
  have hexponent : exponent? ('e' :: (if leading d < 0 then '-' else '+')
      :: (DecimalStyle.padded width (leading d).natAbs).toList) = some (leading d) := by
    have h := exponent?_signed (decide (leading d < 0)) (areDigits_padded width (leading d).natAbs)
      (padded_ne_nil width _)
    rw [digitsValue_padded] at h
    simp only [decide_eq_true_eq] at h
    rw [h]
    congr 1
    split <;> omega
  rw [scientific]
  cases hrest : (Nat.toDigits 10 d.digits).drop 1 with
  | nil =>
    have hone : (Nat.toDigits 10 d.digits).length ≤ 1 := List.drop_eq_nil_iff.1 hrest
    have hread := unsigned?_exponent negative hwhole hexponent
    have hpower : leading d = d.exponent := by
      unfold leading
      omega
    rw [List.isEmpty_nil, if_pos rfl, List.nil_append, hread, List.take_of_length_le hone,
      digitsValue_toDigits, hpower]
  | cons c rest =>
    have hfraction : AreDigits (c :: rest) := fun c' hc' =>
      areDigits_toDigits d.digits c' (List.mem_of_mem_drop (hrest ▸ hc'))
    have hread := unsigned?_point negative hwhole hfraction (by simp)
      (.inr ⟨⟨_, rfl⟩, hexponent⟩)
    have hpower : leading d - (c :: rest).length = d.exponent := by
      rw [← hrest, List.length_drop]
      unfold leading
      omega
    have hvalue : digitsValue ((Nat.toDigits 10 d.digits).take 1 ++ c :: rest) = d.digits := by
      rw [← hrest, List.take_append_drop, digitsValue_toDigits]
    rw [hpower, hvalue] at hread
    exact hread

/-- **A decimal is read as it is**, however it is laid out. -/
theorem unsigned?_layout (hd : 0 < d.digits) :
    unsigned? negative (style.layout d).toList =
      some (.float (.ofDecimal negative d.digits d.exponent)) := by
  rcases toList_layout style d with ⟨hneg, h⟩ | ⟨hpos, -, h⟩ | h <;> rw [h]
  · exact unsigned?_below hneg
  · exact unsigned?_above hd hpos
  · exact unsigned?_scientific hd _

/-! ## Numbers -/

/-- The characters of numbers. -/
def isNumberChar (c : Char) : Bool :=
  c.isDigit || ['.', 'e', '+', '-'].contains c

/-- The text of a number: its characters, how many of them stand in front of its fraction, and a
digit that tells it from a word. -/
structure IsNumeral (bound : Nat) (s : List Char) : Prop where
  /-- The characters are those of numbers. -/
  isNumberChar : ∀ c ∈ s, Json.isNumberChar c = true
  /-- One of them is a digit. -/
  exists_digit : ∃ c ∈ s, c.isDigit = true
  /-- There are not too many in front of the fraction. -/
  wholeLength_le : wholeLength s ≤ bound

theorem isNumberChar_of_areDigits (hs : AreDigits s) : ∀ c ∈ s, isNumberChar c = true := by
  intro c hc
  rw [isNumberChar, hs c hc, Bool.true_or]

theorem ne_of_isDigit (h : c.isDigit = true) {d : Char} (hd : d.isDigit = false) : c ≠ d :=
  Text.ne_of_class h hd

theorem number?_of_isDigit (hc : c.isDigit = true) (s : List Char) :
    number? (c :: s) = unsigned? false (c :: s) := by
  rw [number?]
  intro t h
  exact ne_of_isDigit hc (by decide) (List.cons.inj h).1

theorem wholeLength_append (hs : AreDigits s) (hne : s ≠ [])
    (ht : ∀ c ∈ t.head?, c.isDigit = false) : wholeLength (s ++ t) = s.length := by
  have hlength : ((s ++ t).takeWhile Char.isDigit).length = s.length := by
    have h := Text.span_append hs ht
    rw [List.span_eq_takeWhile_dropWhile] at h
    rw [(Prod.mk.inj h).1]
  cases s with
  | nil => contradiction
  | cons c s =>
    rw [List.cons_append, wholeLength, ← List.cons_append, hlength]
    rintro t h
    exact ne_of_isDigit (hs c (by simp)) (by decide) (List.cons.inj h).1

/-- Digits, with more behind them that is no digit at first. -/
theorem IsNumeral.of_append {bound : Nat} (hs : AreDigits s) (hne : s ≠ [])
    (hbound : s.length ≤ bound) (ht : ∀ c ∈ t.head?, c.isDigit = false)
    (hchars : ∀ c ∈ t, Json.isNumberChar c = true) : IsNumeral bound (s ++ t) where
  isNumberChar c hc := (List.mem_append.1 hc).elim (isNumberChar_of_areDigits hs c) (hchars c)
  exists_digit := by
    obtain ⟨c, s, rfl⟩ := List.exists_cons_of_ne_nil hne
    exact ⟨c, by simp, hs c (by simp)⟩
  wholeLength_le := (wholeLength_append hs hne ht).trans_le hbound

theorem IsNumeral.neg {bound : Nat} (h : IsNumeral bound s) (hhead : s.head? ≠ some '-') :
    IsNumeral (bound + 1) ('-' :: s) where
  isNumberChar := List.forall_mem_cons.2 ⟨by decide, h.isNumberChar⟩
  exists_digit := by
    obtain ⟨c, hc, hdigit⟩ := h.exists_digit
    exact ⟨c, by simp [hc], hdigit⟩
  wholeLength_le := by
    have hlength : wholeLength s = (s.takeWhile Char.isDigit).length := by
      rw [wholeLength]
      rintro t rfl
      exact hhead rfl
    rw [wholeLength, ← hlength]
    exact Nat.succ_le_succ h.wholeLength_le

theorem forall_append {p : Char → Prop} (hs : ∀ c ∈ s, p c) (ht : ∀ c ∈ t, p c) :
    ∀ c ∈ s ++ t, p c :=
  List.forall_mem_append.2 ⟨hs, ht⟩

/-- The text of a decimal. -/
theorem isNumeral_layout (hd : 0 < d.digits) :
    IsNumeral (max 1 style.plainBelow.toNat) (style.layout d).toList := by
  have hdigits : ∀ {s}, AreDigits s → ∀ c ∈ s, isNumberChar c = true := isNumberChar_of_areDigits
  rcases toList_layout style d with ⟨-, h⟩ | ⟨hpos, hlt, h⟩ | h <;> rw [h]
  · refine IsNumeral.of_append (s := ['0']) (by simp [AreDigits]) (by simp) (by simp) (by simp) ?_
    exact List.forall_mem_cons.2 ⟨rfl,
      forall_append (hdigits (areDigits_zeros _)) (hdigits (areDigits_toDigits _))⟩
  · have hwhole := isWhole_whole hd
    refine IsNumeral.of_append hwhole.areDigits hwhole.ne_nil ?_ (by simp)
      (List.forall_mem_cons.2 ⟨rfl, hdigits (areDigits_fraction d)⟩)
    have hlength : (whole d).length = (leading d).toNat + 1 := by
      rw [whole, List.length_append, List.length_take, List.length_replicate]
      omega
    omega
  · have hone := isWhole_take hd 0
    rw [scientific]
    refine IsNumeral.of_append hone.areDigits hone.ne_nil (by simp) ?_ ?_
    · split <;> simp
    · refine forall_append ?_ (List.forall_mem_cons.2 ⟨rfl, List.forall_mem_cons.2
        ⟨?_, hdigits (areDigits_padded _ _)⟩⟩)
      · split
        · simp
        · exact List.forall_mem_cons.2 ⟨rfl,
            hdigits fun c hc => areDigits_toDigits d.digits c (List.mem_of_mem_drop hc)⟩
      · split <;> rfl

/-- The text of a number starts with a digit, its sign aside. -/
theorem head?_of_unsigned? {value : Value} (h : unsigned? negative s = some value) :
    ∃ c t, s = c :: t ∧ c.isDigit = true := by
  have hsome : takeDigits? s ≠ none := by
    intro hnone
    simp [unsigned?, hnone] at h
  cases s with
  | nil => exact absurd rfl hsome
  | cons c t =>
    refine ⟨c, t, rfl, ?_⟩
    by_contra hc
    exact hsome (by simp [takeDigits?, List.span_eq_takeWhile_dropWhile, hc])

/-- A number with a sign is read as without it, negated. -/
theorem number?_signed {value : Value} (h : unsigned? negative s = some value) :
    number? (if negative then '-' :: s else s) = some value := by
  obtain ⟨c, t, rfl, hc⟩ := head?_of_unsigned? h
  cases negative with
  | true => exact h
  | false => exact (number?_of_isDigit hc t).trans h

theorem IsNumeral.signed {bound : Nat} {value : Value} (h : IsNumeral bound s)
    (hvalue : unsigned? negative s = some value) :
    IsNumeral (bound + 1) (if negative then '-' :: s else s) := by
  obtain ⟨c, t, rfl, hc⟩ := head?_of_unsigned? hvalue
  cases negative with
  | true => exact h.neg (by simpa using ne_of_isDigit hc (by decide))
  | false => exact { h with wholeLength_le := h.wholeLength_le.trans (Nat.le_succ _) }

/-- The text of a number, its sign apart. -/
theorem toList_render {mantissa : Nat} {exponent : Int} :
    (style.render (.finite negative mantissa exponent)).toList =
      if negative then '-' :: (if mantissa = 0 then "0.0" else
          style.layout (Binary64.shortest mantissa exponent)).toList
      else (if mantissa = 0 then "0.0" else
          style.layout (Binary64.shortest mantissa exponent)).toList := by
  unfold DecimalStyle.render
  dsimp only
  cases negative <;> split <;> simp

/-- **A finite number in normal form is read back** without its sign. -/
theorem unsigned?_render (style : DecimalStyle) {mantissa : Nat} {exponent : Int}
    (h : Binary64.IsCanonical (.finite negative mantissa exponent)) :
    unsigned? negative (if mantissa = 0 then "0.0" else
        style.layout (Binary64.shortest mantissa exponent)).toList =
      some (.float (.finite negative mantissa exponent)) := by
  rcases Nat.eq_zero_or_pos mantissa with rfl | hpos
  · obtain rfl : exponent = Binary64.minExponent := h.2.2.2.resolve_right (by decide)
    rw [if_pos rfl]
    cases negative <;> rfl
  · obtain ⟨hdigits, hvalue⟩ := Binary64.ofDecimal_shortest h hpos
    rw [if_neg hpos.ne', unsigned?_layout hdigits, hvalue]

/-- **A finite number in normal form is read back.** -/
theorem number?_render (style : DecimalStyle) {x : Binary64} (hx : x.IsCanonical) (hfinite : x.isFinite = true) :
    number? (style.render x).toList = some (.float x) ∧
      IsNumeral (max 1 style.plainBelow.toNat + 1) (style.render x).toList := by
  cases x with
  | finite negative mantissa exponent =>
    have hread := unsigned?_render style hx
    rw [toList_render]
    refine ⟨number?_signed hread, IsNumeral.signed ?_ hread⟩
    rcases Nat.eq_zero_or_pos mantissa with rfl | hpos
    · rw [if_pos rfl]
      exact IsNumeral.of_append (s := ['0']) (t := ['.', '0']) (by simp [AreDigits]) (by simp)
        (le_max_left 1 _) (by simp) (by simp [isNumberChar])
    · rw [if_neg hpos.ne']
      exact isNumeral_layout (Binary64.ofDecimal_shortest hx hpos).1
  | infinite => contradiction
  | undefined => contradiction

theorem toList_toString (n : Int) :
    (toString n).toList =
      if decide (n < 0) then '-' :: Nat.toDigits 10 n.natAbs else Nat.toDigits 10 n.natAbs := by
  cases n with
  | ofNat n => exact Nat.toList_repr
  | negSucc n =>
    have h : (toString (Int.negSucc n)) = "-" ++ (n + 1).repr := rfl
    rw [h, String.toList_append, Nat.toList_repr, if_pos (by simp)]
    rfl

/-- **A whole number is read back.** -/
theorem number?_toString (n : Int) :
    number? (toString n).toList = some (.integer n) ∧
      ∃ bound, IsNumeral bound (toString n).toList := by
  have hwhole : IsWhole (Nat.toDigits 10 n.natAbs) := by
    refine ⟨areDigits_toDigits _, Nat.toDigits_ne_nil, ?_⟩
    rcases Nat.eq_zero_or_pos n.natAbs with hzero | hpos
    · exact .inl (by rw [hzero]; decide)
    · exact .inr (head?_toDigits hpos)
  have hread := unsigned?_whole (decide (n < 0)) hwhole
  rw [digitsValue_toDigits] at hread
  have hsigned : (if decide (n < 0) = true then -(n.natAbs : Int) else n.natAbs) = n := by
    simp only [decide_eq_true_eq]
    omega
  rw [hsigned] at hread
  have hnumeral := IsNumeral.of_append (t := []) hwhole.areDigits hwhole.ne_nil le_rfl (by simp)
    (by simp)
  rw [List.append_nil] at hnumeral
  rw [toList_toString]
  exact ⟨number?_signed hread, _, hnumeral.signed hread⟩

end Schemata.Json
