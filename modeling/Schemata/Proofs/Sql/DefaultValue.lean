import Schemata.Proofs.Sql.Scan
import Schemata.Proofs.Text.Blank
import Schemata.Sql.DefaultValue
import Schemata.Sql.Layout

/-!
# Default values as expressions

What follows the word `DEFAULT` in a script should be one expression: a word, a number, a text
constant or a call (`IsExpression`). Then a dialect reads what follows it as if it were not there,
where texts are read as the standard has it (`Place.step`).

The default value of a column is free text. Key words, numbers and whatever is quoted anew become
expressions, but a text is handed through as it stands for its last character alone, or for its
first and its last. `isExpression_render` tells when it is an expression nevertheless.
-/

namespace Schemata

-- the test of the core library, whatever is imported
attribute [local instance (2000)] List.decidableBAll

/-! ## Key words -/

namespace Text

variable {c k : Char} {s : List Char} {word : String}

theorem toNat_lt_of_isDigit (h : c.isDigit = true) : c.toNat < 128 :=
  Nat.lt_of_le_of_lt (of_decide_eq_true (Bool.and_eq_true_iff.1 h).2 : c.toNat ≤ 57) (by decide)

theorem isDigit_of_isDecimal_ascii (h : isDecimal c = true) (hc : c.toNat < 128) :
    c.isDigit = true := by
  by_contra hdigit
  simp [isDecimal, decimalValue?, hc, hdigit] at h

/-- The capital dotted I is the only character that stands for an ASCII capital without becoming
it. -/
theorem upperChar_of_foldToCapital (hk : k.toNat < 128) (h : foldToCapital c = k)
    (hdotted : c ≠ 'İ') : upperChar c = [k] := by
  by_cases hdotless : c = 'ı'
  · subst hdotless h
    decide +kernel
  by_cases hlong : c = 'ſ'
  · subst hlong h
    decide +kernel
  have hupper : c.toUpper = k := by
    simpa [foldToCapital, hdotless, hdotted, hlong] using h
  subst hupper
  exact if_pos (toNat_lt_of_toUpper hk)

theorem map_of_matchesFolded (h : matchesFolded word s = true) :
    s.map foldToCapital = word.toList := by
  simpa [matchesFolded] using h

theorem upper_eq_map (hword : ∀ k ∈ word.toList, k.toNat < 128)
    (h : matchesFolded word s = true) :
    upper s = s.map fun c => if c = 'İ' then c else foldToCapital c := by
  rw [upper, ← List.flatMap_singleton' (s.map _), List.flatMap_map]
  refine List.flatMap_congr fun c hc => ?_
  by_cases hdotted : c = 'İ'
  · subst hdotted
    decide +kernel
  · rw [if_neg hdotted]
    exact upperChar_of_foldToCapital
      (hword _ (map_of_matchesFolded h ▸ List.mem_map_of_mem hc)) rfl hdotted

/-- **A text that spells a key word becomes the key word in capitals**, unless a dotted I is among
its letters. -/
theorem upper_of_matchesFolded (hword : ∀ k ∈ word.toList, k.toNat < 128)
    (h : matchesFolded word s = true) (hdotted : 'İ' ∉ s) : upper s = word.toList := by
  rw [upper_eq_map hword h, ← map_of_matchesFolded h]
  refine List.map_congr_left fun c hc => if_neg ?_
  rintro rfl
  exact hdotted hc

theorem mem_upper_of_matchesFolded (hword : ∀ k ∈ word.toList, k.toNat < 128)
    (h : matchesFolded word s = true) (hc : c ∈ upper s) : c = 'İ' ∨ c ∈ word.toList := by
  rw [upper_eq_map hword h] at hc
  obtain ⟨c', hc', rfl⟩ := List.mem_map.1 hc
  split
  · exact .inl ‹_›
  · exact .inr (map_of_matchesFolded h ▸ List.mem_map_of_mem hc')

end Text

namespace Sql

/-! ## Numbers -/

/-- Whether a text is a numeral without a sign: digits of a class, and a fraction, if any. -/
def IsUnsignedOf (p : Char → Bool) (s : List Char) : Prop :=
  ∃ whole fraction, s = whole ++ fraction ∧ (whole ≠ [] ∧ ∀ c ∈ whole, p c = true) ∧
    (fraction = [] ∨ ∃ digits, fraction = '.' :: digits ∧ digits ≠ [] ∧ ∀ c ∈ digits, p c = true)

/-- Whether a text is a numeral in digits of a class, with a minus in front, if any. -/
def IsNumeralOf (p : Char → Bool) (s : List Char) : Prop :=
  IsUnsignedOf p s ∨ ∃ unsigned, s = '-' :: unsigned ∧ IsUnsignedOf p unsigned

/-- Whether a text is a number, in the digits that every dialect knows. -/
def IsNumber (s : List Char) : Prop :=
  IsNumeralOf Char.isDigit s

variable {d : Dialect} {s : List Char} {c : Char}

/-- What `isNumeral` asks of the text behind the sign. -/
def isUnsigned (s : List Char) : Bool :=
  let (whole, rest) := s.span Text.isDecimal
  !whole.isEmpty && match rest with
    | [] => true
    | c :: fraction => c == '.' && !fraction.isEmpty && fraction.all Text.isDecimal

theorem isUnsigned_iff : isUnsigned s = true ↔ IsUnsignedOf Text.isDecimal s := by
  constructor
  · intro h
    simp only [isUnsigned, Bool.and_eq_true, Bool.not_eq_true', List.isEmpty_eq_false_iff] at h
    refine ⟨_, _, (Text.span_eq_append _ s).symm, ⟨h.1, fun c => Text.mem_span_fst⟩, ?_⟩
    have hrest := h.2
    split at hrest
    · exact .inl ‹_›
    · simp only [Bool.and_eq_true, beq_iff_eq, Bool.not_eq_true', List.isEmpty_eq_false_iff,
        List.all_eq_true] at hrest
      obtain ⟨⟨rfl, hne⟩, hall⟩ := hrest
      exact .inr ⟨_, ‹_›, hne, hall⟩
  · rintro ⟨whole, fraction, rfl, ⟨hne, hwhole⟩, hfraction⟩
    have hspan : (whole ++ fraction).span Text.isDecimal = (whole, fraction) := by
      refine Text.span_append hwhole fun c hc => ?_
      rcases hfraction with rfl | ⟨digits, rfl, -⟩
      · simp at hc
      · obtain rfl : '.' = c := by simpa using hc
        decide
    rw [isUnsigned, hspan]
    rcases hfraction with rfl | ⟨digits, rfl, hdigits, hall⟩
    · simpa using hne
    · simpa [hne, hdigits] using hall

theorem isNumeral_of_ne (h : ∀ unsigned, s ≠ '-' :: unsigned) : isNumeral s = isUnsigned s := by
  rw [isNumeral]
  exacts [rfl, h]

theorem isNumeral_iff : isNumeral s = true ↔ IsNumeralOf Text.isDecimal s := by
  by_cases hsign : ∃ unsigned, s = '-' :: unsigned
  · obtain ⟨unsigned, rfl⟩ := hsign
    have hnumeral : isNumeral ('-' :: unsigned) = isUnsigned unsigned := rfl
    have hnot : ¬IsUnsignedOf Text.isDecimal ('-' :: unsigned) := by
      rintro ⟨whole, fraction, heq, ⟨hne, hwhole⟩, -⟩
      obtain ⟨w, ws, rfl⟩ := List.exists_cons_of_ne_nil hne
      obtain rfl : '-' = w := by simpa using congrArg List.head? heq
      exact absurd (hwhole '-' (by simp)) (by decide)
    rw [hnumeral, isUnsigned_iff, IsNumeralOf, or_iff_right hnot]
    simp
  · rw [isNumeral_of_ne (not_exists.1 hsign), isUnsigned_iff, IsNumeralOf,
      or_iff_left fun ⟨unsigned, heq, _⟩ => hsign ⟨unsigned, heq⟩]

theorem IsUnsignedOf.imp {p q : Char → Bool} (h : IsUnsignedOf p s)
    (hpq : ∀ c ∈ s, p c = true → q c = true) : IsUnsignedOf q s := by
  obtain ⟨whole, fraction, rfl, ⟨hne, hwhole⟩, hfraction⟩ := h
  refine ⟨whole, fraction, rfl, ⟨hne, fun c hc => hpq c (by simp [hc]) (hwhole c hc)⟩, ?_⟩
  rcases hfraction with rfl | ⟨digits, rfl, hdigits, hall⟩
  · exact .inl rfl
  · exact .inr ⟨digits, rfl, hdigits, fun c hc => hpq c (by simp [hc]) (hall c hc)⟩

theorem IsNumeralOf.imp {p q : Char → Bool} (h : IsNumeralOf p s)
    (hpq : ∀ c ∈ s, p c = true → q c = true) : IsNumeralOf q s := by
  rcases h with h | ⟨unsigned, rfl, h⟩
  · exact .inl (h.imp hpq)
  · exact .inr ⟨unsigned, rfl, h.imp fun c hc => hpq c (by simp [hc])⟩

theorem IsUnsignedOf.mem_cases {p : Char → Bool} (h : IsUnsignedOf p s) (hc : c ∈ s) :
    c = '.' ∨ p c = true := by
  obtain ⟨whole, fraction, rfl, ⟨-, hwhole⟩, hfraction⟩ := h
  rcases List.mem_append.1 hc with hc | hc
  · exact .inr (hwhole c hc)
  · rcases hfraction with rfl | ⟨digits, rfl, -, hall⟩
    · contradiction
    · exact (List.mem_cons.1 hc).imp_right (hall c)

theorem IsNumeralOf.mem_cases {p : Char → Bool} (h : IsNumeralOf p s) (hc : c ∈ s) :
    c = '-' ∨ c = '.' ∨ p c = true := by
  rcases h with h | ⟨unsigned, rfl, h⟩
  · exact .inr (h.mem_cases hc)
  · exact (List.mem_cons.1 hc).imp_right h.mem_cases

/-- **A text that is taken for a numeral is a number** just if all of its digits are ASCII. -/
theorem isNumber_iff : IsNumber s ↔ isNumeral s = true ∧ ∀ c ∈ s, c.toNat < 128 := by
  rw [isNumeral_iff]
  refine ⟨fun h => ⟨h.imp fun c _ => Text.isDecimal_of_isDigit, fun c hc => ?_⟩, fun h =>
    h.1.imp fun c hc hdecimal => Text.isDigit_of_isDecimal_ascii hdecimal (h.2 c hc)⟩
  rcases h.mem_cases hc with rfl | rfl | hdigit
  · decide
  · decide
  · exact Text.toNat_lt_of_isDigit hdigit

/-! ## Expressions -/

/-- The words that are values by themselves. -/
def valueWords : List String :=
  ["CURRENT_TIMESTAMP", "CURRENT_DATE", "CURRENT_TIME", "NULL", "TRUE", "FALSE"]

/-- Whether a text is a text constant: between quotation marks, those inside of it doubled. -/
def IsConstant (s : List Char) : Prop :=
  ∃ value, s = '\'' :: doubleQuotes value ++ ['\'']

/-- Whether a text is a call: a name, blanks if any, and balanced arguments in parentheses. -/
def IsCall (d : Dialect) (s : List Char) : Prop :=
  ∃ name blanks arguments, s = name ++ (blanks ++ '(' :: arguments ++ [')']) ∧
    isPlainWord name = true ∧ (∀ c ∈ blanks, Text.isBlank c = true) ∧ IsBalanced d arguments

/-- A complete expression for the value of a column. -/
inductive IsExpression (d : Dialect) (s : List Char) : Prop
  /-- A word. -/
  | word {w : String} (hw : w ∈ valueWords) (hs : s = w.toList)
  /-- A number. -/
  | number (hs : IsNumber s)
  /-- A text constant. -/
  | constant (hs : IsConstant s)
  /-- A call. -/
  | call (hs : IsCall d s)

/-! ### Every expression is balanced -/

/-- The marks that some dialect heeds outside of quotations. -/
def heededMarks : List Char :=
  ['\'', '"', '`', '[', '(', ')']

theorem isOrdinary_of_notMem (h : c ∉ heededMarks) : Place.IsOrdinary d c := by
  simp only [heededMarks, List.mem_cons, List.not_mem_nil, or_false, not_or] at h
  refine ⟨List.lookup_eq_none_iff.2 ?_, h.2.2.2.2.1, h.2.2.2.2.2⟩
  cases d <;> simp [Dialect.quotations, h]

/-- Characters of a class to which none of the marks belongs are not heeded. -/
theorem isBalanced_of_class {p : Char → Bool} (hp : ∀ mark ∈ heededMarks, p mark = false)
    (h : ∀ c ∈ s, p c = true) : IsBalanced d s := by
  refine isBalanced_of_forall_ordinary fun c hc => isOrdinary_of_notMem fun hmark => ?_
  have hclass := h c hc
  rw [hp c hmark] at hclass
  contradiction

theorem IsConstant.isBalanced (h : IsConstant s) : IsBalanced d s := by
  obtain ⟨value, rfl⟩ := h
  rw [isBalanced_iff, List.cons_append, Place.read_cons,
    Place.step_opening (quote_mem_quotations d), Place.read_append, read_doubleQuotes,
    Place.read_cons, Place.step_closing, Place.read_nil]

theorem isPlainWord_class (h : isPlainWord s = true) :
    ∀ c ∈ s, (c.isAlphanum || c == '_') = true := by
  cases s with
  | nil => simp
  | cons c s =>
    simp only [isPlainWord, Bool.and_eq_true, Bool.or_eq_true, List.all_eq_true] at h
    intro c' hc'
    rcases List.mem_cons.1 hc' with rfl | hc'
    · simpa [Char.isAlphanum] using h.1.imp_left .inl
    · simpa using h.2 c' hc'

theorem IsCall.isBalanced (h : IsCall d s) : IsBalanced d s := by
  obtain ⟨name, blanks, arguments, rfl, hname, hblanks, harguments⟩ := h
  have hcall : IsBalanced d ('(' :: arguments ++ [')']) := .parentheses harguments .nil
  have hname : IsBalanced d name := isBalanced_of_class (by decide) (isPlainWord_class hname)
  have hblanks : IsBalanced d blanks := isBalanced_of_class (by decide) hblanks
  rw [List.append_assoc]
  exact hname.append (hblanks.append hcall)

/-- **Expressions are balanced**, so that a dialect reads what follows them as if they were not
there. -/
theorem IsExpression.isBalanced (h : IsExpression d s) : IsBalanced d s := by
  cases h with
  | word hw hs =>
    have hall : ∀ w ∈ valueWords, ∀ c ∈ w.toList, (c.isUpper || c == '_') = true := by decide
    exact hs ▸ isBalanced_of_class (by decide) (hall _ hw)
  | number hs =>
    have hall : ∀ c ∈ s, (c == '-' || c == '.' || c.isDigit) = true := fun c hc => by
      simpa [or_assoc] using hs.mem_cases hc
    exact isBalanced_of_class (by decide) hall
  | constant hs => exact hs.isBalanced
  | call hs => exact hs.isBalanced

/-! ## Default values -/

/-- Whether a text is a key word, letter case disregarded. -/
def spellsKeyword (s : List Char) : Bool :=
  defaultKeywords.any (Text.matchesFolded · s)

theorem isNumeral_class (h : isNumeral s = true) :
    ∀ c ∈ s, (c == '-' || c == '.' || Text.isDecimal c) = true := fun c hc => by
  simpa [or_assoc] using (isNumeral_iff.1 h).mem_cases hc

/-- A text without a character is none that has it. -/
theorem isNumeral_eq_false (hc : c ∈ s) (hmark : (c == '-' || c == '.' || Text.isDecimal c) = false) :
    ¬isNumeral s = true := fun h => by
  have hclass := isNumeral_class h c hc
  rw [hmark] at hclass
  contradiction

namespace DefaultValue

variable {w : String}

/-- What a key word stands for is an expression in every dialect. -/
theorem isExpression_ofKeyword (hw : w ∈ defaultKeywords) :
    IsExpression d ((ofKeyword w).render d).toList := by
  have hcases : ∀ w ∈ defaultKeywords, (ofKeyword w).render d ∈ valueWords ∨
      (ofKeyword w).render d ∈ ["1", "0"] ∨ (ofKeyword w).render d = "SYSDATETIME()" := by
    cases d <;> decide
  rcases hcases w hw with h | h | h
  · exact .word h rfl
  · have hnumeral : ∀ w ∈ ["1", "0"], isNumeral w.toList = true ∧ ∀ c ∈ w.toList, c.toNat < 128 := by
      decide
    exact .number (isNumber_iff.2 (hnumeral _ h))
  · rw [h]
    exact .call ⟨"SYSDATETIME".toList, [], [], rfl, by decide, by simp, .nil⟩

theorem ofKeyword_of_mem_dotted (h : 'İ' ∈ w.toList) : ofKeyword w = .keyword w := by
  have hnot : ∀ {word : String}, word ∈ defaultKeywords → w ≠ word := by
    rintro word hword rfl
    have hall : ∀ word ∈ defaultKeywords, 'İ' ∉ word.toList := by decide
    exact hall _ hword h
  rw [ofKeyword]
  all_goals exact hnot (by decide)

/-- A text that spells a key word with a dotted I keeps that, and is made of capitals besides. -/
theorem upper_of_mem_dotted (hw : w ∈ defaultKeywords) (hmatch : Text.matchesFolded w s = true)
    (hdotted : 'İ' ∈ s) : 'İ' ∈ Text.upper s ∧
      ∀ c ∈ Text.upper s, (c == 'İ' || c.isUpper || c == '_') = true := by
  have hascii : ∀ w ∈ defaultKeywords, ∀ k ∈ w.toList, k.toNat < 128 := by decide
  have hall : ∀ w ∈ defaultKeywords, 'I' ∈ w.toList →
      ∀ c ∈ w.toList, (c == 'İ' || c.isUpper || c == '_') = true := by decide
  have hmem : 'I' ∈ w.toList := by
    rw [← Text.map_of_matchesFolded hmatch]
    exact List.mem_map.2 ⟨'İ', hdotted, by decide⟩
  refine ⟨List.mem_flatMap.2 ⟨'İ', hdotted, by decide +kernel⟩, fun c hc => ?_⟩
  rcases Text.mem_upper_of_matchesFolded (hascii w hw) hmatch hc with rfl | hc
  · rfl
  · exact hall w hw hmem c hc

/-- Capitals among which there is a dotted I are no expression. -/
theorem not_isExpression_of_mem_dotted (hdotted : 'İ' ∈ s)
    (hclass : ∀ c ∈ s, (c == 'İ' || c.isUpper || c == '_') = true) : ¬IsExpression d s := by
  intro h
  cases h with
  | word hw hs =>
    have hall : ∀ w ∈ valueWords, 'İ' ∉ w.toList := by decide
    exact hall _ hw (hs ▸ hdotted)
  | number hs => exact absurd (hs.mem_cases hdotted) (by decide)
  | constant hs =>
    obtain ⟨value, rfl⟩ := hs
    exact absurd (hclass '\'' (by simp)) (by decide)
  | call hs =>
    obtain ⟨name, blanks, arguments, rfl, -⟩ := hs
    exact absurd (hclass '(' (by simp)) (by decide)

/-- **A key word in a default value** becomes an expression just if no dotted I is among its
letters; what it becomes is balanced anyway. -/
theorem isExpression_render_of_spellsKeyword (h : spellsKeyword s = true) :
    let rendered := ((ofKeyword (String.ofList (Text.upper s))).render d).toList
    (IsExpression d rendered ↔ 'İ' ∉ s) ∧ IsBalanced d rendered := by
  intro rendered
  obtain ⟨w, hw, hmatch⟩ := List.any_eq_true.1 h
  by_cases hdotted : 'İ' ∈ s
  · obtain ⟨hupper, hclass⟩ := upper_of_mem_dotted hw hmatch hdotted
    have hrendered : rendered = Text.upper s := by
      dsimp only [rendered]
      rw [ofKeyword_of_mem_dotted (by simpa using hupper), render, String.toList_ofList]
    rw [hrendered]
    exact ⟨iff_of_false (not_isExpression_of_mem_dotted hupper hclass) (not_not.2 hdotted),
      isBalanced_of_class (by decide) hclass⟩
  · have hascii : ∀ w ∈ defaultKeywords, ∀ k ∈ w.toList, k.toNat < 128 := by decide
    have hexpression : IsExpression d rendered := by
      dsimp only [rendered]
      rw [Text.upper_of_matchesFolded (hascii w hw) hmatch hdotted, String.ofList_toList]
      exact isExpression_ofKeyword hw
    exact ⟨iff_of_true hexpression hdotted, hexpression.isBalanced⟩

theorem getLast?_of_isQuoted (h : isQuoted s = true) : s.getLast? = some '\'' := by
  simp only [isQuoted, Bool.and_eq_true, beq_iff_eq] at h
  exact h.1.2

/-- **A text that is handed through** is an expression just if it is what its first and its last
character make of it. -/
theorem isExpression_iff_of_verbatim
    (h : isNumeral s = true ∨ s.getLast? = some ')' ∨ isQuoted s = true) :
    IsExpression d s ↔ (isNumeral s = true → ∀ c ∈ s, c.toNat < 128) ∧
      (s.getLast? = some ')' → IsCall d s) ∧ (isQuoted s = true → IsConstant s) := by
  constructor
  · intro hexpression
    cases hexpression with
    | word hw hs =>
      have hall : ∀ w ∈ valueWords, isNumeral w.toList = false ∧ w.toList.getLast? ≠ some ')' ∧
          isQuoted w.toList = false := by decide
      obtain ⟨hnumeral, hlast, hquoted⟩ := hs ▸ hall _ hw
      simp [hnumeral, hlast, hquoted]
    | number hs =>
      obtain ⟨hnumeral, hascii⟩ := isNumber_iff.1 hs
      refine ⟨fun _ => hascii, fun hlast => ?_, fun hquoted => ?_⟩
      · exact absurd hnumeral (isNumeral_eq_false (List.mem_of_getLast? hlast) (by decide))
      · exact absurd hnumeral (isNumeral_eq_false
          (List.mem_of_getLast? (getLast?_of_isQuoted hquoted)) (by decide))
    | constant hs =>
      obtain ⟨value, rfl⟩ := hs
      refine ⟨fun hnumeral => ?_, fun hlast => ?_, fun _ => ⟨value, rfl⟩⟩
      · exact absurd hnumeral (isNumeral_eq_false (c := '\'') (by simp) (by decide))
      · rw [List.getLast?_concat] at hlast
        exact absurd (Option.some.inj hlast) (by decide)
    | call hs =>
      obtain ⟨name, blanks, arguments, rfl, -⟩ := id hs
      refine ⟨fun hnumeral => ?_, fun _ => hs, fun hquoted => ?_⟩
      · exact absurd hnumeral (isNumeral_eq_false (c := '(') (by simp) (by decide))
      · have hlast := getLast?_of_isQuoted hquoted
        rw [← List.append_assoc, ← List.append_assoc, List.getLast?_concat] at hlast
        exact absurd (Option.some.inj hlast) (by decide)
  · rintro ⟨hnumeral, hcall, hconstant⟩
    rcases h with h | h | h
    · exact .number (isNumber_iff.2 ⟨h, hnumeral h⟩)
    · exact .call (hcall h)
    · exact .constant (hconstant h)

end DefaultValue

/-- **Default values as expressions.** The text for a default value is an expression just if, blanks
around it removed, it is a key word without a dotted I, or is no key word and as far as it is handed
through, is the number, the call or the text constant that it is taken for. It is balanced just if
what is handed through is. Behind an expression, a dialect reads on as if it were not there.

Text constants are those of the standard, in which only a quotation mark written twice stands for
itself. The escapes by backslashes that MySQL adds in its default mode are not read, nor are
comments. -/
theorem isExpression_render (d : Dialect) (text : String) :
    let s := Text.strip text.toList
    let rendered := ((DefaultValue.ofText text).render d).toList
    (IsExpression d rendered ↔
      (spellsKeyword s = true → 'İ' ∉ s) ∧
      (spellsKeyword s = false → (isNumeral s = true → ∀ c ∈ s, c.toNat < 128) ∧
        (s.getLast? = some ')' → IsCall d s) ∧ (isQuoted s = true → IsConstant s))) ∧
    (IsBalanced d rendered ↔ (spellsKeyword s = false →
      s.getLast? = some ')' ∨ isQuoted s = true → IsBalanced d s)) ∧
    (IsExpression d rendered → ∀ n rest,
      (Place.outside n).read d (rendered ++ rest) = (Place.outside n).read d rest) := by
  intro s rendered
  refine and_assoc.1 ⟨?_, fun h => isBalanced_iff_forall_read_append.1 h.isBalanced⟩
  cases hkeyword : spellsKeyword s with
  | true =>
    have hrendered : DefaultValue.ofText text = .ofKeyword (String.ofList (Text.upper s)) :=
      if_pos hkeyword
    obtain ⟨hexpression, hbalanced⟩ := DefaultValue.isExpression_render_of_spellsKeyword
      (d := d) hkeyword
    rw [← hrendered] at hexpression hbalanced
    exact ⟨by simpa using hexpression, by simpa using hbalanced⟩
  | false =>
    have hnot : ¬defaultKeywords.any (Text.matchesFolded · s) = true := by
      simpa [spellsKeyword] using hkeyword
    by_cases hverbatim : isNumeral s = true ∨ s.getLast? = some ')' ∨ isQuoted s = true
    · have hrendered : rendered = s := by
        have htext : DefaultValue.ofText text = .verbatim (String.ofList s) := by
          rw [DefaultValue.ofText, if_neg hnot, if_pos (by simpa [or_assoc] using hverbatim)]
        simp [rendered, htext, DefaultValue.render]
      rw [hrendered, DefaultValue.isExpression_iff_of_verbatim hverbatim]
      refine ⟨by simp, ⟨fun h _ _ => h, fun h => ?_⟩⟩
      rcases hverbatim with hnumeral | hpasses
      · exact isBalanced_of_class (by decide) (isNumeral_class hnumeral)
      · exact h rfl hpasses
    · have hrendered : IsConstant rendered := by
        have htext : DefaultValue.ofText text = .text (String.ofList s) := by
          rw [DefaultValue.ofText, if_neg hnot, if_neg (by simpa [or_assoc] using hverbatim)]
        exact ⟨s, by simp [rendered, htext, DefaultValue.render, quoteText]⟩
      simp only [not_or] at hverbatim
      refine ⟨iff_of_true (.constant hrendered) ?_, iff_of_true hrendered.isBalanced ?_⟩
      · simp [hverbatim]
      · simp [hverbatim]

/-- Not every default value is written as an expression: a text that ends with a parenthesis is
handed through with its quotation mark. -/
theorem not_isExpression_render_smiley :
    ¬∀ (d : Dialect) (text : String),
      IsExpression d ((DefaultValue.ofText text).render d).toList := by
  intro h
  have hbalanced := (h .mysql "it's :)").isBalanced
  exact absurd hbalanced (by decide +kernel)

end Sql

end Schemata
