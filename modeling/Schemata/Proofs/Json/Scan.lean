import Schemata.Proofs.Json.Null
import Schemata.Proofs.Json.Number

/-!
# What is written is scanned

A text between quotation marks is scanned to the text it was written from, whatever follows
(`scansTo_quoteText`), and a number or a word is scanned up to where it ends (`endsAs_bare`). The
parts of a list or an object are scanned one after another (`scansTo_enclose`).
-/

namespace Schemata.Json

variable {limits : Limits} {s t : List Char} {ts us : List Token} {c : Char}

/-! ## Pieces of a document -/

variable (limits) in
/-- The characters are scanned to these tokens, whatever follows. -/
def ScansTo (s : List Char) (ts : List Token) : Prop :=
  ∀ rest, scan limits .between (s ++ rest) = (scan limits .between rest).map (ts ++ ·)

/-- Whether a number or a word ends at the character. -/
def endsBare (c : Char) : Bool :=
  isGap c || (punctuation? c).isSome

variable (limits) in
/-- The characters are scanned to these tokens, if what follows does not go on with a number or a
word. -/
def EndsAs (s : List Char) (ts : List Token) : Prop :=
  ∀ rest, (∀ c ∈ rest.head?, endsBare c = true) →
    scan limits .between (s ++ rest) = (scan limits .between rest).map (ts ++ ·)

theorem ScansTo.endsAs (h : ScansTo limits s ts) : EndsAs limits s ts := fun rest _ => h rest

theorem ScansTo.append (hs : ScansTo limits s ts) (ht : ScansTo limits t us) :
    ScansTo limits (s ++ t) (ts ++ us) := by
  intro rest
  rw [List.append_assoc, hs, ht, Option.map_map]
  exact congrArg (Option.map · _) (funext fun _ => (List.append_assoc ..).symm)

theorem ScansTo.append_endsAs (hs : ScansTo limits s ts) (ht : EndsAs limits t us) :
    EndsAs limits (s ++ t) (ts ++ us) := by
  intro rest hrest
  rw [List.append_assoc, hs, ht rest hrest, Option.map_map]
  exact congrArg (Option.map · _) (funext fun _ => (List.append_assoc ..).symm)

theorem EndsAs.append (hs : EndsAs limits s ts) (hne : t ≠ [])
    (hhead : ∀ c ∈ t.head?, endsBare c = true) (ht : ScansTo limits t us) :
    ScansTo limits (s ++ t) (ts ++ us) := by
  intro rest
  have hfollow : ∀ c ∈ (t ++ rest).head?, endsBare c = true := by
    rwa [List.head?_append_of_ne_nil _ hne]
  rw [List.append_assoc, hs _ hfollow, ht, Option.map_map]
  exact congrArg (Option.map · _) (funext fun _ => (List.append_assoc ..).symm)

theorem scansTo_gaps (hs : ∀ c ∈ s, isGap c = true) : ScansTo limits s [] := by
  intro rest
  induction s with
  | nil => simp
  | cons c s ih =>
    rw [List.forall_mem_cons] at hs
    rw [List.cons_append, scan, if_pos hs.1, ih hs.2]

theorem scansTo_punctuation {token : Token} (hgap : isGap c = false)
    (hc : punctuation? c = some token) : ScansTo limits [c] [token] := by
  intro rest
  rw [List.singleton_append, scan, if_neg (Bool.eq_false_iff.1 hgap), hc]
  rfl

/-! ## Numbers and words -/

/-- Whether the character may stand in a number or a word. -/
def isBare (c : Char) : Bool :=
  !endsBare c && c != '"'

theorem isGap_of_isBare (h : isBare c = true) : ¬ isGap c = true := by
  intro hgap
  simp [isBare, endsBare, hgap] at h

theorem punctuation?_of_isBare (h : isBare c = true) : punctuation? c = none := by
  cases hc : punctuation? c with
  | none => rfl
  | some => simp [isBare, endsBare, hc] at h

theorem ne_quote_of_isBare (h : isBare c = true) : c ≠ '"' := by
  rintro rfl
  revert h
  decide

/-- Inside a number or a word, the reader goes on to its end. -/
theorem scan_bare {value : Value} {read rest : List Char} (hs : ∀ c ∈ s, isBare c = true)
    (hvalue : scalar? limits (read.reverse ++ s) = some value)
    (hrest : ∀ c ∈ rest.head?, endsBare c = true) :
    scan limits (.bare read) (s ++ rest) =
      (scan limits .between rest).map (.scalar value :: ·) := by
  induction s generalizing read with
  | nil =>
    rw [List.append_nil] at hvalue
    cases rest with
    | nil =>
      simp only [List.nil_append, scan, hvalue, Option.map_some]
    | cons c cs =>
      have hc : endsBare c = true := hrest c rfl
      rw [List.nil_append, scan, scan, hvalue]
      split
      · rfl
      · next hgap =>
        cases hp : punctuation? c with
        | none => simp [endsBare, hgap, hp] at hc
        | some token =>
          dsimp only [Option.bind_eq_bind, Option.bind_some]
          rw [Option.map_map]
          rfl
  | cons c s ih =>
    rw [List.forall_mem_cons] at hs
    rw [List.cons_append, scan, if_neg (isGap_of_isBare hs.1), punctuation?_of_isBare hs.1]
    dsimp only
    rw [if_neg (ne_quote_of_isBare hs.1), ih hs.2 (by simpa using hvalue)]

/-- A number or a word is scanned up to where it ends. -/
theorem endsAs_bare {value : Value} (hne : s ≠ []) (hs : ∀ c ∈ s, isBare c = true)
    (hvalue : scalar? limits s = some value) : EndsAs limits s [.scalar value] := by
  intro rest hrest
  obtain ⟨c, s, rfl⟩ := List.exists_cons_of_ne_nil hne
  rw [List.forall_mem_cons] at hs
  rw [List.cons_append, scan, if_neg (isGap_of_isBare hs.1), punctuation?_of_isBare hs.1]
  dsimp only
  rw [if_neg (ne_quote_of_isBare hs.1), scan_bare hs.2 hvalue hrest]
  rfl

/-- A word is scanned to its value. -/
theorem endsAs_word {word : String} {value : Value} (h : words.lookup word = some value) :
    EndsAs limits word.toList [.scalar value] := by
  have hwords : ∀ w ∈ words.map (·.1), w.toList ≠ [] ∧ w.toList.all isBare = true := by decide
  have hmem : word ∈ words.map (·.1) := by
    by_contra hmem
    rw [lookup_eq_none hmem] at h
    contradiction
  obtain ⟨hne, hbare⟩ := hwords word hmem
  refine endsAs_bare hne (List.all_eq_true.1 hbare) ?_
  rw [scalar?, String.ofList_toList, h]

theorem isBare_of_isNumberChar (h : isNumberChar c = true) : isBare c = true := by
  rcases Bool.or_eq_true_iff.1 h with h | h
  · have hne : ∀ d : Char, d.isDigit = false → c ≠ d := fun _ => ne_of_isDigit h
    have hgap : isGap c = false := by
      simp [isGap, hne ' ' (by decide), hne '\t' (by decide), hne '\n' (by decide),
        hne '\r' (by decide)]
    have hpunctuation : punctuation? c = none := by
      unfold punctuation?
      split <;> first | rfl | exact absurd rfl (hne _ (by decide))
    simp [isBare, endsBare, hgap, hpunctuation, hne '"' (by decide)]
  · simp only [List.contains_cons, List.contains_nil, Bool.or_false, Bool.or_eq_true,
      beq_iff_eq] at h
    rcases h with rfl | rfl | rfl | rfl <;> decide

/-- No word has a digit. -/
theorem lookup_words (hdigit : ∃ c ∈ s, c.isDigit = true) :
    words.lookup (String.ofList s) = none := by
  refine lookup_eq_none fun hmem => ?_
  have hnone : ∀ word ∈ words.map (·.1), word.toList.all (fun c => !c.isDigit) = true := by
    decide
  have h := hnone _ hmem
  rw [String.toList_ofList, List.all_eq_true] at h
  obtain ⟨c, hc, hdigit⟩ := hdigit
  simpa [hdigit] using h c hc

/-- A number within the limits is scanned to its value. -/
theorem IsNumeral.endsAs {bound : Nat} {value : Value} (h : IsNumeral bound s)
    (hbound : Limits.keeps limits.whole (wholeLength s) = true) (hvalue : number? s = some value) :
    EndsAs limits s [.scalar value] := by
  refine endsAs_bare ?_ (fun c hc => isBare_of_isNumberChar (h.isNumberChar c hc)) ?_
  · rintro rfl
    simpa using h.exists_digit
  · rw [scalar?, lookup_words h.exists_digit, if_pos hbound, hvalue]

/-! ## Texts -/

theorem hexValue?_hexDigit : ∀ n < 16, hexValue? (hexDigit n) = some n := by
  decide

/-- The digits of a code unit are put together. -/
theorem scan_escapeUnit {n : Nat} (hn : n < 65536) (read : List (Char ⊕ Nat)) (rest : List Char) :
    scan limits (.quoted read) (escapeUnit n ++ rest) =
      scan limits (.quoted (.inr n :: read)) rest := by
  have hvalue : 16 * (16 * (16 * (n / 4096 % 16) + n / 256 % 16) + n / 16 % 16) + n % 16 = n := by
    omega
  have hdigit : ∀ k, hexValue? (hexDigit (k % 16)) = some (k % 16) := fun k =>
    hexValue?_hexDigit _ (Nat.mod_lt _ (by decide))
  simp [escapeUnit, scan, hdigit, hvalue]

/-- What a character becomes on the way through a text: those with an escape of their own and those
that need none come back, the others as code units. -/
def unitOf (c : Char) : Char ⊕ Nat :=
  if c.toNat < 32 ∧ c ∉ ['\n', '\t', '\r', '\x08', '\x0c'] then .inr c.toNat else .inl c

theorem scan_escapeChar (c : Char) (read : List (Char ⊕ Nat)) (rest : List Char) :
    scan limits (.quoted read) (escapeChar c ++ rest) =
      scan limits (.quoted (unitOf c :: read)) rest := by
  unfold escapeChar
  -- seven characters have a letter of their own behind the backslash
  iterate 7
    split
    · next h => subst h; rfl
  next hquote hslash hline htab hreturn hback hfeed =>
  split
  · next hlow =>
    rw [scan_escapeUnit (by omega), unitOf, if_pos ⟨hlow, by simp_all⟩]
  · next hhigh =>
    rw [List.singleton_append, scan, if_neg hquote, if_neg hslash, if_neg hhigh, unitOf,
      if_neg fun h => hhigh h.1]

theorem scan_flatMap_escapeChar (read : List (Char ⊕ Nat)) (rest : List Char) :
    scan limits (.quoted read) (s.flatMap escapeChar ++ rest) =
      scan limits (.quoted ((s.map unitOf).reverse ++ read)) rest := by
  induction s generalizing read with
  | nil => rfl
  | cons c s ih =>
    rw [List.flatMap_cons, List.append_assoc, scan_escapeChar, ih]
    simp

theorem joinUnits_inr {unit : Nat} (h : unit < 0xD800) (rest : List (Char ⊕ Nat)) :
    joinUnits (.inr unit :: rest) = (joinUnits rest).map (Char.ofNat unit :: ·) := by
  have hhigh : ¬ 0xD800 ≤ unit := Nat.not_le.2 h
  have hlow : ¬ 0xDC00 ≤ unit := fun hle => hhigh (Nat.le_trans (by decide) hle)
  rcases rest with _ | ⟨c | low, rest⟩ <;> simp [joinUnits, hhigh, hlow]

theorem joinUnits_map_unitOf (s : List Char) : joinUnits (s.map unitOf) = some s := by
  induction s with
  | nil => rfl
  | cons c s ih =>
    rw [List.map_cons, unitOf]
    split
    · next h => rw [joinUnits_inr (h.1.trans (by decide)), ih, Option.map_some, Char.ofNat_toNat]
    · rw [joinUnits, ih, Option.map_some]

theorem toList_quoteText (text : String) :
    (quoteText text).toList = '"' :: (text.toList.flatMap escapeChar ++ ['"']) := by
  simp [quoteText]

/-- **A text is scanned to itself**, whatever follows. -/
theorem scansTo_quoteText (text : String) : ScansTo limits (quoteText text).toList [.text text] := by
  intro rest
  have hopen : scan limits .between ('"' :: (text.toList.flatMap escapeChar ++ ['"'] ++ rest)) =
      scan limits (.quoted []) (text.toList.flatMap escapeChar ++ ['"'] ++ rest) := rfl
  rw [toList_quoteText, List.cons_append, hopen, List.append_assoc, scan_flatMap_escapeChar,
    List.append_nil, List.singleton_append, scan, if_pos rfl, List.reverse_reverse,
    joinUnits_map_unitOf]
  simp

/-! ## Lists and objects -/

variable {layout : Layout} {depth : Nat} {parts : List String} {tokens : List (List Token)}

theorem isGap_break (layout : Layout) (depth : Nat) :
    ∀ c ∈ (layout.break depth).toList, isGap c = true := by
  cases layout with
  | compact => simp [Layout.break]
  | lines width =>
    rw [Layout.break, String.toList_append]
    refine forall_append (p := fun c => isGap c = true) (by simp [isGap]) fun c hc => ?_
    rw [String.toList_ofList] at hc
    rw [(List.mem_replicate.1 hc).2]
    rfl

theorem scansTo_colon (layout : Layout) : ScansTo limits layout.colon.toList [.colon] := by
  have hcolon : ScansTo limits [':'] [.colon] := scansTo_punctuation rfl rfl
  cases layout with
  | compact => exact hcolon
  | lines width =>
    have hgap : ScansTo limits [' '] [] := scansTo_gaps (by simp [isGap])
    have hchars : (Layout.lines width).colon.toList = [':'] ++ [' '] := by simp [Layout.colon]
    rw [hchars]
    exact hcolon.append hgap

/-- Parts with commas between them. -/
theorem endsAs_intercalate {gaps : List Char} (hgaps : ∀ c ∈ gaps, isGap c = true)
    (hparts : List.Forall₂ (fun part => EndsAs limits part.toList) parts tokens) :
    EndsAs limits ((',' :: gaps).intercalate (parts.map String.toList))
      ([Token.comma].intercalate tokens) := by
  have hcomma : ScansTo limits (',' :: gaps) [.comma] := by
    have hmark : ScansTo limits [','] [.comma] := scansTo_punctuation rfl rfl
    simpa using hmark.append (scansTo_gaps hgaps)
  induction hparts with
  | nil => exact (scansTo_gaps (by simp)).endsAs
  | cons hpart hparts ih =>
    cases hparts with
    | nil => simpa using hpart
    | cons hnext hparts =>
      rw [List.map_cons, List.map_cons, List.intercalate_cons_cons, List.intercalate_cons_cons,
        ← List.map_cons]
      exact (hpart.append (by simp) (by simp [endsBare, punctuation?]) hcomma).append_endsAs ih

/-- **Parts between brackets** are scanned one after another. -/
theorem scansTo_enclose {left right : String} {opening closing : Token} {l r : Char}
    (hleft : left.toList = [l]) (hright : right.toList = [r])
    (hl : ScansTo limits [l] [opening]) (hr : ScansTo limits [r] [closing])
    (hend : endsBare r = true)
    (hparts : List.Forall₂ (fun part => EndsAs limits part.toList) parts tokens) :
    ScansTo limits (layout.enclose depth left right parts).toList
      (opening :: ([Token.comma].intercalate tokens ++ [closing])) := by
  unfold Layout.enclose
  split
  · next hempty =>
    obtain rfl := List.isEmpty_iff.1 hempty
    cases hparts
    rw [String.toList_append, hleft, hright]
    exact hl.append hr
  · have hstart : ScansTo limits (layout.break (depth + 1)).toList [] :=
      scansTo_gaps (isGap_break layout (depth + 1))
    have hbody := endsAs_intercalate (isGap_break layout (depth + 1)) hparts
    have hclose : ScansTo limits ((layout.break depth).toList ++ [r]) [closing] :=
      (scansTo_gaps (isGap_break layout depth)).append hr
    have hcomma : ("," ++ layout.break (depth + 1)).toList =
        ',' :: (layout.break (depth + 1)).toList := by
      rw [String.toList_append]
      rfl
    have hhead : ∀ c ∈ ((layout.break depth).toList ++ [r]).head?, endsBare c = true := by
      intro c hc
      rcases List.mem_append.1 (List.mem_of_mem_head? hc) with hgap | hbracket
      · rw [endsBare, isGap_break layout depth c hgap, Bool.true_or]
      · rwa [List.mem_singleton.1 hbracket]
    have h := hl.append (hstart.append (hbody.append (by simp) hhead hclose))
    simpa [String.toList_append, String.toList_intercalate, hleft, hright, hcomma] using h

end Schemata.Json
