import Mathlib.Data.List.TakeDrop
import Schemata.Proofs.Text.Blank
import Schemata.Text.Line
import Schemata.Text.Word

/-!
# Words, blanks and lines

Word characters are no blanks (`isBlank_of_isWord`), and characters that end a line are blanks
(`isBlank_of_isLineBreak`). A word at the start of a text is read up to where it ends
(`span_append`), words between separators are found again (`wordsBy_append`), and lines written with
line feeds are read as they are (`splitLines_append`). Breaks inside of a line open others
(`exists_splitLines_break`).
-/

namespace Schemata.Text

variable {p : Char → Bool} {s t w : List Char} {c d : Char}

/-! ## Classes of characters -/

/-- The ranges of word characters and of blanks are apart. -/
theorem wordRanges_apart : ∀ word ∈ wordRanges, ∀ blank ∈ blankRanges,
    word.2 < blank.1 ∨ blank.2 < word.1 := by
  decide +kernel

theorem first_of_mem_wordRanges : ∀ word ∈ wordRanges, 128 ≤ word.1 := by
  decide +kernel

theorem toNat_of_isUpper (h : c.isUpper = true) : 65 ≤ c.toNat ∧ c.toNat ≤ 90 :=
  of_decide_eq_true h

theorem toNat_of_isLower (h : c.isLower = true) : 97 ≤ c.toNat ∧ c.toNat ≤ 122 := by
  have ⟨h₁, h₂⟩ := Bool.and_eq_true_iff.1 h
  exact ⟨of_decide_eq_true h₁, of_decide_eq_true h₂⟩

theorem toNat_of_isAlphanum (h : c.isAlphanum = true) :
    (48 ≤ c.toNat ∧ c.toNat ≤ 57) ∨ (65 ≤ c.toNat ∧ c.toNat ≤ 90) ∨
      (97 ≤ c.toNat ∧ c.toNat ≤ 122) := by
  rcases Bool.or_eq_true_iff.1 h with h | h
  · rcases Bool.or_eq_true_iff.1 h with h | h
    · exact .inr (.inl (toNat_of_isUpper h))
    · exact .inr (.inr (toNat_of_isLower h))
  · exact .inl (Char.isDigit_iff_toNat.1 h)

theorem toNat_lt_of_toUpper (h : c.toUpper.toNat < 128) : c.toNat < 128 := by
  unfold Char.toUpper at h
  split at h
  · rename_i hrange
    exact Nat.lt_of_le_of_lt (UInt32.le_iff_toNat_le.1 hrange.2) (by decide)
  · exact h

/-- What holds of the ASCII characters, tried one by one. -/
theorem forall_ascii {P : Char → Prop} (hall : ∀ n ∈ List.range 128, P (Char.ofNat n)) :
    ∀ c : Char, c.toNat < 128 → P c := by
  intro c h
  have hc := hall c.toNat (List.mem_range.2 h)
  rwa [Char.ofNat_toNat] at hc

/-- **Word characters are no blanks.** -/
theorem isBlank_of_isWord (h : isWord c = true) : isBlank c = false := by
  by_contra hblank
  obtain ⟨blank, hmem, h₁, h₂⟩ := inRanges_iff.1 (by simpa [isBlank] using hblank)
  unfold isWord at h
  split at h
  · have hcode : (48 ≤ c.toNat ∧ c.toNat ≤ 57) ∨ (65 ≤ c.toNat ∧ c.toNat ≤ 90) ∨
        (97 ≤ c.toNat ∧ c.toNat ≤ 122) ∨ c.toNat = 95 := by
      rcases Bool.or_eq_true_iff.1 h with h | h
      · have hcode := toNat_of_isAlphanum h
        omega
      · obtain rfl := beq_iff_eq.1 h
        exact .inr (.inr (.inr rfl))
    have hlow : ∀ blank ∈ blankRanges, blank.2 < 33 ∨ 127 < blank.1 := by decide
    rcases hlow blank hmem with hlow | hlow <;> omega
  · obtain ⟨word, hword, h₃, h₄⟩ := inRanges_iff.1 h
    rcases wordRanges_apart word hword blank hmem with hlt | hlt <;> omega

/-- **Characters that end a line are blanks.** -/
theorem isBlank_of_isLineBreak (h : isLineBreak c = true) : isBlank c = true := by
  have hall : ∀ c ∈ lineBreaks, isBlank c = true := List.all_eq_true.1 (by decide)
  exact hall c (by simpa [isLineBreak] using h)

theorem isLineBreak_of_isBlank_eq_false (h : isBlank c = false) : isLineBreak c = false := by
  by_contra hbreak
  rw [isBlank_of_isLineBreak (by simpa using hbreak)] at h
  contradiction

theorem bne_of_notMem (h : d ∉ s) : ∀ c ∈ s, (c != d) = true := fun _ hc =>
  bne_iff_ne.2 fun heq => h (heq ▸ hc)

/-- A character of a class is not one outside of it. -/
theorem ne_of_class (hc : p c = true) (hd : p d = false) : c ≠ d := by
  rintro rfl
  rw [hc] at hd
  contradiction

/-! ## Reading words -/

/-- What belongs to a class is read up to where it ends. -/
theorem span_append (hw : ∀ c ∈ w, p c = true) (ht : ∀ c ∈ t.head?, p c = false) :
    (w ++ t).span p = (w, t) := by
  rw [List.span_eq_takeWhile_dropWhile, List.takeWhile_append_of_pos hw,
    List.dropWhile_append_of_pos hw, dropWhile_eq_self ht]
  cases t with
  | nil => simp
  | cons c t => simp [ht c rfl]

theorem mem_span_fst (h : c ∈ (s.span p).1) : p c = true := by
  rw [List.span_eq_takeWhile_dropWhile] at h
  exact List.mem_takeWhile_imp h

theorem span_eq_append (p : Char → Bool) (s : List Char) : (s.span p).1 ++ (s.span p).2 = s := by
  rw [List.span_eq_takeWhile_dropWhile, List.takeWhile_append_dropWhile]

theorem wordsBy_go_append (hw : ∀ c ∈ w, p c = false) (hd : p d = true) :
    wordsBy.go p (w ++ d :: s) = w :: wordsBy.go p s := by
  induction w with
  | nil => rw [List.nil_append, wordsBy.go, if_pos hd]
  | cons c w ih =>
    rw [List.cons_append, wordsBy.go, if_neg (by simp [hw c (by simp)]),
      ih fun c' hc' => hw c' (by simp [hc'])]

/-- A word between separators is one of the words of a text. -/
theorem wordsBy_append (hw : ∀ c ∈ w, p c = false) (hne : w ≠ []) (hd : p d = true) :
    wordsBy p (w ++ d :: s) = w :: wordsBy p s := by
  rw [wordsBy, wordsBy_go_append hw hd, List.filter_cons_of_pos (by simpa using hne), wordsBy]

theorem wordsBy_cons (hd : p d = true) : wordsBy p (d :: s) = wordsBy p s := by
  rw [wordsBy, wordsBy.go, if_pos hd, List.filter_cons_of_neg (by simp), wordsBy]

theorem wordsBy_of_forall (hw : ∀ c ∈ w, p c = false) (hne : w ≠ []) : wordsBy p w = [w] := by
  have hgo : wordsBy.go p w = [w] := by
    induction w with
    | nil => rfl
    | cons c w ih =>
      rw [wordsBy.go, if_neg (by simp [hw c (by simp)])]
      cases w with
      | nil => rfl
      | cons c' w => rw [ih (fun d hd => hw d (by simp [hd])) (by simp)]
  rw [wordsBy, hgo, List.filter_cons_of_pos (by simpa using hne), List.filter_nil]

/-! ## Camel case -/

/-- Where nothing is a capital, no word starts inside of a text. -/
theorem splitCamel_eq_self (h : ∀ c ∈ s, c.isUpper = false) : splitCamel s = s := by
  induction s using splitCamel.induct with
  | case1 a b s hcamel ih =>
    rw [Bool.and_eq_true, h b (by simp)] at hcamel
    exact absurd hcamel.2 (by simp)
  | case2 a b s hcamel ih => rw [splitCamel, if_neg hcamel, ih fun c hc => h c (by simp_all)]
  | case3 s hshort =>
    match s with
    | [] => rfl
    | [c] => rfl
    | a :: b :: s => exact absurd rfl (hshort a b s)

/-- The characters of a text taken apart are those of the text, but for underscores. -/
theorem mem_splitCamel_iff (hc : c ≠ '_') : c ∈ splitCamel s ↔ c ∈ s := by
  induction s using splitCamel.induct with
  | case1 a b s hcamel ih =>
    rw [splitCamel, if_pos hcamel, List.mem_cons, List.mem_cons, ih, List.mem_cons (b := a),
      or_iff_right hc]
  | case2 a b s hcamel ih =>
    rw [splitCamel, if_neg hcamel, List.mem_cons, ih, List.mem_cons (b := a)]
  | case3 s hshort =>
    match s with
    | [] => rfl
    | [c] => rfl
    | a :: b :: s => exact absurd rfl (hshort a b s)

/-! ## Lines -/

theorem isLineBreak_of_all (h : (s.all fun c => !isLineBreak c) = true) :
    ∀ c ∈ s, isLineBreak c = false := by
  simpa using h

theorem splitLines_cons (hc : isLineBreak c = false) :
    splitLines (c :: s) = (c :: (splitLines s).headD []) :: (splitLines s).tail := by
  have hne : c ≠ '\r' := by
    rintro rfl
    exact absurd hc (by decide)
  rw [splitLines]
  · rw [if_neg (by simp [hc])]
    cases splitLines s <;> rfl
  · exact fun _ h _ => hne h

/-- A line with a line feed behind it is one of the lines of a text. -/
theorem splitLines_append (hw : ∀ c ∈ w, isLineBreak c = false) :
    splitLines (w ++ '\n' :: s) = w :: splitLines s := by
  induction w with
  | nil =>
    rw [List.nil_append, splitLines]
    · rfl
    · exact fun _ h _ => absurd h (by decide)
  | cons c w ih =>
    rw [List.cons_append, splitLines_cons (hw c (by simp)), ih fun d hd => hw d (by simp [hd]),
      List.headD_cons, List.tail_cons]

/-- A text without breaks is a line. -/
theorem splitLines_eq_singleton (hne : s ≠ []) (h : ∀ c ∈ s, isLineBreak c = false) :
    splitLines s = [s] := by
  induction s with
  | nil => contradiction
  | cons c s ih =>
    rw [splitLines_cons (h c (by simp))]
    cases s with
    | nil => rfl
    | cons d s => rw [ih (by simp) fun c' hc' => h c' (by simp [hc'])]; rfl

/-- A break ends the line before it; a line feed behind a carriage return belongs to the break. -/
theorem exists_splitLines_break (hw : ∀ c ∈ w, isLineBreak c = false)
    (hd : isLineBreak d = true) (s : List Char) :
    ∃ rest, (s = rest ∨ s = '\n' :: rest) ∧ splitLines (w ++ d :: s) = w :: splitLines rest := by
  induction w with
  | nil =>
    rw [List.nil_append]
    by_cases hfeed : d = '\r' ∧ ∃ rest, s = '\n' :: rest
    · obtain ⟨rfl, rest, rfl⟩ := hfeed
      exact ⟨rest, .inr rfl, by rw [splitLines]⟩
    · refine ⟨s, .inl rfl, ?_⟩
      rw [splitLines, if_pos hd]
      exact fun rest hd hs => hfeed ⟨hd, rest, hs⟩
  | cons c w ih =>
    obtain ⟨rest, hrest, heq⟩ := ih fun c' hc' => hw c' (by simp [hc'])
    refine ⟨rest, hrest, ?_⟩
    rw [List.cons_append, splitLines_cons (hw c (by simp)), heq, List.headD_cons, List.tail_cons]

theorem splitLines_ne_nil (h : s ≠ []) : splitLines s ≠ [] := by
  unfold splitLines
  split
  · contradiction
  · simp
  · split
    · simp
    · split <;> simp

/-- A line feed behind a text ends its last line, and the lines of what follows are their own. -/
theorem splitLines_append_cons (w s : List Char) :
    splitLines (w ++ '\n' :: s) = splitLines (w ++ ['\n']) ++ splitLines s := by
  have hline : ∀ {d : Char} {w : List Char}, isLineBreak d = false →
      splitLines (w ++ '\n' :: s) = splitLines (w ++ ['\n']) ++ splitLines s →
      splitLines (d :: w ++ '\n' :: s) = splitLines (d :: w ++ ['\n']) ++ splitLines s := by
    intro d w hd ih
    obtain ⟨first, lines, hlines⟩ :=
      List.exists_cons_of_ne_nil (splitLines_ne_nil (s := w ++ ['\n']) (by simp))
    rw [List.cons_append, List.cons_append, splitLines_cons hd, splitLines_cons hd, ih, hlines]
    rfl
  induction w using splitLines.induct with
  | case1 =>
    rw [splitLines_append (w := []) (by simp), splitLines_append (w := []) (by simp)]
    rfl
  | case2 w ih => simp only [List.cons_append, splitLines, ih]
  | case3 d w hnot hbreak ih =>
    by_cases hreturn : d = '\r' ∧ w = []
    · obtain ⟨rfl, rfl⟩ := hreturn
      simp [splitLines]
    · -- the line feed belongs to the break only if nothing stands between them
      have hnot' : ∀ t rest, d = '\r' → w ++ '\n' :: t = '\n' :: rest → False := by
        intro t rest hd heq
        cases w with
        | nil => exact hreturn ⟨hd, rfl⟩
        | cons c w => exact hnot w hd (by rw [(List.cons.inj heq).1])
      rw [List.cons_append, splitLines, if_pos hbreak, ih, List.cons_append, splitLines,
        if_pos hbreak, List.cons_append]
      · exact hnot' []
      · exact hnot' s
  | case4 d w hnot hbreak hnil ih => exact hline (by simpa using hbreak) ih
  | case5 d w hnot hbreak first rest hcons ih => exact hline (by simpa using hbreak) ih

/-- A line feed at the end opens no line. -/
theorem splitLines_concat_feed (hc : isLineBreak c = false) (w : List Char) :
    splitLines (w ++ [c, '\n']) = splitLines (w ++ [c]) := by
  have hline : ∀ {d : Char} {w : List Char}, isLineBreak d = false →
      splitLines (w ++ [c, '\n']) = splitLines (w ++ [c]) →
      splitLines (d :: w ++ [c, '\n']) = splitLines (d :: w ++ [c]) := by
    intro d w hd ih
    rw [List.cons_append, List.cons_append, splitLines_cons hd, splitLines_cons hd, ih]
  induction w using splitLines.induct with
  | case1 =>
    have hfeed : splitLines ['\n'] = [] :: splitLines [] :=
      splitLines_append (w := []) (s := []) (by simp)
    rw [List.nil_append, List.nil_append, splitLines_cons hc, splitLines_cons hc, hfeed,
      splitLines_nil]
    rfl
  | case2 w ih => simp only [List.cons_append, splitLines, ih]
  | case3 d w hnot hbreak ih =>
    have hnot' : ∀ t rest, d = '\r' → w ++ c :: t = '\n' :: rest → False := by
      intro t rest hd heq
      cases w with
      | nil =>
        rw [(List.cons.inj heq).1] at hc
        exact absurd hc (by decide)
      | cons d' w => exact hnot w hd (by rw [(List.cons.inj heq).1])
    rw [List.cons_append, splitLines, if_pos hbreak, ih, List.cons_append, splitLines,
      if_pos hbreak]
    · exact hnot' []
    · exact hnot' ['\n']
  | case4 d w hnot hbreak hnil ih => exact hline (by simpa using hbreak) ih
  | case5 d w hnot hbreak first rest hcons ih => exact hline (by simpa using hbreak) ih

/-- A text that does not end with a break keeps its lines if a line feed and more follows. -/
theorem splitLines_append_feed (hne : w ≠ []) (hlast : ∀ c ∈ w.getLast?, isLineBreak c = false)
    (s : List Char) : splitLines (w ++ '\n' :: s) = splitLines w ++ splitLines s := by
  obtain ⟨w, c, rfl⟩ := w.eq_nil_or_concat.resolve_left hne
  rw [List.concat_eq_append] at hlast ⊢
  rw [splitLines_append_cons, List.append_assoc, List.singleton_append,
    splitLines_concat_feed (hlast c (by simp))]

/-- Lines hold no character that ends a line. -/
theorem isLineBreak_of_mem_splitLines {line : List Char} (hline : line ∈ splitLines s)
    (hc : c ∈ line) : isLineBreak c = false := by
  induction s using splitLines.induct generalizing line with
  | case1 => simp at hline
  | case2 s ih =>
    rw [splitLines] at hline
    rcases List.mem_cons.1 hline with rfl | hline
    · contradiction
    · exact ih hline hc
  | case3 d s hnot hbreak ih =>
    rw [splitLines, if_pos hbreak] at hline
    · rcases List.mem_cons.1 hline with rfl | hline
      · contradiction
      · exact ih hline hc
    · exact hnot
  | case4 d s hnot hbreak hnil ih =>
    rw [splitLines_cons (by simpa using hbreak), hnil, List.headD_nil, List.tail_nil]
      at hline
    rw [List.mem_singleton.1 hline, List.mem_singleton] at hc
    rw [hc]
    simpa using hbreak
  | case5 d s hnot hbreak first rest hcons ih =>
    rw [splitLines_cons (by simpa using hbreak), hcons, List.headD_cons,
      List.tail_cons] at hline
    rcases List.mem_cons.1 hline with rfl | hline
    · rcases List.mem_cons.1 hc with rfl | hc
      · simpa using hbreak
      · exact ih (by rw [hcons]; exact List.mem_cons_self) hc
    · exact ih (by rw [hcons]; exact List.mem_cons_of_mem _ hline) hc

/-- Characters other than breaks are on the lines. -/
theorem exists_mem_splitLines (hc : c ∈ s) (hnot : isLineBreak c = false) :
    ∃ line ∈ splitLines s, c ∈ line := by
  induction s using splitLines.induct with
  | case1 => contradiction
  | case2 s ih =>
    have hmem : c ∈ s := by
      rcases List.mem_cons.1 hc with rfl | hc
      · exact absurd hnot (by decide)
      · rcases List.mem_cons.1 hc with rfl | hc
        · exact absurd hnot (by decide)
        · exact hc
    obtain ⟨line, hline, hmem⟩ := ih hmem
    rw [splitLines]
    exact ⟨line, List.mem_cons_of_mem _ hline, hmem⟩
  | case3 d s hno hbreak ih =>
    have hmem : c ∈ s := by
      rcases List.mem_cons.1 hc with rfl | hc
      · rw [hnot] at hbreak
        contradiction
      · exact hc
    obtain ⟨line, hline, hmem⟩ := ih hmem
    rw [splitLines, if_pos hbreak]
    · exact ⟨line, List.mem_cons_of_mem _ hline, hmem⟩
    · exact hno
  | case4 d s hno hbreak hnil ih =>
    rw [splitLines_cons (by simpa using hbreak), hnil]
    rcases List.mem_cons.1 hc with rfl | hc
    · exact ⟨[c], by simp⟩
    · obtain ⟨line, hline, -⟩ := ih hc
      simp [hnil] at hline
  | case5 d s hno hbreak first rest hcons ih =>
    rw [splitLines_cons (by simpa using hbreak), hcons, List.headD_cons, List.tail_cons]
    rcases List.mem_cons.1 hc with rfl | hc
    · exact ⟨c :: first, by simp⟩
    · obtain ⟨line, hline, hmem⟩ := ih hc
      rw [hcons] at hline
      rcases List.mem_cons.1 hline with rfl | hline
      · exact ⟨d :: line, List.mem_cons_self, List.mem_cons_of_mem _ hmem⟩
      · exact ⟨line, List.mem_cons_of_mem _ hline, hmem⟩

theorem notMem_intercalate {c : Char} {separator : String} {lines : List String}
    (hseparator : c ∉ separator.toList) (hlines : ∀ line ∈ lines, c ∉ line.toList) :
    c ∉ (separator.intercalate lines).toList := by
  rw [String.toList_intercalate]
  induction lines with
  | nil => simp
  | cons line lines ih =>
    have ⟨hline, hrest⟩ := List.forall_mem_cons.1 hlines
    cases lines with
    | nil => simpa using hline
    | cons next lines =>
      rw [List.map_cons, List.map_cons, List.intercalate_cons_cons, ← List.map_cons, List.mem_append,
        List.mem_append]
      exact not_or.2 ⟨not_or.2 ⟨hline, hseparator⟩, ih hrest⟩

end Schemata.Text
