import Schemata.Proofs.Diagram.Line

/-!
# Reading attributes in their canonical form

An attribute as reading gives it is an `IsAttribute`: a type that starts with a letter, a name,
marks that do not repeat, and a comment without quotation marks (`readAttribute_spec`). From its
text it is read back (`readAttribute_render`), and its text is nothing else and is not cut
(`of_render_attribute`, `cut_render_attribute`).
-/

namespace Schemata.Diagram

open Text (strip isBlank isWord isLineBreak ne_of_class)

variable {s t : List Char} {c : Char} {a : Attribute}

/-! ## Marks -/

/-- Once repetitions are erased there are none. -/
theorem eraseDups_eraseDups (marks : List Mark) : marks.eraseDups.eraseDups = marks.eraseDups := by
  induction h : marks.length using Nat.strong_induction_on generalizing marks with
  | _ n ih =>
    cases marks with
    | nil => rfl
    | cons mark marks =>
      have hlength : (marks.filter fun m => !m == mark).length < n := by
        have := List.length_filter_le (fun m => !m == mark) marks
        rw [← h, List.length_cons]
        omega
      have hnone : ((marks.filter fun m => !m == mark).eraseDups.filter fun m => !m == mark) =
          (marks.filter fun m => !m == mark).eraseDups := by
        refine List.filter_eq_self.2 fun m hm => ?_
        exact (List.mem_filter.1 (List.mem_eraseDups.1 hm)).2
      rw [List.eraseDups_cons, List.eraseDups_cons, hnone, ih _ hlength _ rfl]

/-- Whether a character separates marks. -/
def isSeparator (c : Char) : Bool :=
  isBlank c || c == ','

theorem readMark_chars (mark : Mark) : readMark mark.chars = some mark := by
  cases mark <;> decide

theorem isSeparator_mark (mark : Mark) : ∀ c ∈ mark.chars, isSeparator c = false := by
  cases mark <;> exact Text.eq_false_of_any (by decide)

theorem mark_ne_nil (mark : Mark) : mark.chars ≠ [] := by
  cases mark <;> decide

/-- The words of the text of marks are those of the marks. -/
theorem wordsBy_renderMarks (marks : List Mark) (ht : ∀ c ∈ t, isSeparator c = true) :
    Text.wordsBy isSeparator (renderMarks marks ++ t) = marks.map Mark.chars := by
  have hsep : ∀ t : List Char, (∀ c ∈ t, isSeparator c = true) →
      Text.wordsBy isSeparator t = [] := by
    intro t ht
    induction t with
    | nil => rfl
    | cons c t ih => rw [Text.wordsBy_cons (ht c (by simp)), ih fun d hd => ht d (by simp [hd])]
  induction marks using renderMarks.induct with
  | case1 => exact hsep t ht
  | case2 mark =>
    rw [renderMarks]
    cases t with
    | nil =>
      rw [List.append_nil, Text.wordsBy_of_forall (isSeparator_mark mark) (mark_ne_nil mark)]
      rfl
    | cons c t =>
      rw [Text.wordsBy_append (isSeparator_mark mark) (mark_ne_nil mark) (ht c (by simp)),
        hsep t fun d hd => ht d (by simp [hd])]
      rfl
  | case3 mark marks hne ih =>
    rw [renderMarks, List.append_assoc, List.append_assoc, List.cons_append,
      Text.wordsBy_append (isSeparator_mark mark) (mark_ne_nil mark) (by decide), List.cons_append,
      Text.wordsBy_cons (by decide), List.nil_append, ih, List.map_cons]
    exact hne

/-- The text of the marks of an attribute. -/
def Attribute.marksText (a : Attribute) : List Char :=
  if a.marks.isEmpty then [] else ' ' :: renderMarks a.marks

/-- The text of the comment of an attribute. -/
def Attribute.commentText (a : Attribute) : List Char :=
  match a.comment with
  | some comment => ' ' :: '"' :: (comment ++ ['"'])
  | none => []

theorem Attribute.render_eq (a : Attribute) :
    a.render = a.type ++ ' ' :: (a.name ++ (a.marksText ++ a.commentText)) := by
  rw [Attribute.render, Attribute.marksText, Attribute.commentText]
  cases a.comment <;> simp

theorem readMarks_marksText (hmarks : a.marks.eraseDups = a.marks)
    (ht : ∀ c ∈ t, isSeparator c = true) : readMarks (a.marksText ++ t) = a.marks := by
  have hwords : Text.wordsBy isSeparator (a.marksText ++ t) = a.marks.map Mark.chars := by
    rw [Attribute.marksText]
    split
    · rename_i hempty
      rw [List.isEmpty_iff.1 hempty]
      exact wordsBy_renderMarks [] ht
    · rw [List.cons_append, Text.wordsBy_cons (by decide), wordsBy_renderMarks a.marks ht]
  have hread : (a.marks.map Mark.chars).filterMap readMark = a.marks := by
    rw [List.filterMap_map, Function.comp_def]
    simp only [readMark_chars, List.filterMap_some]
  rw [readMarks]
  exact (congrArg (fun words => (words.filterMap readMark).eraseDups) hwords).trans
    ((congrArg List.eraseDups hread).trans hmarks)

/-- The characters of the text of marks. -/
theorem mem_marksText (h : c ∈ a.marksText) : c ∈ [' ', ',', 'P', 'F', 'U', 'K'] := by
  have hmark : ∀ mark : Mark, ∀ c ∈ mark.chars, c ∈ [' ', ',', 'P', 'F', 'U', 'K'] := by
    intro mark
    cases mark <;> simp [Mark.chars]
  have hmarks : ∀ (marks : List Mark), ∀ c ∈ renderMarks marks,
      c ∈ [' ', ',', 'P', 'F', 'U', 'K'] := by
    intro marks
    induction marks using renderMarks.induct with
    | case1 => simp [renderMarks]
    | case2 mark => exact hmark mark
    | case3 mark marks hne ih =>
      intro c hc
      rw [renderMarks] at hc
      · rcases List.mem_append.1 hc with hc | hc
        · rcases List.mem_append.1 hc with hc | hc
          · exact hmark mark c hc
          · rcases List.mem_cons.1 hc with rfl | hc
            · decide
            · rw [List.mem_singleton.1 hc]
              decide
        · exact ih c hc
      · exact hne
  unfold Attribute.marksText at h
  split at h
  · contradiction
  · rcases List.mem_cons.1 h with rfl | h
    · decide
    · exact hmarks _ c h

/-! ## What reading gives -/

/-- An attribute as reading gives it. -/
structure IsAttribute (a : Attribute) : Prop where
  startsType : ∃ c, a.type.head? = some c ∧ (c.isAlpha || c == '_') = true
  isTypeChar : ∀ c ∈ a.type, isTypeChar c = true
  name : IsName a.name
  marks : a.marks.eraseDups = a.marks
  comment : ∀ comment, a.comment = some comment →
    ∀ c ∈ comment, c ≠ '"' ∧ isLineBreak c = false

theorem firstQuoted?_spec {before inside behind : List Char}
    (h : firstQuoted? s = some (before, inside, behind)) : ∀ c ∈ inside, c ≠ '"' ∧ c ∈ s := by
  unfold firstQuoted? at h
  dsimp only at h
  split at h
  · contradiction
  · obtain ⟨-, hinside, -⟩ := Prod.mk.inj (Option.some.inj h) |>.imp_right Prod.mk.inj
    intro c hc
    rw [← hinside] at hc
    have hquote : (c != '"') = true := Text.mem_span_fst (p := (· != '"')) hc
    refine ⟨by simpa using hquote, ?_⟩
    have hopened : c ∈ ((s.span (· != '"')).2.drop 1) := by
      rw [← Text.span_eq_append (· != '"') ((s.span (· != '"')).2.drop 1)]
      exact List.mem_append_left _ hc
    rw [← Text.span_eq_append (· != '"') s]
    exact List.mem_append_right _ (List.drop_subset 1 _ hopened)

/-- **What reading an attribute gives.** -/
theorem readAttribute_spec (h : readAttribute s = some a)
    (hs : ∀ c ∈ s, isLineBreak c = false) : IsAttribute a := by
  unfold readAttribute at h
  split at h
  · contradiction
  · dsimp only at h
    set type := (s.span isTypeChar).1 with htype
    set afterType := (s.span isTypeChar).2 with hafter
    have hsplit : type ++ afterType = s := Text.span_eq_append isTypeChar s
    have hrest : ∀ c ∈ (Text.spanWord (skipBlanks afterType)).2, isLineBreak c = false := by
      intro c hc
      refine hs c (hsplit ▸ List.mem_append_right _ (skipBlanks_subset _ ?_))
      rw [← Text.span_eq_append isWord (skipBlanks afterType)]
      exact List.mem_append_right _ hc
    split at h
    · rename_i hforms
      simp only [Bool.and_eq_true, Bool.not_eq_true', List.isEmpty_eq_false_iff] at hforms
      obtain ⟨⟨⟨hstarts, -⟩, hne⟩, -⟩ := hforms
      have hstarts : ∃ c, type.head? = some c ∧ (c.isAlpha || c == '_') = true := by
        cases hhead : type.head? with
        | none => simp [hhead] at hstarts
        | some c => exact ⟨c, rfl, by simpa [hhead] using hstarts⟩
      have htypeChars : ∀ c ∈ type, isTypeChar c = true := fun c hc => Text.mem_span_fst hc
      split at h
      · rename_i before comment behind hquoted
        obtain rfl := Option.some.inj h
        refine ⟨hstarts, htypeChars, IsName.of_spanWord hne, eraseDups_eraseDups _, ?_⟩
        intro comment' hcomment c hc
        obtain rfl := Option.some.inj hcomment
        obtain ⟨hquote, hmem⟩ := firstQuoted?_spec hquoted c hc
        exact ⟨hquote, hrest c hmem⟩
      · obtain rfl := Option.some.inj h
        exact ⟨hstarts, htypeChars, IsName.of_spanWord hne, eraseDups_eraseDups _, by simp⟩
    · contradiction

/-! ## The text of an attribute -/

/-- Whether a character may stand in the text of an attribute in front of the comment. -/
def isAttributeChar (c : Char) : Bool :=
  isTypeChar c || c == ' ' || c == ','

theorem isTypeChar_of_isWord (h : isWord c = true) : isTypeChar c = true := by
  simp [isTypeChar, h]

theorem isBlank_of_isTypeChar (h : isTypeChar c = true) : isBlank c = false := by
  simp only [isTypeChar, Bool.or_eq_true, beq_iff_eq] at h
  rcases h with (((h | rfl) | rfl) | rfl) | rfl
  · exact Text.isBlank_of_isWord h
  all_goals decide

theorem isLineBreak_of_isAttributeChar (h : isAttributeChar c = true) : isLineBreak c = false := by
  simp only [isAttributeChar, Bool.or_eq_true, beq_iff_eq] at h
  rcases h with (h | rfl) | rfl
  · exact Text.isLineBreak_of_isBlank_eq_false (isBlank_of_isTypeChar h)
  all_goals decide

theorem isAttributeChar_marksText (h : c ∈ a.marksText) : isAttributeChar c = true := by
  have hall : ∀ c ∈ [' ', ',', 'P', 'F', 'U', 'K'], isAttributeChar c = true :=
    List.all_eq_true.1 (by decide)
  exact hall c (mem_marksText h)

/-- The text of an attribute behind its type and in front of its comment. -/
theorem isAttributeChar_rest (h : IsAttribute a) :
    ∀ c ∈ ' ' :: (a.name ++ a.marksText), isAttributeChar c = true := by
  intro c hc
  rcases List.mem_cons.1 hc with rfl | hc
  · decide
  · rcases List.mem_append.1 hc with hc | hc
    · simp [isAttributeChar, isTypeChar_of_isWord (h.name.isWord c hc)]
    · exact isAttributeChar_marksText hc

theorem isAttributeChar_type (h : IsAttribute a) (hc : c ∈ a.type) : isAttributeChar c = true := by
  simp [isAttributeChar, h.isTypeChar c hc]

/-- The two characters at the start of a text with a comment behind it. -/
theorem isAttributeChar_take (ht : t ≠ []) (hchars : ∀ c ∈ t, isAttributeChar c = true) :
    ∀ c ∈ (t ++ a.commentText).take 2, isAttributeChar c = true := by
  have hspace : ∀ c ∈ a.commentText.take 1, isAttributeChar c = true := by
    rw [Attribute.commentText]
    cases a.comment with
    | none => simp
    | some comment =>
      simp only [List.take_succ_cons, List.take_zero, List.mem_singleton]
      rintro c rfl
      decide
  intro c hc
  match t with
  | [] => contradiction
  | [d] =>
    rcases List.mem_cons.1 hc with rfl | hc
    · exact hchars c (by simp)
    · exact hspace c hc
  | d :: e :: t =>
    simp only [List.cons_append, List.take_succ_cons, List.take_zero] at hc
    rcases List.mem_cons.1 hc with rfl | hc
    · exact hchars c (by simp)
    · rw [List.mem_singleton.1 hc]
      exact hchars e (by simp)

/-- Braces inside of a quoted part do not cut. -/
theorem markBraces_quoted (hs : '"' ∉ s) :
    (markBraces true (s ++ ['"'])).any (·.2) = false := by
  induction s with
  | nil => rfl
  | cons c s ih =>
    have hc : (c != '"') = true := Text.bne_of_notMem hs c List.mem_cons_self
    rw [List.cons_append, markBraces, if_pos rfl, hc, List.any_cons, Bool.false_or]
    exact ih fun hmem => hs (List.mem_cons_of_mem _ hmem)

theorem hasBraces_commentText (h : IsAttribute a) : hasBraces a.commentText = false := by
  unfold Attribute.commentText
  split
  · rename_i comment hcomment
    have hquote : '"' ∉ comment := fun hmem => (h.comment comment hcomment _ hmem).1 rfl
    have hcontains : (comment ++ ['"']).contains '"' = true := by simp
    rw [hasBraces, markBraces, if_neg (by simp), if_neg (by decide), markBraces, if_neg (by simp),
      if_pos rfl, hcontains, List.any_cons, List.any_cons, markBraces_quoted hquote]
    rfl
  · rfl

theorem hasBraces_render (h : IsAttribute a) : hasBraces a.render = false := by
  have hchars : ∀ c ∈ a.type ++ ' ' :: (a.name ++ a.marksText), isAttributeChar c = true := by
    intro c hc
    rcases List.mem_append.1 hc with hc | hc
    · exact isAttributeChar_type h hc
    · exact isAttributeChar_rest h c hc
  have hquote : '"' ∉ a.type ++ ' ' :: (a.name ++ a.marksText) := fun hmem =>
    absurd (hchars _ hmem) (by decide)
  have hsplit : a.render = (a.type ++ ' ' :: (a.name ++ a.marksText)) ++ a.commentText := by
    rw [Attribute.render_eq]
    simp
  rw [hsplit, hasBraces_prepend hquote, hasBraces_commentText h, Bool.or_false]
  exact hasBraces_of_forall fun c hc =>
    ⟨ne_of_class (hchars c hc) (by decide), ne_of_class (hchars c hc) (by decide),
      ne_of_class (hchars c hc) (by decide)⟩

/-! ## What an attribute is not -/

/-- The text of an attribute behind the word with which its type starts. -/
def Attribute.renderRest (a : Attribute) : List Char :=
  a.type.dropWhile isWord ++ ' ' :: (a.name ++ (a.marksText ++ a.commentText))

theorem render_eq_takeWhile (a : Attribute) :
    a.render = a.type.takeWhile isWord ++ a.renderRest := by
  have hsplit : a.type.takeWhile isWord ++ a.type.dropWhile isWord = a.type :=
    List.takeWhile_append_dropWhile
  rw [Attribute.renderRest, ← List.append_assoc, hsplit, Attribute.render_eq]

theorem isWord_takeWhile (a : Attribute) : ∀ c ∈ a.type.takeWhile isWord, isWord c = true :=
  fun _ hc => List.mem_takeWhile_imp hc

theorem head?_renderRest (a : Attribute) : ∀ c ∈ a.renderRest.head?, isWord c = false := by
  intro c hc
  rw [Attribute.renderRest] at hc
  have hnot := List.head?_dropWhile_not isWord a.type
  cases hrest : a.type.dropWhile isWord with
  | nil =>
    rw [hrest] at hc
    obtain rfl : ' ' = c := Option.some.inj hc
    decide
  | cons d rest =>
    rw [hrest] at hc hnot
    obtain rfl : d = c := Option.some.inj hc
    exact hnot

theorem isAttributeChar_renderRest (h : IsAttribute a) :
    ∀ c ∈ (skipBlanks a.renderRest).take 2, isAttributeChar c = true := by
  have hrest := isAttributeChar_rest h
  rw [Attribute.renderRest]
  cases htype : a.type.dropWhile isWord with
  | nil =>
    rw [List.nil_append, skipBlanks_space, h.name.skipBlanks, ← List.append_assoc]
    refine isAttributeChar_take ?_ fun c hc => hrest c (List.mem_cons_of_mem _ hc)
    exact List.append_ne_nil_of_left_ne_nil h.name.ne_nil _
  | cons d rest =>
    have hmem : ∀ c ∈ d :: rest, c ∈ a.type := htype ▸ List.dropWhile_subset _
    have hd : isBlank d = false := isBlank_of_isTypeChar (h.isTypeChar d (hmem d (by simp)))
    rw [List.cons_append, skipBlanks_cons hd, ← List.cons_append, ← List.append_assoc,
      ← List.cons_append, ← List.append_assoc]
    refine isAttributeChar_take (by simp) fun c hc => ?_
    rcases List.mem_append.1 hc with hc | hc
    · exact isAttributeChar_type h (hmem c hc)
    · exact hrest c hc

theorem notMem_symbols (h : isAttributeChar c = true) : c ∉ ['|', '\x7b', '\x7d'] := by
  have hnone : ∀ c ∈ ['|', '\x7b', '\x7d'], isAttributeChar c = false :=
    Text.eq_false_of_any (by decide)
  intro hmem
  rw [hnone c hmem] at h
  contradiction

/-- **The text of an attribute is no relationship**: no symbol stands behind its first word, not
even with the last letter of the word in front. -/
theorem readLink_render_attribute (h : IsAttribute a) : readLink a.render = none := by
  rw [render_eq_takeWhile]
  refine readLink_eq_none (isWord_takeWhile a) (head?_renderRest a) ?_ ?_
  · exact readSymbol_eq_none fun c hc => notMem_symbols (isAttributeChar_renderRest h c hc)
  · have hletter : 'o' :: a.renderRest =
        'o' :: (a.type.dropWhile isWord ++ ' ' :: (a.name ++ a.marksText)) ++ a.commentText := by
      simp [Attribute.renderRest]
    rw [hletter]
    refine readSymbol_eq_none fun c hc => notMem_symbols (isAttributeChar_take ?_ ?_ c hc)
    · simp
    · intro d hd
      rcases List.mem_cons.1 hd with rfl | hd
      · decide
      · rcases List.mem_append.1 hd with hd | hd
        · exact isAttributeChar_type h (List.dropWhile_subset _ hd)
        · exact isAttributeChar_rest h d hd

theorem readEntity_render_attribute (h : IsAttribute a) : readEntity a.render = none := by
  rw [render_eq_takeWhile]
  refine readEntity_eq_none (isWord_takeWhile a) (head?_renderRest a) fun heq => ?_
  have hbrace := isAttributeChar_renderRest h '\x7b' (by rw [heq]; simp)
  exact absurd hbrace (by decide)

/-! ## Reading back -/

theorem firstQuoted?_of_notMem (h : '"' ∉ s) : firstQuoted? s = none := by
  have hspan : s.span (· != '"') = (s, []) := by
    simpa using Text.span_append (Text.bne_of_notMem h) (t := []) (by simp)
  rw [firstQuoted?, hspan]
  rfl

theorem firstQuoted?_append (hs : '"' ∉ s) (ht : '"' ∉ t) :
    firstQuoted? (s ++ '"' :: (t ++ ['"'])) = some (s, t, []) := by
  have hspan : (s ++ '"' :: (t ++ ['"'])).span (· != '"') = (s, '"' :: (t ++ ['"'])) :=
    Text.span_append (Text.bne_of_notMem hs) (by simp)
  have hspan' : (t ++ ['"']).span (· != '"') = (t, ['"']) :=
    Text.span_append (Text.bne_of_notMem ht) (by simp)
  rw [firstQuoted?, hspan]
  simp only [List.drop_succ_cons, List.drop_zero, hspan']
  rfl

theorem isLineBreak_render (h : IsAttribute a) : ∀ c ∈ a.render, isLineBreak c = false := by
  intro c hc
  rw [Attribute.render_eq] at hc
  rcases List.mem_append.1 hc with hc | hc
  · exact isLineBreak_of_isAttributeChar (isAttributeChar_type h hc)
  · rw [← List.append_assoc, ← List.cons_append] at hc
    rcases List.mem_append.1 hc with hc | hc
    · exact isLineBreak_of_isAttributeChar (isAttributeChar_rest h c hc)
    · unfold Attribute.commentText at hc
      split at hc
      · rename_i comment hcomment
        rcases List.mem_cons.1 hc with rfl | hc
        · decide
        · rcases List.mem_cons.1 hc with rfl | hc
          · decide
          · rcases List.mem_append.1 hc with hc | hc
            · exact (h.comment comment hcomment c hc).2
            · rw [List.mem_singleton.1 hc]
              decide
      · contradiction

theorem isSingleLine_of_forall (h : ∀ c ∈ s, isLineBreak c = false) : isSingleLine s = true := by
  have hfeed : '\n' ∉ s := fun hmem => absurd (h _ hmem) (by decide)
  have hlast : s.getLast? ≠ some '\n' := fun hlast => hfeed (List.mem_of_getLast? hlast)
  rw [isSingleLine, if_neg hlast]
  simpa using hfeed

/-- Behind the name of an attribute its text has no word character. -/
theorem isWord_head?_rest (a : Attribute) :
    ∀ c ∈ (a.marksText ++ a.commentText).head?, isWord c = false := by
  intro c hc
  rw [Attribute.marksText, Attribute.commentText] at hc
  obtain rfl : ' ' = c := by
    split at hc
    · split at hc
      · exact Option.some.inj hc
      · contradiction
    · exact Option.some.inj hc
  decide

/-- The comment of an attribute is the first quoted part behind its name. -/
theorem firstQuoted?_rest (h : IsAttribute a) : firstQuoted? (a.marksText ++ a.commentText) =
    a.comment.map fun comment => (a.marksText ++ [' '], comment, []) := by
  have hquote : '"' ∉ a.marksText := fun hmem =>
    absurd (isAttributeChar_marksText hmem) (by decide)
  rw [Attribute.commentText]
  cases hcomment : a.comment with
  | none =>
    rw [List.append_nil, firstQuoted?_of_notMem hquote]
    rfl
  | some comment =>
    have hquote' : '"' ∉ a.marksText ++ [' '] := by simpa using hquote
    have hinside : '"' ∉ comment := fun hmem => (h.comment comment hcomment _ hmem).1 rfl
    have htext : a.marksText ++ ' ' :: '"' :: (comment ++ ['"']) =
        (a.marksText ++ [' ']) ++ '"' :: (comment ++ ['"']) := by simp
    rw [htext, firstQuoted?_append hquote' hinside]
    rfl

/-- **An attribute is read back from its text.** -/
theorem readAttribute_render (h : IsAttribute a) : readAttribute a.render = some a := by
  have htype : a.render.span isTypeChar =
      (a.type, ' ' :: (a.name ++ (a.marksText ++ a.commentText))) := by
    rw [Attribute.render_eq]
    refine Text.span_append h.isTypeChar fun c hc => ?_
    obtain rfl : ' ' = c := Option.some.inj hc
    decide
  have hname : Text.spanWord (skipBlanks (' ' :: (a.name ++ (a.marksText ++ a.commentText)))) =
      (a.name, a.marksText ++ a.commentText) := by
    rw [skipBlanks_space, h.name.skipBlanks]
    exact h.name.spanWord (isWord_head?_rest a)
  have hstarts : (a.type.head?.any fun c => c.isAlpha || c == '_') = true := by
    obtain ⟨c, hc, hstarts⟩ := h.startsType
    rw [hc]
    exact hstarts
  have hne : a.name.isEmpty = false := List.isEmpty_eq_false_iff.2 h.name.ne_nil
  have hsingle : isSingleLine (a.marksText ++ a.commentText) = true := by
    refine isSingleLine_of_forall fun c hc => isLineBreak_render h c ?_
    rw [Attribute.render_eq]
    exact List.mem_append_right _ (List.mem_cons_of_mem _ (List.mem_append_right _ hc))
  have hblank : isBlank ' ' = true := by decide
  rw [readAttribute, if_neg (by simp [hasBraces_render h]), htype]
  simp only [hname, hstarts, hne, hsingle, List.head?_cons, Option.any_some, hblank,
    Bool.not_false, Bool.and_self, if_true]
  have hquoted := firstQuoted?_rest h
  cases hcomment : a.comment with
  | none =>
    have hmarks : readMarks (a.marksText ++ a.commentText) = a.marks := by
      rw [Attribute.commentText, hcomment]
      exact readMarks_marksText h.marks (by simp)
    rw [hcomment, Option.map_none] at hquoted
    simp only [hquoted, hmarks, ← hcomment]
  | some comment =>
    have hmarks : readMarks (a.marksText ++ [' ']) = a.marks :=
      readMarks_marksText h.marks (List.all_eq_true.1 (by decide))
    rw [hcomment, Option.map_some] at hquoted
    simp only [hquoted, List.append_nil, hmarks, ← hcomment]

/-! ## The line of an attribute -/

theorem head?_render (h : IsAttribute a) : ∃ c, a.render.head? = some c ∧ isWord c = true := by
  obtain ⟨c, hc, hstarts⟩ := h.startsType
  refine ⟨c, ?_, ?_⟩
  · rw [Attribute.render_eq, List.head?_append, hc, Option.some_or]
  · rcases Bool.or_eq_true_iff.1 hstarts with hletter | hunder
    · have hcode : c.toNat < 128 := by
        have := Text.toNat_of_isAlphanum (c := c) (by simp [Char.isAlphanum, hletter])
        omega
      simp [isWord, hcode, Char.isAlphanum, hletter]
    · rw [beq_iff_eq.1 hunder]
      decide

theorem getLast?_renderMarks {marks : List Mark} (h : marks ≠ []) :
    (renderMarks marks).getLast? = some 'K' := by
  induction marks using renderMarks.induct with
  | case1 => contradiction
  | case2 mark => cases mark <;> rfl
  | case3 mark marks hne ih =>
    rw [renderMarks, List.getLast?_append, ih hne, Option.some_or]
    exact hne

theorem getLast?_render (h : IsAttribute a) :
    ∃ c, a.render.getLast? = some c ∧ isBlank c = false := by
  have hrender : a.render.getLast? =
      ((a.commentText.getLast?.or a.marksText.getLast?).or a.name.getLast?).or
        (a.type ++ [' ']).getLast? := by
    rw [Attribute.render_eq, ← List.getLast?_append, ← List.getLast?_append,
      ← List.getLast?_append]
    simp
  rw [hrender, Attribute.commentText, Attribute.marksText]
  cases a.comment with
  | some comment =>
    refine ⟨'"', ?_, by decide⟩
    dsimp only
    rw [← List.cons_append, ← List.cons_append, List.getLast?_concat]
    rfl
  | none =>
    by_cases hmarks : a.marks = []
    · obtain ⟨c, hc⟩ : ∃ c, a.name.getLast? = some c :=
        Option.isSome_iff_exists.1 (List.getLast?_isSome.2 h.name.ne_nil)
      exact ⟨c, by simp [hmarks, hc], h.name.isBlank (List.mem_of_getLast? hc)⟩
    · refine ⟨'K', ?_, by decide⟩
      have hlast : (' ' :: renderMarks a.marks).getLast? = some 'K' := by
        rw [List.getLast?_cons, getLast?_renderMarks hmarks]
        rfl
      simp [hmarks, hlast]

theorem cut_render_attribute (h : IsAttribute a) :
    cut (Content.attribute a).render = [(Content.attribute a).render] :=
  cut_eq_singleton (strip_eq_self (head?_render h) (getLast?_render h))
    (by simp [Content.render, hasBraces_render h])

theorem of_render_attribute (h : IsAttribute a) :
    Content.of (Content.attribute a).render = .attribute a := by
  rw [Content.render, Content.of_eq (head?_ne_of_isWord (head?_render h))
    (by simp [Attribute.render_eq]), readEntity_render_attribute h, readLink_render_attribute h,
    readAttribute_render h]
  rfl

end Schemata.Diagram
