import Schemata.Proofs.Diagram.Braces

/-!
# Reading lines in their canonical form

Each form of a line is read back from the text that `Content.render` writes for it, provided its
parts are such as reading gives them: names are words (`IsName`), labels are trimmed and hold no
quotation marks (`IsLabel`), relationships have such names and labels (`IsLink`), and attributes are
as `IsAttribute` says. `readEntity_spec`, `readLink_spec` and `readAttribute_spec` tell that reading
gives no others; `of_render_entity`, `of_render_link` and `of_render_attribute` read the lines back.

A relationship whose label is any text on one line without quotation marks (`IsWritable`) is read
back too, with its label trimmed (`Link.settled`).
-/

namespace Schemata.Diagram

open Text (strip isBlank isWord isLineBreak ne_of_class)

variable {s t w : List Char} {c : Char}

/-! ## Names -/

theorem skipBlanks_space (t : List Char) : skipBlanks (' ' :: t) = skipBlanks t :=
  List.dropWhile_cons_of_pos (by decide)

theorem skipBlanks_cons (hc : isBlank c = false) (t : List Char) :
    skipBlanks (c :: t) = c :: t :=
  List.dropWhile_cons_of_neg (by simp [hc])

theorem skipBlanks_subset (s : List Char) : skipBlanks s ⊆ s :=
  List.dropWhile_subset _

/-- A text of word characters that is not empty, as names in diagrams are. -/
structure IsName (w : List Char) : Prop where
  ne_nil : w ≠ []
  isWord : ∀ c ∈ w, Text.isWord c = true

namespace IsName

theorem head? (h : IsName w) : ∃ c, (w ++ t).head? = some c ∧ Text.isWord c = true := by
  cases w with
  | nil => exact absurd rfl h.ne_nil
  | cons c w => exact ⟨c, rfl, h.isWord c List.mem_cons_self⟩

theorem isBlank (h : IsName w) (hc : c ∈ w) : Text.isBlank c = false :=
  Text.isBlank_of_isWord (h.isWord c hc)

theorem skipBlanks (h : IsName w) (t : List Char) : skipBlanks (w ++ t) = w ++ t := by
  obtain ⟨c, hc, hword⟩ := h.head? (t := t)
  refine Text.dropWhile_eq_self fun d hd => ?_
  rw [hc] at hd
  rw [← Option.some.inj hd]
  exact Text.isBlank_of_isWord hword

theorem spanWord (h : IsName w) (ht : ∀ c ∈ t.head?, Text.isWord c = false) :
    Text.spanWord (w ++ t) = (w, t) :=
  Text.span_append h.isWord ht

theorem isLineBreak (h : IsName w) (hc : c ∈ w) : Text.isLineBreak c = false :=
  Text.isLineBreak_of_isBlank_eq_false (h.isBlank hc)

/-- What is read as a word is a name unless it is empty. -/
theorem of_spanWord (h : (Text.spanWord s).1 ≠ []) : IsName (Text.spanWord s).1 :=
  ⟨h, fun _ hc => Text.mem_span_fst hc⟩

end IsName

theorem isWord_head?_space : ∀ c ∈ (' ' :: t).head?, isWord c = false := by
  rintro c hc
  obtain rfl : ' ' = c := Option.some.inj hc
  decide

/-! ## What a line is not -/

theorem head?_ne_of_isWord (h : ∃ c, s.head? = some c ∧ isWord c = true) :
    ∀ c ∈ s.head?, c ≠ '%' := by
  obtain ⟨c, hc, hword⟩ := h
  intro d hd
  obtain rfl : c = d := Option.some.inj (hc.symm.trans hd)
  exact ne_of_class hword (by decide)

/-- A line that holds a blank and does not start with a percent sign is no comment, no header and no
end of an entity. -/
theorem Content.of_eq (hhead : ∀ c ∈ s.head?, c ≠ '%') (hspace : ' ' ∈ s) :
    Content.of s = ((readEntity s).map .entity).getD (((readLink s).map .link).getD
      (((readAttribute s).map .attribute).getD (.unknown s))) := by
  have hne : s.isEmpty = false := by
    rw [List.isEmpty_eq_false_iff]
    exact List.ne_nil_of_mem hspace
  have hcomment : commentStart.isPrefixOf s = false := by
    cases s with
    | nil => exact absurd hspace List.not_mem_nil
    | cons d s => simp [commentStart, List.isPrefixOf, (hhead d rfl).symm]
  have hheader : s ≠ headerText := by
    rintro rfl
    exact absurd hspace (by decide)
  have hclose : s ≠ ['\x7d'] := by
    rintro rfl
    exact absurd hspace (by decide)
  rw [Content.of, hne, hcomment, if_neg (by simp), if_neg (by simp), if_neg hheader, if_neg hclose]
  cases readEntity s with
  | some name => rfl
  | none =>
    cases readLink s with
    | some l => rfl
    | none => cases readAttribute s <;> rfl

/-- A text that starts and ends with characters other than blanks. -/
theorem strip_eq_self (hhead : ∃ c, s.head? = some c ∧ isWord c = true)
    (hlast : ∃ c, s.getLast? = some c ∧ isBlank c = false) : strip s = s := by
  obtain ⟨c, hc, hword⟩ := hhead
  obtain ⟨d, hd, hblank⟩ := hlast
  refine Text.trim_eq_self (fun c' hc' => ?_) fun d' hd' => ?_
  · rw [hc] at hc'
    rw [← Option.some.inj hc']
    exact Text.isBlank_of_isWord hword
  · rw [hd] at hd'
    rw [← Option.some.inj hd']
    exact hblank

theorem readSymbol_eq_some {symbol : Symbol} (h : readSymbol s = some (symbol, t)) :
    s = symbol.chars ++ t := by
  unfold readSymbol at h
  split at h <;> cases h <;> rfl

theorem readSymbol_append (symbol : Symbol) (t : List Char) :
    readSymbol (symbol.chars ++ t) = some (symbol, t) := by
  cases symbol <;> rfl

/-- Every symbol has a stroke or a brace among its two characters. -/
theorem readSymbol_eq_none (h : ∀ c ∈ s.take 2, c ∉ ['|', '\x7b', '\x7d']) :
    readSymbol s = none := by
  cases hread : readSymbol s with
  | none => rfl
  | some result =>
    obtain ⟨symbol, t⟩ := result
    rw [readSymbol_eq_some hread] at h
    exfalso
    cases symbol <;> simp [Symbol.chars] at h

/-- A text without a symbol behind its first word is no relationship. -/
theorem readLink_eq_none (hw : ∀ c ∈ w, isWord c = true) (ht : ∀ c ∈ t.head?, isWord c = false)
    (hsymbol : readSymbol (skipBlanks t) = none) (hletter : readSymbol ('o' :: t) = none) :
    readLink (w ++ t) = none := by
  have hspan : Text.spanWord (w ++ t) = (w, t) := Text.span_append hw ht
  have hletter' : readSymbol (skipBlanks ('o' :: t)) = none := by
    rw [skipBlanks_cons (by decide), hletter]
  have hnone : ∀ (source rest : List Char), readSymbol (skipBlanks rest) = none →
      readLinkFrom source rest = none := by
    intro source rest h
    rw [readLinkFrom, h]
    rfl
  rw [readLink, hspan]
  dsimp only
  rw [hnone _ _ hsymbol, hnone _ _ hletter']
  split <;> simp

/-- A text with more than an opening brace behind its first word is no opening of an entity. -/
theorem readEntity_eq_none (hw : ∀ c ∈ w, isWord c = true) (ht : ∀ c ∈ t.head?, isWord c = false)
    (hopen : skipBlanks t ≠ ['\x7b']) : readEntity (w ++ t) = none := by
  have hspan : Text.spanWord (w ++ t) = (w, t) := Text.span_append hw ht
  rw [readEntity, hspan]
  simp [hopen]

/-! ## Entities -/

theorem readEntity_spec {name : List Char} (h : readEntity s = some name) : IsName name := by
  unfold readEntity at h
  dsimp only at h
  split at h
  · rename_i hopens
    rw [Bool.and_eq_true, Bool.not_eq_true', List.isEmpty_eq_false_iff] at hopens
    obtain rfl := Option.some.inj h
    exact IsName.of_spanWord hopens.1
  · contradiction

/-- The opening of an entity is one piece, whatever its name is. -/
theorem cut_opening {name : List Char} (hne : name ≠ [])
    (h : ∀ c ∈ name, isBlank c = false ∧ c ≠ '"' ∧ c ≠ '\x7b' ∧ c ≠ '\x7d') :
    cut (name ++ [' ', '\x7b']) = [name ++ [' ', '\x7b']] := by
  have hstrip : strip name = name := by
    refine Text.trim_eq_self (fun c hc => ?_) fun c hc => ?_
    · exact (h c (List.mem_of_mem_head? hc)).1
    · exact (h c (List.mem_of_mem_getLast? hc)).1
  have hcut := cut_append_open (hasBraces_of_forall fun c hc => (h c hc).2) (by rwa [hstrip])
  rwa [hstrip] at hcut

theorem cut_render_entity {name : List Char} (h : IsName name) :
    cut (Content.entity name).render = [(Content.entity name).render] :=
  cut_opening h.ne_nil fun c hc => ⟨h.isBlank hc, ne_of_class (h.isWord c hc) (by decide),
    ne_of_class (h.isWord c hc) (by decide), ne_of_class (h.isWord c hc) (by decide)⟩

theorem of_render_entity {name : List Char} (h : IsName name) :
    Content.of (Content.entity name).render = .entity name := by
  have hspan : Text.spanWord (name ++ [' ', '\x7b']) = (name, [' ', '\x7b']) :=
    h.spanWord isWord_head?_space
  have hread : readEntity (name ++ [' ', '\x7b']) = some name := by
    rw [readEntity, hspan]
    have hne : name.isEmpty = false := List.isEmpty_eq_false_iff.2 h.ne_nil
    simp only [hne, Bool.not_false, Bool.true_and]
    rfl
  rw [Content.render, Content.of_eq (head?_ne_of_isWord h.head?) (by simp), hread]
  rfl

theorem isLineBreak_render_entity {name : List Char} (h : IsName name) :
    ∀ c ∈ (Content.entity name).render, isLineBreak c = false := by
  intro c hc
  rcases List.mem_append.1 hc with hc | hc
  · exact h.isLineBreak hc
  · exact Text.eq_false_of_any (s := [' ', '\x7b']) (by decide) c hc

/-! ## Labels -/

/-- A label as reading gives it. -/
structure IsLabel (label : List Char) : Prop where
  ne_nil : label ≠ []
  strip : strip label = label
  quote : '"' ∉ label
  isLineBreak : ∀ c ∈ label, Text.isLineBreak c = false

theorem isLabel_defaultLabel : IsLabel defaultLabel where
  ne_nil := by decide
  strip := by decide
  quote := by decide
  isLineBreak := Text.eq_false_of_any (by decide)

theorem unquote_subset (s : List Char) : unquote s ⊆ s := by
  unfold unquote
  split
  · split
    · exact fun c hc => List.mem_cons_of_mem _ (List.dropLast_subset _ hc)
    · exact List.Subset.refl _
  · exact List.Subset.refl _

theorem readLabel_spec {text : Option (List Char)}
    (htext : ∀ t, text = some t → ∀ c ∈ t, isLineBreak c = false) : IsLabel (readLabel text) := by
  cases text with
  | none => exact isLabel_defaultLabel
  | some t =>
    rw [readLabel]
    split
    · exact isLabel_defaultLabel
    · rename_i hne
      have hmem : ∀ c ∈ strip ((unquote (strip t)).map fun c => if c = '"' then '\'' else c),
          c = '\'' ∨ (c ∈ t ∧ c ≠ '"') := by
        intro c hc
        obtain ⟨d, hd, rfl⟩ := List.mem_map.1 (Text.mem_trim hc)
        split
        · exact .inl rfl
        · exact .inr ⟨Text.mem_trim (unquote_subset _ hd), ‹_›⟩
      refine ⟨by simpa using hne, Text.strip_strip _, fun hquote => ?_, fun c hc => ?_⟩
      · rcases hmem _ hquote with h | h
        · exact absurd h (by decide)
        · exact h.2 rfl
      · rcases hmem c hc with rfl | h
        · decide
        · exact htext t rfl c h.1

/-- The label as which a text between quotation marks is read: blanks around it do not count. -/
def settledLabel (label : List Char) : List Char :=
  if (strip label).isEmpty then defaultLabel else strip label

theorem IsLabel.settledLabel {label : List Char} (h : IsLabel label) :
    settledLabel label = label := by
  have hne : label.isEmpty = false := List.isEmpty_eq_false_iff.2 h.ne_nil
  rw [Diagram.settledLabel, h.strip]
  simp [hne]

/-- A label between quotation marks is read as it is, but for the blanks around it. -/
theorem readLabel_quoted {label : List Char} (h : '"' ∉ label) :
    readLabel (some ('"' :: (label ++ ['"']))) = settledLabel label := by
  have hstrip : strip ('"' :: (label ++ ['"'])) = '"' :: (label ++ ['"']) := by
    refine Text.trim_eq_self (fun c hc => ?_) fun c hc => ?_
    · obtain rfl : '"' = c := Option.some.inj hc
      decide
    · rw [← List.cons_append, List.getLast?_concat] at hc
      obtain rfl : '"' = c := Option.some.inj hc
      decide
  have hunquote : unquote ('"' :: (label ++ ['"'])) = label := by
    rw [unquote, if_pos (by rw [List.getLast?_concat]), List.dropLast_concat]
  have hmap : (label.map fun c => if c = '"' then '\'' else c) = label := by
    refine (List.map_congr_left fun c hc => ?_).trans (List.map_id label)
    have hquote : c ≠ '"' := fun heq => h (by rwa [heq] at hc)
    exact if_neg hquote
  rw [readLabel, hstrip, hunquote, hmap, settledLabel]

/-! ## Relationships -/

/-- A relationship as reading gives it. -/
structure IsLink (l : Link) : Prop where
  source : IsName l.source
  target : IsName l.target
  label : IsLabel l.label

/-- A relationship that can be written on a line. -/
structure IsWritable (l : Link) : Prop where
  source : IsName l.source
  target : IsName l.target
  quote : '"' ∉ l.label
  isLineBreak : ∀ c ∈ l.label, Text.isLineBreak c = false

theorem IsLink.isWritable {l : Link} (h : IsLink l) : IsWritable l :=
  ⟨h.source, h.target, h.label.quote, h.label.isLineBreak⟩

/-- The relationship as it is read back from its text. -/
def Link.settled (l : Link) : Link :=
  { l with label := settledLabel l.label }

theorem IsLink.settled {l : Link} (h : IsLink l) : l.settled = l := by
  rw [Link.settled, h.label.settledLabel]

theorem readStroke_subset {identifying : Bool} (h : readStroke s = some (identifying, t)) :
    t ⊆ s := by
  unfold readStroke at h
  split at h <;> cases h <;> exact fun c hc => by simp [hc]

theorem readSymbol_subset {symbol : Symbol} (h : readSymbol (skipBlanks s) = some (symbol, t)) :
    t ⊆ s := by
  have hskip := skipBlanks_subset s
  rw [readSymbol_eq_some h] at hskip
  exact fun c hc => hskip (List.mem_append_right _ hc)

theorem readLabelText_subset {text : Option (List Char)} (h : readLabelText s = some text)
    (htext : text = some t) : t ⊆ s := by
  subst htext
  unfold readLabelText at h
  split at h
  · simp at h
  · dsimp only at h
    split at h
    · contradiction
    · obtain rfl := Option.some.inj (Option.some.inj h)
      exact fun c hc => List.mem_cons_of_mem _ (List.dropWhile_subset _ hc)
  · contradiction

theorem readLinkFrom_spec {source : List Char} {l : Link} (h : readLinkFrom source s = some l) :
    l.source = source ∧ IsName l.target ∧
      ∃ text, l.label = readLabel text ∧ ∀ t, text = some t → t ⊆ s := by
  unfold readLinkFrom at h
  simp only [Option.bind_eq_bind, Option.bind_eq_some_iff] at h
  obtain ⟨⟨left, s₁⟩, hleft, ⟨identifying, s₂⟩, hstroke, ⟨right, s₃⟩, hright, h⟩ := h
  dsimp only at h
  split at h
  · contradiction
  · rename_i hne
    obtain ⟨text, htext, hl⟩ := Option.bind_eq_some_iff.1 h
    obtain rfl := Option.some.inj hl
    refine ⟨rfl, IsName.of_spanWord (by simpa using hne), text, rfl, fun t ht => ?_⟩
    have hspan : (Text.spanWord (skipBlanks s₃)).2 ⊆ skipBlanks s₃ := fun c hc => by
      rw [← Text.span_eq_append isWord (skipBlanks s₃)]
      exact List.mem_append_right _ hc
    have h₁ : s₁ ⊆ s := readSymbol_subset hleft
    have h₂ : s₂ ⊆ s₁ := fun c hc => skipBlanks_subset _ (readStroke_subset hstroke hc)
    have h₃ : s₃ ⊆ s₂ := readSymbol_subset hright
    intro c hc
    have hc := hspan (skipBlanks_subset _ (readLabelText_subset htext ht hc))
    exact h₁ (h₂ (h₃ (skipBlanks_subset _ hc)))

/-- **What reading a relationship gives.** -/
theorem readLink_spec {l : Link} (h : readLink s = some l)
    (hs : ∀ c ∈ s, isLineBreak c = false) : IsLink l := by
  unfold readLink at h
  dsimp only at h
  set word := (Text.spanWord s).1 with hword
  have hsplit : word ++ (Text.spanWord s).2 = s := Text.span_eq_append isWord s
  split at h
  · contradiction
  · rename_i hne
    have hname : IsName word := IsName.of_spanWord (by simpa using hne)
    cases hfrom : readLinkFrom word (Text.spanWord s).2 with
    | some link =>
      rw [hfrom] at h
      obtain rfl := Option.some.inj h
      obtain ⟨hsource, htarget, text, hlabel, hsub⟩ := readLinkFrom_spec hfrom
      refine ⟨hsource ▸ hname, htarget, hlabel ▸ readLabel_spec fun t ht c hc => hs c ?_⟩
      rw [← hsplit]
      exact List.mem_append_right _ (hsub t ht hc)
    | none =>
      rw [hfrom] at h
      dsimp only at h
      split at h
      · rename_i hletter
        rw [Bool.and_eq_true, decide_eq_true_eq, decide_eq_true_eq] at hletter
        obtain ⟨hsource, htarget, text, hlabel, hsub⟩ := readLinkFrom_spec h
        refine ⟨hsource ▸ ⟨?_, fun c hc => hname.isWord c (List.dropLast_subset _ hc)⟩, htarget,
          hlabel ▸ readLabel_spec fun t ht c hc => hs c ?_⟩
        · have hlength : word.dropLast.length = word.length - 1 := List.length_dropLast
          exact List.ne_nil_of_length_pos (by omega)
        · rw [← hsplit]
          rcases List.mem_cons.1 (hsub t ht hc) with rfl | hc
          · exact List.mem_append_left _ (List.mem_of_getLast? hletter.1)
          · exact List.mem_append_right _ hc
      · contradiction

theorem skipBlanks_symbol (symbol : Symbol) (t : List Char) :
    skipBlanks (symbol.chars ++ t) = symbol.chars ++ t := by
  cases symbol <;> exact skipBlanks_cons (by decide) _

theorem readStroke_append (identifying : Bool) (t : List Char) :
    readStroke (skipBlanks ((if identifying then ['-', '-'] else ['.', '.']) ++ t)) =
      some (identifying, t) := by
  cases identifying with
  | false =>
    rw [if_neg (by simp), List.cons_append, skipBlanks_cons (by decide)]
    rfl
  | true =>
    rw [if_pos rfl, List.cons_append, skipBlanks_cons (by decide)]
    rfl

theorem readLabelText_quoted {label : List Char} (h : ∀ c ∈ label, isLineBreak c = false) :
    readLabelText (skipBlanks (' ' :: ':' :: ' ' :: '"' :: (label ++ ['"']))) =
      some (some ('"' :: (label ++ ['"']))) := by
  have hfeed : '\n' ∉ label := fun hmem => absurd (h _ hmem) (by decide)
  rw [skipBlanks_space, skipBlanks_cons (by decide), readLabelText, skipBlanks_space,
    skipBlanks_cons (by decide)]
  simp [hfeed]

/-- The text of a relationship behind the first name. -/
def Link.renderRest (l : Link) : List Char :=
  ' ' :: (l.left.chars ++ ((if l.identifying then ['-', '-'] else ['.', '.']) ++
    (l.right.chars ++ ' ' :: (l.target ++ ' ' :: ':' :: ' ' :: '"' :: (l.label ++ ['"'])))))

theorem Link.render_eq (l : Link) : l.render = l.source ++ l.renderRest := by
  simp [Link.render, Link.renderRest]

namespace IsWritable

variable {l : Link}

theorem spanWord_render (h : IsWritable l) :
    Text.spanWord l.render = (l.source, l.renderRest) := by
  rw [Link.render_eq]
  exact h.source.spanWord isWord_head?_space

theorem readLinkFrom_renderRest (h : IsWritable l) :
    readLinkFrom l.source l.renderRest = some l.settled := by
  have hspan : Text.spanWord (l.target ++ ' ' :: ':' :: ' ' :: '"' :: (l.label ++ ['"'])) =
      (l.target, ' ' :: ':' :: ' ' :: '"' :: (l.label ++ ['"'])) :=
    h.target.spanWord isWord_head?_space
  have hne : l.target.isEmpty = false := List.isEmpty_eq_false_iff.2 h.target.ne_nil
  rw [readLinkFrom, Link.renderRest, skipBlanks_space, skipBlanks_symbol, readSymbol_append]
  simp only [Option.bind_eq_bind, Option.bind_some, readStroke_append, skipBlanks_symbol,
    readSymbol_append, skipBlanks_space, h.target.skipBlanks, hspan, hne]
  rw [← skipBlanks_space, readLabelText_quoted h.isLineBreak]
  simp only [Option.bind_some, readLabel_quoted h.quote]
  rfl

/-- **A relationship is read back** from its text. -/
theorem readLink_render (h : IsWritable l) : readLink l.render = some l.settled := by
  have hne : l.source.isEmpty = false := List.isEmpty_eq_false_iff.2 h.source.ne_nil
  rw [readLink, h.spanWord_render]
  simp only [hne, h.readLinkFrom_renderRest]
  rfl

end IsWritable

theorem cut_render_link {l : Link} (h : IsWritable l) :
    cut (Content.link l).render = [(Content.link l).render] := by
  refine cut_eq_singleton (strip_eq_self ?_ ⟨'"', ?_, by decide⟩) ?_
  · rw [Content.render, Link.render_eq]
    exact h.source.head?
  · rw [Content.render, Link.render, List.getLast?_concat]
  · simp [Content.render, h.readLink_render]

theorem of_render_link {l : Link} (h : IsWritable l) :
    Content.of (Content.link l).render = .link l.settled := by
  have hentity : readEntity l.render = none := by
    rw [Link.render_eq]
    refine readEntity_eq_none h.source.isWord isWord_head?_space ?_
    rw [Link.renderRest, skipBlanks_space, skipBlanks_symbol]
    cases l.left <;> simp [Symbol.chars]
  rw [Content.render, Content.of_eq (head?_ne_of_isWord (Link.render_eq l ▸ h.source.head?))
    (by simp [Link.render_eq, Link.renderRest]), hentity, h.readLink_render]
  rfl

theorem isLineBreak_render_link {l : Link} (h : IsWritable l) :
    ∀ c ∈ l.render, isLineBreak c = false := by
  have hsymbol : ∀ symbol : Symbol, ∀ c ∈ symbol.chars, isLineBreak c = false := by
    intro symbol
    cases symbol <;> exact Text.eq_false_of_any (by decide)
  have hstroke : ∀ c ∈ if l.identifying then ['-', '-'] else ['.', '.'],
      isLineBreak c = false := by
    split <;> exact Text.eq_false_of_any (by decide)
  have hspace : isLineBreak ' ' = false := by decide
  rw [Link.render_eq, Link.renderRest]
  simp only [List.forall_mem_append, List.forall_mem_cons, List.not_mem_nil, false_imp_iff,
    implies_true, and_true]
  exact ⟨fun c hc => h.source.isLineBreak hc, hspace, hsymbol _, hstroke, hsymbol _, hspace,
    fun c hc => h.target.isLineBreak hc, hspace, by decide, hspace, by decide, h.isLineBreak,
    by decide⟩

end Schemata.Diagram
