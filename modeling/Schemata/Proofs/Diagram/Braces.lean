import Schemata.Diagram.Reader
import Schemata.Proofs.Text.Word

/-!
# Cutting lines at braces

The pieces into which a line is cut are not cut again (`cut_of_mem_cut`). Which braces are outside
of quoted parts depends on the quotation marks on both sides of them; between two braces that cut,
the text is marked as it is on its own (`markBraces_split`), since no quoted part reaches over such
a brace.

Cutting takes only blanks away (`filter_flatten_cut`), and leaves a brace that cuts only where a
piece ends or as a piece of its own (`pieces_cut`).
-/

namespace Schemata.Diagram

open Text (strip isBlank)

variable {s t x : List Char} {c : Char} {quoted : Bool}

/-! ## Marked braces -/

theorem map_fst_markBraces (quoted : Bool) (s : List Char) :
    (markBraces quoted s).map Prod.fst = s := by
  induction s generalizing quoted with
  | nil => rfl
  | cons c s ih =>
    rw [markBraces]
    split_ifs <;> rw [List.map_cons, ih]

theorem hasBraces_eq_false : hasBraces s = false ↔ markBraces false s = s.map (·, false) := by
  constructor
  · intro h
    have hmarks : ∀ m ∈ markBraces false s, m = (m.1, false) := by
      intro m hm
      have hm := List.any_eq_false.1 h m hm
      exact Prod.ext rfl (by simpa using hm)
    conv_rhs => rw [← map_fst_markBraces false s, List.map_map]
    exact (List.map_id _).symm.trans (List.map_congr_left hmarks)
  · intro h
    rw [hasBraces, h, List.any_eq_false]
    intro m hm
    obtain ⟨c, -, rfl⟩ := List.mem_map.1 hm
    exact Bool.false_ne_true

/-- Behind the last quotation mark, texts are marked on their own. -/
theorem markBraces_append (hquoted : quoted = true → '"' ∈ s) (ht : '"' ∉ t) :
    markBraces quoted (s ++ t) = markBraces quoted s ++ markBraces false t := by
  induction s generalizing quoted with
  | nil =>
    cases quoted with
    | false => rfl
    | true => exact absurd (hquoted rfl) List.not_mem_nil
  | cons c s ih =>
    rw [List.cons_append, markBraces, markBraces]
    split_ifs with hq hc
    · rw [List.cons_append, ih]
      intro hne
      exact (List.mem_cons.1 (hquoted hq)).resolve_left fun heq => by simp [← heq] at hne
    · have hcontains : (s ++ t).contains '"' = s.contains '"' := by
        rw [Bool.eq_iff_iff, List.contains_iff_mem, List.contains_iff_mem, List.mem_append,
          or_iff_left ht]
      rw [hcontains, List.cons_append, ih]
      exact fun hmem => List.contains_iff_mem.1 hmem
    · rw [List.cons_append, ih (by simp)]

/-- In front of the first quotation mark, texts are marked on their own. -/
theorem markBraces_prepend (hs : '"' ∉ s) :
    markBraces false (s ++ t) = markBraces false s ++ markBraces false t := by
  induction s with
  | nil => rfl
  | cons c s ih =>
    have hc : c ≠ '"' := fun heq => hs (heq ▸ List.mem_cons_self)
    rw [List.cons_append, markBraces, markBraces, if_neg (by simp), if_neg hc, if_neg (by simp),
      if_neg hc, List.cons_append, ih fun hmem => hs (List.mem_cons_of_mem _ hmem)]

theorem hasBraces_append (ht : '"' ∉ t) : hasBraces (s ++ t) = (hasBraces s || hasBraces t) := by
  rw [hasBraces, markBraces_append (by simp) ht, List.any_append, hasBraces, hasBraces]

theorem hasBraces_prepend (hs : '"' ∉ s) : hasBraces (s ++ t) = (hasBraces s || hasBraces t) := by
  rw [hasBraces, markBraces_prepend hs, List.any_append, hasBraces, hasBraces]

theorem hasBraces_of_forall (h : ∀ c ∈ s, c ≠ '"' ∧ c ≠ '\x7b' ∧ c ≠ '\x7d') :
    hasBraces s = false := by
  induction s with
  | nil => rfl
  | cons c s ih =>
    obtain ⟨hquote, hopen, hclose⟩ := h c (by simp)
    rw [hasBraces, markBraces, if_neg (by simp), if_neg hquote, List.any_cons, ← hasBraces,
      ih fun d hd => h d (by simp [hd])]
    simp [hopen, hclose]

theorem quote_notMem_of_isBlank (h : ∀ c ∈ s, isBlank c = true) : '"' ∉ s := fun hmem =>
  absurd (h _ hmem) (by decide)

/-- Blanks around a text are no braces. -/
theorem hasBraces_strip (h : hasBraces s = false) : hasBraces (strip s) = false := by
  obtain ⟨l, r, hl, hr, hs⟩ := Text.exists_trim isBlank s
  rw [hs, hasBraces_append (quote_notMem_of_isBlank hr),
    hasBraces_prepend (quote_notMem_of_isBlank hl), Bool.or_eq_false_iff,
    Bool.or_eq_false_iff] at h
  exact h.1.2

/-- A brace that cuts behind a quoted part is behind the end of that part. -/
theorem quote_mem_of_markBraces {m m' : List (Char × Bool)}
    (h : markBraces true s = m ++ (c, true) :: m') : '"' ∈ m.map Prod.fst := by
  induction m generalizing s with
  | nil =>
    cases s with
    | nil => contradiction
    | cons d s =>
      rw [markBraces, if_pos rfl] at h
      obtain ⟨hd, -⟩ := List.cons.inj h
      simp at hd
  | cons mark m ih =>
    cases s with
    | nil => contradiction
    | cons d s =>
      rw [markBraces, if_pos rfl, List.cons_append] at h
      obtain ⟨rfl, htail⟩ := List.cons.inj h
      by_cases hd : d = '"'
      · simp [hd]
      · rw [bne_iff_ne.2 hd] at htail
        exact List.mem_cons_of_mem _ (ih htail)

/-- **On both sides of a brace that cuts, texts are marked on their own.** -/
theorem markBraces_split {m m' : List (Char × Bool)}
    (h : markBraces quoted s = m ++ (c, true) :: m') :
    markBraces quoted (m.map Prod.fst) = m ∧ markBraces false (m'.map Prod.fst) = m' := by
  induction m generalizing quoted s with
  | nil =>
    cases s with
    | nil => contradiction
    | cons d s =>
      rw [markBraces] at h
      split_ifs at h with hq hd
      · simp at h
      · simp at h
      · obtain ⟨-, htail⟩ := List.cons.inj h
        refine ⟨rfl, ?_⟩
        rw [← htail, map_fst_markBraces]
  | cons mark m ih =>
    cases s with
    | nil => contradiction
    | cons d s =>
      rw [markBraces, List.cons_append] at h
      have hs : s = m.map Prod.fst ++ c :: m'.map Prod.fst := by
        split_ifs at h <;> obtain ⟨-, htail⟩ := List.cons.inj h <;>
          rw [← map_fst_markBraces _ s, htail, List.map_append, List.map_cons]
      split_ifs at h with hq hd
      · obtain ⟨rfl, htail⟩ := List.cons.inj h
        obtain ⟨hleft, hright⟩ := ih htail
        exact ⟨by rw [List.map_cons, markBraces, if_pos hq, hleft], hright⟩
      · obtain ⟨rfl, htail⟩ := List.cons.inj h
        obtain ⟨hleft, hright⟩ := ih htail
        -- the quoted part that opens here ends before the brace
        have hcontains : (m.map Prod.fst).contains '"' = s.contains '"' := by
          cases hs' : s.contains '"' with
          | true =>
            rw [hs'] at htail
            exact List.contains_iff_mem.2 (quote_mem_of_markBraces htail)
          | false =>
            rw [← Bool.not_eq_true, List.contains_iff_mem] at hs' ⊢
            exact fun hmem => hs' (hs ▸ List.mem_append_left _ hmem)
        exact ⟨by rw [List.map_cons, markBraces, if_neg hq, if_pos hd, hcontains, hleft], hright⟩
      · obtain ⟨rfl, htail⟩ := List.cons.inj h
        obtain ⟨hleft, hright⟩ := ih htail
        exact ⟨by rw [List.map_cons, markBraces, if_neg hq, if_neg hd, hleft], hright⟩

/-! ## Pieces -/

/-- What a piece of a text is: a closing brace, a text without a brace that cuts, or such a text
with an opening brace behind it. -/
def IsPiece (s piece : List Char) : Prop :=
  piece = ['\x7d'] ∨ ∃ x ⊆ s, hasBraces x = false ∧
    ((strip x ≠ [] ∧ piece = strip x) ∨ piece = strip (strip x ++ [' ', '\x7b']))

theorem IsPiece.mono {piece : List Char} (h : IsPiece s piece) (hsub : s ⊆ t) :
    IsPiece t piece :=
  h.imp_right fun ⟨x, hx, hpiece⟩ => ⟨x, List.Subset.trans hx hsub, hpiece⟩

theorem isPiece_of_mem_piece? {piece : List Char} (hx : hasBraces x = false)
    (h : piece ∈ piece? x) : IsPiece x piece := by
  unfold piece? at h
  dsimp only at h
  split at h
  · contradiction
  · rename_i hne
    rw [List.mem_singleton.1 h]
    exact .inr ⟨x, List.Subset.refl x, hx, .inl ⟨by simpa using hne, rfl⟩⟩

/-- **The pieces of a text** whose braces are marked from `before` on. -/
theorem isPiece_of_mem_cutAt {before : List Char} {m : List (Char × Bool)} {piece : List Char}
    (h : markBraces false (before.reverse ++ m.map Prod.fst) =
      before.reverse.map (·, false) ++ m) (hpiece : piece ∈ cutAt before m) :
    IsPiece (before.reverse ++ m.map Prod.fst) piece := by
  induction m generalizing before with
  | nil =>
    rw [List.map_nil, List.append_nil, List.append_nil] at h
    rw [List.map_nil, List.append_nil]
    exact isPiece_of_mem_piece? (hasBraces_eq_false.2 h) hpiece
  | cons mark m ih =>
    obtain ⟨c, cuts⟩ := mark
    cases cuts with
    | false =>
      have hreverse : before.reverse ++ ((c, false) :: m).map Prod.fst =
          (c :: before).reverse ++ m.map Prod.fst := by simp
      rw [hreverse] at h ⊢
      exact ih (h.trans (by simp)) hpiece
    | true =>
      obtain ⟨hleft, hright⟩ := markBraces_split h
      rw [List.map_map, Function.comp_def, List.map_id'] at hleft
      have hbefore : hasBraces before.reverse = false := hasBraces_eq_false.2 hleft
      have hsub : before.reverse ⊆ before.reverse ++ ((c, true) :: m).map Prod.fst :=
        List.subset_append_left _ _
      have hstart : markBraces false (([] : List Char).reverse ++ m.map Prod.fst) =
          ([] : List Char).reverse.map (·, false) ++ m := by simpa using hright
      have hrest : piece ∈ cutAt [] m →
          IsPiece (before.reverse ++ ((c, true) :: m).map Prod.fst) piece := fun hpiece =>
        (ih hstart hpiece).mono fun d hd =>
          List.mem_append_right _ (List.mem_cons_of_mem _ (by simpa using hd))
      rw [cutAt] at hpiece
      split_ifs at hpiece
      · rcases List.mem_cons.1 hpiece with rfl | hpiece
        · exact .inr ⟨_, hsub, hbefore, .inr rfl⟩
        · exact hrest hpiece
      · rcases List.mem_append.1 hpiece with hpiece | hpiece
        · exact (isPiece_of_mem_piece? hbefore hpiece).mono hsub
        · rcases List.mem_cons.1 hpiece with rfl | hpiece
          · exact .inl rfl
          · exact hrest hpiece

/-! ## Cutting pieces -/

theorem cut_eq_singleton (hs : strip s = s)
    (h : (commentStart.isPrefixOf s || (readLink s).isSome || !hasBraces s) = true) :
    cut s = [s] := by
  rw [cut, hs, if_pos h]

theorem cut_strip (s : List Char) : cut (strip s) = cut s := by
  rw [cut, cut, Text.strip_strip]

/-- Blanks in front of a line do not matter. -/
theorem cut_append (h : ∀ c ∈ s, isBlank c = true) : cut (s ++ t) = cut t := by
  rw [← cut_strip, Text.strip_append_left h, cut_strip]

theorem strip_append_open (h : strip x ≠ []) :
    strip (strip x ++ [' ', '\x7b']) = strip x ++ [' ', '\x7b'] := by
  refine Text.trim_eq_self (fun c hc => ?_) fun c hc => ?_
  · rw [List.head?_append_of_ne_nil _ h] at hc
    exact Text.head?_trim hc
  · rw [List.getLast?_append] at hc
    obtain rfl : '\x7b' = c := Option.some.inj hc
    decide

theorem cutAt_append (before : List Char) (x : List Char) (m : List (Char × Bool)) :
    cutAt before (x.map (·, false) ++ m) = cutAt (x.reverse ++ before) m := by
  induction x generalizing before with
  | nil => rfl
  | cons c x ih =>
    rw [List.map_cons, List.cons_append, cutAt, ih, List.reverse_cons, List.append_assoc,
      List.singleton_append]

/-- A text that ends with the only brace that cuts it is one piece. -/
theorem cut_append_open (hx : hasBraces x = false) (hne : strip x ≠ []) :
    cut (strip x ++ [' ', '\x7b']) = [strip x ++ [' ', '\x7b']] := by
  have hstrip := strip_append_open hne
  have hmarks : markBraces false (strip x ++ [' ', '\x7b']) =
      (strip x).map (·, false) ++ [(' ', false), ('\x7b', true)] := by
    rw [markBraces_append (by simp) (by decide), hasBraces_eq_false.1 (hasBraces_strip hx)]
    rfl
  have hend : strip (strip x ++ [' ']) = strip x := by
    rw [Text.strip_append_right (List.all_eq_true.1 (by decide)), Text.strip_strip]
  rw [cut, hstrip]
  split
  · rfl
  · rw [hmarks, cutAt_append, cutAt, cutAt, if_pos rfl, List.append_nil, List.reverse_cons,
      List.reverse_reverse, hend, hstrip]
    rfl

theorem cut_of_isPiece {piece : List Char} (h : IsPiece s piece) : cut piece = [piece] := by
  rcases h with rfl | ⟨x, -, hx, ⟨-, rfl⟩ | rfl⟩
  · decide
  · exact cut_eq_singleton (Text.strip_strip x) (by simp [hasBraces_strip hx])
  · by_cases hne : strip x = []
    · rw [hne]
      decide
    · rw [strip_append_open hne]
      exact cut_append_open hx hne

theorem isPiece_cut {piece : List Char} (h : piece ∈ cut s) :
    (piece = strip s ∧
      (commentStart.isPrefixOf (strip s) || (readLink (strip s)).isSome || !hasBraces (strip s)) =
        true) ∨ IsPiece (strip s) piece := by
  rw [cut] at h
  split at h
  · rename_i hwhole
    exact .inl ⟨List.mem_singleton.1 h, hwhole⟩
  · have hmarks : markBraces false (([] : List Char).reverse ++
        (markBraces false (strip s)).map Prod.fst) =
          ([] : List Char).reverse.map (·, false) ++ markBraces false (strip s) := by
      simp [map_fst_markBraces]
    have hpiece := isPiece_of_mem_cutAt hmarks h
    rw [List.reverse_nil, List.nil_append, map_fst_markBraces] at hpiece
    exact .inr hpiece

/-- **The pieces of a line are not cut again.** -/
theorem cut_of_mem_cut {piece : List Char} (h : piece ∈ cut s) : cut piece = [piece] := by
  rcases isPiece_cut h with ⟨rfl, hwhole⟩ | hpiece
  · exact cut_eq_singleton (Text.strip_strip s) hwhole
  · exact cut_of_isPiece hpiece

/-- The characters of a piece are those of the line, and what belongs to a brace. -/
theorem mem_of_mem_cut {piece : List Char} (h : piece ∈ cut s) (hc : c ∈ piece) :
    c ∈ s ∨ c ∈ [' ', '\x7b', '\x7d'] := by
  have hstrip : ∀ {x : List Char}, c ∈ strip x → c ∈ x := Text.mem_trim
  rcases isPiece_cut h with ⟨rfl, -⟩ | rfl | ⟨x, hx, -, ⟨-, rfl⟩ | rfl⟩
  · exact .inl (hstrip hc)
  · exact .inr (List.mem_singleton.1 hc ▸ by simp)
  · exact .inl (hstrip (hx (hstrip hc)))
  · rcases List.mem_append.1 (hstrip hc) with hc | hc
    · exact .inl (hstrip (hx (hstrip hc)))
    · refine .inr ?_
      rcases List.mem_cons.1 hc with rfl | hc
      · simp
      · rw [List.mem_singleton.1 hc]
        simp

/-! ## What is left of a line -/

theorem eq_brace_of_mem_markBraces (h : (c, true) ∈ markBraces quoted s) :
    c = '\x7b' ∨ c = '\x7d' := by
  induction s generalizing quoted with
  | nil => contradiction
  | cons d s ih =>
    rw [markBraces] at h
    split_ifs at h <;> rcases List.mem_cons.1 h with heq | h
    · cases heq
    · exact ih h
    · cases heq
    · exact ih h
    · rw [Prod.mk.injEq, eq_comm (a := true), Bool.or_eq_true, beq_iff_eq, beq_iff_eq] at heq
      exact heq.1 ▸ heq.2
    · exact ih h

theorem filter_strip (s : List Char) :
    (strip s).filter (fun c => !isBlank c) = s.filter fun c => !isBlank c := by
  obtain ⟨l, r, hl, hr, hs⟩ := Text.exists_trim isBlank s
  have hnil : ∀ t : List Char, (∀ c ∈ t, isBlank c = true) →
      t.filter (fun c => !isBlank c) = [] := fun t ht =>
    List.filter_eq_nil_iff.2 fun c hc => by simp [ht c hc]
  conv_rhs => rw [hs, List.filter_append, List.filter_append, hnil l hl, hnil r hr]
  rw [List.nil_append, List.append_nil, strip]

theorem filter_flatten_piece? (s : List Char) :
    (piece? s).flatten.filter (fun c => !isBlank c) = s.filter fun c => !isBlank c := by
  rw [← filter_strip s, piece?]
  split
  · rename_i hempty
    rw [List.isEmpty_iff.1 hempty, List.flatten_nil]
  · rw [List.flatten_singleton]

theorem filter_flatten_cutAt {before : List Char} {m : List (Char × Bool)}
    (hm : ∀ c, (c, true) ∈ m → c = '\x7b' ∨ c = '\x7d') :
    (cutAt before m).flatten.filter (fun c => !isBlank c) =
      (before.reverse ++ m.map Prod.fst).filter fun c => !isBlank c := by
  induction m generalizing before with
  | nil => rw [cutAt, filter_flatten_piece?, List.map_nil, List.append_nil]
  | cons mark m ih =>
    obtain ⟨c, cuts⟩ := mark
    have hm' : ∀ d, (d, true) ∈ m → d = '\x7b' ∨ d = '\x7d' := fun d hd =>
      hm d (List.mem_cons_of_mem _ hd)
    cases cuts with
    | false =>
      rw [cutAt, ih hm', List.reverse_cons, List.append_assoc]
      rfl
    | true =>
      have hspace : isBlank ' ' = true := by decide
      have hopen : isBlank '\x7b' = false := by decide
      have hclose : isBlank '\x7d' = false := by decide
      rw [cutAt]
      split
      · rename_i heq
        rw [List.flatten_cons, List.filter_append, ih hm', filter_strip, List.filter_append,
          filter_strip, heq]
        simp [hspace, hopen]
      · rename_i hne
        obtain rfl := (hm c List.mem_cons_self).resolve_left hne
        rw [List.flatten_append, List.flatten_cons, List.filter_append, List.filter_append,
          ih hm', filter_flatten_piece?]
        simp [hclose]

/-- **Cutting takes only blanks away.** -/
theorem filter_flatten_cut (s : List Char) :
    (cut s).flatten.filter (fun c => !isBlank c) = s.filter fun c => !isBlank c := by
  rw [cut, ← filter_strip s]
  split
  · rw [List.flatten_singleton]
  · rw [filter_flatten_cutAt fun c hc => eq_brace_of_mem_markBraces hc, List.reverse_nil,
      List.nil_append, map_fst_markBraces]

/-! ## Braces of pieces -/

/-- Where the braces of a piece are that cut: it is a closing one, or the only one is an opening one
at its end. -/
def EndsAtBrace (piece : List Char) : Prop :=
  piece = ['\x7d'] ∨ ∀ m c m', markBraces false piece = m ++ (c, true) :: m' → c = '\x7b' ∧ m' = []

theorem endsAtBrace_of_hasBraces (h : hasBraces s = false) : EndsAtBrace s := by
  refine .inr fun m c m' hmarks => ?_
  have hmem : (c, true) ∈ s.map (·, false) := by
    rw [← hasBraces_eq_false.1 h, hmarks]
    simp
  simp at hmem

theorem IsPiece.endsAtBrace {piece : List Char} (h : IsPiece s piece) : EndsAtBrace piece := by
  rcases h with rfl | ⟨x, -, hx, ⟨-, rfl⟩ | rfl⟩
  · exact .inl rfl
  · exact endsAtBrace_of_hasBraces (hasBraces_strip hx)
  · have hmarked : ∃ l : List Char, markBraces false (strip (strip x ++ [' ', '\x7b'])) =
        l.map (·, false) ++ [('\x7b', true)] := by
      by_cases hne : strip x = []
      · rw [hne]
        exact ⟨[], by decide⟩
      · refine ⟨strip x ++ [' '], ?_⟩
        rw [strip_append_open hne, markBraces_append (by simp) (by decide),
          hasBraces_eq_false.1 (hasBraces_strip hx), List.map_append, List.append_assoc]
        rfl
    obtain ⟨l, hl⟩ := hmarked
    refine .inr fun m c m' hmarks => ?_
    rw [hl] at hmarks
    rcases m'.eq_nil_or_concat with rfl | ⟨m', mark, rfl⟩
    · obtain ⟨-, heq⟩ := List.append_inj' hmarks rfl
      simp only [List.cons.injEq, Prod.mk.injEq, and_true] at heq
      exact ⟨heq.symm, rfl⟩
    · -- behind a brace that is not the last mark, there would be one among the others
      rw [List.concat_eq_append, ← List.cons_append, ← List.append_assoc] at hmarks
      obtain ⟨heq, -⟩ := List.append_inj' hmarks rfl
      have hmem : (c, true) ∈ l.map (·, false) := by
        rw [heq]
        simp
      simp at hmem

/-- **The pieces of a line.** They are not cut again, and have together the characters of the line
that are no blanks, in order. Unless the line is a comment or a relationship, a brace outside of
quoted parts is a piece of its own, if it is a closing one, or at the end of a piece, if it is an
opening one. -/
theorem pieces_cut (line : List Char) :
    (∀ piece ∈ cut line, cut piece = [piece]) ∧
      (cut line).flatten.filter (fun c => !isBlank c) = line.filter (fun c => !isBlank c) ∧
      (commentStart <+: strip line ∨ (∃ l, readLink (strip line) = some l) ∨
        ∀ piece ∈ cut line, piece = ['\x7d'] ∨
          ∀ before c behind, markBraces false piece = before ++ (c, true) :: behind →
            c = '\x7b' ∧ behind = []) := by
  refine ⟨fun piece hpiece => cut_of_mem_cut hpiece, filter_flatten_cut line, ?_⟩
  by_cases hcomment : commentStart <+: strip line
  · exact .inl hcomment
  by_cases hlink : ∃ l, readLink (strip line) = some l
  · exact .inr (.inl hlink)
  refine .inr (.inr fun piece hpiece => ?_)
  rcases isPiece_cut hpiece with ⟨rfl, hwhole⟩ | hpiece
  · refine endsAtBrace_of_hasBraces ?_
    rw [← List.isPrefixOf_iff_prefix] at hcomment
    rw [← Option.isSome_iff_exists] at hlink
    simpa [hcomment, hlink] using hwhole
  · exact hpiece.endsAtBrace

/-- A line of four pieces, with a brace between quotation marks. -/
theorem pieces_cut_shelf :
    let line := "\x7d  book \x7b string title \"\x7bshort\" \x7d".toList
    cut line = ["\x7d", "book \x7b", "string title \"\x7bshort\"", "\x7d"].map String.toList ∧
      cut "string title \"\x7bshort\"".toList = ["string title \"\x7bshort\"".toList] ∧
      ∀ before c behind, markBraces false "book \x7b".toList = before ++ (c, true) :: behind →
        c = '\x7b' ∧ behind = [] := by
  intro line
  have hcut : cut line =
      ["\x7d", "book \x7b", "string title \"\x7bshort\"", "\x7d"].map String.toList := by
    decide +kernel
  obtain ⟨hagain, -, hcomment | ⟨l, hlink⟩ | hbraces⟩ := pieces_cut line
  · exact absurd (List.isPrefixOf_iff_prefix.2 hcomment) (by decide +kernel)
  · have hnone : readLink (strip line) = none := by decide +kernel
    rw [hnone] at hlink
    contradiction
  · refine ⟨hcut, hagain _ (by rw [hcut]; simp), ?_⟩
    exact (hbraces "book \x7b".toList (by rw [hcut]; simp)).resolve_left (by decide)

end Schemata.Diagram
