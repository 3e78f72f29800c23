import Schemata.Diagram.Layout
import Schemata.Proofs.Diagram.Attribute

/-!
# The canonical layout of diagrams

The lines that reading gives are `IsStable`: the text that stands for one of them is one piece and
is read as that line again (`isStable_of`). So the canonical layout of a source holds the statements
of the source (`statements_formatChars`), and as it depends on nothing else, formatting a second
time changes nothing (`format_format`).
-/

namespace Schemata.Diagram

open Text (isLineBreak)

/-- The text of a line is one piece, which is read as that line. -/
structure IsStable (content : Content) : Prop where
  cut : cut content.render = [content.render]
  of : Content.of content.render = content
  isLineBreak : ∀ c ∈ content.render, isLineBreak c = false

/-- What the lines of a source are. -/
def contents (source : List Char) : List Content :=
  (readLines source).map (·.content)

/-- The lines of a source that say more than the layout does. -/
def statements (source : List Char) : List Content :=
  (contents source).filter (!·.isLayout)

/-! ## Lines that are read -/

/-- What a text is read as: the layout's own, a line that is its own text, or what one of the
readers finds. -/
theorem Content.of_cases (s : List Char) :
    (Content.of s).isLayout = true ∨ (Content.of s).render = s ∨
      (∃ name, readEntity s = some name ∧ Content.of s = .entity name) ∨
      (∃ l, readLink s = some l ∧ Content.of s = .link l) ∨
      ∃ a, readAttribute s = some a ∧ Content.of s = .attribute a := by
  unfold Content.of
  split
  · exact .inl rfl
  split
  · exact .inr (.inl rfl)
  split
  · exact .inl rfl
  split
  · rename_i hclose
    exact .inr (.inl hclose.symm)
  split
  · rename_i name hname
    exact .inr (.inr (.inl ⟨name, hname, rfl⟩))
  split
  · rename_i l hl
    exact .inr (.inr (.inr (.inl ⟨l, hl, rfl⟩)))
  split
  · rename_i a ha
    exact .inr (.inr (.inr (.inr ⟨a, ha, rfl⟩)))
  · exact .inr (.inl rfl)

/-- **A piece is read as a line whose text is read as that line again.** -/
theorem isStable_of {piece : List Char} (hcut : cut piece = [piece])
    (hpiece : ∀ c ∈ piece, isLineBreak c = false)
    (hlayout : (Content.of piece).isLayout = false) : IsStable (Content.of piece) := by
  rcases Content.of_cases piece with
    h | hrender | ⟨name, hname, h⟩ | ⟨l, hl, h⟩ | ⟨a, ha, h⟩
  · rw [h] at hlayout
    contradiction
  · exact ⟨by rw [hrender, hcut], by rw [hrender], by rwa [hrender]⟩
  · rw [h]
    have hname := readEntity_spec hname
    exact ⟨cut_render_entity hname, of_render_entity hname, isLineBreak_render_entity hname⟩
  · rw [h]
    have hl := readLink_spec hl hpiece
    have hof := of_render_link hl.isWritable
    rw [hl.settled] at hof
    exact ⟨cut_render_link hl.isWritable, hof, isLineBreak_render_link hl.isWritable⟩
  · rw [h]
    have ha := readAttribute_spec ha hpiece
    exact ⟨cut_render_attribute ha, of_render_attribute ha, isLineBreak_render ha⟩

theorem contents_eq (source : List Char) : contents source =
    (Text.splitLines source).flatMap fun line => (cut line).map Content.of := by
  have hnumbered : ∀ (lines : List (List Char)) (number : ℕ),
      (readNumbered number lines).map (·.content) =
        lines.flatMap fun line => (cut line).map Content.of := by
    intro lines
    induction lines with
    | nil => exact fun _ => rfl
    | cons line lines ih =>
      intro number
      rw [readNumbered, List.map_append, ih, List.flatMap_cons, readLine, List.map_map]
      rfl
  exact hnumbered _ 1

theorem isStable_of_mem_statements {source : List Char} {content : Content}
    (h : content ∈ statements source) : IsStable content ∧ content.isLayout = false := by
  obtain ⟨hmem, hlayout⟩ := List.mem_filter.1 h
  have hlayout : content.isLayout = false := by simpa using hlayout
  rw [contents_eq] at hmem
  obtain ⟨line, hline, hmem⟩ := List.mem_flatMap.1 hmem
  obtain ⟨piece, hpiece, rfl⟩ := List.mem_map.1 hmem
  refine ⟨isStable_of (cut_of_mem_cut hpiece) (fun c hc => ?_) hlayout, hlayout⟩
  rcases mem_of_mem_cut hpiece hc with hc | hc
  · exact Text.isLineBreak_of_mem_splitLines hline hc
  · exact Text.eq_false_of_any (s := [' ', '\x7b', '\x7d']) (by decide) c hc

/-! ## The layout -/

variable {inside closed : Bool} {content : Content}

/-- The layout starts with the line of the first statement, indented, and perhaps an empty line in
front. -/
theorem layout_cons (inside closed : Bool) (h : content.isLayout = false) :
    ∃ depth inside' closed', ∀ rest, layout inside closed (content :: rest) =
      (if closed then [[]] else []) ++
        (indent depth ++ content.render) :: layout inside' closed' rest := by
  cases content with
  | header => contradiction
  | blank => contradiction
  | entity name => exact ⟨1, true, false, fun rest => by simp [layout, Content.isLayout]⟩
  | close => exact ⟨1, false, true, fun rest => by simp [layout, Content.isLayout]⟩
  | _ =>
    exact ⟨if inside then 2 else 1, inside, false, fun rest => by simp [layout, Content.isLayout]⟩

/-- Only the statements matter for the layout. -/
theorem layout_filter (inside closed : Bool) (contents : List Content) :
    layout inside closed (contents.filter (!·.isLayout)) = layout inside closed contents := by
  induction contents generalizing inside closed with
  | nil => rfl
  | cons content rest ih =>
    cases hlayout : content.isLayout with
    | true => rw [List.filter_cons_of_neg (by simp [hlayout]), ih, layout, if_pos hlayout]
    | false =>
      obtain ⟨depth, inside', closed', heq⟩ := layout_cons inside closed hlayout
      rw [List.filter_cons_of_pos (by simp [hlayout]), heq, heq, ih]

/-- The lines of a layout hold no characters that end a line. -/
theorem isLineBreak_layout {contents : List Content}
    (h : ∀ content ∈ contents, IsStable content ∧ content.isLayout = false) :
    ∀ line ∈ layout inside closed contents, ∀ c ∈ line, isLineBreak c = false := by
  induction contents generalizing inside closed with
  | nil => simp [layout]
  | cons content rest ih =>
    obtain ⟨hstable, hlayout⟩ := h content (by simp)
    obtain ⟨depth, inside', closed', heq⟩ := layout_cons inside closed hlayout
    rw [heq]
    intro line hline c hc
    rcases List.mem_append.1 hline with hline | hline
    · split at hline
      · rw [List.mem_singleton.1 hline] at hc
        contradiction
      · contradiction
    · rcases List.mem_cons.1 hline with rfl | hline
      · rcases List.mem_append.1 hc with hc | hc
        · rw [List.eq_of_mem_replicate hc]
          decide
        · exact hstable.isLineBreak c hc
      · exact ih (fun content hmem => h content (by simp [hmem])) line hline c hc

/-- **The lines of a layout are read as the statements it was made for.** -/
theorem contents_layout {contents : List Content}
    (h : ∀ content ∈ contents, IsStable content ∧ content.isLayout = false) :
    ((layout inside closed contents).flatMap fun line => (cut line).map Content.of).filter
      (!·.isLayout) = contents := by
  induction contents generalizing inside closed with
  | nil => rfl
  | cons content rest ih =>
    obtain ⟨hstable, hlayout⟩ := h content (by simp)
    obtain ⟨depth, inside', closed', heq⟩ := layout_cons inside closed hlayout
    have hgap : ((if closed then [[]] else []).flatMap fun line =>
        (cut line).map Content.of).filter (!·.isLayout) = [] := by
      cases closed <;> decide
    have hindent : ∀ c ∈ indent depth, Text.isBlank c = true := fun c hc => by
      rw [List.eq_of_mem_replicate hc]
      decide
    have hline : (cut (indent depth ++ content.render)).map Content.of = [content] := by
      rw [cut_append hindent, hstable.cut, List.map_singleton, hstable.of]
    rw [heq, List.flatMap_append, List.filter_append, hgap, List.nil_append, List.flatMap_cons,
      hline, List.singleton_append, List.filter_cons_of_pos (by simpa using hlayout),
      ih fun content hmem => h content (by simp [hmem])]

theorem splitLines_unlines {lines : List (List Char)}
    (h : ∀ line ∈ lines, ∀ c ∈ line, isLineBreak c = false) :
    Text.splitLines (unlines lines) = lines := by
  induction lines with
  | nil => exact Text.splitLines_nil
  | cons line lines ih =>
    rw [unlines, Text.splitLines_append (h line (by simp)), ih fun l hl => h l (by simp [hl])]

/-! ## Formatting -/

/-- The canonical layout depends on the statements of the source only. -/
theorem formatChars_eq (source : List Char) :
    formatChars source = unlines (headerText :: layout false false (statements source)) := by
  rw [statements, layout_filter]
  rfl

/-- **The canonical layout of a source holds the statements of the source.** -/
theorem statements_formatChars (source : List Char) :
    statements (formatChars source) = statements source := by
  have hstable : ∀ content ∈ statements source, IsStable content ∧ content.isLayout = false :=
    fun _ h => isStable_of_mem_statements h
  have hlines : ∀ line ∈ headerText :: layout false false (statements source),
      ∀ c ∈ line, isLineBreak c = false := by
    intro line hline
    rcases List.mem_cons.1 hline with rfl | hline
    · exact Text.eq_false_of_any (by decide)
    · exact isLineBreak_layout hstable line hline
  have hheader : ((cut headerText).map Content.of).filter (!·.isLayout) = [] := by decide
  rw [statements, contents_eq, formatChars_eq, splitLines_unlines hlines, List.flatMap_cons,
    List.filter_append, hheader, List.nil_append, contents_layout hstable]

/-- **Formatting is idempotent**: a source in its canonical layout stays as it is. -/
theorem format_format (source : String) : format (format source) = format source := by
  rw [format, format, String.toList_ofList, formatChars_eq (formatChars source.toList),
    statements_formatChars, ← formatChars_eq]

end Schemata.Diagram
