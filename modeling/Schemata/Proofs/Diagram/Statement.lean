import Schemata.Proofs.Diagram.Layout

/-!
# The statements of a source

A source of several lines says what its lines say, one after the other (`statements_intercalate`). A
line with a quotation mark always says something, since neither the header nor an empty line has
one; so a break inside of a quoted text makes two statements of one
(`two_le_length_statements`).
-/

namespace Schemata.Diagram

open Text (isLineBreak)

/-! ## Lines of a source -/

theorem statements_line {line : List Char} (h : ∀ c ∈ line, isLineBreak c = false) :
    statements line = ((cut line).map Content.of).filter (!·.isLayout) := by
  by_cases hnil : line = []
  · subst hnil
    decide
  · rw [statements, contents_eq, Text.splitLines_eq_singleton hnil h, List.flatMap_singleton]

/-- Lines with line feeds between them are read one by one. -/
theorem statements_intercalate {lines : List (List Char)}
    (h : ∀ line ∈ lines, line ≠ [] ∧ ∀ c ∈ line.getLast?, isLineBreak c = false) :
    statements (['\n'].intercalate lines) = lines.flatMap statements := by
  induction lines with
  | nil => decide
  | cons line lines ih =>
    have hrest := ih fun other hother => h other (by simp [hother])
    cases lines with
    | nil => simp
    | cons next lines =>
      obtain ⟨hne, hlast⟩ := h line (by simp)
      rw [List.intercalate_cons_cons, List.append_assoc, List.singleton_append, List.flatMap_cons,
        ← hrest, statements, contents_eq, Text.splitLines_append_feed hne hlast,
        List.flatMap_append, List.filter_append, ← contents_eq, ← contents_eq]
      rfl

/-! ## Quotation marks -/

/-- A quotation mark on a line is on one of its pieces. -/
theorem exists_quote_mem_cut {line : List Char} (h : '"' ∈ line) :
    ∃ piece ∈ cut line, '"' ∈ piece := by
  have hmem : '"' ∈ line.filter fun c => !Text.isBlank c := List.mem_filter.2 ⟨h, by decide⟩
  rw [← filter_flatten_cut] at hmem
  exact List.mem_flatten.1 (List.mem_filter.1 hmem).1

/-- Only an empty text and the header say nothing. -/
theorem eq_of_isLayout {piece : List Char} (h : (Content.of piece).isLayout = true) :
    piece = [] ∨ piece = headerText := by
  unfold Content.of at h
  split at h
  · rename_i hempty
    exact .inl (List.isEmpty_iff.1 hempty)
  split at h
  · contradiction
  split at h
  · exact .inr ‹_›
  split at h
  · contradiction
  split at h
  · contradiction
  split at h
  · contradiction
  split at h <;> contradiction

/-- A line with a quotation mark says something. -/
theorem filter_cut_ne_nil {line : List Char} (h : '"' ∈ line) :
    ((cut line).map Content.of).filter (!·.isLayout) ≠ [] := by
  obtain ⟨piece, hpiece, hquote⟩ := exists_quote_mem_cut h
  refine List.ne_nil_of_mem (List.mem_filter.2 ⟨List.mem_map_of_mem hpiece, ?_⟩)
  rw [Bool.not_eq_true', Bool.eq_false_iff]
  intro hlayout
  rcases eq_of_isLayout hlayout with rfl | rfl
  · contradiction
  · exact absurd hquote (by decide)

theorem statements_ne_nil {source : List Char} (h : '"' ∈ source) : statements source ≠ [] := by
  obtain ⟨line, hline, hquote⟩ := Text.exists_mem_splitLines h (by decide)
  obtain ⟨content, hmem⟩ := List.exists_mem_of_ne_nil _ (filter_cut_ne_nil hquote)
  rw [statements, contents_eq]
  obtain ⟨hmem, hlayout⟩ := List.mem_filter.1 hmem
  exact List.ne_nil_of_mem (List.mem_filter.2 ⟨List.mem_flatMap.2 ⟨line, hline, hmem⟩, hlayout⟩)

/-- With a break between two quotation marks there are two lines that say something. -/
theorem two_le_length_statements {line rest : List Char} {d : Char}
    (hline : ∀ c ∈ line, isLineBreak c = false) (hd : isLineBreak d = true) (hquote : '"' ∈ line)
    (hquote' : '"' ∈ rest) : 2 ≤ (statements (line ++ d :: rest)).length := by
  obtain ⟨rest', hrest, hsplit⟩ := Text.exists_splitLines_break hline hd rest
  have hmem : '"' ∈ rest' := by
    rcases hrest with rfl | rfl
    · exact hquote'
    · simpa using hquote'
  have hfirst := List.length_pos_iff.2 (filter_cut_ne_nil hquote)
  have hsecond := List.length_pos_iff.2 (statements_ne_nil hmem)
  rw [statements, contents_eq] at hsecond
  rw [statements, contents_eq, hsplit, List.flatMap_cons, List.filter_append, List.length_append]
  omega

end Schemata.Diagram
