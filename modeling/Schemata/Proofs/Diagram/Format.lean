import Mathlib.Data.List.Forall2
import Schemata.Proofs.Diagram.Layout

/-!
# What formatting keeps

Formatting loses nothing and invents nothing. The lines that a source says something with are in the
formatted source, in order, with the same kind and the same parts, and every line of the formatted
source holds just one of them or none (`readLines_format`).

`Line.Restates` is the sense in which two lines are the same. Their numbers differ, and so may their
texts, since a text may spell one and the same content in many ways; only comments and lines that
cannot be read are nothing but their text.
-/

namespace Schemata.Diagram

variable {source : List Char} {line : Line} {inside closed : Bool}

/-- Whether a line is nothing but its text. -/
def Content.isVerbatim : Content → Bool
  | comment _ => true
  | unknown _ => true
  | _ => false

/-- A line says the same as another: it is of the same kind and has the same parts, and the same
text where this is all that it is. -/
structure Line.Restates (line other : Line) : Prop where
  content_eq : line.content = other.content
  text_eq : line.content.isVerbatim = true → line.text = other.text

/-! ## Lines and their texts -/

/-- A line that is nothing but its text is written as the piece of which it was made. -/
theorem render_of_isVerbatim {piece : List Char}
    (h : (Content.of piece).isVerbatim = true) : (Content.of piece).render = piece := by
  rcases Content.of_cases piece with
    hlayout | hrender | ⟨name, -, heq⟩ | ⟨l, -, heq⟩ | ⟨a, -, heq⟩
  · have hno : ∀ content : Content, content.isLayout = true → content.isVerbatim = false := by
      intro content hcontent
      cases content <;> simp [Content.isLayout, Content.isVerbatim] at *
    rw [hno _ hlayout] at h
    contradiction
  · exact hrender
  · simp [heq, Content.isVerbatim] at h
  · simp [heq, Content.isVerbatim] at h
  · simp [heq, Content.isVerbatim] at h

theorem content_of_mem_readNumbered {lines : List (List Char)} {number : ℕ}
    (h : line ∈ readNumbered number lines) : line.content = Content.of line.text := by
  induction lines generalizing number with
  | nil => simp [readNumbered] at h
  | cons first lines ih =>
    rw [readNumbered] at h
    rcases List.mem_append.1 h with h | h
    · obtain ⟨piece, -, rfl⟩ := List.mem_map.1 h
      rfl
    · exact ih h

/-- A line that is read has the content that its text is read as. -/
theorem content_of_mem_readLines (h : line ∈ readLines source) :
    line.content = Content.of line.text :=
  content_of_mem_readNumbered h

/-- Lines of one content say the same. -/
theorem restates_of_content_eq {source' : List Char} {other : Line}
    (hline : line ∈ readLines source) (hother : other ∈ readLines source')
    (h : line.content = other.content) : line.Restates other := by
  refine ⟨h, fun hverbatim => ?_⟩
  have hline_eq := content_of_mem_readLines hline
  have hother_eq := content_of_mem_readLines hother
  have hrender : line.content.render = line.text := by
    rw [hline_eq] at hverbatim ⊢
    exact render_of_isVerbatim hverbatim
  have hrender' : other.content.render = other.text := by
    rw [h, hother_eq] at hverbatim
    rw [hother_eq]
    exact render_of_isVerbatim hverbatim
  rw [← hrender, ← hrender', h]

/-- The lines of a source that say more than the layout does. -/
def statementLines (source : List Char) : List Line :=
  (readLines source).filter (!·.content.isLayout)

theorem map_content_statementLines (source : List Char) :
    (statementLines source).map (·.content) = statements source := by
  have hfilter : (fun line : Line => !line.content.isLayout) =
      (fun content => !content.isLayout) ∘ Line.content := by
    funext line
    rfl
  rw [statementLines, statements, contents, hfilter, ← List.filter_map]

/-- Sources with the same statements say the same, line by line. -/
theorem forall₂_restates {source source' : List Char} (h : statements source = statements source') :
    List.Forall₂ Line.Restates (statementLines source) (statementLines source') := by
  have hcontents : List.Forall₂ (fun line other => line.content = other.content)
      (statementLines source) (statementLines source') := by
    rw [← map_content_statementLines, ← map_content_statementLines, ← List.forall₂_eq_eq_eq,
      List.forall₂_map_left_iff, List.forall₂_map_right_iff] at h
    exact h
  have hread : ∀ {source : List Char} {line}, line ∈ statementLines source →
      line ∈ readLines source := fun h => List.mem_of_mem_filter h
  refine List.forall₂_iff_zip.2 ⟨hcontents.length_eq, fun hzip => ?_⟩
  have hmem := List.of_mem_zip hzip
  exact restates_of_content_eq (hread hmem.1) (hread hmem.2) (List.forall₂_zip hcontents hzip)

/-! ## One line, one statement -/

/-- Lines of one statement each are numbered one by one. -/
theorem number_readNumbered {lines : List (List Char)} (number : ℕ)
    (h : ∀ line ∈ lines, (cut line).length = 1) :
    (readNumbered number lines).map (·.number) = List.range' number lines.length := by
  induction lines generalizing number with
  | nil => simp [readNumbered]
  | cons line lines ih =>
    obtain ⟨piece, hpiece⟩ := List.length_eq_one_iff.1 (h line (by simp))
    have hrest := ih (number + 1) fun other hother => h other (by simp [hother])
    rw [readNumbered, List.map_append, hrest, readLine, hpiece]
    simp [List.range'_succ]

/-- A line of a layout is empty, or the text of a statement behind blanks. -/
theorem cases_of_mem_layout {contents : List Content} {text : List Char}
    (h : text ∈ layout inside closed contents) :
    text = [] ∨ ∃ content ∈ contents, content.isLayout = false ∧
      ∃ depth, text = indent depth ++ content.render := by
  induction contents generalizing inside closed with
  | nil => simp [layout] at h
  | cons content contents ih =>
    cases hlayout : content.isLayout with
    | true =>
      rw [layout, if_pos hlayout] at h
      refine (ih h).imp_right ?_
      rintro ⟨other, hother, hrest⟩
      exact ⟨other, by simp [hother], hrest⟩
    | false =>
      obtain ⟨depth, inside', closed', heq⟩ := layout_cons inside closed hlayout
      rw [heq] at h
      rcases List.mem_append.1 h with h | h
      · split at h
        · exact .inl (List.mem_singleton.1 h)
        · contradiction
      · rcases List.mem_cons.1 h with rfl | h
        · exact .inr ⟨content, by simp, hlayout, depth, rfl⟩
        · refine (ih h).imp_right ?_
          rintro ⟨other, hother, hrest⟩
          exact ⟨other, by simp [hother], hrest⟩

/-- The lines of a formatted source: the header, and the layout of the statements. -/
theorem splitLines_formatChars (source : List Char) : Text.splitLines (formatChars source) =
    headerText :: layout false false (statements source) := by
  rw [formatChars_eq, splitLines_unlines]
  intro line hline
  rcases List.mem_cons.1 hline with rfl | hline
  · exact Text.eq_false_of_any (by decide)
  · exact isLineBreak_layout (fun _ h => isStable_of_mem_statements h) line hline

/-- **A line of a formatted source holds one statement.** -/
theorem length_cut_of_mem_formatChars {text : List Char}
    (h : text ∈ Text.splitLines (formatChars source)) : (cut text).length = 1 := by
  rw [splitLines_formatChars] at h
  rcases List.mem_cons.1 h with rfl | h
  · decide
  · rcases cases_of_mem_layout h with rfl | ⟨content, hmem, -, depth, rfl⟩
    · decide
    · have hindent : ∀ c ∈ indent depth, Text.isBlank c = true := fun c hc => by
        rw [List.eq_of_mem_replicate hc]
        decide
      rw [cut_append hindent, (isStable_of_mem_statements hmem).1.cut, List.length_singleton]

/-- **Formatting loses nothing and invents nothing.** The lines of a formatted source, apart from
the header and from empty ones, say one by one what those of the source say, and every line of the
formatted source is read as one line. -/
theorem readLines_format (source : String) :
    List.Forall₂ Line.Restates (statementLines (format source).toList)
        (statementLines source.toList) ∧
      (readLines (format source).toList).map (·.number) =
        List.range' 1 (Text.splitLines (format source).toList).length := by
  have hchars : (format source).toList = formatChars source.toList := String.toList_ofList
  constructor
  · have hstatements : statements (format source).toList = statements source.toList := by
      rw [hchars, statements_formatChars]
    exact forall₂_restates hstatements
  · refine number_readNumbered 1 fun text htext => ?_
    rw [hchars] at htext
    exact length_cut_of_mem_formatChars htext

/-- The three statements of one line are written on three lines, behind the header. -/
example : (readLines (format "book { string title }").toList).map (·.number) = [1, 2, 3, 4] := by
  decide +kernel

end Schemata.Diagram
