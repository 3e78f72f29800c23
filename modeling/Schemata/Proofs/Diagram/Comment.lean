import Schemata.Proofs.Diagram.Draw
import Schemata.Proofs.Diagram.Message

/-!
# Comments behind a diagram

If something is amiss in the diagram of a schema, comments that say so are put behind its text. The
text with the comments is in its canonical layout just if the diagram ends neither with a block nor
inside of one (`format_of_iff`): behind a block the layout wants an empty line, and inside of one it
indents a comment twice.

The comments are read back one by one, since each is a single line without a blank at its end
(`isStable_comment`). So the layout of the whole text is the layout of the diagram, followed by that
of the comments from where the diagram ends (`layout_append`, `layout_comments`).
-/

namespace Schemata.Diagram

open Text (isBlank isLineBreak)

variable {source : List Char} {contents rest : List Content} {place : Bool × Bool}

/-! ## Where a layout ends -/

/-- Where the layout stands behind a line: whether it is inside of an entity, and whether it is
right behind one. -/
def Content.placeAfter (place : Bool × Bool) : Content → Bool × Bool
  | entity _ => (true, false)
  | close => (false, true)
  | header => place
  | blank => place
  | _ => (place.1, false)

theorem layout_append (contents rest : List Content) (place : Bool × Bool) :
    layout place.1 place.2 (contents ++ rest) = layout place.1 place.2 contents ++
      layout (contents.foldl Content.placeAfter place).1
        (contents.foldl Content.placeAfter place).2 rest := by
  induction contents generalizing place with
  | nil => rfl
  | cons content contents ih =>
    rw [List.cons_append, List.foldl_cons]
    have hrest := ih (Content.placeAfter place content)
    cases content <;> simp_all [layout, Content.isLayout, Content.placeAfter]

/-- Lines that say something behind a diagram. -/
theorem layout_comments (place : Bool × Bool) {texts : List (List Char)} (hne : texts ≠ []) :
    layout place.1 place.2 (texts.map .comment) =
      (if place.2 then [[]] else []) ++
        texts.map (indent (if place.1 then 2 else 1) ++ ·) := by
  have hopen : ∀ (inside : Bool) (texts : List (List Char)),
      layout inside false (texts.map .comment) =
        texts.map (indent (if inside then 2 else 1) ++ ·) := by
    intro inside texts
    induction texts with
    | nil => rfl
    | cons text texts ih => simp [layout, Content.isLayout, Content.render, ih]
  obtain ⟨text, texts, rfl⟩ := List.exists_cons_of_ne_nil hne
  simp [layout, Content.isLayout, Content.render, hopen]

/-! ## Comments -/

/-- The texts of the comments that list findings. -/
def remarks (found : List Finding) : List (List Char) :=
  "%% Validation Warnings:".toList :: found.map fun f => "%% - ".toList ++ f.message.toList

theorem remarks_ne_nil (found : List Finding) : remarks found ≠ [] :=
  List.cons_ne_nil _ _

theorem unlines_append (lines lines' : List (List Char)) :
    unlines (lines ++ lines') = unlines lines ++ unlines lines' := by
  induction lines with
  | nil => rfl
  | cons line lines ih => simp [unlines, ih]

theorem intercalate_append_feed {lines : List (List Char)} (h : lines ≠ []) :
    ['\n'].intercalate lines ++ ['\n'] = unlines lines := by
  induction lines with
  | nil => contradiction
  | cons line lines ih =>
    cases lines with
    | nil => simp [unlines]
    | cons next lines =>
      rw [List.intercalate_cons_cons, List.append_assoc, List.append_assoc, ih (by simp), unlines]
      rfl

/-- Findings are listed a comment a line, indented once. -/
theorem toList_findingComments {found : List Finding} (h : found ≠ []) :
    (findingComments found).toList = unlines ((remarks found).map (indent 1 ++ ·)) := by
  have hheading : "    %% Validation Warnings:".toList =
      indent 1 ++ "%% Validation Warnings:".toList := by decide
  have hitem : "    %% - ".toList = indent 1 ++ "%% - ".toList := by decide
  unfold findingComments
  rw [if_neg (by simpa using h)]
  dsimp only
  rw [String.toList_append, String.toList_intercalate]
  refine (intercalate_append_feed (by simp)).trans (congrArg unlines ?_)
  simp [remarks, hheading, hitem, Function.comp_def]

theorem isStable_comment {text : List Char} (hstart : commentStart.isPrefixOf text = true)
    (h : IsRemark text) : IsStable (.comment text) := by
  obtain ⟨rest, rfl⟩ := List.isPrefixOf_iff_prefix.1 hstart
  obtain ⟨c, hc, hblank⟩ := h.last
  have hstrip : Text.strip (commentStart ++ rest) = commentStart ++ rest := by
    refine Text.trim_eq_self (fun d hd => ?_) fun d hd => ?_
    · obtain rfl : '%' = d := Option.some.inj hd
      decide
    · rwa [← Option.some.inj (hc.symm.trans hd)]
  refine ⟨cut_eq_singleton hstrip ?_, ?_, h.isLineBreak⟩ <;> rw [Content.render]
  · rw [hstart, Bool.true_or, Bool.true_or]
  · rw [Content.of, if_neg (by simp [commentStart]), if_pos hstart]

/-- **The comments for findings are read as they are written.** -/
theorem isStable_of_mem_remarks {found : List Finding} (hfound : ∀ f ∈ found, f.IsTold) :
    ∀ content ∈ (remarks found).map .comment, IsStable content ∧ content.isLayout = false := by
  rw [List.forall_mem_map]
  intro text htext
  refine ⟨?_, rfl⟩
  rcases List.mem_cons.1 htext with rfl | htext
  · exact isStable_comment (by decide) (.fixed (by decide))
  · obtain ⟨f, hf, rfl⟩ := List.mem_map.1 htext
    refine isStable_comment ?_ (.append (isLineBreak_fixed (by decide)) (hfound f hf).isRemark)
    exact List.isPrefixOf_iff_prefix.2 ⟨_, rfl⟩

/-! ## Diagrams with comments -/

variable {found : List Finding}

theorem statements_unlines {lines : List (List Char)}
    (h : ∀ line ∈ lines, ∀ c ∈ line, isLineBreak c = false) : statements (unlines lines) =
      (lines.flatMap fun line => (cut line).map Content.of).filter (!·.isLayout) := by
  rw [statements, contents_eq, splitLines_unlines h]

/-- The lines of a formatted source with comments behind it. -/
def commentedLines (source : List Char) (found : List Finding) : List (List Char) :=
  headerText :: layout false false (statements source) ++ (remarks found).map (indent 1 ++ ·)

theorem toList_commented (hne : found ≠ []) (source : String) :
    (format source ++ findingComments found).toList =
      unlines (commentedLines source.toList found) := by
  rw [String.toList_append, format, String.toList_ofList, formatChars_eq,
    toList_findingComments hne, ← unlines_append]
  rfl

/-- Comments are laid out by themselves as they are written. -/
theorem layout_remarks (found : List Finding) : layout false false ((remarks found).map .comment) =
    (remarks found).map (indent 1 ++ ·) :=
  layout_comments (false, false) (remarks_ne_nil found)

theorem isLineBreak_commentedLines (hfound : ∀ f ∈ found, f.IsTold) (source : List Char) :
    ∀ line ∈ commentedLines source found, ∀ c ∈ line, isLineBreak c = false := by
  intro line hline
  rcases List.mem_append.1 hline with hline | hline
  · exact fun c hc => Text.isLineBreak_of_mem_splitLines (splitLines_formatChars source ▸ hline) hc
  · rw [← layout_remarks] at hline
    exact isLineBreak_layout (isStable_of_mem_remarks hfound) line hline

/-- **Comments behind a source say nothing else**, and take nothing from what it says. -/
theorem statements_commented (hfound : ∀ f ∈ found, f.IsTold) (source : List Char) :
    statements (unlines (commentedLines source found)) =
      statements source ++ (remarks found).map .comment := by
  have hsource := statements_formatChars source
  rw [formatChars_eq, statements_unlines fun line hline => isLineBreak_commentedLines hfound source
    line (List.mem_append_left _ hline)] at hsource
  rw [statements_unlines (isLineBreak_commentedLines hfound source), commentedLines,
    List.flatMap_append, List.filter_append, hsource, ← layout_remarks,
    contents_layout (isStable_of_mem_remarks hfound)]

/-- Comments keep their place just if the layout stands neither inside of a block nor behind one. -/
theorem layout_remarks_iff (found : List Finding) (place : Bool × Bool) :
    layout place.1 place.2 ((remarks found).map .comment) =
      (remarks found).map (indent 1 ++ ·) ↔ place = (false, false) := by
  obtain ⟨inside, closed⟩ := place
  rw [layout_comments _ (remarks_ne_nil found), Prod.mk.injEq]
  constructor
  · intro heq
    have hclosed : closed = false := by
      cases closed with
      | false => rfl
      | true => simpa using congrArg List.length heq
    refine ⟨?_, hclosed⟩
    subst hclosed
    cases inside with
    | false => rfl
    | true => simpa [remarks, indent] using congrArg (·.head?.map List.length) heq
  · rintro ⟨rfl, rfl⟩
    rfl

/-- **When comments stand where the layout wants them.** -/
theorem format_commented_iff (hne : found ≠ []) (hfound : ∀ f ∈ found, f.IsTold)
    (source : String) :
    format (format source ++ findingComments found) = format source ++ findingComments found ↔
      (statements source.toList).foldl Content.placeAfter (false, false) = (false, false) := by
  set place := (statements source.toList).foldl Content.placeAfter (false, false)
  set text := format source ++ findingComments found with htext
  have hwritten : text.toList = unlines (commentedLines source.toList found) :=
    toList_commented hne source
  have hformat : (format text).toList = formatChars text.toList := String.toList_ofList
  -- the layout of the comments goes on from where that of the source ends
  have hlayout : headerText :: layout false false (statements text.toList) =
      headerText :: layout false false (statements source.toList) ++
        layout place.1 place.2 ((remarks found).map .comment) := by
    rw [hwritten, statements_commented hfound, layout_append _ _ (false, false)]
    rfl
  rw [← layout_remarks_iff found place]
  constructor
  · intro heq
    have hlines := splitLines_formatChars text.toList
    rw [hlayout, ← hformat, heq, hwritten,
      splitLines_unlines (isLineBreak_commentedLines hfound _)] at hlines
    exact (List.append_cancel_left hlines).symm
  · intro heq
    rw [← String.toList_inj, hformat, formatChars_eq, hlayout, heq, hwritten]
    rfl

/-! ## How diagrams end -/

/-- Lines that end inside of a block: some block is opened, and none is closed behind that. -/
def EndsInside (contents : List Content) : Prop :=
  ∃ front name back, contents = front ++ .entity name :: back ∧ .close ∉ back

theorem endsInside_append_singleton {content : Content} : EndsInside (contents ++ [content]) ↔
    (∃ name, content = .entity name) ∨ content ≠ .close ∧ EndsInside contents := by
  constructor
  · rintro ⟨front, name, back, hsplit, hback⟩
    cases back using List.reverseRecOn with
    | nil =>
      obtain ⟨-, hlast⟩ := List.append_inj' hsplit rfl
      exact .inl ⟨name, List.singleton_inj.1 hlast⟩
    | append_singleton back last =>
      rw [← List.cons_append, ← List.append_assoc] at hsplit
      obtain ⟨heq, hlast⟩ := List.append_inj' hsplit rfl
      obtain rfl := List.singleton_inj.1 hlast
      rw [List.mem_append, not_or, List.mem_singleton] at hback
      exact .inr ⟨Ne.symm hback.2, front, name, back, heq, hback.1⟩
  · rintro (⟨name, rfl⟩ | ⟨hne, front, name, back, rfl, hback⟩)
    · exact ⟨contents, name, [], rfl, List.not_mem_nil⟩
    · refine ⟨front, name, back ++ [content], by simp, ?_⟩
      rw [List.mem_append, not_or, List.mem_singleton]
      exact ⟨hback, Ne.symm hne⟩

/-- The layout stands inside of a block just if the lines end there. -/
theorem foldl_placeAfter_fst (contents : List Content) :
    (contents.foldl Content.placeAfter (false, false)).1 = true ↔ EndsInside contents := by
  induction contents using List.reverseRecOn with
  | nil => simp [EndsInside]
  | append_singleton contents content ih =>
    rw [List.foldl_append, List.foldl_cons, List.foldl_nil, endsInside_append_singleton, ← ih]
    cases content <;> simp [Content.placeAfter]

/-- The layout stands behind a block just if the last line closes one. -/
theorem foldl_placeAfter_snd (h : ∀ content ∈ contents, content.isLayout = false) :
    (contents.foldl Content.placeAfter (false, false)).2 = true ↔
      contents.getLast? = some .close := by
  cases contents using List.reverseRecOn with
  | nil => simp
  | append_singleton contents content =>
    have hlast := h content (by simp)
    rw [List.foldl_append, List.foldl_cons, List.foldl_nil, List.getLast?_concat,
      Option.some_inj]
    cases content <;> simp_all [Content.placeAfter, Content.isLayout]

theorem foldl_placeAfter_iff (h : ∀ content ∈ contents, content.isLayout = false) :
    contents.foldl Content.placeAfter (false, false) = (false, false) ↔
      contents.getLast? ≠ some .close ∧ ¬EndsInside contents := by
  rw [← foldl_placeAfter_fst, ne_eq, ← foldl_placeAfter_snd h, Prod.ext_iff]
  simp [and_comm]

/-! ## Schemas -/

/-- The diagram of a schema is written, and comments behind it. -/
theorem fst_of (s : Schema) (limits : Limits) :
    (of s limits).1 = draw s ++ findingComments (findings (draw s) limits) := by
  unfold of
  dsimp only
  split
  · rename_i hnone
    rw [hnone]
    exact String.append_empty.symm
  · rfl

theorem format_draw (s : Schema) : format (draw s) = draw s := by
  rw [draw, format_format]

/-- **When comments behind the diagram of a schema stand where the layout wants them.** -/
theorem format_of_iff_place (s : Schema) (limits : Limits) :
    format (of s limits).1 = (of s limits).1 ↔ findings (draw s) limits = [] ∨
      (statements (draw s).toList).foldl Content.placeAfter (false, false) = (false, false) := by
  rw [fst_of]
  by_cases hnone : findings (draw s) limits = []
  · have hempty : findingComments [] = "" := rfl
    rw [hnone, hempty, String.append_empty, format_draw]
    exact iff_of_true rfl (.inl rfl)
  · have hiff := format_commented_iff hnone (fun f hf => isTold_of_mem_findings hf) (draw s)
    rw [format_draw] at hiff
    rw [hiff, or_iff_right hnone]

/-- Behind the blocks of tables the layout stands behind a block. -/
theorem foldl_placeAfter_blocks {tables : List Table} (hne : tables ≠ []) :
    (tables.flatMap blockOf).foldl Content.placeAfter (false, false) = (false, true) := by
  have hblock : ∀ (t : Table) (place : Bool × Bool),
      (blockOf t).foldl Content.placeAfter place = (false, true) := by
    intro t place
    rw [blockOf, List.foldl_append]
    rfl
  cases tables using List.reverseRecOn with
  | nil => contradiction
  | append_singleton tables t =>
    rw [List.flatMap_append, List.foldl_append, List.flatMap_singleton, hblock]

/-- Behind a relationship the layout stands neither inside of a block nor behind one. -/
theorem foldl_placeAfter_links {links : List Link} (hne : links ≠ []) (closed : Bool) :
    (links.map Content.link).foldl Content.placeAfter (false, closed) = (false, false) := by
  induction links generalizing closed with
  | nil => contradiction
  | cons l links ih =>
    cases links with
    | nil => rfl
    | cons next links => exact ih (by simp) false

/-- A schema with tables needs relationships for comments to stand where they should. -/
theorem Drawable.format_of {s : Schema} (h : Drawable s)
    (hbreak : ∀ r ∈ s.relationships, ∀ c ∈ r.name.toList, isLineBreak c = false)
    (limits : Limits) : format (of s limits).1 = (of s limits).1 ↔
      findings (draw s) limits = [] ∨ s.tables = [] ∨ s.relationships ≠ [] := by
  have hstatements := h.statements_draw_of_singleLine hbreak
  rw [format_of_iff_place, hstatements, List.foldl_append]
  refine or_congr_right ?_
  by_cases htables : s.tables = []
  · -- relationships join tables, so there are none either
    have hnone : s.relationships = [] := List.eq_nil_iff_forall_not_mem.2 fun r hr => by
      have hsource := (h.joins r hr).1
      simp [Schema.tableNames, htables] at hsource
    simp [htables, hnone]
  · rw [foldl_placeAfter_blocks htables, or_iff_right htables]
    by_cases hlinks : s.relationships = []
    · simp [hlinks]
    · have hfold : ((s.relationships.map linkOf).map Content.link).foldl Content.placeAfter
          (false, true) = (false, false) := foldl_placeAfter_links (by simpa) true
      rw [List.map_map] at hfold
      exact iff_of_true hfold hlinks

/-- **Comments behind a diagram.** The text with the comments that list what is amiss is in its
canonical layout just if there are none, or if the diagram ends neither with the end of a block nor
inside of one. If names can be shown and those of relationships are single lines, this is so just if
nothing is amiss, there are no tables, or there are relationships. -/
theorem format_of_iff (s : Schema) (limits : Limits) :
    (format (of s limits).1 = (of s limits).1 ↔ findings (draw s) limits = [] ∨
      (statements (draw s).toList).getLast? ≠ some .close ∧
        ¬EndsInside (statements (draw s).toList)) ∧
    (Drawable s → (∀ r ∈ s.relationships, ∀ c ∈ r.name.toList, isLineBreak c = false) →
      (format (of s limits).1 = (of s limits).1 ↔
        findings (draw s) limits = [] ∨ s.tables = [] ∨ s.relationships ≠ [])) := by
  refine ⟨?_, fun h hbreak => h.format_of hbreak limits⟩
  rw [format_of_iff_place, foldl_placeAfter_iff fun content hmem => ?_]
  exact (isStable_of_mem_statements hmem).2

/-- Books and their authors. -/
def writings (relationships : List Relationship) : Schema where
  tables := [{ name := "book", columns := [.defaultKey] },
    { name := "author", columns := [.defaultKey] }]
  relationships := relationships
  createdAt := { year := 2024, month := 1, day := 1 }
  updatedAt := { year := 2024, month := 1, day := 1 }

theorem drawable_writings {relationships : List Relationship}
    (h : ∀ r ∈ relationships, r.Joins ["book", "author"]) : Drawable (writings relationships) where
  table := by
    have hname : ∀ t ∈ (writings []).tables, t.name.toList.all Text.isSnake = true ∧ t.name ≠ "" :=
      by decide
    exact fun t ht => ⟨List.all_eq_true.1 (hname t ht).1, (hname t ht).2⟩
  column := by
    have hname : ∀ t ∈ (writings []).tables, ∀ c ∈ t.columns,
        c.name.toList.all Text.isSnake = true := by decide
    exact fun t ht c hc => List.all_eq_true.1 (hname t ht c hc)
  keyed := by
    have hkey : ∀ t ∈ (writings []).tables, t.keyColumns ≠ [] := by decide
    exact hkey
  joins := h

/-- More entities than are easily drawn are reported. -/
theorem findings_writings_ne_nil {relationships : List Relationship}
    (h : Drawable (writings relationships))
    (hbreak : ∀ r ∈ relationships, ∀ c ∈ r.name.toList, isLineBreak c = false) :
    findings (draw (writings relationships)) { entities := 1 } ≠ [] := by
  rw [h.findings_draw (List.cons_ne_nil _ _) hbreak]
  refine List.append_ne_nil_of_right_ne_nil _ ?_
  have hlarge : (1 : Int) < (writings relationships).tables.length := Int.lt_succ 1
  rw [sizeFindings, if_pos hlarge]
  exact List.cons_ne_nil _ _

/-- Books are written by authors. -/
def authorship : Relationship where
  name := "written by"
  sourceTable := "book"
  targetTable := "author"
  sourceEntity := "Book"
  targetEntity := "Author"

/-- Behind a relationship comments stand where they should. -/
theorem format_of_authorship :
    findings (draw (writings [authorship])) { entities := 1 } ≠ [] ∧
      format (of (writings [authorship]) { entities := 1 }).1 =
        (of (writings [authorship]) { entities := 1 }).1 := by
  have hbreak : ∀ r ∈ (writings [authorship]).relationships,
      ∀ c ∈ r.name.toList, isLineBreak c = false := by
    intro r hr
    obtain rfl : r = authorship := List.mem_singleton.1 hr
    exact Text.isLineBreak_of_all (by decide)
  have hjoins : authorship.Joins ["book", "author"] := ⟨by decide, by decide⟩
  have hdrawable : Drawable (writings [authorship]) := drawable_writings (by simpa using hjoins)
  exact ⟨findings_writings_ne_nil hdrawable hbreak,
    ((format_of_iff _ _).2 hdrawable hbreak).2 (.inr (.inr (List.cons_ne_nil _ _)))⟩

/-- Behind a block an empty line is missing. -/
theorem not_format_of_writings :
    ¬∀ (s : Schema) (limits : Limits), format (of s limits).1 = (of s limits).1 := by
  intro h
  have hbreak : ∀ r ∈ (writings []).relationships,
      ∀ c ∈ r.name.toList, isLineBreak c = false := by simp [writings]
  have hdrawable : Drawable (writings []) := drawable_writings (by simp)
  rcases (hdrawable.format_of hbreak { entities := 1 }).1 (h _ _) with hnone | hnone | hlinks
  · exact findings_writings_ne_nil hdrawable hbreak hnone
  · exact List.cons_ne_nil _ _ hnone
  · exact hlinks rfl

end Schemata.Diagram
