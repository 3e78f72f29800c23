import Schemata.Proofs.Diagram.Format
import Schemata.Proofs.Diagram.Finding

/-!
# Where findings point to

A finding that names the number of a line speaks of the line of that number of the formatted source
(`lines_of_findings`). For a formatted source is read line by line: each of its lines is one
statement, whose text is the line without the blanks around it (`exists_of_mem_readLines`).

The pass over the lines hands on the numbers and the texts that it meets. One line adds at most one
finding, and this speaks of the line (`Survey.findings_step_cases`); a block that is open goes back
to the line that opened it (`Survey.openBlocks_step`). So every finding of a run speaks of one of
its lines (`Survey.exists_line_of_mem_findings`).
-/

namespace Schemata.Diagram

/-- The number of a line in a finding. -/
def Finding.lineNumber? : Finding → Option ℕ
  | unexpectedClose number => some number
  | enclosedLink number => some number
  | strayAttribute number _ => some number
  | malformedAttribute number _ _ => some number
  | malformedLink number _ => some number
  | unclosed _ number => some number
  | _ => none

/-- What a finding says is true of the text of a line: it is what the finding quotes, or is of the
kind that the finding speaks of. -/
def Finding.RefersTo : Finding → List Char → Prop
  | unexpectedClose _, text => text = ['\x7d']
  | enclosedLink _, text => ∃ l, Content.of text = .link l
  | strayAttribute _ quoted, text => text = quoted.toList ∧ ∃ a, Content.of text = .attribute a
  | malformedAttribute _ _ quoted, text => text = quoted.toList ∧ Content.of text = .unknown text
  | malformedLink _ quoted, text => text = quoted.toList ∧ Content.of text = .unknown text
  | unclosed entity _, text => text = entity.toList ++ [' ', '\x7b']
  | _, _ => True

/-- The texts that a finding quotes. -/
def Finding.parts : Finding → List String
  | strayAttribute _ text => [text]
  | malformedAttribute _ entity text => [entity, text]
  | malformedLink _ text => [text]
  | unclosed entity _ => [entity]
  | repeatedEntity entity _ => [entity]
  | undefinedEnd side entity => [side, entity]
  | suggestion entities => entities
  | _ => []

/-! ## The lines of a formatted source -/

variable {source : List Char} {line : Line}

/-- The text of a line that is read has no blanks around it. -/
theorem strip_of_mem_cut {s piece : List Char} (h : piece ∈ cut s) : Text.strip piece = piece := by
  rcases isPiece_cut h with ⟨rfl, -⟩ | rfl | ⟨x, -, -, ⟨-, rfl⟩ | rfl⟩
  · exact Text.strip_strip s
  · decide
  · exact Text.strip_strip x
  · exact Text.strip_strip _

/-- **A line of a formatted source is one statement with blanks around it**, written as statements
of its kind are. -/
theorem cut_of_mem_formatChars {text : List Char}
    (h : text ∈ Text.splitLines (formatChars source)) : cut text = [Text.strip text] ∧
      (Content.of (Text.strip text)).render = Text.strip text := by
  rw [splitLines_formatChars] at h
  rcases List.mem_cons.1 h with rfl | h
  · decide
  · rcases cases_of_mem_layout h with rfl | ⟨content, hmem, -, depth, rfl⟩
    · decide
    · have hindent : ∀ c ∈ indent depth, Text.isBlank c = true := fun c hc => by
        rw [List.eq_of_mem_replicate hc]
        decide
      have hstable := (isStable_of_mem_statements hmem).1
      have hstrip : Text.strip (indent depth ++ content.render) = content.render := by
        rw [Text.strip_append_left hindent]
        exact strip_of_mem_cut (hstable.cut ▸ List.mem_singleton_self _)
      rw [cut_append hindent, hstrip, hstable.cut, hstable.of]
      exact ⟨rfl, rfl⟩

theorem exists_of_mem_readNumbered {texts : List (List Char)} {number : ℕ}
    (hcut : ∀ text ∈ texts, cut text = [Text.strip text])
    (h : line ∈ readNumbered number texts) : ∃ i text, texts[i]? = some text ∧
      line = ⟨.of (Text.strip text), Text.strip text, number + i⟩ := by
  induction texts generalizing number with
  | nil => contradiction
  | cons text texts ih =>
    rw [List.forall_mem_cons] at hcut
    rw [readNumbered, readLine, hcut.1] at h
    rcases List.mem_append.1 h with h | h
    · exact ⟨0, text, rfl, List.mem_singleton.1 h⟩
    · obtain ⟨i, text, htext, rfl⟩ := ih hcut.2 h
      exact ⟨i + 1, text, htext, by rw [Nat.add_right_comm, Nat.add_assoc]⟩

/-- A line that is written in its canonical form. -/
structure Line.IsWritten (line : Line) : Prop where
  content_eq : line.content = Content.of line.text
  text_eq : line.text = line.content.render

/-- **A formatted source is read line by line.** -/
theorem exists_of_mem_readLines (h : line ∈ readLines (formatChars source)) :
    line.IsWritten ∧ 0 < line.number ∧ ∃ text,
      (Text.splitLines (formatChars source))[line.number - 1]? = some text ∧
        line.text = Text.strip text := by
  obtain ⟨i, text, htext, rfl⟩ :=
    exists_of_mem_readNumbered (fun text htext => (cut_of_mem_formatChars htext).1) h
  have hwritten := (cut_of_mem_formatChars (List.mem_of_getElem? htext)).2
  exact ⟨⟨rfl, hwritten.symm⟩, Nat.add_pos_left Nat.one_pos i, text, by simpa using htext, rfl⟩

/-! ## The pass over the lines -/

namespace Survey

variable {survey : Survey} {lines : List Line} {f : Finding}

/-- **A line adds at most one finding**, which speaks of the line, and quotes the line and the block
that is open. -/
theorem findings_step_cases (survey : Survey) (h : line.IsWritten) :
    (survey.step line).findings = survey.findings ∨
      ∃ f, (survey.step line).findings = survey.findings ++ [f] ∧
        (f.lineNumber? = some line.number ∧ f.RefersTo line.text) ∧
        ∀ part ∈ f.parts, part.toList = line.text ∨
          ∃ block ∈ survey.openBlocks, part.toList = block.1 := by
  have hcontent := h.content_eq.symm
  have htext : line.text = (String.ofList line.text).toList := String.toList_ofList.symm
  have hunknown : ∀ {text}, line.content = .unknown text →
      Content.of line.text = .unknown line.text := fun {text} hline => by
    have htext : line.text = text := by rw [h.text_eq, hline]; rfl
    rw [hcontent, hline, htext]
  unfold step
  dsimp only
  split
  · exact .inl rfl
  · rename_i hclose _
    have htext : line.text = ['\x7d'] := by rw [h.text_eq, hclose]; rfl
    exact .inr ⟨_, rfl, ⟨rfl, htext⟩, by simp [Finding.parts]⟩
  · exact .inl rfl
  · exact .inl rfl
  · rename_i l _ _ hlink _
    exact .inr ⟨_, rfl, ⟨rfl, l, hcontent.trans hlink⟩, by simp [Finding.parts]⟩
  · rename_i a hattribute _
    exact .inr ⟨_, rfl, ⟨rfl, htext, a, hcontent.trans hattribute⟩, by simp [Finding.parts]⟩
  · rename_i hline _
    exact .inr ⟨_, rfl, ⟨rfl, htext, hunknown hline⟩, by simp [Finding.parts]⟩
  · rename_i hline hopen
    exact .inr ⟨_, rfl, ⟨rfl, htext, hunknown hline⟩, by simp [Finding.parts, hopen]⟩
  · exact .inl rfl

/-- The blocks that are open are the ones before, or one that the line opens. -/
theorem openBlocks_step (survey : Survey) (line : Line) : ∀ block ∈ (survey.step line).openBlocks,
    block ∈ survey.openBlocks ∨ line.content = .entity block.1 ∧ line.number = block.2 := by
  unfold step
  dsimp only
  split <;> simp_all

/-- **Every finding of a run speaks of one of its lines**, and every block that is open was opened
by one. -/
theorem exists_line_of_mem_findings (lines : List Line) (h : ∀ line ∈ lines, line.IsWritten) :
    (∀ f ∈ (Diagram.survey lines).findings, ∃ line ∈ lines,
      f.lineNumber? = some line.number ∧ f.RefersTo line.text) ∧
    ∀ block ∈ (Diagram.survey lines).openBlocks, ∃ line ∈ lines,
      line.content = .entity block.1 ∧ line.number = block.2 := by
  unfold Diagram.survey
  -- from the end, since what the last line adds is about this line
  induction lines using List.reverseRecOn with
  | nil => simp
  | append_singleton lines line ih =>
    obtain ⟨hfindings, hopen⟩ := ih fun other hother => h other (by simp [hother])
    have hwritten := h line (by simp)
    rw [List.foldl_append, List.foldl_cons, List.foldl_nil]
    constructor
    · intro f hf
      have hbefore : f ∈ (lines.foldl step {}).findings → ∃ line' ∈ lines ++ [line],
          f.lineNumber? = some line'.number ∧ f.RefersTo line'.text := fun hf => by
        obtain ⟨other, hother, hrefers⟩ := hfindings f hf
        exact ⟨other, List.mem_append_left _ hother, hrefers⟩
      rcases findings_step_cases (lines.foldl step {}) hwritten with heq | ⟨f', heq, hrefers, -⟩ <;>
        rw [heq] at hf
      · exact hbefore hf
      · rcases List.mem_append.1 hf with hf | hf
        · exact hbefore hf
        · exact ⟨line, by simp, List.mem_singleton.1 hf ▸ hrefers⟩
    · intro block hblock
      rcases openBlocks_step _ line block hblock with hblock | hblock
      · obtain ⟨other, hother, hrefers⟩ := hopen block hblock
        exact ⟨other, List.mem_append_left _ hother, hrefers⟩
      · exact ⟨line, by simp, hblock⟩

end Survey

/-! ## Findings -/

/-- Findings about the ends of relationships name no line. -/
theorem lineNumber?_endFindings {names : List (List Char)} {side : String} {name : List Char}
    {f : Finding} (hf : f ∈ endFindings names side name) : f.lineNumber? = none := by
  rcases endFindings_cases hf with rfl | ⟨similar, -, -, rfl⟩ <;> rfl

/-- Findings about a diagram as a whole name no line, except for blocks that are not closed. -/
theorem cases_of_mem_conclude {survey : Survey} {limits : Limits} {f : Finding} {number : ℕ}
    (hf : f ∈ survey.conclude limits) (hnumber : f.lineNumber? = some number) :
    f ∈ survey.findings ∨ ∃ name, (name, number) ∈ survey.openBlocks ∧
      f = .unclosed (String.ofList name) number := by
  have hsome : f.lineNumber? ≠ none := by simp [hnumber]
  rcases Survey.mem_conclude.1 hf with hf | ⟨⟨name, number'⟩, hopen, rfl⟩ | ⟨name, -, -, rfl⟩ |
    ⟨-, rfl⟩ | ⟨-, rfl⟩ | ⟨l, -, hf⟩
  · exact .inl hf
  · obtain rfl : number' = number := Option.some.inj hnumber
    exact .inr ⟨name, hopen, rfl⟩
  · exact absurd rfl hsome
  · exact absurd rfl hsome
  · exact absurd rfl hsome
  · rcases List.mem_append.1 hf with hf | hf <;>
      exact absurd (lineNumber?_endFindings hf) hsome

/-- **The numbers in findings are those of the lines they speak of.** The formatted source is its
lines with a line feed behind each. A finding that names a number speaks of the line of that number,
counted from one: without the blanks around it this line is the text that the finding quotes, or a
closing brace, a relationship or the opening of the entity that the finding names. -/
theorem lines_of_findings (source : String) (limits : Limits) :
    let lines := Text.splitLines (format source).toList
    (format source).toList = unlines lines ∧
      ∀ f ∈ findings source limits, ∀ number, f.lineNumber? = some number →
        0 < number ∧ ∃ line, lines[number - 1]? = some line ∧ f.RefersTo (Text.strip line) := by
  have hchars : (format source).toList = formatChars source.toList := String.toList_ofList
  rw [hchars]
  refine ⟨by rw [splitLines_formatChars, formatChars_eq], fun f hf number hnumber => ?_⟩
  -- it is enough to name a line that was read
  suffices h : ∃ line ∈ readLines (formatChars source.toList),
      f.lineNumber? = some line.number ∧ f.RefersTo line.text by
    obtain ⟨line, hline, hline_number, hrefers⟩ := h
    obtain ⟨-, hpos, text, htext, htext_eq⟩ := exists_of_mem_readLines hline
    obtain rfl : number = line.number := Option.some.inj (hnumber.symm.trans hline_number)
    exact ⟨hpos, text, htext, htext_eq ▸ hrefers⟩
  have hwritten : ∀ line ∈ readLines (formatChars source.toList), line.IsWritten :=
    fun line hline => (exists_of_mem_readLines hline).1
  obtain ⟨hfindings, hopen⟩ := Survey.exists_line_of_mem_findings _ hwritten
  unfold findings findingsOf at hf
  dsimp only at hf
  split at hf
  · rcases cases_of_mem_conclude hf hnumber with hf | ⟨name, hname, rfl⟩
    · exact hfindings f hf
    · obtain ⟨line, hline, hcontent, rfl⟩ := hopen _ hname
      refine ⟨line, hline, rfl, ?_⟩
      rw [(hwritten line hline).text_eq, hcontent, Finding.RefersTo, String.toList_ofList]
      rfl
  · obtain rfl := List.mem_singleton.1 hf
    exact absurd hnumber.symm (Option.some_ne_none number)

/-- A diagram with a brace too many and an attribute by itself on one line, and with a book that is
not closed. -/
def unfinished : String :=
  "\x7d string isbn\nbook \x7b\nbook ||--o\x7b copy : has\n???"

/-- What is amiss in it, and the lines that this is about. -/
theorem lines_of_findings_unfinished :
    findings unfinished {} = [.unexpectedClose 2, .strayAttribute 4 "string isbn",
        .enclosedLink 6, .malformedAttribute 7 "book" "???", .unclosed "book" 5] ∧
      ∃ line, (Text.splitLines (format unfinished).toList)[4]? = some line ∧
        Text.strip line = "book \x7b".toList := by
  have hfindings : findings unfinished {} = [.unexpectedClose 2, .strayAttribute 4 "string isbn",
      .enclosedLink 6, .malformedAttribute 7 "book" "???", .unclosed "book" 5] := by
    decide +kernel
  refine ⟨hfindings, ?_⟩
  obtain ⟨-, hlines⟩ := lines_of_findings unfinished {}
  obtain ⟨-, line, hline, hopening⟩ := hlines (.unclosed "book" 5) (by simp [hfindings]) 5 rfl
  exact ⟨line, hline, hopening⟩

end Schemata.Diagram
