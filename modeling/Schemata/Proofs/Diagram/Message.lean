import Schemata.Proofs.Diagram.Position

/-!
# The messages of findings

A finding is told in a single line that does not end with a blank (`IsRemark`), provided that this
is true of the texts that it quotes (`Finding.IsTold.isRemark`). These are lines of the diagram and
names of entities, some of them in lower case. The pass over the lines comes across no others
(`Survey.IsTold.step`), so that every finding can be told (`isTold_of_mem_findings`).
-/

namespace Schemata.Diagram

open Text (isBlank isLineBreak)

variable {s t : List Char} {f : Finding}

/-- A text on a single line that does not end with a blank. -/
structure IsRemark (s : List Char) : Prop where
  isLineBreak : ∀ c ∈ s, isLineBreak c = false
  last : ∃ c, s.getLast? = some c ∧ isBlank c = false

namespace IsRemark

theorem append (hs : ∀ c ∈ s, Text.isLineBreak c = false) (ht : IsRemark t) :
    IsRemark (s ++ t) where
  isLineBreak := List.forall_mem_append.2 ⟨hs, ht.isLineBreak⟩
  last := by
    obtain ⟨c, hc, hblank⟩ := ht.last
    exact ⟨c, by rw [List.getLast?_append, hc, Option.some_or], hblank⟩

/-- A fixed text, tested character by character. -/
theorem fixed {text : List Char}
    (h : (text.all (fun c => !Text.isLineBreak c) && text.getLast?.any (!isBlank ·)) = true) :
    IsRemark (String.ofList text).toList := by
  rw [String.toList_ofList]
  obtain ⟨hbreak, hlast⟩ := Bool.and_eq_true_iff.1 h
  obtain ⟨c, hc, hblank⟩ := (Option.any_eq_true _ _).1 hlast
  exact ⟨Text.isLineBreak_of_all hbreak, c, hc, by simpa using hblank⟩

/-- A text without blanks. -/
theorem of_forall (hne : s ≠ []) (h : ∀ c ∈ s, isBlank c = false) : IsRemark s :=
  ⟨fun c hc => Text.isLineBreak_of_isBlank_eq_false (h c hc), s.getLast hne,
    List.getLast?_eq_some_getLast hne, h _ (List.getLast_mem hne)⟩

theorem of_isName (h : IsName s) : IsRemark s :=
  of_forall h.ne_nil fun _ hc => h.isBlank hc

theorem numeral (n : ℕ) : IsRemark (toString n).toList := by
  rw [Nat.toString_eq_ofList_toDigits, String.toList_ofList]
  refine of_forall Nat.toDigits_ne_nil fun c hc => ?_
  have hdigit : c.isDigit = true := Nat.isDigit_of_mem_toDigits (by decide) (by decide) hc
  exact Text.isBlank_of_isWord (Text.isWord_of_isSnake (Text.isSnake_of_isDigit hdigit))

theorem intercalate {separator : List Char}
    (hseparator : ∀ c ∈ separator, Text.isLineBreak c = false)
    {parts : List (List Char)} (hne : parts ≠ []) (h : ∀ part ∈ parts, IsRemark part) :
    IsRemark (separator.intercalate parts) := by
  induction parts with
  | nil => contradiction
  | cons part parts ih =>
    rw [List.forall_mem_cons] at h
    cases parts with
    | nil => simpa using h.1
    | cons next parts =>
      rw [List.intercalate_cons_cons]
      refine append ?_ (ih (by simp) h.2)
      exact List.forall_mem_append.2 ⟨h.1.isLineBreak, hseparator⟩

end IsRemark

/-- What a finding quotes are remarks, and what it suggests is something. -/
structure Finding.IsTold (f : Finding) : Prop where
  parts : ∀ part ∈ f.parts, IsRemark part.toList
  suggests : f ≠ .suggestion []

theorem isLineBreak_fixed {text : List Char} (h : (text.all fun c => !isLineBreak c) = true) :
    ∀ c ∈ (String.ofList text).toList, isLineBreak c = false := by
  rw [String.toList_ofList]
  exact Text.isLineBreak_of_all h

/-- **What is told in full is told in a single line** that does not end with a blank. -/
theorem Finding.IsTold.isRemark (h : f.IsTold) : IsRemark f.message.toList := by
  have hnumber : ∀ n : ℕ, ∀ c ∈ (toString n).toList, isLineBreak c = false :=
    fun n => (IsRemark.numeral n).isLineBreak
  have hparts := h.parts
  delta Finding.message
  -- fixed texts, numbers and what is quoted, put together from right to left
  cases f <;> simp only [String.toList_append, List.append_assoc] <;>
    simp only [Finding.parts, List.forall_mem_cons] at hparts
  case empty => exact .fixed (by decide +kernel)
  case unexpectedClose number =>
    refine .append ?_ (.append (hnumber number) (.fixed (by decide +kernel)))
    exact isLineBreak_fixed (by decide +kernel)
  case enclosedLink number =>
    refine .append ?_ (.append (hnumber number) (.append ?_ (.fixed (by decide +kernel)))) <;>
      exact isLineBreak_fixed (by decide +kernel)
  case strayAttribute number text =>
    refine .append ?_ (.append (hnumber number) (.append ?_ (.append hparts.1.isLineBreak
      (.fixed (by decide +kernel))))) <;> exact isLineBreak_fixed (by decide +kernel)
  case malformedAttribute number entity text =>
    refine .append ?_ (.append (hnumber number) (.append ?_ (.append hparts.1.isLineBreak
      (.append ?_ (.append hparts.2.1.isLineBreak (.fixed (by decide +kernel))))))) <;>
      exact isLineBreak_fixed (by decide +kernel)
  case malformedLink number text =>
    refine .append ?_ (.append (hnumber number) (.append ?_ (.append hparts.1.isLineBreak
      (.append ?_ (.fixed (by decide +kernel)))))) <;>
      exact isLineBreak_fixed (by decide +kernel)
  case unclosed entity number =>
    refine .append ?_ (.append hparts.1.isLineBreak (.append ?_ (.numeral number))) <;>
      exact isLineBreak_fixed (by decide +kernel)
  case repeatedEntity entity count =>
    refine .append ?_ (.append hparts.1.isLineBreak (.append ?_ (.append (hnumber count)
      (.fixed (by decide +kernel))))) <;> exact isLineBreak_fixed (by decide +kernel)
  case manyEntities count =>
    refine .append ?_ (.append (hnumber count) (.fixed (by decide +kernel)))
    exact isLineBreak_fixed (by decide +kernel)
  case manyLinks count =>
    refine .append ?_ (.append (hnumber count) (.append ?_ (.fixed (by decide +kernel)))) <;>
      exact isLineBreak_fixed (by decide +kernel)
  case undefinedEnd side entity =>
    refine .append ?_ (.append hparts.1.isLineBreak (.append ?_ hparts.2.1)) <;>
      exact isLineBreak_fixed (by decide +kernel)
  case suggestion entities =>
    rw [String.toList_intercalate]
    refine .append ?_ (.intercalate ?_ ?_ ?_)
    · exact isLineBreak_fixed (by decide +kernel)
    · exact isLineBreak_fixed (by decide)
    · simpa using fun hnil : entities = [] => h.suggests (hnil ▸ rfl)
    · simpa using hparts

/-! ## What findings quote -/

/-- Entities and relationships are what their readers read. -/
theorem Content.reads_of (s : List Char) :
    (∀ name, Content.of s = .entity name → readEntity s = some name) ∧
      ∀ l, Content.of s = .link l → readLink s = some l := by
  unfold Content.of
  split_ifs
  · simp
  · simp
  · simp
  · simp
  · cases readEntity s with
    | some name => simp
    | none =>
      cases readLink s with
      | some l => simp
      | none => cases readAttribute s <;> simp

namespace Survey

variable {survey : Survey} {line : Line} {lines : List Line}

/-- The pass has met with nothing that could not be told in a single line. -/
structure IsTold (survey : Survey) : Prop where
  findings : ∀ f ∈ survey.findings, f.IsTold
  openBlocks : ∀ block ∈ survey.openBlocks, IsName block.1
  entities : ∀ name ∈ survey.entities, IsName name
  links : ∀ l ∈ survey.links, IsName l.source ∧ IsName l.target

theorem entities_step (survey : Survey) (line : Line) : ∀ name ∈ (survey.step line).entities,
    name ∈ survey.entities ∨ line.content = .entity name := by
  unfold step
  dsimp only
  split
  · rename_i hname
    intro name hmem
    rw [List.mem_append, List.mem_singleton] at hmem
    exact hmem.imp_right fun heq : name = _ => heq ▸ hname
  all_goals exact fun _ hmem => .inl hmem

theorem links_step (survey : Survey) (line : Line) : ∀ l ∈ (survey.step line).links,
    l ∈ survey.links ∨ line.content = .link l := by
  unfold step
  dsimp only
  split
  case h_4 hl _ =>
    intro l hmem
    rw [List.mem_append, List.mem_singleton] at hmem
    exact hmem.imp_right fun heq : l = _ => heq ▸ hl
  all_goals exact fun _ hmem => .inl hmem

/-- **What a line adds can be told in a single line.** -/
theorem IsTold.step (h : survey.IsTold) (hline : line.IsWritten)
    (htext : line.text = [] ∨ IsRemark line.text) : (survey.step line).IsTold := by
  by_cases hlayout : line.content.isLayout = true
  · rwa [survey.step_layout hlayout]
  have htext : IsRemark line.text := by
    refine htext.resolve_left fun hnil => hlayout ?_
    rw [hline.content_eq, hnil]
    rfl
  have hcontent := hline.content_eq.symm
  have hentity : ∀ name, line.content = .entity name → IsName name := fun name hname =>
    readEntity_spec ((Content.reads_of _).1 name (hcontent.trans hname))
  have hlink : ∀ l, line.content = .link l → IsName l.source ∧ IsName l.target := by
    intro l hl
    have hspec := readLink_spec ((Content.reads_of _).2 l (hcontent.trans hl)) htext.isLineBreak
    exact ⟨hspec.source, hspec.target⟩
  constructor
  · have hfinding : ∀ f : Finding, f.lineNumber? = some line.number →
        (∀ part ∈ f.parts, part.toList = line.text ∨
          ∃ block ∈ survey.openBlocks, part.toList = block.1) → f.IsTold := by
      intro f hnumber hparts
      refine ⟨fun part hpart => ?_, fun hnil => by simp [hnil, Finding.lineNumber?] at hnumber⟩
      rcases hparts part hpart with heq | ⟨block, hblock, heq⟩ <;> rw [heq]
      · exact htext
      · exact .of_isName (h.openBlocks block hblock)
    rcases findings_step_cases survey hline with heq | ⟨f, heq, ⟨hnumber, -⟩, hparts⟩ <;>
      rw [heq]
    · exact h.findings
    · rw [List.forall_mem_append, List.forall_mem_singleton]
      exact ⟨h.findings, hfinding f hnumber hparts⟩
  · intro block hblock
    rcases openBlocks_step survey line block hblock with hblock | ⟨hname, -⟩
    · exact h.openBlocks block hblock
    · exact hentity _ hname
  · exact fun name hname =>
      (entities_step survey line name hname).elim (h.entities name) (hentity name)
  · exact fun l hl => (links_step survey line l hl).elim (h.links l) (hlink l)

theorem IsTold.foldl (h : survey.IsTold)
    (hlines : ∀ line ∈ lines, line.IsWritten ∧ (line.text = [] ∨ IsRemark line.text)) :
    (lines.foldl Survey.step survey).IsTold := by
  induction lines generalizing survey with
  | nil => exact h
  | cons line lines ih =>
    rw [List.forall_mem_cons] at hlines
    exact ih (h.step hlines.1.1 hlines.1.2) hlines.2

end Survey

/-! ## Findings -/

variable {source : String} {limits : Limits} {names : List (List Char)}

/-- The texts of the lines of a formatted source are remarks unless they are empty. -/
theorem isRemark_of_mem_readLines {source : List Char} {line : Line}
    (h : line ∈ readLines (formatChars source)) :
    line.IsWritten ∧ (line.text = [] ∨ IsRemark line.text) := by
  obtain ⟨hwritten, -, text, htext, heq⟩ := exists_of_mem_readLines h
  refine ⟨hwritten, ?_⟩
  cases hlast : line.text.getLast? with
  | none => exact .inl (List.getLast?_eq_none_iff.1 hlast)
  | some c =>
    refine .inr ⟨fun d hd => ?_, c, hlast, ?_⟩
    · exact Text.isLineBreak_of_mem_splitLines (List.mem_of_getElem? htext)
        (Text.mem_trim (heq ▸ hd))
    · exact Text.getLast?_trim (heq ▸ hlast)

theorem isTold_of_mem_endFindings (hnames : ∀ name ∈ names, IsRemark name) {side : String}
    (hside : IsRemark side.toList) {name : List Char} (hname : IsRemark name)
    (hf : f ∈ endFindings names side name) : f.IsTold := by
  rcases endFindings_cases hf with rfl | ⟨similar, hsubset, hne, rfl⟩
  · exact ⟨by simp [Finding.parts, hside, hname], by simp⟩
  · refine ⟨?_, by simpa using hne⟩
    simp only [Finding.parts, List.forall_mem_map, String.toList_ofList]
    exact fun part hpart => hnames part (hsubset hpart)

theorem Survey.IsTold.conclude {survey : Survey} (h : survey.IsTold)
    (hf : f ∈ survey.conclude limits) : f.IsTold := by
  have hname : ∀ {name : List Char}, IsName name → IsRemark (String.ofList name).toList :=
    fun hname => String.toList_ofList ▸ .of_isName hname
  have hlower : ∀ {name : List Char}, IsName name → IsRemark (Text.lower name) := fun hname =>
    .of_forall (Text.lower_ne_nil hname.ne_nil) (Text.isBlank_lower fun _ hc => hname.isBlank hc)
  rcases Survey.mem_conclude.1 hf with hf | ⟨block, hblock, rfl⟩ | ⟨name, hmem, -, rfl⟩ |
    ⟨-, rfl⟩ | ⟨-, rfl⟩ | ⟨l, hl, hf⟩
  · exact h.findings f hf
  · have hblock := hname (h.openBlocks block hblock)
    exact ⟨by simpa [Finding.parts] using hblock, by simp⟩
  · have hentity := hname (h.entities name hmem)
    exact ⟨by simpa [Finding.parts] using hentity, by simp⟩
  · exact ⟨by simp [Finding.parts], by simp⟩
  · exact ⟨by simp [Finding.parts], by simp⟩
  · have hentities : ∀ name ∈ survey.entities.map Text.lower, IsRemark name := by
      rw [List.forall_mem_map]
      exact fun name hmem => hlower (h.entities name hmem)
    obtain ⟨hsource, htarget⟩ := h.links l hl
    rcases List.mem_append.1 hf with hf | hf
    · exact isTold_of_mem_endFindings hentities (.fixed (by decide)) (hlower hsource) hf
    · exact isTold_of_mem_endFindings hentities (.fixed (by decide)) (hlower htarget) hf

/-- **Every finding can be told in a single line.** -/
theorem isTold_of_mem_findings (hf : f ∈ findings source limits) : f.IsTold := by
  unfold findings findingsOf at hf
  dsimp only at hf
  split at hf
  · have hstart : Survey.IsTold {} := ⟨by simp, by simp, by simp, by simp⟩
    exact (hstart.foldl fun line hline => isRemark_of_mem_readLines hline).conclude hf
  · rw [List.mem_singleton.1 hf]
    exact ⟨by simp [Finding.parts], by simp⟩

end Schemata.Diagram
