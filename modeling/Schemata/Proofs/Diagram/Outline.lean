import Schemata.Proofs.Diagram.Finding

/-!
# Diagrams in which nothing is amiss

Apart from comments, a diagram in order is a sequence of relationships and blocks (`Outline`), and
what may stand in a block are attributes and further blocks (`IsBody`). It defines something, its
entities have distinct names, it is not too large, and its relationships are between its entities
(`IsInOrder`). `findings_eq_nil_iff` says that in just these diagrams nothing is amiss.

The pass that looks for findings keeps the blocks that are open. That it finds nothing is told by
their number alone (`depthAfter?`): it follows the pass line by line (`Survey.takes_of_depthAfter?`,
`Survey.exists_depthAfter?`), and counts to nought and back just on an outline
(`depthAfter?_eq_some_iff`).
-/

namespace Schemata.Diagram

/-! ## Outlines -/

/-- Whether a line says nothing about entities and relationships. -/
def Content.isQuiet : Content → Bool
  | header => true
  | blank => true
  | comment _ => true
  | _ => false

/-- The lines of a source that are neither the header nor empty nor comments. -/
def described (source : List Char) : List Content :=
  (contents source).filter (!·.isQuiet)

/-- What stands inside of a block: attributes and blocks. -/
inductive IsBody : List Content → Prop
  | nil : IsBody []
  | member (a : Attribute) {rest : List Content} (hrest : IsBody rest) :
      IsBody (.attribute a :: rest)
  | block (name : List Char) {inner rest : List Content} (hinner : IsBody inner)
      (hrest : IsBody rest) : IsBody (.entity name :: inner ++ .close :: rest)

/-- Attributes and nothing else. -/
def IsFlat (contents : List Content) : Prop :=
  ∃ attributes : List Attribute, contents = attributes.map .attribute

/-- Relationships and blocks, `body` telling what may stand inside of a block. -/
inductive Outline (body : List Content → Prop) : List Content → Prop
  | nil : Outline body []
  | link (l : Link) {rest : List Content} (hrest : Outline body rest) :
      Outline body (.link l :: rest)
  | block (name : List Char) {inner rest : List Content} (hinner : body inner)
      (hrest : Outline body rest) : Outline body (.entity name :: inner ++ .close :: rest)

/-- The entity that a line opens. -/
def Content.entities : Content → List (List Char)
  | entity name => [name]
  | _ => []

/-- The relationship that a line states. -/
def Content.links : Content → List Link
  | link l => [l]
  | _ => []

/-- Names that are equal up to letter case and underscores. -/
def Agree (name other : List Char) : Prop :=
  squash (Text.lower name) = squash (Text.lower other)

/-- Lines of a diagram in order, `body` telling what may stand inside of a block. -/
structure IsInOrder (body : List Content → Prop) (limits : Limits) (contents : List Content) :
    Prop where
  outline : Outline body contents
  defines : ∃ content ∈ contents, content.isDefinition = true
  distinct : (contents.flatMap Content.entities).Nodup
  entities_le : ((contents.flatMap Content.entities).length : ℤ) ≤ limits.entities
  links_le : ((contents.flatMap Content.links).length : ℤ) ≤ limits.links
  ends : ∀ l ∈ contents.flatMap Content.links, ∀ name ∈ [l.source, l.target],
    ∃ entity ∈ contents.flatMap Content.entities, Agree entity name

/-! ## The number of open blocks -/

/-- The number of open blocks behind a line, if the line may stand where it stands. -/
def Content.depth? : Content → ℕ → Option ℕ
  | entity _, depth => some (depth + 1)
  | close, depth + 1 => some depth
  | .attribute _, depth + 1 => some (depth + 1)
  | link _, 0 => some 0
  | header, depth => some depth
  | blank, depth => some depth
  | comment _, depth => some depth
  | _, _ => none

/-- The number of open blocks behind some lines, if all of them may stand where they stand. -/
def depthAfter? : ℕ → List Content → Option ℕ
  | depth, [] => some depth
  | depth, content :: contents => (content.depth? depth).bind (depthAfter? · contents)

variable {content : Content} {contents inner rest : List Content} {depth depth' : ℕ}

/-- **What a line may do** to the number of open blocks. -/
theorem Content.depth?_cases (h : content.depth? depth = some depth') :
    (∃ name, content = .entity name ∧ depth' = depth + 1) ∨
      (content = .close ∧ depth = depth' + 1) ∨
      (∃ a, content = .attribute a ∧ depth' = depth ∧ depth ≠ 0) ∨
      (∃ l, content = .link l ∧ depth = 0 ∧ depth' = 0) ∨
      content.isQuiet = true ∧ depth' = depth := by
  unfold Content.depth? at h
  split at h
  all_goals simp_all [Content.isQuiet]
  omega

theorem Content.depth?_of_isQuiet (h : content.isQuiet = true) (depth : ℕ) :
    content.depth? depth = some depth := by
  cases content <;> first | rfl | contradiction

theorem Content.defines_of_isQuiet (h : content.isQuiet = true) :
    content.entities = [] ∧ content.links = [] := by
  cases content <;> first | exact ⟨rfl, rfl⟩ | contradiction

theorem depthAfter?_append (contents rest : List Content) (depth : ℕ) :
    depthAfter? depth (contents ++ rest) =
      (depthAfter? depth contents).bind (depthAfter? · rest) := by
  induction contents generalizing depth with
  | nil => rfl
  | cons content contents ih =>
    rw [List.cons_append, depthAfter?, depthAfter?, Option.bind_assoc]
    exact congrArg _ (funext fun _ => ih _)

/-- Quiet lines open and close nothing. -/
theorem depthAfter?_filter (contents : List Content) (depth : ℕ) :
    depthAfter? depth (contents.filter (!·.isQuiet)) = depthAfter? depth contents := by
  induction contents generalizing depth with
  | nil => rfl
  | cons content contents ih =>
    cases hquiet : content.isQuiet with
    | true =>
      rw [List.filter_cons_of_neg (by simp [hquiet]), ih, depthAfter?,
        Content.depth?_of_isQuiet hquiet, Option.bind_some]
    | false =>
      rw [List.filter_cons_of_pos (by simp [hquiet]), depthAfter?, depthAfter?]
      exact congrArg _ (funext fun _ => ih _)

theorem IsBody.depthAfter? (h : IsBody inner) (depth : ℕ) :
    depthAfter? (depth + 1) inner = some (depth + 1) := by
  induction h generalizing depth with
  | nil => rfl
  | member a _ ih => exact ih depth
  | block name _ _ ihinner ihrest =>
    rw [List.cons_append, Diagram.depthAfter?, Content.depth?, Option.bind_some,
      depthAfter?_append, ihinner, Option.bind_some, Diagram.depthAfter?, Content.depth?,
      Option.bind_some, ihrest]

theorem Outline.depthAfter? (h : Outline IsBody contents) : depthAfter? 0 contents = some 0 := by
  induction h with
  | nil => rfl
  | link l _ ih => exact ih
  | block name hinner _ ih =>
    rw [List.cons_append, Diagram.depthAfter?, Content.depth?, Option.bind_some,
      depthAfter?_append, hinner.depthAfter?, Option.bind_some, Diagram.depthAfter?,
      Content.depth?, Option.bind_some, ih]

/-- Lines with which a diagram ends in order when a number of blocks are open. -/
def Completes : ℕ → List Content → Prop
  | 0, contents => Outline IsBody contents
  | depth + 1, contents =>
    ∃ inner rest, IsBody inner ∧ contents = inner ++ .close :: rest ∧ Completes depth rest

theorem Completes.entity (h : Completes (depth + 1) contents) (name : List Char) :
    Completes depth (.entity name :: contents) := by
  obtain ⟨inner, rest, hinner, rfl, hrest⟩ := h
  cases depth with
  | zero => exact .block name hinner hrest
  | succ depth =>
    obtain ⟨inner', rest', hinner', rfl, hrest'⟩ := hrest
    exact ⟨.entity name :: inner ++ .close :: inner', rest', .block name hinner hinner', by simp,
      hrest'⟩

/-- Blocks that are closed one by one in the end are an outline. -/
theorem completes_of_depthAfter? (hloud : ∀ content ∈ contents, content.isQuiet = false)
    (h : depthAfter? depth contents = some 0) : Completes depth contents := by
  induction contents generalizing depth with
  | nil =>
    obtain rfl : depth = 0 := Option.some.inj h
    exact Outline.nil
  | cons content contents ih =>
    rw [List.forall_mem_cons] at hloud
    obtain ⟨depth', hdepth, hafter⟩ := Option.bind_eq_some_iff.1 h
    -- the lines behind it close what is open after the line
    have hrest := ih hloud.2 hafter
    rcases Content.depth?_cases hdepth with ⟨name, rfl, rfl⟩ | ⟨rfl, rfl⟩ |
      ⟨a, rfl, rfl, hopen⟩ | ⟨l, rfl, rfl, rfl⟩ | ⟨hquiet, -⟩
    · exact hrest.entity name
    · exact ⟨[], contents, .nil, rfl, hrest⟩
    · obtain ⟨depth, rfl⟩ := Nat.exists_eq_succ_of_ne_zero hopen
      obtain ⟨inner, rest, hinner, rfl, hrest⟩ := hrest
      exact ⟨.attribute a :: inner, rest, .member a hinner, rfl, hrest⟩
    · exact Outline.link l hrest
    · rw [hloud.1] at hquiet
      contradiction

/-- **The outlines are the lines that leave no block open** and stand where they may. -/
theorem depthAfter?_eq_some_iff (contents : List Content) :
    depthAfter? 0 contents = some 0 ↔ Outline IsBody (contents.filter (!·.isQuiet)) := by
  rw [← depthAfter?_filter]
  refine ⟨fun h => completes_of_depthAfter? (fun content hmem => ?_) h, Outline.depthAfter?⟩
  simpa using (List.mem_filter.1 hmem).2

/-! ## The pass over the lines -/

namespace Survey

variable {survey survey' survey'' : Survey} {line : Line} {lines : List Line}

/-- The pass has gone over lines, and found nothing amiss in them. -/
structure Takes (survey : Survey) (contents : List Content) (depth : ℕ) (survey' : Survey) :
    Prop where
  findings_eq : survey'.findings = survey.findings
  length_openBlocks : survey'.openBlocks.length = depth
  entities_eq : survey'.entities = survey.entities ++ contents.flatMap Content.entities
  links_eq : survey'.links = survey.links ++ contents.flatMap Content.links

theorem Takes.trans (h : Takes survey contents depth survey')
    (h' : Takes survey' rest depth' survey'') :
    Takes survey (contents ++ rest) depth' survey'' where
  findings_eq := h'.findings_eq.trans h.findings_eq
  length_openBlocks := h'.length_openBlocks
  entities_eq := by
    rw [h'.entities_eq, h.entities_eq, List.flatMap_append, List.append_assoc]
  links_eq := by
    rw [h'.links_eq, h.links_eq, List.flatMap_append, List.append_assoc]

theorem step_quiet (survey : Survey) (h : line.content.isQuiet = true) :
    survey.step line = survey := by
  cases hcontent : line.content with
  | comment text => rw [step, hcontent]
  | header => exact survey.step_layout (by rw [hcontent]; rfl)
  | blank => exact survey.step_layout (by rw [hcontent]; rfl)
  | _ => rw [hcontent] at h; contradiction

/-- The pass finds nothing amiss in a line that may stand where it stands. -/
theorem takes_step (h : line.content.depth? survey.openBlocks.length = some depth) :
    Takes survey [line.content] depth (survey.step line) := by
  rcases Content.depth?_cases h with ⟨name, hcontent, rfl⟩ | ⟨hcontent, hlength⟩ |
    ⟨a, hcontent, rfl, hopen⟩ | ⟨l, hcontent, hlength, rfl⟩ | ⟨hquiet, rfl⟩
  · rw [survey.step_entity hcontent, hcontent]
    exact ⟨rfl, rfl, rfl, by simp [Content.links]⟩
  · obtain ⟨block, blocks, heq⟩ := List.exists_cons_of_length_eq_add_one hlength
    rw [survey.step_close hcontent heq, hcontent]
    rw [heq, List.length_cons, Nat.add_right_cancel_iff] at hlength
    exact ⟨rfl, hlength, by simp [Content.entities], by simp [Content.links]⟩
  · rw [survey.step_attribute hcontent (List.ne_nil_of_length_pos (Nat.pos_of_ne_zero hopen)),
      hcontent]
    exact ⟨rfl, rfl, by simp [Content.entities], by simp [Content.links]⟩
  · have hnone := List.eq_nil_of_length_eq_zero hlength
    rw [survey.step_link hcontent hnone, hcontent]
    exact ⟨rfl, hlength, by simp [Content.entities], rfl⟩
  · obtain ⟨hentities, hlinks⟩ := Content.defines_of_isQuiet hquiet
    rw [survey.step_quiet hquiet]
    exact ⟨rfl, rfl, by simp [hentities], by simp [hlinks]⟩

/-- The pass finds something amiss in any other line. -/
theorem findings_step_ne_nil (h : line.content.depth? survey.openBlocks.length = none) :
    (survey.step line).findings ≠ [] := by
  unfold step
  cases hcontent : line.content <;> cases hopen : survey.openBlocks <;>
    simp_all [Content.depth?]

theorem takes_of_depthAfter? (h : depthAfter? survey.openBlocks.length (lines.map (·.content)) =
    some depth) : Takes survey (lines.map (·.content)) depth (lines.foldl step survey) := by
  induction lines generalizing survey with
  | nil => exact ⟨rfl, Option.some.inj h, by simp, by simp⟩
  | cons line lines ih =>
    obtain ⟨depth', hdepth, hrest⟩ := Option.bind_eq_some_iff.1 h
    have hline := takes_step hdepth
    rw [← hline.length_openBlocks] at hrest
    exact hline.trans (ih hrest)

/-- What was found stays found. -/
theorem findings_prefix_step (survey : Survey) (line : Line) :
    survey.findings <+: (survey.step line).findings := by
  unfold step
  dsimp only
  split <;> simp

theorem findings_prefix_foldl (survey : Survey) (lines : List Line) :
    survey.findings <+: (lines.foldl step survey).findings := by
  induction lines generalizing survey with
  | nil => exact List.prefix_rfl
  | cons line lines ih => exact (findings_prefix_step survey line).trans (ih _)

/-- Where the pass finds nothing amiss, all lines may stand where they stand. -/
theorem exists_depthAfter? (h : (lines.foldl step survey).findings = []) :
    ∃ depth, depthAfter? survey.openBlocks.length (lines.map (·.content)) = some depth := by
  induction lines generalizing survey with
  | nil => exact ⟨_, rfl⟩
  | cons line lines ih =>
    have hline : (survey.step line).findings = [] :=
      List.prefix_nil.1 (h ▸ findings_prefix_foldl (survey.step line) lines)
    obtain ⟨depth, hrest⟩ := ih h
    cases hdepth : line.content.depth? survey.openBlocks.length with
    | none => exact absurd hline (findings_step_ne_nil hdepth)
    | some depth' =>
      rw [(takes_step hdepth).length_openBlocks] at hrest
      exact ⟨depth, by rw [List.map_cons, depthAfter?, hdepth, Option.bind_some, hrest]⟩

end Survey

/-! ## The lines of a source -/

variable {source : List Char}

/-- **The pass finds nothing amiss in outlines**, and in nothing else. -/
theorem survey_clean_iff (source : List Char) :
    ((survey (readLines source)).findings = [] ∧ (survey (readLines source)).openBlocks = []) ↔
      Outline IsBody (described source) := by
  rw [described, ← depthAfter?_eq_some_iff]
  constructor
  · rintro ⟨hfindings, hopen⟩
    obtain ⟨depth, hdepth⟩ := Survey.exists_depthAfter? hfindings
    have htakes := Survey.takes_of_depthAfter? hdepth
    rw [← htakes.length_openBlocks, ← survey, hopen] at hdepth
    exact hdepth
  · intro h
    have htakes : Survey.Takes {} (Diagram.contents source) 0 (survey (readLines source)) :=
      Survey.takes_of_depthAfter? h
    exact ⟨htakes.findings_eq, List.eq_nil_of_length_eq_zero htakes.length_openBlocks⟩

/-- What is put together from the parts of lines needs no quiet lines if these have no parts. -/
theorem flatMap_described {α : Type} {f : Content → List α}
    (h : ∀ content : Content, content.isQuiet = true → f content = []) (source : List Char) :
    (described source).flatMap f = (Diagram.contents source).flatMap f := by
  rw [described]
  induction Diagram.contents source with
  | nil => rfl
  | cons content contents ih =>
    cases hquiet : content.isQuiet with
    | true =>
      rw [List.filter_cons_of_neg (by simp [hquiet]), ih, List.flatMap_cons, h content hquiet,
        List.nil_append]
    | false =>
      rw [List.filter_cons_of_pos (by simp [hquiet]), List.flatMap_cons, ih, List.flatMap_cons]

/-- The pass takes down the entities and relationships of an outline. -/
theorem survey_of_outline (h : Outline IsBody (described source)) :
    (survey (readLines source)).entities = (described source).flatMap Content.entities ∧
      (survey (readLines source)).links = (described source).flatMap Content.links := by
  rw [described, ← depthAfter?_eq_some_iff] at h
  have htakes : Survey.Takes {} (Diagram.contents source) 0 (survey (readLines source)) :=
    Survey.takes_of_depthAfter? h
  rw [flatMap_described fun _ hquiet => (Content.defines_of_isQuiet hquiet).1,
    flatMap_described fun _ hquiet => (Content.defines_of_isQuiet hquiet).2]
  exact ⟨htakes.entities_eq, htakes.links_eq⟩

theorem any_isDefinition_iff (source : List Char) :
    (readLines source).any (·.content.isDefinition) = true ↔
      ∃ content ∈ described source, content.isDefinition = true := by
  have hloud : ∀ content : Content, content.isDefinition = true → content.isQuiet = false := by
    intro content h
    cases content <;> first | rfl | contradiction
  rw [List.any_eq_true]
  constructor
  · rintro ⟨line, hline, hdefinition⟩
    refine ⟨line.content, List.mem_filter.2 ⟨List.mem_map_of_mem hline, ?_⟩, hdefinition⟩
    rw [hloud _ hdefinition, Bool.not_false]
  · rintro ⟨content, hcontent, hdefinition⟩
    obtain ⟨line, hline, rfl⟩ := List.mem_map.1 (List.mem_filter.1 hcontent).1
    exact ⟨line, hline, hdefinition⟩

/-! ## The findings -/

/-- An end of a relationship that agrees with an entity is an entity. -/
theorem endFindings_eq_nil {names : List (List Char)} {side : String} {name : List Char} :
    endFindings (names.map Text.lower) side (Text.lower name) = [] ↔
      ∃ entity ∈ names, Agree entity name := by
  have hknown : (names.map Text.lower).contains (Text.lower name) = true ∨
      ((names.map Text.lower).map squash).contains (squash (Text.lower name)) = true ↔
      ∃ entity ∈ names, Agree entity name := by
    simp only [List.contains_iff_mem, List.mem_map, exists_exists_and_eq_and]
    constructor
    · rintro (⟨entity, hentity, heq⟩ | h)
      · exact ⟨entity, hentity, congrArg squash heq⟩
      · exact h
    · exact .inr
  rw [← hknown, ← Bool.or_eq_true, endFindings]
  split
  · exact iff_of_true rfl ‹_›
  · exact iff_of_false (List.cons_ne_nil _ _) ‹_›

theorem conclude_eq_nil {survey : Survey} {limits : Limits} :
    survey.conclude limits = [] ↔ (survey.findings = [] ∧ survey.openBlocks = []) ∧
      survey.entities.Nodup ∧ (survey.entities.length : ℤ) ≤ limits.entities ∧
      (survey.links.length : ℤ) ≤ limits.links ∧
      ∀ l ∈ survey.links, ∀ name ∈ [l.source, l.target],
        ∃ entity ∈ survey.entities, Agree entity name := by
  rw [Survey.conclude]
  simp only [List.append_eq_nil_iff, List.map_eq_nil_iff, List.reverse_eq_nil_iff,
    repeatedEntities_eq_nil, List.flatMap_eq_nil_iff, linkFindings, endFindings_eq_nil,
    List.forall_mem_cons, ite_eq_right_iff, imp_false, not_lt, List.cons_ne_nil, and_assoc]
  simp

/-- **In just the diagrams in order nothing is amiss.** Apart from the header, empty lines and
comments, the lines of the formatted source are relationships and blocks, and blocks hold attributes
and blocks; there is something in them, the names of the entities are distinct, there are not more
entities and relationships than the limits allow, and every end of a relationship is the name of
some entity up to letter case and underscores. -/
theorem findings_eq_nil_iff (source : String) (limits : Limits) :
    findings source limits = [] ↔
      IsInOrder IsBody limits (described (format source).toList) := by
  have hchars : (format source).toList = formatChars source.toList := String.toList_ofList
  rw [hchars]
  unfold findings findingsOf
  dsimp only
  split
  · rename_i hany
    rw [conclude_eq_nil, survey_clean_iff]
    constructor
    · rintro ⟨houtline, hrest⟩
      rw [(survey_of_outline houtline).1, (survey_of_outline houtline).2] at hrest
      obtain ⟨hdistinct, hentities, hlinks, hends⟩ := hrest
      exact ⟨houtline, (any_isDefinition_iff _).1 hany, hdistinct, hentities, hlinks, hends⟩
    · intro h
      rw [(survey_of_outline h.outline).1, (survey_of_outline h.outline).2]
      exact ⟨h.outline, h.distinct, h.entities_le, h.links_le, h.ends⟩
  · rename_i hno
    exact iff_of_false (List.cons_ne_nil _ _) fun h => hno ((any_isDefinition_iff _).2 h.defines)

/-- In an outline whose blocks hold attributes only, no block opens right inside of another. -/
theorem not_outline_isFlat (name other : List Char) (rest : List Content) :
    ¬Outline IsFlat (.entity name :: .entity other :: rest) := by
  intro h
  generalize hlines : Content.entity name :: .entity other :: rest = lines at h
  cases h with
  | nil => contradiction
  | link l hrest => simp at hlines
  | block name hinner hrest =>
    obtain ⟨attributes, rfl⟩ := hinner
    cases attributes <;> simp at hlines

/-- A book with a block inside of it. -/
def nested : String :=
  "book \x7b\nauthor \x7b\n\x7d\n\x7d\n"

/-- Nothing is amiss either where a block holds another one. -/
theorem not_findings_eq_nil_iff_flat :
    ¬∀ (source : String) (limits : Limits), findings source limits = [] ↔
      IsInOrder IsFlat limits (described (format source).toList) := by
  intro h
  have hnone : findings nested {} = [] := by decide +kernel
  have houtline := ((h nested {}).1 hnone).outline
  have hlines : described (format nested).toList =
      [.entity "book".toList, .entity "author".toList, .close, .close] := by
    decide +kernel
  rw [hlines] at houtline
  exact not_outline_isFlat _ _ _ houtline

end Schemata.Diagram
