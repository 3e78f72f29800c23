import Schemata.Proofs.Docs.Tag

/-!
# Links of pages

A link of a page leads to the places of the page that bear its name. Both are told by attributes of
tags: `Markup.anchors` reads them from a page, each with the text behind its tag, and
`Markup.targets` finds the places to which a link leads.

The anchors of a page are the links of its table of contents and then the headings of its sections,
in their order, and no others (`Document.links_html`, `Document.places_html`).
-/

namespace Schemata.Docs

/-! ## Anchors -/

/-- An attribute of a tag that names a place of the page, or leads to one. -/
structure Anchor where
  /-- The name of the attribute. -/
  name : String
  /-- The value of the attribute. -/
  value : String
  /-- The text behind the tag. -/
  text : String
deriving DecidableEq, Repr

/-- The attributes of a tag that name places or lead to them. -/
def Tag.anchors (tag : Tag) (text : List Char) : List Anchor :=
  (tag.attributes.map fun (name, value) =>
    ⟨String.ofList name, String.ofList value, String.ofList text⟩).filter
    fun a : Anchor => a.name ∈ ["id", "href"]

namespace Markup

/-- The tags of a page, each with the text behind it. -/
def elements (m : Markup) : List (Tag × List Char) :=
  (m.tags.map (·.2)).zip (m.tags.map (·.1) ++ [m.rest]).tail

/-- The places of a page and what leads to them, in their order. -/
def anchors (m : Markup) : List Anchor :=
  m.elements.flatMap fun (tag, text) => tag.anchors text

/-- The places of a page. -/
def places (m : Markup) : List Anchor :=
  m.anchors.filter (·.name = "id")

/-- The links of a page. -/
def links (m : Markup) : List Anchor :=
  m.anchors.filter (·.name = "href")

/-- The places to which a link leads. -/
def targets (m : Markup) (link : Anchor) : List Anchor :=
  m.places.filter fun place => link.value = "#" ++ place.value

theorem elements_follow_write (m : Markup) (tag : Tag) (s : List Char) :
    ((m.follow tag).write s).elements = m.elements ++ [(tag, s)] := by
  have htail : (m.tags.map (·.1) ++ [m.rest] ++ [s]).tail =
      (m.tags.map (·.1) ++ [m.rest]).tail ++ [s] := List.tail_append_of_ne_nil (by simp)
  have hlength : (m.tags.map (·.2)).length = ((m.tags.map (·.1) ++ [m.rest]).tail).length := by
    simp
  simp only [elements, follow, write, List.map_append, List.map_singleton, List.nil_append]
  rw [htail, List.zip_append hlength]
  rfl

end Markup

/-! ## Anchors of tokens -/

/-- The text with which tokens start, up to the first tag. -/
def textAhead : List Token → List Char
  | .text s :: tokens | .rules s :: tokens => s.toList ++ textAhead tokens
  | _ => []

/-- The anchors of tokens. -/
def tokenAnchors : List Token → List Anchor
  | [] => []
  | .start _ attributes :: tokens =>
    (attributes.map fun a => ⟨a.1, a.2, String.ofList (textAhead tokens)⟩).filter
      (fun a : Anchor => a.name ∈ ["id", "href"]) ++ tokenAnchors tokens
  | _ :: tokens => tokenAnchors tokens

theorem Markup.anchors_addAll (m : Markup) (tokens : List Token) :
    (m.addAll tokens).anchors = (m.write (textAhead tokens)).anchors ++ tokenAnchors tokens := by
  have hfollow : ∀ (m : Markup) (tag : Tag) (s : List Char),
      ((m.follow tag).write s).anchors = m.anchors ++ tag.anchors s := by
    intro m tag s
    simp [anchors, elements_follow_write]
  have hwrite : ∀ (m : Markup) (s t : List Char), (m.write s).write t = m.write (s ++ t) := by
    intro m s t
    simp [write]
  have hnil : ∀ m : Markup, m.write [] = m := by
    intro m
    simp [write]
  induction tokens generalizing m with
  | nil => simp [addAll, textAhead, tokenAnchors, hnil]
  | cons token tokens ih =>
    rw [show m.addAll (token :: tokens) = (m.add token).addAll tokens from rfl, ih]
    cases token with
    | text s | rules s => simp only [add, hwrite, textAhead, tokenAnchors]
    | start tag attributes =>
      simp [add, hfollow, textAhead, tokenAnchors, hnil, Tag.anchors, Function.comp_def]
    | stop tag => simp [add, hfollow, textAhead, tokenAnchors, hnil, Tag.anchors]
    | doctype => simp [add, hfollow, textAhead, tokenAnchors, hnil, Tag.anchors]

/-! ## Anchors of lines -/

/-- Lines have anchors, whatever follows them. -/
def HasAnchors (lines : List MarkupLine) (anchors : List Anchor) : Prop :=
  ∀ rest, tokenAnchors (lines.flatMap MarkupLine.stream ++ rest) = anchors ++ tokenAnchors rest

namespace HasAnchors

variable {lines more : List MarkupLine} {anchors others : List Anchor}

theorem append (h : HasAnchors lines anchors) (hmore : HasAnchors more others) :
    HasAnchors (lines ++ more) (anchors ++ others) := by
  intro rest
  rw [List.flatMap_append, List.append_assoc, h, hmore, List.append_assoc]

theorem before (h : HasAnchors lines []) (hmore : HasAnchors more anchors) :
    HasAnchors (lines ++ more) anchors :=
  h.append hmore

theorem behind (h : HasAnchors lines anchors) (hmore : HasAnchors more []) :
    HasAnchors (lines ++ more) anchors := by
  simpa using h.append hmore

theorem map {α : Type} {lines : α → List MarkupLine} {anchor : α → Anchor}
    (h : ∀ part, HasAnchors (lines part) [anchor part]) (parts : List α) :
    HasAnchors (parts.flatMap lines) (parts.map anchor) := by
  induction parts with
  | nil => exact fun _ => rfl
  | cons part parts ih => exact (h part).append ih

/-- Lines that have no attributes to name places or lead to them. -/
theorem plain {names : List String} (h : AreKnown names lines) (hid : "id" ∉ names)
    (hhref : "href" ∉ names) : HasAnchors lines [] := by
  have htoken : ∀ (token : Token) (rest : List Token), token.IsKnown names →
      tokenAnchors (token :: rest) = tokenAnchors rest := by
    intro token rest htoken
    cases token with
    | start tag attributes =>
      have hother : ∀ a ∈ attributes, ¬(a.1 = "id" ∨ a.1 = "href") := by
        rintro a ha (heq | heq)
        · exact hid (heq ▸ htoken.2 a ha)
        · exact hhref (heq ▸ htoken.2 a ha)
      simpa [tokenAnchors, List.filter_map, List.filter_eq_nil_iff] using hother
    | doctype | stop tag | text s | rules s => rfl
  have htokens : ∀ (tokens rest : List Token), (∀ token ∈ tokens, token.IsKnown names) →
      tokenAnchors (tokens ++ rest) = tokenAnchors rest := by
    intro tokens rest htokens
    induction tokens with
    | nil => rfl
    | cons token tokens ih =>
      have ⟨hfirst, hothers⟩ := List.forall_mem_cons.1 htokens
      rw [List.cons_append, htoken _ _ hfirst, ih hothers]
  refine fun rest => htokens _ rest fun token htoken => ?_
  obtain ⟨line, hline, htoken⟩ := List.mem_flatMap.1 htoken
  rcases List.mem_cons.1 htoken with rfl | htoken
  · trivial
  · rcases List.mem_append.1 htoken with htoken | htoken
    · exact h line hline token htoken
    · rw [List.mem_singleton.1 htoken]
      trivial

end HasAnchors

/-! ## Anchors of pages -/

/-- A link to the place of a name. -/
def Anchor.link (name text : String) : Anchor :=
  ⟨"href", "#" ++ name, text⟩

/-- The place of a name. -/
def Anchor.place (name text : String) : Anchor :=
  ⟨"id", name, text⟩

/-- The sections about a schema as a whole, each with the name of its place and its heading. -/
def generalSections : List (String × String) :=
  [("tables", "Tables"), ("relationships", "Relationships"), ("er-diagram", "ER Diagram"),
   ("notes", "Notes")]

/-- What is made of the sections of a page in their order: the tables stand behind the first of the
others. -/
def Document.sections {α : Type} (d : Document) (general : String × String → α)
    (table : TableFacts → α) : List α :=
  (generalSections.take 1).map general ++ d.tables.map table
    ++ (generalSections.drop 1).map general

/-- A link leads to a place alone just if no other place bears its name. -/
theorem Markup.targets_eq_singleton_iff {m : Markup} {name heading : String}
    (h : .place name heading ∈ m.places) (text : String) :
    m.targets (.link name text) = [.place name heading] ↔
      (m.places.map (·.value)).count name = 1 := by
  have htargets : m.targets (.link name text) = m.places.filter (·.value == name) := by
    refine List.filter_congr fun place _ => ?_
    have hvalue : "#" ++ name = "#" ++ place.value ↔ place.value = name := by
      rw [String.append_right_inj, eq_comm]
    exact decide_eq_decide.2 hvalue
  have hcount : (m.places.map (·.value)).count name = (m.targets (.link name text)).length := by
    rw [htargets, List.count, List.countP_map, List.countP_eq_length_filter]
    rfl
  have hmem : .place name heading ∈ m.targets (.link name text) := by
    rw [htargets]
    exact List.mem_filter.2 ⟨h, beq_self_eq_true _⟩
  rw [hcount]
  constructor
  · exact fun heq => by rw [heq, List.length_singleton]
  · intro hone
    obtain ⟨place, hplace⟩ := List.length_eq_one_iff.1 hone
    rw [hplace] at hmem ⊢
    rw [List.mem_singleton.1 hmem]

theorem hasAnchors_sectionHeading (name text : String) :
    HasAnchors [sectionHeading name text] [.place name text] := by
  intro rest
  simp [MarkupLine.stream, sectionHeading, element, tokenAnchors, textAhead, Anchor.place]

theorem TableFacts.hasAnchors_lines (t : TableFacts) :
    HasAnchors t.lines [.place t.anchor (t.name ++ " ")] := by
  rw [t.lines_eq]
  refine .behind (fun rest => ?_) (.plain t.areKnown_details (by decide) (by decide))
  simp [MarkupLine.stream, blockStart, element, tokenAnchors, textAhead, Anchor.place]

namespace Document

theorem hasAnchors_contents (d : Document) :
    HasAnchors d.contents
      (d.sections (fun g => Anchor.link g.1 g.2) fun t => .link t.anchor t.name) := by
  have hstart : HasAnchors
      [blockStart "toc", ⟨4, textElement "h2" "Table of Contents"⟩, ⟨4, [.start "ul" []]⟩,
       ⟨6, .start "li" [] :: linkTo "tables" "Tables"⟩, ⟨8, [.start "ul" []]⟩]
      [.link "tables" "Tables"] := by
    intro rest
    simp [MarkupLine.stream, blockStart, textElement, linkTo, element, tokenAnchors, textAhead,
      Anchor.link]
  have htables : HasAnchors
      (d.tables.flatMap fun t => [⟨10, element "li" [] (linkTo t.anchor t.name)⟩])
      (d.tables.map fun t => .link t.anchor t.name) := by
    refine .map (fun t rest => ?_) _
    simp [MarkupLine.stream, linkTo, element, tokenAnchors, textAhead, Anchor.link]
  rw [contents, List.map_eq_flatMap]
  refine (hstart.append htables).append fun rest => ?_
  simp [MarkupLine.stream, blockEnd, linkTo, element, tokenAnchors, textAhead, Anchor.link,
    generalSections]

theorem hasAnchors_closing (d : Document) :
    HasAnchors d.closing [.place "er-diagram" "ER Diagram", .place "notes" "Notes"] := by
  have hdiagram : AreKnown ["class"]
      ([blockStart "table-container", ⟨4, textElement "p" diagramIntroduction⟩,
         ⟨4, [.start "ul" []]⟩]
        ++ (diagramNotation.map (fun item => ⟨6, textElement "li" item⟩)
        ++ [⟨4, [.stop "ul"]⟩, blockEnd])) := by
    simp [AreKnown, blockStart, blockEnd, textElement, element, Token.IsKnown, pageTags, quietTags,
      or_imp, forall_and]
  have hremarks : AreKnown ["class"] ([blockStart "note"]
      ++ (d.remarks.map (fun remark => ⟨4, textElement "p" remark⟩)
      ++ [blockEnd, blockStart "timestamp", ⟨4, textElement "p" ("Generated on: " ++ d.generated)⟩,
        blockEnd])) := by
    simp [AreKnown, blockStart, blockEnd, textElement, element, Token.IsKnown, pageTags, quietTags,
      or_imp, forall_and]
  have hclosing := (hasAnchors_sectionHeading "er-diagram" "ER Diagram").append (.before
    (.plain hdiagram (by decide) (by decide)) ((hasAnchors_sectionHeading "notes" "Notes").behind
    (.plain hremarks (by decide) (by decide))))
  simpa only [closing, List.append_assoc, List.cons_append, List.nil_append] using hclosing

theorem hasAnchors_page (d : Document) :
    HasAnchors d.page (d.sections (fun g => Anchor.link g.1 g.2) (fun t => .link t.anchor t.name)
      ++ d.sections (fun g => Anchor.place g.1 g.2) fun t => .place t.anchor (t.name ++ " ")) := by
  have htables : HasAnchors (d.tables.flatMap TableFacts.lines)
      (d.tables.map fun t => .place t.anchor (t.name ++ " ")) :=
    .map TableFacts.hasAnchors_lines _
  have hgrid : HasAnchors (relationshipGrid d.relationships).lines [] :=
    .plain (areKnown_grid _) (by decide) (by decide)
  have hattributes := HasAnchors.plain (areKnown_attributeSections d.attributeSections)
    (by decide) (by decide)
  have hblock : HasAnchors [blockStart "table-container"] [] ∧ HasAnchors [blockEnd] [] := by
    constructor <;> intro rest <;>
      simp [MarkupLine.stream, blockStart, blockEnd, tokenAnchors]
  have hrelationships := (hasAnchors_sectionHeading "relationships" "Relationships").behind
    (hblock.1.before (hgrid.before (hblock.2.before hattributes)))
  have hclosing : HasAnchors (d.closing ++ [⟨0, [.stop "body"]⟩, ⟨0, [.stop "html"]⟩])
      [.place "er-diagram" "ER Diagram", .place "notes" "Notes"] := by
    refine d.hasAnchors_closing.behind fun rest => ?_
    simp [MarkupLine.stream, tokenAnchors]
  have hsections := d.hasAnchors_contents.append
    ((hasAnchors_sectionHeading "tables" "Tables").append
      (htables.append (hrelationships.append hclosing)))
  have hdescription : AreKnown [] (paragraphLine 2 d.description) := areKnown_paragraphLine 2 _
  rw [d.page_eq]
  refine .before (.plain d.areKnown_head (by decide) (by decide)) (.before (fun rest => ?_)
    (.before (.plain hdescription (by decide) (by decide)) (.before (fun rest => ?_) ?_)))
  · simp [MarkupLine.stream, textElement, element, tokenAnchors]
  · simp [MarkupLine.stream, textElement, element, tokenAnchors]
  · have hplaces : d.sections (fun g => Anchor.place g.1 g.2)
        (fun t => .place t.anchor (t.name ++ " ")) =
        [.place "tables" "Tables"] ++ (d.tables.map (fun t => .place t.anchor (t.name ++ " "))
          ++ ([.place "relationships" "Relationships"]
          ++ [.place "er-diagram" "ER Diagram", .place "notes" "Notes"])) :=
      List.append_assoc ..
    rw [hplaces]
    exact hsections

/-- **The anchors of a page** are the links of its table of contents and then the headings of its
sections. -/
theorem anchors_html (d : Document) : (readMarkup d.html.toList).anchors =
    d.sections (fun g => Anchor.link g.1 g.2) (fun t => .link t.anchor t.name)
      ++ d.sections (fun g => Anchor.place g.1 g.2) fun t => .place t.anchor (t.name ++ " ") := by
  have hpage := d.hasAnchors_page []
  have hstart : ∀ s, ((Markup.mk [] []).write s).anchors = [] := fun _ => rfl
  rw [List.append_nil, tokenAnchors, List.append_nil] at hpage
  rw [d.readMarkup_html, Markup.ofTokens, Markup.anchors_addAll, hstart, List.nil_append, hpage]

theorem mem_sections {α : Type} {d : Document} {general : String × String → α}
    {table : TableFacts → α} {a : α} (h : a ∈ d.sections general table) :
    (∃ g, general g = a) ∨ ∃ t, table t = a := by
  simp only [sections, List.mem_append, List.mem_map] at h
  rcases h with (⟨g, -, h⟩ | ⟨t, -, h⟩) | ⟨g, -, h⟩
  exacts [.inl ⟨g, h⟩, .inr ⟨t, h⟩, .inl ⟨g, h⟩]

/-- The links of a page are the entries of its table of contents. -/
theorem links_html (d : Document) : (readMarkup d.html.toList).links =
    d.sections (fun g => Anchor.link g.1 g.2) fun t => .link t.anchor t.name := by
  rw [Markup.links, d.anchors_html, List.filter_append, List.filter_eq_self.2,
    List.filter_eq_nil_iff.2, List.append_nil]
  all_goals
    intro a ha
    rcases mem_sections ha with ⟨_, rfl⟩ | ⟨_, rfl⟩ <;> simp [Anchor.link, Anchor.place]

/-- The places of a page are the headings of its sections. -/
theorem places_html (d : Document) : (readMarkup d.html.toList).places =
    d.sections (fun g => Anchor.place g.1 g.2) fun t => .place t.anchor (t.name ++ " ") := by
  rw [Markup.places, d.anchors_html, List.filter_append, List.filter_eq_nil_iff.2,
    List.filter_eq_self.2, List.nil_append]
  all_goals
    intro a ha
    rcases mem_sections ha with ⟨_, rfl⟩ | ⟨_, rfl⟩ <;> simp [Anchor.link, Anchor.place]

theorem values_places (d : Document) : (readMarkup d.html.toList).places.map (·.value) =
    d.sections (·.1) (·.anchor) := by
  rw [d.places_html]
  simp [sections, Function.comp_def, Anchor.place]

end Document

end Schemata.Docs
