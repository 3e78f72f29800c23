import Mathlib.Data.List.Forall2
import Schemata.Proofs.Docs.Tag

/-!
# Pages as filled-in templates

A template is a page with places left open, each of them a text or the value of an attribute
(`TemplatePart`); filling it in puts the strings of a document into the places, in their order
(`fill?`). Documents of one shape differ in their strings only (`Document.SameShape`), and their
pages are read as one template that is filled in with these strings as they are
(`Document.exists_template`).

The template is put together as the page is: `Templated` says of tokens that depend on a thing that
things of one shape share a template, and there is a lemma for each way of laying tokens out.
-/

namespace Schemata.Docs

/-! ## Templates -/

/-- A part of a template. -/
inductive TemplatePart where
  /-- A token of all pages. -/
  | fixed (token : Token)
  /-- A place for a text. -/
  | text
  /-- The start of an element with one attribute, and a place at the end of its value. -/
  | value (tag name front : String)

/-- The tokens of a template with strings in its places, if there is a string for each place and a
place for each string. -/
def fill? : List TemplatePart → List String → Option (List Token)
  | [], [] => some []
  | .fixed token :: parts, strings => (fill? parts strings).map (token :: ·)
  | .text :: parts, s :: strings => (fill? parts strings).map (.text s :: ·)
  | .value tag name front :: parts, s :: strings =>
    (fill? parts strings).map (.start tag [(name, front ++ s)] :: ·)
  | _, _ => none

theorem fill?_append {parts more : List TemplatePart} {strings others : List String}
    {tokens rest : List Token} (h : fill? parts strings = some tokens)
    (hmore : fill? more others = some rest) :
    fill? (parts ++ more) (strings ++ others) = some (tokens ++ rest) := by
  fun_induction fill? parts strings generalizing tokens with
  | case1 =>
    obtain rfl := Option.some.inj h
    exact hmore
  | case2 token parts strings ih | case3 parts s strings ih
  | case4 tag name front parts s strings ih =>
    obtain ⟨tokens, htokens, rfl⟩ := Option.map_eq_some_iff.1 h
    simp [fill?, ih htokens]
  | case5 => contradiction

/-- The tag of a token, without the values of its attributes. -/
def Token.blankTags : Token → List (List Char × List (List Char))
  | doctype => [("!DOCTYPE".toList, ["html".toList])]
  | start tag attributes => [(tag.toList, attributes.map (·.1.toList))]
  | stop tag => [('/' :: tag.toList, [])]
  | text _ | rules _ => []

theorem Markup.blankTags_addAll (m : Markup) (tokens : List Token) :
    (m.addAll tokens).blankTags = m.blankTags ++ tokens.flatMap Token.blankTags := by
  have hadd : ∀ (m : Markup) token, (m.add token).blankTags = m.blankTags ++ token.blankTags := by
    intro m token
    cases token <;> simp [Markup.add, blankTags, follow, write, Token.blankTags, Function.comp_def]
  induction tokens generalizing m with
  | nil => simp [addAll]
  | cons token tokens ih =>
    rw [List.flatMap_cons, ← List.append_assoc, ← hadd, ← ih]
    rfl

/-- What a template is filled in with changes no tag. -/
theorem blankTags_of_fill? {parts : List TemplatePart} {strings others : List String}
    {tokens more : List Token} (h : fill? parts strings = some tokens)
    (hmore : fill? parts others = some more) :
    tokens.flatMap Token.blankTags = more.flatMap Token.blankTags := by
  fun_induction fill? parts strings generalizing tokens others more with
  | case1 =>
    obtain rfl := Option.some.inj h
    cases others with
    | nil => rw [← Option.some.inj hmore]
    | cons => contradiction
  | case2 token parts strings ih =>
    obtain ⟨tokens, htokens, rfl⟩ := Option.map_eq_some_iff.1 h
    obtain ⟨more, hrest, rfl⟩ := Option.map_eq_some_iff.1 hmore
    rw [List.flatMap_cons, ih htokens hrest, List.flatMap_cons]
  | case3 parts s strings ih | case4 tag name front parts s strings ih =>
    obtain ⟨tokens, htokens, rfl⟩ := Option.map_eq_some_iff.1 h
    cases others with
    | nil => contradiction
    | cons s' others =>
      obtain ⟨more, hrest, rfl⟩ := Option.map_eq_some_iff.1 hmore
      rw [List.flatMap_cons, ih htokens hrest, List.flatMap_cons]
      rfl
  | case5 => contradiction

/-! ## Tokens with a template -/

section Templated

variable {α β : Type} {r : α → α → Prop} {tokens more : α → List Token}
  {strings others : α → List String}

/-- Things that are related have one template for their tokens, and it is filled in with their
strings. -/
def Templated (r : α → α → Prop) (tokens : α → List Token) (strings : α → List String) : Prop :=
  ∀ a, ∃ parts, ∀ b, r a b → ∃ filled, fill? parts (strings b) = some filled ∧
    ∀ m : Markup, m.addAll filled = m.addAll (tokens b)

namespace Templated

theorem fixed (tokens : List Token) : Templated r (fun _ => tokens) fun _ => [] := by
  intro _
  refine ⟨tokens.map .fixed, fun _ _ => ⟨tokens, ?_, fun _ => rfl⟩⟩
  induction tokens with
  | nil => rfl
  | cons token tokens ih => simp [fill?, ih]

theorem text (s : α → String) : Templated r (fun a => [.text (s a)]) fun a => [s a] :=
  fun _ => ⟨[.text], fun _ _ => ⟨_, rfl, fun _ => rfl⟩⟩

theorem value (tag name front : String) (s : α → String) :
    Templated r (fun a => [.start tag [(name, front ++ s a)]]) fun a => [s a] :=
  fun _ => ⟨[.value tag name front], fun _ _ => ⟨_, rfl, fun _ => rfl⟩⟩

theorem append (h : Templated r tokens strings) (hmore : Templated r more others) :
    Templated r (fun a => tokens a ++ more a) fun a => strings a ++ others a := by
  intro a
  obtain ⟨parts, hparts⟩ := h a
  obtain ⟨parts', hparts'⟩ := hmore a
  refine ⟨parts ++ parts', fun b hb => ?_⟩
  obtain ⟨filled, hfill, hsame⟩ := hparts b hb
  obtain ⟨filled', hfill', hsame'⟩ := hparts' b hb
  refine ⟨filled ++ filled', fill?_append hfill hfill', fun m => ?_⟩
  rw [Markup.addAll_append, Markup.addAll_append, hsame, hsame']

/-- What adds the same to every page has the same template. -/
theorem congr (h : Templated r tokens strings)
    (hsame : ∀ a (m : Markup), m.addAll (tokens a) = m.addAll (more a)) :
    Templated r more strings := by
  intro a
  obtain ⟨parts, hparts⟩ := h a
  refine ⟨parts, fun b hb => ?_⟩
  obtain ⟨filled, hfill, hfilled⟩ := hparts b hb
  exact ⟨filled, hfill, fun m => (hfilled m).trans (hsame b m)⟩

/-- What depends on a part of a thing. -/
theorem comp {r' : β → β → Prop} {tokens : β → List Token} {strings : β → List String}
    (h : Templated r' tokens strings) {f : α → β} (hf : ∀ a b, r a b → r' (f a) (f b)) :
    Templated r (fun a => tokens (f a)) fun a => strings (f a) := by
  intro a
  obtain ⟨parts, hparts⟩ := h (f a)
  exact ⟨parts, fun b hb => hparts (f b) (hf a b hb)⟩

/-- What depends on something in which related things agree. -/
theorem of_key {key : α → β} {tokens : β → α → List Token} {strings : β → α → List String}
    (hkey : ∀ a b, r a b → key a = key b) (h : ∀ k, Templated r (tokens k) (strings k)) :
    Templated r (fun a => tokens (key a) a) fun a => strings (key a) a := by
  intro a
  obtain ⟨parts, hparts⟩ := h (key a) a
  refine ⟨parts, fun b hb => ?_⟩
  have hfilled := hparts b hb
  rwa [hkey a b hb] at hfilled

/-- What is left out under a condition on which related things agree. -/
theorem ite (h : Templated r tokens strings) {p : α → Bool} (hp : ∀ a b, r a b → p a = p b) :
    Templated r (fun a => if p a then [] else tokens a)
      fun a => if p a then [] else strings a := by
  have hcases : ∀ k : Bool, Templated r (fun a => if k then [] else tokens a)
      fun a => if k then [] else strings a := by
    intro k
    cases k with
    | true => exact fixed []
    | false => exact h
  exact of_key hp hcases

/-- What is laid out for one thing after another. -/
theorem flatMap (h : Templated r tokens strings) :
    Templated (List.Forall₂ r) (List.flatMap tokens) (List.flatMap strings) := by
  intro as
  induction as with
  | nil =>
    refine ⟨[], fun bs hbs => ⟨[], ?_⟩⟩
    rw [List.forall₂_nil_left_iff.1 hbs]
    exact ⟨rfl, fun _ => rfl⟩
  | cons a as ih =>
    obtain ⟨parts, hparts⟩ := h a
    obtain ⟨parts', hparts'⟩ := ih
    refine ⟨parts ++ parts', fun bs hbs => ?_⟩
    obtain ⟨b, bs', hb, hbs', rfl⟩ := List.forall₂_cons_left_iff.1 hbs
    obtain ⟨filled, hfill, hsame⟩ := hparts b hb
    obtain ⟨filled', hfill', hsame'⟩ := hparts' bs' hbs'
    refine ⟨filled ++ filled', fill?_append hfill hfill', fun m => ?_⟩
    rw [List.flatMap_cons, Markup.addAll_append, Markup.addAll_append, hsame, hsame']

/-- A text between fixed words. -/
theorem words (front : String) (s : α → String) (back : String) :
    Templated r (fun a => [.text (front ++ s a ++ back)]) fun a => [s a] := by
  refine ((fixed [.text front]).append ((text s).append (fixed [.text back]))).congr fun a m => ?_
  simp [Markup.addAll, Markup.add, Markup.write]

theorem before (h : Templated r tokens strings) (front : List Token) :
    Templated r (fun a => front ++ tokens a) strings :=
  (fixed front).append h

theorem behind (h : Templated r tokens strings) (back : List Token) :
    Templated r (fun a => tokens a ++ back) strings := by
  simpa using h.append (fixed back)

theorem element (h : Templated r tokens strings) (tag : String)
    (attributes : List (String × String)) :
    Templated r (fun a => Docs.element tag attributes (tokens a)) strings :=
  (h.before [.start tag attributes]).behind [.stop tag]

end Templated

/-- The same for lines. -/
def TemplatedLines (r : α → α → Prop) (lines : α → List MarkupLine) (strings : α → List String) :
    Prop :=
  Templated r (fun a => (lines a).flatMap MarkupLine.stream) strings

namespace TemplatedLines

variable {lines rest : α → List MarkupLine}

theorem fixed (lines : List MarkupLine) : TemplatedLines r (fun _ => lines) fun _ => [] :=
  Templated.fixed _

theorem line (indent : Nat) (h : Templated r tokens strings) :
    TemplatedLines r (fun a => [⟨indent, tokens a⟩]) strings := by
  have hline := (h.behind [.text "\n"]).before
    [.text (String.ofList (List.replicate indent ' '))]
  exact hline.congr fun a m => by simp [MarkupLine.stream]

theorem append (h : TemplatedLines r lines strings) (hrest : TemplatedLines r rest others) :
    TemplatedLines r (fun a => lines a ++ rest a) fun a => strings a ++ others a :=
  (Templated.append h hrest).congr fun a m => by rw [List.flatMap_append]

theorem before (h : TemplatedLines r lines strings) (front : List MarkupLine) :
    TemplatedLines r (fun a => front ++ lines a) strings :=
  (fixed front).append h

theorem behind (h : TemplatedLines r lines strings) (back : List MarkupLine) :
    TemplatedLines r (fun a => lines a ++ back) strings := by
  simpa using h.append (fixed back)

theorem of_eq (h : TemplatedLines r lines strings) (hrest : ∀ a, lines a = rest a)
    (hothers : ∀ a, strings a = others a) : TemplatedLines r rest others :=
  funext hrest ▸ funext hothers ▸ h

theorem comp {r' : β → β → Prop} {lines : β → List MarkupLine} {strings : β → List String}
    (h : TemplatedLines r' lines strings) {f : α → β} (hf : ∀ a b, r a b → r' (f a) (f b)) :
    TemplatedLines r (fun a => lines (f a)) fun a => strings (f a) :=
  Templated.comp h hf

theorem of_key {key : α → β} {lines : β → α → List MarkupLine} {strings : β → α → List String}
    (hkey : ∀ a b, r a b → key a = key b) (h : ∀ k, TemplatedLines r (lines k) (strings k)) :
    TemplatedLines r (fun a => lines (key a) a) fun a => strings (key a) a :=
  Templated.of_key hkey h

theorem ite (h : TemplatedLines r lines strings) {p : α → Bool} (hp : ∀ a b, r a b → p a = p b) :
    TemplatedLines r (fun a => if p a then [] else lines a)
      fun a => if p a then [] else strings a :=
  (Templated.ite h hp).congr fun a m => by
    dsimp only
    cases p a <;> rfl

/-- Lines that are left out where they would show nothing. -/
theorem ite_of_nil (h : TemplatedLines r lines strings) {p : α → Bool}
    (hp : ∀ a b, r a b → p a = p b) (hnil : ∀ a, p a = true → strings a = []) :
    TemplatedLines r (fun a => if p a then [] else lines a) strings := by
  have hstrings : (fun a => if p a then [] else strings a) = strings := by
    funext a
    split
    · rw [hnil a ‹_›]
    · rfl
  exact hstrings ▸ h.ite hp

theorem flatMap (h : TemplatedLines r lines strings) :
    TemplatedLines (List.Forall₂ r) (List.flatMap lines) (List.flatMap strings) :=
  (Templated.flatMap h).congr fun as m => by rw [List.flatMap_assoc]

end TemplatedLines

end Templated

/-! ## Documents of one shape -/

/-- Cells that differ in their texts only. -/
def Cell.SameShape : Cell → Cell → Prop
  | text _, text _ => True
  | check on, check on' => on = on'
  | badge _ highlighted, badge _ highlighted' => highlighted = highlighted'
  | _, _ => False

/-- Columns with the same flags. -/
structure ColumnFacts.SameShape (c e : ColumnFacts) : Prop where
  /-- They agree in whether they belong to the primary key. -/
  isPrimaryKey : c.isPrimaryKey = e.isPrimaryKey
  /-- They agree in whether they are foreign keys. -/
  isForeignKey : c.isForeignKey = e.isForeignKey
  /-- They agree in whether they may be left open. -/
  isNullable : c.isNullable = e.isNullable
  /-- They agree in whether they are unique. -/
  isUnique : c.isUnique = e.isUnique

/-- Tables with the same entity type, with columns of the same flags and as many references. -/
structure TableFacts.SameShape (t u : TableFacts) : Prop where
  /-- They stand for the same. -/
  entityType : t.entityType = u.entityType
  /-- Both are described, or neither is. -/
  description : t.description.isEmpty = u.description.isEmpty
  /-- Their columns have the same flags. -/
  columns : List.Forall₂ ColumnFacts.SameShape t.columns u.columns
  /-- They have as many references. -/
  references : t.references.length = u.references.length

/-- Documents of the same lengths, flags and entity types, in which the same descriptions are
empty. -/
structure Document.SameShape (d e : Document) : Prop where
  /-- Both are described, or neither is. -/
  description : d.description.isEmpty = e.description.isEmpty
  /-- Their tables have the same shapes. -/
  tables : List.Forall₂ TableFacts.SameShape d.tables e.tables
  /-- Their relationships agree in whether they identify. -/
  relationships : List.Forall₂ (fun r r' => r.isIdentifying = r'.isIdentifying) d.relationships
    e.relationships
  /-- Their relationships with attributes have as many of them. -/
  attributeSections : List.Forall₂ (fun a a' => a.rows.length = a'.rows.length)
    d.attributeSections e.attributeSections

theorem Document.SameShape.refl (d : Document) : d.SameShape d where
  description := rfl
  tables := List.forall₂_same.2 fun _ _ =>
    ⟨rfl, rfl, List.forall₂_same.2 fun _ _ => ⟨rfl, rfl, rfl, rfl⟩, rfl⟩
  relationships := List.forall₂_same.2 fun _ _ => rfl
  attributeSections := List.forall₂_same.2 fun _ _ => rfl

/-! ## The strings of a document -/

/-- The texts of a cell. -/
def Cell.strings : Cell → List String
  | text s => [s]
  | check _ => []
  | badge s _ => [s]

/-- A description, unless it is empty. -/
def describing (text : String) : List String :=
  if text.isEmpty then [] else [text]

/-- What is shown of a column. -/
def ColumnFacts.strings (c : ColumnFacts) : List String :=
  [c.name, c.dataType, c.defaultValue, c.description]

/-- What is shown of a reference. -/
def ReferenceFacts.strings (r : ReferenceFacts) : List String :=
  [r.column, r.target, r.onDelete, r.onUpdate]

/-- What is shown in the section about a table. -/
def TableFacts.strings (t : TableFacts) : List String :=
  [t.anchor, t.name, t.entityType.label] ++ describing t.description
    ++ t.columns.flatMap ColumnFacts.strings ++ t.references.flatMap ReferenceFacts.strings

/-- What is shown of a relationship. -/
def RelationshipFacts.strings (r : RelationshipFacts) : List String :=
  [r.source, r.name, r.target, r.kind, r.sourceCardinality, r.targetCardinality, r.description]

/-- What is shown of the attributes of a relationship. -/
def AttributeSection.strings (a : AttributeSection) : List String :=
  a.title :: a.rows.flatMap fun row => [row.name, row.dataType, row.description]

/-- What is shown of a document, in the order of the page: the title in the head and above the
page, the anchors and names in the table of contents, the sections, and what is said at the end. -/
def Document.strings (d : Document) : List String :=
  [d.title, d.title] ++ describing d.description
    ++ [toString d.tableCount, toString d.relationshipCount]
    ++ d.tables.flatMap (fun t => [t.anchor, t.name]) ++ d.tables.flatMap TableFacts.strings
    ++ d.relationships.flatMap RelationshipFacts.strings
    ++ d.attributeSections.flatMap AttributeSection.strings
    ++ [d.generator, d.created, d.updated, toString d.version, d.generated]

/-! ## Grids -/

theorem templated_cell : Templated Cell.SameShape Cell.tokens Cell.strings := by
  intro cell
  cases cell with
  | text s =>
    refine ⟨[.text], fun other hother => ?_⟩
    cases other <;> first | contradiction | exact ⟨_, rfl, fun _ => rfl⟩
  | check on =>
    refine ⟨(Cell.check on).tokens.map .fixed, fun other hother => ?_⟩
    cases other with
    | check on' =>
      obtain rfl : on = on' := hother
      cases on <;> exact ⟨_, rfl, fun _ => rfl⟩
    | _ => contradiction
  | badge s highlighted =>
    refine ⟨[.fixed (.start "span" [("class", if highlighted then "badge identifying" else "badge")]),
      .text, .fixed (.stop "span")], fun other hother => ?_⟩
    cases other with
    | badge s' highlighted' =>
      obtain rfl : highlighted = highlighted' := hother
      exact ⟨_, rfl, fun _ => rfl⟩
    | _ => contradiction

theorem templated_rowLines (headings : List Heading) :
    TemplatedLines (List.Forall₂ Cell.SameShape) (rowLines headings)
      fun row => (headings.zip row).flatMap (·.2.strings) := by
  have hzip : ∀ row row', List.Forall₂ Cell.SameShape row row' →
      List.Forall₂ (fun p q : Heading × Cell => p.1 = q.1 ∧ p.2.SameShape q.2)
        (headings.zip row) (headings.zip row') := by
    intro row row' h
    induction h generalizing headings with
    | nil => simp
    | cons hcell _ ih =>
      cases headings with
      | nil => simp
      | cons heading headings => exact .cons ⟨rfl, hcell⟩ (ih headings)
  have hcell : TemplatedLines (fun p q : Heading × Cell => p.1 = q.1 ∧ p.2.SameShape q.2)
      (fun p => [⟨10, element "td" p.1.cellAttributes p.2.tokens⟩]) (·.2.strings) := by
    have hheading : ∀ heading : Heading,
        TemplatedLines (fun p q : Heading × Cell => p.1 = q.1 ∧ p.2.SameShape q.2)
          (fun p => [⟨10, element "td" heading.cellAttributes p.2.tokens⟩]) (·.2.strings) :=
      fun heading => .line 10 ((templated_cell.comp fun _ _ h => h.2).element "td" _)
    exact .of_key (fun _ _ h => h.1) hheading
  have hrow := ((hcell.flatMap.comp hzip).before [⟨8, [.start "tr" []]⟩]).behind [⟨8, [.stop "tr"]⟩]
  exact hrow.of_eq (fun row => by rw [rowLines, List.map_eq_flatMap]; rfl) fun _ => rfl

/-- A grid whose rows are about things. -/
theorem templated_grid {α : Type} {r : α → α → Prop} (headings : List Heading)
    {cells : α → List Cell} (h : ∀ a b, r a b → List.Forall₂ Cell.SameShape (cells a) (cells b)) :
    TemplatedLines (List.Forall₂ r) (fun as => (Grid.mk headings (as.map cells)).lines)
      (List.flatMap fun a => (headings.zip (cells a)).flatMap (·.2.strings)) := by
  have hrows := ((templated_rowLines headings).comp h).flatMap
  have hgrid := (hrows.before
    ([⟨4, [.start "table" []]⟩, ⟨6, [.start "thead" []]⟩, ⟨8, [.start "tr" []]⟩]
      ++ headings.map (fun h => ⟨10, element "th" h.cellAttributes [.text h.text]⟩)
      ++ [⟨8, [.stop "tr"]⟩, ⟨6, [.stop "thead"]⟩, ⟨6, [.start "tbody" []]⟩])).behind
    [⟨6, [.stop "tbody"]⟩, ⟨4, [.stop "table"]⟩]
  exact hgrid.of_eq (fun as => by simp only [Grid.lines, List.flatMap_map]) fun _ => rfl

/-! ## Sections -/

section Sections

variable {α : Type} {r : α → α → Prop}

theorem templated_textElement (tag : String) (s : α → String) :
    Templated r (fun a => textElement tag (s a)) fun a => [s a] :=
  (Templated.text s).element tag []

theorem templated_paragraphLine (indent : Nat) {text : α → String}
    (h : ∀ a b, r a b → (text a).isEmpty = (text b).isEmpty) :
    TemplatedLines r (fun a => paragraphLine indent (text a)) fun a => describing (text a) :=
  (TemplatedLines.line indent (templated_textElement "p" text)).ite h

/-- A sentence between fixed words. -/
theorem templated_sentence (front : String) (s : α → String) (back : String) :
    TemplatedLines r (fun a => [⟨4, textElement "p" (front ++ s a ++ back)⟩]) fun a => [s a] :=
  .line 4 ((Templated.words front s back).element "p" [])

end Sections

theorem forall₂_of_length_eq {α : Type} {as bs : List α} (h : as.length = bs.length) :
    List.Forall₂ (fun _ _ => True) as bs :=
  List.forall₂_iff_zip.2 ⟨h, fun _ => trivial⟩

theorem isEmpty_eq_of_length_eq {α : Type} {as bs : List α} (h : as.length = bs.length) :
    as.isEmpty = bs.isEmpty := by
  cases as <;> cases bs <;> first | rfl | contradiction

theorem TableFacts.templated_lines :
    TemplatedLines TableFacts.SameShape TableFacts.lines TableFacts.strings := by
  have hstart : TemplatedLines TableFacts.SameShape
      (fun t => [blockStart ("table-container " ++ t.entityType.cssClass)]) fun _ => [] :=
    .of_key (fun _ _ h => h.entityType) fun e : EntityType =>
      .fixed [blockStart ("table-container " ++ e.cssClass)]
  have hheading : Templated TableFacts.SameShape
      (fun t => element "h3" [("id", t.anchor)] ([.text t.name, .text " "]
        ++ element "span" [("class", "badge")] [.text t.entityType.label]))
      fun t => [t.anchor, t.name, t.entityType.label] := by
    have hanchor : Templated TableFacts.SameShape (fun t => [.start "h3" [("id", t.anchor)]])
        fun t => [t.anchor] := by
      simpa using Templated.value "h3" "id" "" TableFacts.anchor
    have hbadge := (Templated.text fun t : TableFacts => t.entityType.label).element "span"
      [("class", "badge")] (r := TableFacts.SameShape)
    exact (hanchor.append ((Templated.text TableFacts.name).append
      (hbadge.before [.text " "]))).behind [.stop "h3"]
  have hcolumns : TemplatedLines (List.Forall₂ ColumnFacts.SameShape)
      (fun columns => (columnGrid columns).lines) (List.flatMap ColumnFacts.strings) := by
    refine templated_grid _ fun c e h => ?_
    simp [Cell.SameShape, h.isPrimaryKey, h.isForeignKey, h.isNullable, h.isUnique]
  have hreferences : TemplatedLines (List.Forall₂ fun _ _ => True)
      (fun references => (referenceGrid references).lines)
      (List.flatMap ReferenceFacts.strings) := by
    refine templated_grid _ fun c e h => ?_
    simp [Cell.SameShape]
  have hshown : TemplatedLines TableFacts.SameShape
      (fun t => if t.references.isEmpty then [] else
        [⟨4, textElement "h4" "Foreign Key References"⟩] ++ (referenceGrid t.references).lines)
      fun t => t.references.flatMap ReferenceFacts.strings := by
    refine ((hreferences.comp fun t u h => forall₂_of_length_eq h.references).before _).ite_of_nil
      (fun t u h => isEmpty_eq_of_length_eq h.references) fun t ht => ?_
    rw [List.isEmpty_iff.1 ht, List.flatMap_nil]
  have hgrids := (hcolumns.comp fun t u h => h.columns).append hshown
  have hlines := (hstart.append (.line 4 hheading)).append
    ((templated_paragraphLine 4 fun t u h => h.description).append
      ((hgrids.before [⟨4, textElement "h4" "Columns"⟩]).behind [blockEnd]))
  refine hlines.of_eq (fun t => ?_) fun t => ?_
  · rw [t.lines_eq]
    simp only [List.append_assoc, List.cons_append, List.nil_append]
  · simp [TableFacts.strings]

theorem AttributeSection.templated_lines :
    TemplatedLines (fun a a' => a.rows.length = a'.rows.length) AttributeSection.lines
      AttributeSection.strings := by
  have hrows : TemplatedLines (List.Forall₂ fun _ _ => True)
      (fun rows => (attributeGrid rows).lines)
      (List.flatMap fun row => [row.name, row.dataType, row.description]) := by
    refine templated_grid _ fun c e h => ?_
    simp [Cell.SameShape]
  have htitle : TemplatedLines (fun a a' : AttributeSection => a.rows.length = a'.rows.length)
      (fun a => [⟨4, textElement "h4" a.title⟩]) fun a => [a.title] :=
    .line 4 (templated_textElement "h4" AttributeSection.title)
  have hlines := ((htitle.before [blockStart "table-container"]).append
    (hrows.comp fun a a' h => forall₂_of_length_eq h)).behind [blockEnd]
  exact hlines.of_eq (fun a => by simp [AttributeSection.lines]) fun a => rfl

theorem templated_relationshipGrid :
    TemplatedLines (List.Forall₂ fun r r' : RelationshipFacts => r.isIdentifying = r'.isIdentifying)
      (fun relationships => (relationshipGrid relationships).lines)
      (List.flatMap RelationshipFacts.strings) := by
  refine templated_grid _ fun r r' h => ?_
  simp [Cell.SameShape, h]

namespace Document

theorem templated_head :
    TemplatedLines SameShape Document.head fun d => [d.title] := by
  have htitle : TemplatedLines SameShape (fun d => [⟨2, textElement "title" d.title⟩])
      fun d => [d.title] := .line 2 (templated_textElement "title" Document.title)
  exact (htitle.before [⟨0, [.doctype]⟩, ⟨0, [.start "html" [("lang", "en")]]⟩,
    ⟨0, [.start "head" []]⟩, ⟨2, [.start "meta" [("charset", "UTF-8")]]⟩,
    ⟨2, [.start "meta"
      [("name", "viewport"), ("content", "width=device-width, initial-scale=1.0")]]⟩]).behind
    [⟨2, element "style" [] [.rules (styleRules ++ "  ")]⟩, ⟨0, [.stop "head"]⟩]

theorem overview_eq (d : Document) :
    d.overview = "This schema contains " ++ toString d.tableCount ++ " tables and "
      ++ (toString d.relationshipCount ++ " relationships.") :=
  String.append_assoc

theorem templated_overview :
    TemplatedLines SameShape (fun d => [⟨2, textElement "p" d.overview⟩])
      fun d => [toString d.tableCount, toString d.relationshipCount] := by
  have htables := Templated.words (r := SameShape) "This schema contains "
    (fun d => toString d.tableCount) " tables and "
  have hrelationships := Templated.words (r := SameShape) ""
    (fun d => toString d.relationshipCount) " relationships."
  have hoverview : Templated SameShape (fun d => [.text d.overview]) fun d =>
      [toString d.tableCount] ++ [toString d.relationshipCount] := by
    refine (htables.append hrelationships).congr fun d m => ?_
    rw [overview_eq]
    simp [Markup.addAll, Markup.add, Markup.write]
  exact .line 2 (hoverview.element "p" [])

theorem templated_contents :
    TemplatedLines SameShape Document.contents
      fun d => d.tables.flatMap fun t => [t.anchor, t.name] := by
  have hlink : Templated TableFacts.SameShape (fun t => linkTo t.anchor t.name)
      fun t => [t.anchor, t.name] :=
    ((Templated.value "a" "href" "#" TableFacts.anchor).append
      (.text TableFacts.name)).behind [.stop "a"]
  have hlinks : TemplatedLines (List.Forall₂ TableFacts.SameShape)
      (List.flatMap fun t => [⟨10, element "li" [] (linkTo t.anchor t.name)⟩])
      (List.flatMap fun t => [t.anchor, t.name]) :=
    .flatMap (.line 10 (hlink.element "li" []))
  have hcontents := ((hlinks.comp (r := SameShape) fun d e h => h.tables).before
    [blockStart "toc", ⟨4, textElement "h2" "Table of Contents"⟩, ⟨4, [.start "ul" []]⟩,
     ⟨6, .start "li" [] :: linkTo "tables" "Tables"⟩, ⟨8, [.start "ul" []]⟩]).behind
    [⟨8, [.stop "ul"]⟩, ⟨6, [.stop "li"]⟩,
     ⟨6, element "li" [] (linkTo "relationships" "Relationships")⟩,
     ⟨6, element "li" [] (linkTo "er-diagram" "ER Diagram")⟩,
     ⟨6, element "li" [] (linkTo "notes" "Notes")⟩, ⟨4, [.stop "ul"]⟩, blockEnd]
  exact hcontents.of_eq (fun d => by rw [contents, List.map_eq_flatMap]) fun _ => rfl

theorem templated_closing :
    TemplatedLines SameShape Document.closing
      fun d => [d.generator, d.created, d.updated, toString d.version, d.generated] := by
  have hremarks := (templated_sentence (r := SameShape)
    "This documentation was automatically generated by " Document.generator ".").append
    ((templated_sentence "Schema creation date: " Document.created "").append
      ((templated_sentence "Last updated: " Document.updated "").append
        (templated_sentence "Schema version: " (fun d => toString d.version) "")))
  have hclosing := ((hremarks.before
    ([sectionHeading "er-diagram" "ER Diagram", blockStart "table-container",
       ⟨4, textElement "p" diagramIntroduction⟩, ⟨4, [.start "ul" []]⟩]
      ++ diagramNotation.map (fun item => ⟨6, textElement "li" item⟩)
      ++ [⟨4, [.stop "ul"]⟩, blockEnd, sectionHeading "notes" "Notes", blockStart "note"])).append
    ((templated_sentence "Generated on: " Document.generated "").before
      [blockEnd, blockStart "timestamp"])).behind [blockEnd]
  refine hclosing.of_eq (fun d => ?_) fun _ => rfl
  simp only [closing, remarks, List.map_cons, List.map_nil, String.append_empty, List.append_assoc,
    List.cons_append, List.nil_append]
  rfl

/-- Pages of one shape have one template. -/
theorem templated_page : TemplatedLines SameShape Document.page Document.strings := by
  have htitle : TemplatedLines SameShape (fun d => [⟨2, textElement "h1" d.title⟩])
      fun d => [d.title] := .line 2 (templated_textElement "h1" Document.title)
  have hattributes : TemplatedLines SameShape
      (fun d => if d.attributeSections.isEmpty then [] else
        [⟨2, textElement "h3" "Relationship Attributes"⟩]
          ++ d.attributeSections.flatMap AttributeSection.lines)
      fun d => d.attributeSections.flatMap AttributeSection.strings := by
    refine ((AttributeSection.templated_lines.flatMap.comp
      fun d e h => h.attributeSections).before _).ite_of_nil
      (fun d e h => isEmpty_eq_of_length_eq h.attributeSections.length_eq) fun d hd => ?_
    rw [List.isEmpty_iff.1 hd, List.flatMap_nil]
  have hsections := (TableFacts.templated_lines.flatMap.comp fun d e h => h.tables).append
    ((((templated_relationshipGrid.comp fun d e h => h.relationships).append
      (hattributes.before [blockEnd])).before
        [sectionHeading "relationships" "Relationships", blockStart "table-container"]).append
      (templated_closing.behind [⟨0, [.stop "body"]⟩, ⟨0, [.stop "html"]⟩]))
  have hpage := templated_head.append ((htitle.before [⟨0, [.start "body" []]⟩]).append
    ((templated_paragraphLine 2 fun d e h => h.description).append
      ((templated_overview.before [⟨2, textElement "h2" "Overview"⟩]).append
        (templated_contents.append (hsections.before [sectionHeading "tables" "Tables"])))))
  refine hpage.of_eq (fun d => ?_) fun d => ?_
  · rw [d.page_eq]
    simp only [List.append_assoc, List.cons_append, List.nil_append]
  · simp [Document.strings]

/-- **No text of a document acts as markup.** Documents of one shape have one template: the page of
each is read, tag for tag, value for value and text for text, as the template with the document's
strings, as they are, in its places. In particular their tags are the same, values of attributes
aside. -/
theorem exists_template (d : Document) :
    ∃ template, ∀ e : Document, d.SameShape e →
      (fill? template e.strings).map Markup.ofTokens = some (readMarkup e.html.toList) ∧
        (readMarkup e.html.toList).blankTags = (readMarkup d.html.toList).blankTags := by
  obtain ⟨template, htemplate⟩ := templated_page d
  have hread : ∀ e, d.SameShape e → ∃ tokens, fill? template e.strings = some tokens ∧
      readMarkup e.html.toList = Markup.ofTokens tokens := by
    intro e he
    obtain ⟨tokens, hfill, hsame⟩ := htemplate e he
    exact ⟨tokens, hfill, by rw [e.readMarkup_html, Markup.ofTokens, Markup.ofTokens, hsame]⟩
  obtain ⟨tokens, hfill, hd⟩ := hread d (.refl d)
  refine ⟨template, fun e he => ?_⟩
  obtain ⟨tokens', hfill', he⟩ := hread e he
  refine ⟨by rw [hfill', he, Option.map_some], ?_⟩
  rw [he, hd, Markup.ofTokens, Markup.ofTokens, Markup.blankTags_addAll, Markup.blankTags_addAll,
    blankTags_of_fill? hfill' hfill]

/-- A document in which every text is `s`. -/
def repeating (s : String) : Document where
  title := s
  description := s
  tableCount := 1
  relationshipCount := 1
  tables := [⟨s, s, s, .weak, [⟨s, s, true, false, false, true, s, s⟩], [⟨s, s, s, s⟩]⟩]
  relationships := [⟨s, s, s, s, s, s, true, s⟩]
  attributeSections := [⟨s, [⟨s, s, s⟩]⟩]
  created := s
  updated := s
  version := 1
  generated := s
  generator := s

theorem exists_template_repeating :
    let plain := repeating "label"
    let marked := repeating "</h3 id=\"x\"> & 'y' &lt;"
    plain.SameShape marked ∧ ∃ template,
      (fill? template marked.strings).map Markup.ofTokens = some (readMarkup marked.html.toList) ∧
        (readMarkup marked.html.toList).blankTags = (readMarkup plain.html.toList).blankTags := by
  intro plain marked
  have htables : List.Forall₂ TableFacts.SameShape plain.tables marked.tables :=
    .cons ⟨rfl, by decide, .cons ⟨rfl, rfl, rfl, rfl⟩ .nil, rfl⟩ .nil
  have hshape : plain.SameShape marked :=
    ⟨by decide, htables, .cons rfl .nil, .cons rfl .nil⟩
  obtain ⟨template, htemplate⟩ := plain.exists_template
  exact ⟨hshape, template, htemplate marked hshape⟩

end Document

end Schemata.Docs
