import Schemata.Proofs.Docs.Page

/-!
# Reading tags from marked-up text

`readMarkup` reads all of a page from its characters: the tags, with the names of their attributes
and the values between quotation marks, and the texts between the tags. Names of characters in texts
and values are replaced by what they stand for. `Markup.ofTokens` is what a page consists of: what
stands between two tags is one text.

Reading a page gives its parts back (`readMarkup_render`), so that texts and values are read as they
were before they were escaped, and nothing in them is read as a tag or as the end of a value.
-/

namespace Schemata.Docs

/-! ## Pages as tags and texts -/

/-- A tag of a page. The name of a tag that ends an element starts with a stroke. -/
structure Tag where
  /-- The name. -/
  name : List Char
  /-- The attributes, each with its value. -/
  attributes : List (List Char × List Char)
deriving DecidableEq

/-- A page: its tags and the texts between them. -/
structure Markup where
  /-- The tags, each with the text in front of it. -/
  tags : List (List Char × Tag)
  /-- The text behind the last tag. -/
  rest : List Char
deriving DecidableEq

namespace Markup

/-- The page goes on with a text. -/
def write (m : Markup) (s : List Char) : Markup :=
  { m with rest := m.rest ++ s }

/-- The page goes on with a tag. -/
def follow (m : Markup) (tag : Tag) : Markup :=
  ⟨m.tags ++ [(m.rest, tag)], []⟩

/-- The page goes on with a token. -/
def add (m : Markup) : Token → Markup
  | .doctype => m.follow ⟨"!DOCTYPE".toList, [("html".toList, [])]⟩
  | .start tag attributes =>
    m.follow ⟨tag.toList, attributes.map fun a => (a.1.toList, a.2.toList)⟩
  | .stop tag => m.follow ⟨'/' :: tag.toList, []⟩
  | .text s | .rules s => m.write s.toList

/-- The page goes on with tokens. -/
def addAll (m : Markup) (tokens : List Token) : Markup :=
  tokens.foldl add m

/-- The page that consists of tokens. -/
def ofTokens (tokens : List Token) : Markup :=
  addAll ⟨[], []⟩ tokens

/-- The tags of a page, without the values of their attributes. -/
def blankTags (m : Markup) : List (List Char × List (List Char)) :=
  m.tags.map fun (_, tag) => (tag.name, tag.attributes.map (·.1))

theorem addAll_append (m : Markup) (tokens more : List Token) :
    m.addAll (tokens ++ more) = (m.addAll tokens).addAll more :=
  List.foldl_append

end Markup

/-- What a line adds to a page: the blanks in front, its tokens, and the line feed. -/
def MarkupLine.stream (line : MarkupLine) : List Token :=
  .text (String.ofList (List.replicate line.indent ' ')) :: (line.tokens ++ [.text "\n"])

/-! ## Reading -/

/-- Where a reader of a page stands. -/
inductive Spot where
  /-- In a text. -/
  | text
  /-- In the name of a tag. -/
  | name (name : List Char)
  /-- Behind the name of a tag, in front of an attribute or in its name. -/
  | attribute (tag : Tag) (name : List Char)
  /-- Between the quotation marks around the value of an attribute. -/
  | value (tag : Tag) (name value : List Char)

/-- What has been read of a page. -/
structure MarkupReader where
  /-- The tags, each with the text in front of it. -/
  tags : List (List Char × Tag)
  /-- The text behind the last tag, as it is written. -/
  text : List Char
  /-- Where the reader stands. -/
  spot : Spot

/-- A tag with a further attribute, if there is a name for it. -/
def Tag.addName (tag : Tag) (name : List Char) : Tag :=
  if name = [] then tag else { tag with attributes := tag.attributes ++ [(name, [])] }

namespace MarkupReader

/-- A tag ends. -/
def follow (r : MarkupReader) (tag : Tag) : MarkupReader :=
  ⟨r.tags ++ [(unescape r.text, tag)], [], .text⟩

/-- Reads a character. -/
def step (r : MarkupReader) (c : Char) : MarkupReader :=
  match r.spot with
  | .text => if c = '<' then { r with spot := .name [] } else { r with text := r.text ++ [c] }
  | .name name =>
    if c = '>' then r.follow ⟨name, []⟩
    else if c = ' ' then { r with spot := .attribute ⟨name, []⟩ [] }
    else { r with spot := .name (name ++ [c]) }
  | .attribute tag name =>
    if c = '>' then r.follow (tag.addName name)
    else if c = ' ' then { r with spot := .attribute (tag.addName name) [] }
    else if c = '"' then { r with spot := .value tag name [] }
    else if c = '=' then r
    else { r with spot := .attribute tag (name ++ [c]) }
  | .value tag name value =>
    if c = '"' then
      { r with
        spot := .attribute { tag with attributes := tag.attributes ++ [(name, unescape value)] } [] }
    else { r with spot := .value tag name (value ++ [c]) }

/-- Reads characters. -/
def read (r : MarkupReader) (s : List Char) : MarkupReader :=
  s.foldl step r

end MarkupReader

/-- The tags and texts of a page. A tag that does not end is left out. -/
def readMarkup (page : List Char) : Markup :=
  let r := MarkupReader.read ⟨[], [], .text⟩ page
  ⟨r.tags, unescape r.text⟩

/-! ## Texts as they are written -/

/-- The characters `s` spell the text `t`, whatever follows them. -/
def Spells (s t : List Char) : Prop :=
  ∀ rest, unescape (s ++ rest) = t ++ unescape rest

namespace Spells

variable {s t s' t' : List Char}

theorem nil : Spells [] [] := fun _ => rfl

theorem append (h : Spells s t) (h' : Spells s' t') : Spells (s ++ s') (t ++ t') := fun rest => by
  rw [List.append_assoc, h, h', List.append_assoc]

theorem unescape_eq (h : Spells s t) : unescape s = t := by
  simpa [unescape, unescapeFrom] using h []

theorem escapeChar (c : Char) : Spells (escapeChar c) [c] := fun rest =>
  unescapeFrom_escapeChar c rest

theorem escape (s : List Char) : Spells (s.flatMap Docs.escapeChar) s := by
  induction s with
  | nil => exact nil
  | cons c s ih => exact (escapeChar c).append ih

theorem of_notMem (h : '&' ∉ s) : Spells s s := by
  induction s with
  | nil => exact nil
  | cons c s ih =>
    have ⟨hc, hs⟩ := List.ne_and_not_mem_of_not_mem_cons h
    have hchar : Spells [c] [c] := fun rest => by
      rw [List.singleton_append, unescape, unescapeFrom, if_neg (Ne.symm hc)]
      rfl
    exact hchar.append (ih hs)

end Spells

/-- No escaped text has the quotation mark that ends a value. -/
theorem quote_notMem_escape (s : List Char) : '"' ∉ s.flatMap escapeChar := by
  have hchar : ∀ c, '"' ∉ escapeChar c := by
    intro c
    unfold escapeChar
    split_ifs with _ _ _ hc
    all_goals first | decide | simpa using Ne.symm hc
  simp [hchar]

/-! ## Reading parts of a page -/

/-- A word that can be the name of an attribute. -/
def IsAttributeName (name : String) : Prop :=
  ∀ c ∈ name.toList, c ≠ '>' ∧ c ≠ ' ' ∧ c ≠ '"' ∧ c ≠ '='

instance (name : String) : Decidable (IsAttributeName name) :=
  List.decidableBAll _ name.toList

/-- A part of a page whose names can be told from what is around them. -/
def Token.IsWellNamed : Token → Prop
  | doctype | text _ => True
  | start tag attributes => IsTagName tag ∧ ∀ a ∈ attributes, IsAttributeName a.1
  | stop tag => IsTagName tag
  | rules s => '<' ∉ s.toList ∧ '&' ∉ s.toList

namespace MarkupReader

variable {tags : List (List Char × Tag)} {text s t : List Char} {tag : Tag}

theorem read_append (r : MarkupReader) (s t : List Char) : r.read (s ++ t) = (r.read s).read t :=
  List.foldl_append

theorem read_cons (r : MarkupReader) (c : Char) (s : List Char) :
    r.read (c :: s) = (r.step c).read s := rfl

theorem read_text (h : '<' ∉ s) :
    (MarkupReader.mk tags text .text).read s = ⟨tags, text ++ s, .text⟩ := by
  induction s generalizing text with
  | nil => simp [read]
  | cons c s ih =>
    have ⟨hc, hs⟩ := List.ne_and_not_mem_of_not_mem_cons h
    have hstep : step ⟨tags, text, .text⟩ c = ⟨tags, text ++ [c], .text⟩ := if_neg (Ne.symm hc)
    rw [read_cons, hstep, ih hs, List.append_assoc, List.singleton_append]

theorem read_name {name : List Char} (h : ' ' ∉ name ∧ '>' ∉ name) (front : List Char) :
    (MarkupReader.mk tags text (.name front)).read name =
      ⟨tags, text, .name (front ++ name)⟩ := by
  induction name generalizing front with
  | nil => simp [read]
  | cons c name ih =>
    have ⟨hblank, hname⟩ := List.ne_and_not_mem_of_not_mem_cons h.1
    have ⟨hend, hname'⟩ := List.ne_and_not_mem_of_not_mem_cons h.2
    have hstep : step ⟨tags, text, .name front⟩ c = ⟨tags, text, .name (front ++ [c])⟩ :=
      (if_neg (Ne.symm hend)).trans (if_neg (Ne.symm hblank))
    rw [read_cons, hstep, ih ⟨hname, hname'⟩, List.append_assoc, List.singleton_append]

theorem read_attributeName {name : List Char}
    (h : ∀ c ∈ name, c ≠ '>' ∧ c ≠ ' ' ∧ c ≠ '"' ∧ c ≠ '=') (front : List Char) :
    (MarkupReader.mk tags text (.attribute tag front)).read name =
      ⟨tags, text, .attribute tag (front ++ name)⟩ := by
  induction name generalizing front with
  | nil => simp [read]
  | cons c name ih =>
    obtain ⟨hend, hblank, hquote, hequals⟩ := h c (by simp)
    have hstep : step ⟨tags, text, .attribute tag front⟩ c =
        ⟨tags, text, .attribute tag (front ++ [c])⟩ := by
      simp [step, hend, hblank, hquote, hequals]
    rw [read_cons, hstep, ih (fun c hc => h c (by simp [hc])), List.append_assoc,
      List.singleton_append]

theorem read_value {name value : List Char} (h : '"' ∉ value) (front : List Char) :
    (MarkupReader.mk tags text (.value tag name front)).read value =
      ⟨tags, text, .value tag name (front ++ value)⟩ := by
  induction value generalizing front with
  | nil => simp [read]
  | cons c value ih =>
    have ⟨hc, hvalue⟩ := List.ne_and_not_mem_of_not_mem_cons h
    have hstep : step ⟨tags, text, .value tag name front⟩ c =
        ⟨tags, text, .value tag name (front ++ [c])⟩ := if_neg (Ne.symm hc)
    rw [read_cons, hstep, ih hvalue, List.append_assoc, List.singleton_append]

/-- An attribute, whatever its value is. -/
theorem read_attribute (a : String × String) (h : IsAttributeName a.1) :
    (MarkupReader.mk tags text (.attribute tag [])).read (renderAttribute a).toList =
      ⟨tags, text, .attribute
        { tag with attributes := tag.attributes ++ [(a.1.toList, a.2.toList)] } []⟩ := by
  have hblank : step ⟨tags, text, .attribute tag []⟩ ' ' = ⟨tags, text, .attribute tag []⟩ := rfl
  have hequals : ∀ name, step ⟨tags, text, .attribute tag name⟩ '=' =
      ⟨tags, text, .attribute tag name⟩ := fun _ => rfl
  have hopen : ∀ name, step ⟨tags, text, .attribute tag name⟩ '"' =
      ⟨tags, text, .value tag name []⟩ := fun _ => rfl
  rw [toList_renderAttribute, read_cons, hblank, read_append, read_attributeName h, read_cons,
    hequals, read_cons, hopen, read_append, read_value (quote_notMem_escape _), List.nil_append,
    List.nil_append]
  simp [read, step, unescape_escape]

theorem read_attributes (attributes : List (String × String))
    (h : ∀ a ∈ attributes, IsAttributeName a.1) (tag : Tag) :
    (MarkupReader.mk tags text (.attribute tag [])).read
        (attributes.flatMap (renderAttribute · |>.toList)) =
      ⟨tags, text, .attribute { tag with
        attributes := tag.attributes ++ attributes.map fun a => (a.1.toList, a.2.toList) } []⟩ := by
  induction attributes generalizing tag with
  | nil => simp [read]
  | cons a attributes ih =>
    rw [List.flatMap_cons, read_append, read_attribute a (h a (by simp)),
      ih (fun b hb => h b (by simp [hb]))]
    simp

/-- A tag that starts an element. -/
theorem read_start {tag : String} (htag : IsTagName tag) {attributes : List (String × String)}
    (hattributes : ∀ a ∈ attributes, IsAttributeName a.1) :
    (MarkupReader.mk tags text .text).read (Token.start tag attributes).render.toList =
      (MarkupReader.mk tags text .text).follow
        ⟨tag.toList, attributes.map fun a => (a.1.toList, a.2.toList)⟩ := by
  have htext : (Token.start tag attributes).render.toList =
      '<' :: (tag.toList ++ (attributes.flatMap (renderAttribute · |>.toList) ++ ['>'])) := by
    simp [Token.render, String.toList_join, List.flatMap_map]
  have hopen : step ⟨tags, text, .text⟩ '<' = ⟨tags, text, .name []⟩ := rfl
  rw [htext, read_cons, hopen, read_append, read_name htag, List.nil_append]
  cases attributes with
  | nil => rfl
  | cons a attributes =>
    -- the blank in front of the first attribute ends the name
    have hblank : ∀ s, (MarkupReader.mk tags text (.name tag.toList)).read (' ' :: s) =
        (MarkupReader.mk tags text (.attribute ⟨tag.toList, []⟩ [])).read (' ' :: s) := fun _ => rfl
    have hfirst : (a :: attributes).flatMap (renderAttribute · |>.toList) ++ ['>'] =
        ' ' :: ((a :: attributes).flatMap (renderAttribute · |>.toList) ++ ['>']).tail := by
      rw [List.flatMap_cons, toList_renderAttribute]
      rfl
    rw [hfirst, hblank, ← hfirst, read_append, read_attributes _ hattributes]
    rfl

/-- A tag that ends an element. -/
theorem read_stop {tag : String} (h : IsTagName tag) :
    (MarkupReader.mk tags text .text).read (Token.stop tag).render.toList =
      (MarkupReader.mk tags text .text).follow ⟨'/' :: tag.toList, []⟩ := by
  have htext : (Token.stop tag).render.toList = '<' :: ('/' :: tag.toList ++ ['>']) := by
    simp [Token.render]
  have hopen : step ⟨tags, text, .text⟩ '<' = ⟨tags, text, .name []⟩ := rfl
  have hname : ' ' ∉ '/' :: tag.toList ∧ '>' ∉ '/' :: tag.toList := by
    simpa [IsTagName] using h
  rw [htext, read_cons, hopen, read_append, read_name hname]
  rfl

/-- The reader has read a page and stands behind it. -/
structure HasRead (r : MarkupReader) (m : Markup) : Prop where
  /-- The tags are those of the page. -/
  tags : r.tags = m.tags
  /-- The characters since the last tag spell the text at the end of the page. -/
  text : Spells r.text m.rest
  /-- The reader stands in a text. -/
  spot : r.spot = .text

namespace HasRead

variable {r : MarkupReader} {m : Markup}

theorem write (h : r.HasRead m) (hs : '<' ∉ s) (hspells : Spells s t) :
    (r.read s).HasRead (m.write t) := by
  obtain ⟨tags, text, spot⟩ := r
  obtain ⟨htags, htext, rfl⟩ := h
  rw [read_text hs]
  exact ⟨htags, htext.append hspells, rfl⟩

theorem follow (h : r.HasRead m) (tag : Tag) : (r.follow tag).HasRead (m.follow tag) where
  tags := by rw [MarkupReader.follow, Markup.follow, h.tags, h.text.unescape_eq]
  text := .nil
  spot := rfl

/-- **A part of a page is read as what it is.** -/
theorem add (h : r.HasRead m) {token : Token} (htoken : token.IsWellNamed) :
    (r.read token.render.toList).HasRead (m.add token) := by
  cases token with
  | text s =>
    rw [Token.render, Docs.escape, String.toList_ofList]
    exact h.write (notMem_escape _).1 (.escape _)
  | rules s => exact h.write htoken.1 (.of_notMem htoken.2)
  | start tag attributes =>
    have hfollow := h.follow ⟨tag.toList, attributes.map fun a => (a.1.toList, a.2.toList)⟩
    obtain ⟨tags, text, spot⟩ := r
    obtain ⟨-, -, rfl⟩ := h
    rwa [read_start htoken.1 htoken.2]
  | stop tag =>
    have hfollow := h.follow ⟨'/' :: tag.toList, []⟩
    obtain ⟨tags, text, spot⟩ := r
    obtain ⟨-, -, rfl⟩ := h
    rwa [read_stop htoken]
  | doctype =>
    have hfollow := h.follow ⟨"!DOCTYPE".toList, [("html".toList, [])]⟩
    obtain ⟨tags, text, spot⟩ := r
    obtain ⟨-, -, rfl⟩ := h
    exact hfollow

theorem addAll (h : r.HasRead m) {tokens : List Token}
    (htokens : ∀ token ∈ tokens, token.IsWellNamed) :
    (r.read (tokens.flatMap (·.render.toList))).HasRead (m.addAll tokens) := by
  induction tokens generalizing r m with
  | nil => exact h
  | cons token tokens ih =>
    rw [List.flatMap_cons, read_append]
    exact ih (h.add (htokens token (by simp))) fun token htoken => htokens token (by simp [htoken])

end HasRead

end MarkupReader

/-- **Reading a page gives its parts back.** -/
theorem readMarkup_render {tokens : List Token} (h : ∀ token ∈ tokens, token.IsWellNamed) :
    readMarkup (tokens.flatMap (·.render.toList)) = Markup.ofTokens tokens := by
  have hstart : (MarkupReader.mk [] [] .text).HasRead ⟨[], []⟩ := ⟨rfl, .nil, rfl⟩
  have hread := hstart.addAll h
  rw [readMarkup, hread.tags, hread.text.unescape_eq]
  rfl

example : readMarkup "<p id=\"a&amp;b\">x &lt; y</p>".toList =
    ⟨[([], ⟨"p".toList, [("id".toList, "a&b".toList)]⟩), ("x < y".toList, ⟨"/p".toList, []⟩)],
      []⟩ := by
  decide

/-! ## Pages of documents -/

/-- The tags of pages. -/
def pageTags : List String :=
  ["table", "tr", "th", "td"] ++ quietTags

/-- The names of attributes on pages. -/
def attributeNames : List String :=
  ["class", "href", "id", "lang", "charset", "name", "content"]

/-- A part of a page with tags that pages have, and with no attributes but those of the given
names. -/
def Token.IsKnown (names : List String) : Token → Prop
  | doctype | text _ => True
  | start tag attributes => tag ∈ pageTags ∧ ∀ a ∈ attributes, a.1 ∈ names
  | stop tag => tag ∈ pageTags
  | rules s => '<' ∉ s.toList ∧ '&' ∉ s.toList

theorem Token.IsKnown.isWellNamed {token : Token} (h : token.IsKnown attributeNames) :
    token.IsWellNamed := by
  have htags : ∀ tag ∈ pageTags, IsTagName tag := by decide
  have hnames : ∀ name ∈ attributeNames, IsAttributeName name := by decide
  cases token with
  | doctype | text s => trivial
  | start tag attributes => exact ⟨htags tag h.1, fun a ha => hnames a.1 (h.2 a ha)⟩
  | stop tag => exact htags tag h
  | rules s => exact h

/-- Lines of such parts. -/
def AreKnown (names : List String) (lines : List MarkupLine) : Prop :=
  ∀ line ∈ lines, ∀ token ∈ line.tokens, token.IsKnown names

section AreKnown

variable {names : List String}

theorem areKnown_cons {line : MarkupLine} {lines : List MarkupLine} :
    AreKnown names (line :: lines) ↔
      (∀ token ∈ line.tokens, token.IsKnown names) ∧ AreKnown names lines :=
  List.forall_mem_cons

theorem areKnown_append {lines more : List MarkupLine} :
    AreKnown names (lines ++ more) ↔ AreKnown names lines ∧ AreKnown names more :=
  List.forall_mem_append

theorem AreKnown.flatMap {α : Type} {parts : List α} {lines : α → List MarkupLine}
    (h : ∀ part ∈ parts, AreKnown names (lines part)) : AreKnown names (parts.flatMap lines) := by
  intro line hline
  obtain ⟨part, hpart, hline⟩ := List.mem_flatMap.1 hline
  exact h part hpart line hline

theorem AreKnown.mono {lines : List MarkupLine} (h : AreKnown names lines) {more : List String}
    (hnames : names ⊆ more) : AreKnown more lines := by
  intro line hline token htoken
  have hknown := h line hline token htoken
  cases token with
  | start tag attributes => exact ⟨hknown.1, fun a ha => hnames (hknown.2 a ha)⟩
  | doctype | text s | stop tag | rules s => exact hknown

theorem areKnown_paragraphLine (indent : Nat) (text : String) :
    AreKnown names (paragraphLine indent text) := by
  unfold paragraphLine
  split
  · simp [AreKnown]
  · simp [AreKnown, textElement, element, Token.IsKnown, pageTags, quietTags]

end AreKnown

/-- A line with a cell, be it a heading or not. -/
theorem areKnown_cell {tag : String} (htag : tag = "th" ∨ tag = "td") (h : Heading) (cell : Cell) :
    AreKnown ["class"] [⟨10, element tag h.cellAttributes cell.tokens⟩] := by
  have hattributes : ∀ a ∈ h.cellAttributes, a.1 ∈ ["class"] := by
    unfold Heading.cellAttributes
    split <;> simp
  have htokens : ∀ token ∈ cell.tokens, token.IsKnown ["class"] := by
    cases cell with
    | text s => simp [Cell.tokens, Token.IsKnown]
    | check on =>
      cases on <;> simp [Cell.tokens, element, Token.IsKnown, pageTags, quietTags]
    | badge s highlighted =>
      simp [Cell.tokens, element, Token.IsKnown, pageTags, quietTags]
  have hname : tag ∈ pageTags := by rcases htag with rfl | rfl <;> decide
  simp only [AreKnown, List.forall_mem_singleton, element, List.forall_mem_cons,
    List.forall_mem_append, List.cons_append]
  exact ⟨⟨hname, hattributes⟩, htokens, hname⟩

theorem areKnown_grid (g : Grid) : AreKnown ["class"] g.lines := by
  have hheadings : AreKnown ["class"] (g.headings.map fun h =>
      ⟨10, element "th" h.cellAttributes [.text h.text]⟩) := by
    rw [List.map_eq_flatMap]
    exact .flatMap fun h _ => areKnown_cell (.inl rfl) h (.text h.text)
  have hrows : AreKnown ["class"] (g.rows.flatMap (rowLines g.headings)) := by
    refine .flatMap fun row _ => ?_
    have hcells : AreKnown ["class"] ((g.headings.zip row).map fun p =>
        ⟨10, element "td" p.1.cellAttributes p.2.tokens⟩) := by
      rw [List.map_eq_flatMap]
      exact .flatMap fun p _ => areKnown_cell (.inr rfl) p.1 p.2
    rw [rowLines, List.cons_append, areKnown_cons, areKnown_append]
    refine ⟨?_, hcells, ?_⟩ <;> simp [AreKnown, Token.IsKnown, pageTags]
  simp only [Grid.lines, areKnown_append]
  refine ⟨⟨⟨⟨?_, hheadings⟩, ?_⟩, hrows⟩, ?_⟩ <;>
    simp [AreKnown, Token.IsKnown, pageTags, quietTags]

/-- What follows the heading of the section about a table. -/
theorem TableFacts.areKnown_details (t : TableFacts) : AreKnown ["class"]
    (paragraphLine 4 t.description ++ ([⟨4, textElement "h4" "Columns"⟩]
      ++ ((columnGrid t.columns).lines
      ++ (if t.references.isEmpty then [] else [⟨4, textElement "h4" "Foreign Key References"⟩]
        ++ (referenceGrid t.references).lines)) ++ [blockEnd])) := by
  have hreferences : AreKnown ["class"] (if t.references.isEmpty then [] else
      [⟨4, textElement "h4" "Foreign Key References"⟩] ++ (referenceGrid t.references).lines) := by
    split
    · simp [AreKnown]
    · refine areKnown_append.2 ⟨?_, areKnown_grid _⟩
      simp [AreKnown, textElement, element, Token.IsKnown, pageTags, quietTags]
  simp only [areKnown_append]
  refine ⟨areKnown_paragraphLine _ _, ⟨?_, areKnown_grid _, hreferences⟩, ?_⟩
  all_goals simp [AreKnown, blockEnd, textElement, element, Token.IsKnown, pageTags, quietTags]

theorem TableFacts.areKnown_lines (t : TableFacts) : AreKnown ["class", "id"] t.lines := by
  rw [t.lines_eq, areKnown_append]
  refine ⟨?_, t.areKnown_details.mono (by simp)⟩
  simp [AreKnown, blockStart, element, Token.IsKnown, pageTags, quietTags]

theorem AttributeSection.areKnown_lines (a : AttributeSection) : AreKnown ["class"] a.lines := by
  simp only [AttributeSection.lines, areKnown_append]
  refine ⟨⟨?_, areKnown_grid _⟩, ?_⟩
  all_goals simp [AreKnown, blockStart, blockEnd, textElement, element, Token.IsKnown, pageTags,
    quietTags]

theorem areKnown_attributeSections (sections : List AttributeSection) : AreKnown ["class"]
    (if sections.isEmpty then [] else [⟨2, textElement "h3" "Relationship Attributes"⟩]
      ++ sections.flatMap AttributeSection.lines) := by
  split
  · simp [AreKnown]
  · refine areKnown_append.2 ⟨?_, .flatMap fun a _ => a.areKnown_lines⟩
    simp [AreKnown, textElement, element, Token.IsKnown, pageTags, quietTags]

namespace Document

theorem areKnown_head (d : Document) :
    AreKnown ["lang", "charset", "name", "content"] d.head := by
  simp [AreKnown, head, textElement, element, Token.IsKnown, pageTags, quietTags,
    notMem_styleRules, or_imp, forall_and]

/-- Pages have known tags and attributes only. -/
theorem areKnown_page (d : Document) : AreKnown attributeNames d.page := by
  have hcontents : AreKnown attributeNames d.contents := by
    simp [AreKnown, contents, linkTo, blockStart, blockEnd, textElement, element, Token.IsKnown,
      pageTags, quietTags, attributeNames, or_imp, forall_and]
  have hclosing : AreKnown attributeNames d.closing := by
    simp [AreKnown, closing, sectionHeading, blockStart, blockEnd, textElement, element,
      Token.IsKnown, pageTags, quietTags, attributeNames, or_imp, forall_and]
  have htables : AreKnown attributeNames (d.tables.flatMap TableFacts.lines) :=
    .flatMap fun t _ => t.areKnown_lines.mono (by decide)
  have hhead : AreKnown attributeNames d.head := d.areKnown_head.mono (by decide)
  have hgrid : AreKnown attributeNames (relationshipGrid d.relationships).lines :=
    (areKnown_grid _).mono (by decide)
  have hattributes := (areKnown_attributeSections d.attributeSections).mono
    (show ["class"] ⊆ attributeNames by decide)
  rw [d.page_eq]
  simp only [areKnown_append, hhead, hcontents, hclosing, htables, hgrid, hattributes,
    areKnown_paragraphLine, true_and, and_true]
  and_intros
  all_goals simp [AreKnown, sectionHeading, blockStart, blockEnd, textElement, element,
    Token.IsKnown, pageTags, quietTags, attributeNames]

end Document

/-- The characters of a line are those of what it adds to a page. -/
theorem MarkupLine.chars_eq (line : MarkupLine) :
    line.chars = line.stream.flatMap (·.render.toList) := by
  have hindent : ∀ n, (List.replicate n ' ').flatMap escapeChar = List.replicate n ' ' := by
    intro n
    induction n with
    | zero => rfl
    | succ n ih =>
      rw [List.replicate_succ, List.flatMap_cons, ih]
      rfl
  have hfeed : escapeChar '\n' = ['\n'] := by decide
  simp [chars, stream, MarkupLine.render, Token.render, escape, hindent, hfeed, String.toList_join,
    List.flatMap_map]

/-- **A page is read as its lines**, in their order. -/
theorem Document.readMarkup_html (d : Document) :
    readMarkup d.html.toList = Markup.ofTokens (d.page.flatMap MarkupLine.stream) := by
  have hchars : d.page.flatMap MarkupLine.chars =
      (d.page.flatMap MarkupLine.stream).flatMap (·.render.toList) := by
    rw [List.flatMap_assoc]
    exact congrArg (d.page.flatMap ·) (funext MarkupLine.chars_eq)
  rw [d.toList_html, hchars]
  refine readMarkup_render fun token htoken => ?_
  obtain ⟨line, hline, htoken⟩ := List.mem_flatMap.1 htoken
  rcases List.mem_cons.1 htoken with rfl | htoken
  · trivial
  · rcases List.mem_append.1 htoken with htoken | htoken
    · exact (d.areKnown_page line hline token htoken).isWellNamed
    · rw [List.mem_singleton.1 htoken]
      trivial

end Schemata.Docs
