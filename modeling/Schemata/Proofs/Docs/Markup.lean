import Mathlib.Data.List.Basic
import Schemata.Docs.Markup

/-!
# Reading tables from marked-up text

`readTables` reads the tables of a page from its characters: tags are told from text, rows and cells
start and end with their tags, and the text of a cell is unescaped. A `PageReader` is what has been
read so far.

No text acts as a tag, whatever its characters are (`read_escape`), and escaping it is undone
(`unescape_escape`). Parts of a page that are `IsQuiet` leave what has been read as it is
(`readLines_quiet`).
-/

namespace Schemata.Docs

variable {s t : List Char} {c : Char}

/-! ## Escaped text -/

/-- The characters that names stand for. -/
def entities : List (String × Char) :=
  [("amp", '&'), ("lt", '<'), ("gt", '>'), ("quot", '"'), ("#x27", '\'')]

/-- What a name between an ampersand and a semicolon stands for; unknown names stand for
themselves. -/
def entityText (name : List Char) : List Char :=
  match entities.lookup (String.ofList name) with
  | some c => [c]
  | none => '&' :: (name ++ [';'])

/-- A text with the characters for which names stand. The first argument is what has been read of
a name. -/
def unescapeFrom : Option (List Char) → List Char → List Char
  | none, [] => []
  | some name, [] => '&' :: name
  | none, c :: s => if c = '&' then unescapeFrom (some []) s else c :: unescapeFrom none s
  | some name, c :: s =>
    if c = ';' then entityText name ++ unescapeFrom none s
    else unescapeFrom (some (name ++ [c])) s

/-- A text with the characters for which names stand. -/
def unescape (s : List Char) : List Char :=
  unescapeFrom none s

/-- A character is written as a name that stands for it, or as it is. -/
theorem escapeChar_cases (c : Char) :
    (∃ name, (';' ∉ name ∧ '<' ∉ name ∧ '>' ∉ name) ∧ entityText name = [c] ∧
        escapeChar c = '&' :: (name ++ [';'])) ∨
      (c ≠ '&' ∧ c ≠ '<' ∧ c ≠ '>' ∧ escapeChar c = [c]) := by
  by_cases hamp : c = '&'
  · exact .inl ⟨"amp".toList, by decide, by subst hamp; rfl, by subst hamp; rfl⟩
  by_cases hlt : c = '<'
  · exact .inl ⟨"lt".toList, by decide, by subst hlt; rfl, by subst hlt; rfl⟩
  by_cases hgt : c = '>'
  · exact .inl ⟨"gt".toList, by decide, by subst hgt; rfl, by subst hgt; rfl⟩
  by_cases hquot : c = '"'
  · exact .inl ⟨"quot".toList, by decide, by subst hquot; rfl, by subst hquot; rfl⟩
  by_cases hapos : c = '\''
  · exact .inl ⟨"#x27".toList, by decide, by subst hapos; rfl, by subst hapos; rfl⟩
  · exact .inr ⟨hamp, hlt, hgt, by simp [escapeChar, hamp, hlt, hgt, hquot, hapos]⟩

theorem unescapeFrom_name {name : List Char} (h : ';' ∉ name) (front s : List Char) :
    unescapeFrom (some front) (name ++ ';' :: s) =
      entityText (front ++ name) ++ unescapeFrom none s := by
  induction name generalizing front with
  | nil => simp [unescapeFrom]
  | cons c name ih =>
    have ⟨hc, hname⟩ := List.ne_and_not_mem_of_not_mem_cons h
    rw [List.cons_append, unescapeFrom, if_neg (Ne.symm hc), ih hname, List.append_assoc,
      List.singleton_append]

theorem unescapeFrom_escapeChar (c : Char) (s : List Char) :
    unescapeFrom none (escapeChar c ++ s) = c :: unescapeFrom none s := by
  rcases escapeChar_cases c with ⟨name, hname, htext, hc⟩ | ⟨hamp, -, -, hc⟩
  · rw [hc, List.cons_append, unescapeFrom, if_pos rfl, List.append_assoc,
      List.singleton_append, unescapeFrom_name hname.1, List.nil_append, htext,
      List.singleton_append]
  · rw [hc, List.singleton_append, unescapeFrom, if_neg hamp]

/-- **Escaping is undone.** -/
theorem unescape_escape (s : List Char) : unescape (s.flatMap escapeChar) = s := by
  unfold unescape
  induction s with
  | nil => rfl
  | cons c s ih => rw [List.flatMap_cons, unescapeFrom_escapeChar, ih]

/-- **No escaped text has a character of a tag.** -/
theorem notMem_escape (s : List Char) :
    '<' ∉ s.flatMap escapeChar ∧ '>' ∉ s.flatMap escapeChar := by
  have hchar : ∀ c, '<' ∉ escapeChar c ∧ '>' ∉ escapeChar c := by
    intro c
    rcases escapeChar_cases c with ⟨name, ⟨-, hlt, hgt⟩, -, hc⟩ | ⟨-, hlt, hgt, hc⟩ <;> rw [hc]
    · simp [hlt, hgt]
    · simp [Ne.symm hlt, Ne.symm hgt]
  simp [hchar]

/-! ## Reading a page -/

/-- The tags about tables, rows and cells. -/
def tableTags : List String :=
  ["table", "tr", "th", "td", "/table", "/tr", "/th", "/td"]

/-- What has been read of the tables of a page. -/
structure TableReader where
  /-- The tables that have ended. -/
  tables : List (List (List (List Char)))
  /-- The rows of the table that has started. -/
  rows : List (List (List Char))
  /-- The cells of the row that has started. -/
  cells : List (List Char)
  /-- The text of the cell that has started, as it is written. -/
  cell : Option (List Char)

namespace TableReader

variable {r : TableReader}

/-- Reads a text. -/
def write (r : TableReader) (s : List Char) : TableReader :=
  { r with cell := r.cell.map (· ++ s) }

/-- Reads a tag of a name. -/
def follow (r : TableReader) (name : String) : TableReader :=
  match name with
  | "table" => { r with rows := [] }
  | "tr" => { r with cells := [] }
  | "th" | "td" => { r with cell := some [] }
  | "/th" | "/td" =>
    { r with cells := r.cells ++ [unescape (r.cell.getD [])], cell := none }
  | "/tr" => { r with rows := r.rows ++ [r.cells], cells := [] }
  | "/table" => { r with tables := r.tables ++ [r.rows], rows := [] }
  | _ => r

theorem follow_of_notMem {name : String} (h : name ∉ tableTags) : r.follow name = r := by
  unfold follow
  split <;> first | rfl | exact absurd (by decide) h

@[simp] theorem write_nil : r.write [] = r := by
  cases r
  simp [write]

theorem write_write (s t : List Char) : (r.write s).write t = r.write (s ++ t) := by
  simp [write, Option.map_map, Function.comp_def]

theorem write_of_cell (h : r.cell = none) (s : List Char) : r.write s = r := by
  cases r
  simp_all [write]

end TableReader

/-- The name of a tag ends with a blank. -/
def tagName (tag : List Char) : String :=
  String.ofList (tag.takeWhile (· ≠ ' '))

/-- What has been read of a page, and of the tag that has started. -/
structure PageReader where
  /-- The tables. -/
  tables : TableReader
  /-- The tag. -/
  tag : Option (List Char)

/-- Reads a character. -/
def PageReader.step (r : PageReader) (c : Char) : PageReader :=
  match r.tag with
  | none => if c = '<' then { r with tag := some [] } else { r with tables := r.tables.write [c] }
  | some tag =>
    if c = '>' then ⟨r.tables.follow (tagName tag), none⟩ else { r with tag := some (tag ++ [c]) }

/-- Reads a text between tags. -/
def TableReader.read (r : TableReader) (s : List Char) : PageReader :=
  s.foldl PageReader.step ⟨r, none⟩

/-- The tables of a page, each with its rows, these with the texts of their cells. -/
def readTables (page : List Char) : List (List (List (List Char))) :=
  (TableReader.read ⟨[], [], [], none⟩ page).tables.tables

namespace TableReader

variable {r r' : TableReader}

theorem read_append (h : r.read s = ⟨r', none⟩) (t : List Char) : r.read (s ++ t) = r'.read t := by
  rw [read, List.foldl_append, ← read, h, read]

/-- Text outside of tags. -/
theorem read_text (h : '<' ∉ s) : r.read s = ⟨r.write s, none⟩ := by
  induction s generalizing r with
  | nil => simp [read]
  | cons c s ih =>
    have ⟨hc, hs⟩ := List.ne_and_not_mem_of_not_mem_cons h
    have hstep : r.read [c] = ⟨r.write [c], none⟩ := by
      simp [read, PageReader.step, Ne.symm hc]
    rw [← List.singleton_append, read_append hstep, ih hs, write_write]

theorem foldl_step_tag {tag : List Char} (h : '>' ∉ tag) (front : List Char) :
    tag.foldl PageReader.step ⟨r, some front⟩ = ⟨r, some (front ++ tag)⟩ := by
  induction tag generalizing front with
  | nil => simp
  | cons c tag ih =>
    have ⟨hc, htag⟩ := List.ne_and_not_mem_of_not_mem_cons h
    have hstep : PageReader.step ⟨r, some front⟩ c = ⟨r, some (front ++ [c])⟩ :=
      if_neg (Ne.symm hc)
    rw [List.foldl_cons, hstep, ih htag, List.append_assoc, List.singleton_append]

/-- A tag. -/
theorem read_tag {tag : List Char} (h : '>' ∉ tag) :
    r.read ('<' :: (tag ++ ['>'])) = ⟨r.follow (tagName tag), none⟩ := by
  have hstart : PageReader.step ⟨r, none⟩ '<' = ⟨r, some []⟩ := rfl
  rw [read, List.foldl_cons, hstart, List.foldl_append, foldl_step_tag h]
  rfl

end TableReader

/-! ## Reading parts of a page -/

/-- A word that can be the name of a tag. -/
def IsTagName (tag : String) : Prop :=
  ' ' ∉ tag.toList ∧ '>' ∉ tag.toList

instance (tag : String) : Decidable (IsTagName tag) :=
  inferInstanceAs (Decidable (_ ∧ _))

theorem tagName_append {tag : String} (h : IsTagName tag) {rest : List Char}
    (hrest : ∀ c ∈ rest.head?, c = ' ') : tagName (tag.toList ++ rest) = tag := by
  have hstop : rest.takeWhile (· ≠ ' ') = [] := by
    cases rest with
    | nil => rfl
    | cons c rest => simp [hrest c rfl]
  have hname : ∀ c ∈ tag.toList, decide (c ≠ ' ') = true := by
    intro c hc
    exact decide_eq_true fun heq => h.1 (heq ▸ hc)
  rw [tagName, List.takeWhile_append_of_pos hname, hstop, List.append_nil, String.ofList_toList]

theorem toList_renderAttribute (a : String × String) :
    (renderAttribute a).toList =
      ' ' :: (a.1.toList ++ '=' :: '"' :: (a.2.toList.flatMap escapeChar ++ ['"'])) := by
  simp [renderAttribute, escape]

namespace TableReader

variable {r r' : TableReader}

/-- The tag at the start of an element. -/
theorem read_start {tag : String} (h : IsTagName tag) {attributes : List (String × String)}
    (hattributes : ∀ a ∈ attributes, '>' ∉ a.1.toList) :
    r.read (Token.start tag attributes).render.toList = ⟨r.follow tag, none⟩ := by
  have htext : (Token.start tag attributes).render.toList =
      '<' :: (tag.toList ++ (attributes.map renderAttribute).flatMap String.toList ++ ['>']) := by
    simp [Token.render, String.toList_join]
  have hhead : ∀ c ∈ ((attributes.map renderAttribute).flatMap String.toList).head?, c = ' ' := by
    cases attributes with
    | nil => simp
    | cons a attributes => simp [toList_renderAttribute]
  have hend : '>' ∉ tag.toList ++ (attributes.map renderAttribute).flatMap String.toList := by
    rw [List.mem_append, not_or]
    refine ⟨h.2, ?_⟩
    rw [List.flatMap_map, List.mem_flatMap]
    rintro ⟨a, ha, hmem⟩
    have hvalue := (notMem_escape a.2.toList).2
    simp [toList_renderAttribute, hattributes a ha, hvalue] at hmem
  rw [htext, read_tag hend, tagName_append h hhead]

/-- The tag at the end of an element. -/
theorem read_stop {tag : String} (h : IsTagName tag) :
    r.read (Token.stop tag).render.toList = ⟨r.follow ("/" ++ tag), none⟩ := by
  have htext : (Token.stop tag).render.toList = '<' :: (("/" ++ tag).toList ++ ['>']) := by
    simp [Token.render]
  have hname : IsTagName ("/" ++ tag) := by
    simpa [IsTagName] using h
  rw [htext, read_tag hname.2, ← List.append_nil ("/" ++ tag).toList, tagName_append hname (by simp)]

/-- A text. -/
theorem read_escape (s : String) :
    r.read (Token.text s).render.toList = ⟨r.write (s.toList.flatMap escapeChar), none⟩ := by
  rw [Token.render, escape, String.toList_ofList]
  exact read_text (notMem_escape s.toList).1

end TableReader

/-- The tags that are not about tables, rows and cells. -/
def quietTags : List String :=
  ["html", "head", "meta", "title", "style", "body", "div", "h1", "h2", "h3", "h4", "p", "ul", "li",
   "a", "span", "thead", "tbody"]

/-- A part of a page that says nothing about tables, rows and cells. -/
def Token.IsQuiet : Token → Prop
  | doctype | text _ => True
  | start tag attributes => tag ∈ quietTags ∧ ∀ a ∈ attributes, '>' ∉ a.1.toList
  | stop tag => tag ∈ quietTags
  | rules s => '<' ∉ s.toList

theorem isTagName_of_mem_quietTags : ∀ tag ∈ quietTags, IsTagName tag := by
  decide

theorem follow_of_mem_quietTags {tag : String} (h : tag ∈ quietTags) (r : TableReader) :
    r.follow tag = r ∧ r.follow ("/" ++ tag) = r := by
  have hother : ∀ tag ∈ quietTags, tag ∉ tableTags ∧ "/" ++ tag ∉ tableTags := by decide
  have ⟨hstart, hstop⟩ := hother tag h
  exact ⟨TableReader.follow_of_notMem hstart, TableReader.follow_of_notMem hstop⟩

/-- The characters of a line, with its line feed. -/
def MarkupLine.chars (line : MarkupLine) : List Char :=
  line.render.toList ++ ['\n']

namespace TableReader

variable {r r' : TableReader} {tokens : List Token}

/-- A quiet part outside of cells changes nothing. -/
theorem read_token (hr : r.cell = none) {token : Token} (h : token.IsQuiet) :
    r.read token.render.toList = ⟨r, none⟩ := by
  cases token with
  | doctype => rfl
  | start tag attributes =>
    rw [read_start (isTagName_of_mem_quietTags tag h.1) h.2, (follow_of_mem_quietTags h.1 r).1]
  | stop tag =>
    rw [read_stop (isTagName_of_mem_quietTags tag h), (follow_of_mem_quietTags h r).2]
  | text s => rw [read_escape, write_of_cell hr]
  | rules s => rw [Token.render, read_text h, write_of_cell hr]

theorem read_tokens (hr : r.cell = none) (h : ∀ token ∈ tokens, token.IsQuiet) :
    r.read (tokens.flatMap (·.render.toList)) = ⟨r, none⟩ := by
  induction tokens with
  | nil => rfl
  | cons token tokens ih =>
    rw [List.flatMap_cons, read_append (read_token hr (h token (by simp))),
      ih fun token htoken => h token (by simp [htoken])]

/-- A line outside of cells is read as its parts are. -/
theorem read_line (hr : r.cell = none) (hr' : r'.cell = none) {line : MarkupLine}
    (h : r.read (line.tokens.flatMap (·.render.toList)) = ⟨r', none⟩) :
    r.read line.chars = ⟨r', none⟩ := by
  have hchars : line.chars = List.replicate line.indent ' ' ++
      (line.tokens.flatMap (·.render.toList) ++ ['\n']) := by
    simp [MarkupLine.chars, MarkupLine.render, String.toList_join, List.flatMap_map]
  have hindent : r.read (List.replicate line.indent ' ') = ⟨r, none⟩ := by
    rw [read_text (by simp [List.mem_replicate]), write_of_cell hr]
  rw [hchars, read_append hindent, read_append h, read_text (by decide), write_of_cell hr']

/-- Reads lines below each other. -/
def readLines (r : TableReader) (lines : List MarkupLine) : PageReader :=
  r.read (lines.flatMap MarkupLine.chars)

theorem readLines_nil (r : TableReader) : r.readLines [] = ⟨r, none⟩ := rfl

theorem readLines_append {lines : List MarkupLine} (h : r.readLines lines = ⟨r', none⟩)
    (more : List MarkupLine) : r.readLines (lines ++ more) = r'.readLines more := by
  rw [readLines, List.flatMap_append, read_append h, readLines]

theorem readLines_cons {line : MarkupLine} (h : r.read line.chars = ⟨r', none⟩)
    (more : List MarkupLine) : r.readLines (line :: more) = r'.readLines more := by
  rw [readLines, List.flatMap_cons, read_append h, readLines]

/-- **Quiet lines** outside of cells change nothing. -/
theorem readLines_quiet (hr : r.cell = none) {lines : List MarkupLine}
    (h : ∀ line ∈ lines, ∀ token ∈ line.tokens, token.IsQuiet) :
    r.readLines lines = ⟨r, none⟩ := by
  induction lines with
  | nil => rfl
  | cons line lines ih =>
    rw [readLines_cons (read_line hr hr (read_tokens hr (h line (by simp)))),
      ih fun line hline => h line (by simp [hline])]

end TableReader

end Schemata.Docs
