import Schemata.Proofs.Moment
import Schemata.Proofs.Sql.ForeignKey
import Schemata.Proofs.Text.Word
import Schemata.Sql.Layout

/-!
# The head of a script

A script starts with lines about its schema: the name, the dialect, the description and the moment,
each behind two dashes. Name and description are copied as they are, so a break in one of them opens
a line that has no dashes of its own.

`comments_heading` says that there is no other way in which a line of the head is no comment, and
that nothing else in a script depends on name and description: a script is its head and a body that
depends on tables and relationships only (`Script.of_eq_map_body`, `Script.body_with`). This is so
for any layout of the statements, since comments are never laid out anew (`Script.exists_rest`).
-/

namespace Schemata.Sql

open Text (isLineBreak splitLines)

variable {w text : List Char} {d : Dialect} {s : Schema} {now : Moment}

/-- A line that the reader of a script passes over. -/
def IsComment (line : List Char) : Prop :=
  ['-', '-'] <+: line

instance (line : List Char) : Decidable (IsComment line) :=
  inferInstanceAs (Decidable (['-', '-'] <+: line))

theorem IsComment.append (h : IsComment w) (text : List Char) : IsComment (w ++ text) :=
  h.trans (List.prefix_append w text)

/-! ## Lines that a text opens -/

/-- The lines that the breaks in a text open if a line feed follows the text. -/
def openedLines (text : List Char) : List (List Char) :=
  (splitLines (text ++ ['\n'])).tail

theorem openedLines_of_isLineBreak (h : ∀ c ∈ text, isLineBreak c = false) :
    openedLines text = [] := by
  rw [openedLines, Text.splitLines_append h, Text.splitLines_nil, List.tail_cons]

/-- Behind a label, the first line of a text stands on the line of the label. -/
theorem splitLines_labelled (hw : ∀ c ∈ w, isLineBreak c = false) (text : List Char) :
    ∃ first, splitLines (w ++ text ++ ['\n']) = (w ++ first) :: openedLines text := by
  induction w with
  | nil =>
    obtain ⟨first, lines, hlines⟩ :=
      List.exists_cons_of_ne_nil (Text.splitLines_ne_nil (s := text ++ ['\n']) (by simp))
    exact ⟨first, by rw [openedLines, List.nil_append, hlines]; rfl⟩
  | cons c w ih =>
    obtain ⟨first, hlines⟩ := ih fun d hd => hw d (List.mem_cons_of_mem c hd)
    refine ⟨first, ?_⟩
    rw [List.cons_append, List.cons_append, Text.splitLines_cons (hw c List.mem_cons_self), hlines]
    rfl

/-- Behind a label that starts a comment, just the lines that the text opens can be none. -/
theorem comments_labelled_iff (hw : ∀ c ∈ w, isLineBreak c = false) (hcomment : IsComment w)
    (text : List Char) : (∀ line ∈ splitLines (w ++ text ++ ['\n']), IsComment line) ↔
      ∀ line ∈ openedLines text, IsComment line := by
  obtain ⟨first, hlines⟩ := splitLines_labelled hw text
  rw [hlines, List.forall_mem_cons, and_iff_right (hcomment.append first)]

/-! ## The lines of the head -/

/-- The moment is written in digits and the marks between them. -/
theorem isLineBreak_header (m : Moment) : ∀ c ∈ m.header.toList, isLineBreak c = false := by
  have hdigit : ∀ width n, ∀ c ∈ (DecimalStyle.padded width n).toList, isLineBreak c = false := by
    intro width n c hc
    refine Text.isLineBreak_of_isBlank_eq_false (Text.isBlank_of_isWord ?_)
    exact Text.isWord_of_isSnake (Text.isSnake_of_isDigit (Json.areDigits_padded width n c hc))
  have hmark : ∀ {mark : String}, (mark.toList.all fun c => !isLineBreak c) = true →
      ∀ c ∈ mark.toList, isLineBreak c = false := Text.isLineBreak_of_all
  have hdash : ∀ c ∈ "-".toList, isLineBreak c = false := hmark (by decide)
  have hcolon : ∀ c ∈ ":".toList, isLineBreak c = false := hmark (by decide)
  have hoffset : ∀ minutes, ∀ c ∈ (Moment.signedOffset minutes).toList, isLineBreak c = false := by
    intro minutes
    simp only [Moment.signedOffset, String.toList_append, List.forall_mem_append]
    refine ⟨⟨⟨?_, hdigit 2 _⟩, hcolon⟩, hdigit 2 _⟩
    split
    · exact hdash
    · exact hmark (by decide)
  have hstamp : ∀ c ∈ m.stamp.toList, isLineBreak c = false := by
    simp only [Moment.stamp, String.toList_append, List.forall_mem_append]
    have hday : (((_ ∧ _) ∧ _) ∧ _) ∧ _ :=
      ⟨⟨⟨⟨hdigit 4 m.year, hdash⟩, hdigit 2 m.month⟩, hdash⟩, hdigit 2 m.day⟩
    exact ⟨⟨⟨⟨⟨⟨hday, hmark (by decide)⟩, hdigit 2 _⟩, hcolon⟩, hdigit 2 _⟩, hcolon⟩, hdigit 2 _⟩
  rw [Moment.header, String.toList_append]
  refine List.forall_mem_append.2 ⟨hstamp, ?_⟩
  cases m.offset with
  | none => simp
  | some minutes => exact hoffset minutes

theorem isLineBreak_momentLine (now : Moment) :
    ∀ c ∈ ("-- Generated at: " ++ now.header).toList, isLineBreak c = false := by
  rw [String.toList_append]
  exact List.forall_mem_append.2 ⟨Text.isLineBreak_of_all (by decide), isLineBreak_header now⟩

theorem isLineBreak_dialectLine (d : Dialect) :
    ∀ c ∈ ("-- Dialect: " ++ d.displayName).toList, isLineBreak c = false := by
  cases d <;> exact Text.isLineBreak_of_all (by decide)

theorem toList_joinLines_cons (line next : String) (lines : List String) :
    (joinLines (line :: next :: lines)).toList =
      line.toList ++ '\n' :: (joinLines (next :: lines)).toList := by
  have hfeed : "\n".toList = ['\n'] := rfl
  rw [joinLines, joinLines, String.toList_intercalate, String.toList_intercalate, List.map_cons,
    List.map_cons, List.intercalate_cons_cons, hfeed, List.append_assoc, List.singleton_append]

theorem joinLines_singleton (line : String) : joinLines [line] = line := by
  simp [joinLines]

/-- The text of the comment at the head of a script. -/
def headText (d : Dialect) (now : Moment) (s : Schema) : List Char :=
  ((Statement.heading (Script.headingLines d s now)).render d).toList

/-- The comment at the head, line by line. -/
theorem headText_eq (d : Dialect) (now : Moment) (s : Schema) : headText d now s =
    "-- Schema: ".toList ++ s.name.toList ++ '\n' ::
      (("-- Dialect: " ++ d.displayName).toList ++ '\n' ::
        ((if s.description.isEmpty then []
          else "-- Description: ".toList ++ s.description.toList ++ ['\n']) ++
            ("-- Generated at: " ++ now.header).toList)) := by
  change (joinLines (Script.headingLines d s now)).toList = _
  rw [Script.headingLines]
  generalize "-- Generated at: " ++ now.header = moment
  generalize "-- Dialect: " ++ d.displayName = dialect
  cases s.description.isEmpty with
  | true =>
    rw [if_pos rfl, if_pos rfl, List.append_nil, List.cons_append, List.singleton_append,
      toList_joinLines_cons, toList_joinLines_cons, joinLines_singleton, String.toList_append,
      List.nil_append]
  | false =>
    rw [if_neg Bool.false_ne_true, if_neg Bool.false_ne_true, List.append_assoc, List.cons_append,
      List.singleton_append, List.singleton_append, toList_joinLines_cons, toList_joinLines_cons,
      toList_joinLines_cons, joinLines_singleton, String.toList_append, String.toList_append]
    simp only [List.append_assoc, List.singleton_append]

/-- The lines of four parts, of which the third can be missing. -/
theorem splitLines_parts {name dialect description moment : List Char} {missing : Bool}
    (hdialect : ∀ c ∈ dialect, isLineBreak c = false)
    (hmoment : ∀ c ∈ moment, isLineBreak c = false) (hne : moment ≠ []) :
    splitLines (name ++ '\n' :: (dialect ++ '\n' ::
        ((if missing then [] else description ++ ['\n']) ++ moment))) =
      splitLines (name ++ ['\n']) ++ dialect ::
        ((if missing then [] else splitLines (description ++ ['\n'])) ++ [moment]) := by
  have hlast : splitLines moment = [moment] := Text.splitLines_eq_singleton hne hmoment
  rw [Text.splitLines_append_cons, Text.splitLines_append hdialect]
  cases missing with
  | true => rw [if_pos rfl, if_pos rfl, List.nil_append, List.nil_append, hlast]
  | false =>
    rw [if_neg Bool.false_ne_true, if_neg Bool.false_ne_true, List.append_assoc,
      List.singleton_append, Text.splitLines_append_cons description moment, hlast]

/-- **Which lines of the head are comments**: all of them, if the lines that name and description
open are. -/
theorem comments_headText_iff (d : Dialect) (now : Moment) (s : Schema) :
    (∀ line ∈ splitLines (headText d now s), IsComment line) ↔
      (∀ line ∈ openedLines s.name.toList, IsComment line) ∧
        ∀ line ∈ openedLines s.description.toList, IsComment line := by
  have hname := comments_labelled_iff (w := "-- Schema: ".toList)
    (Text.isLineBreak_of_all (by decide)) (by decide) s.name.toList
  have hdescription := comments_labelled_iff (w := "-- Description: ".toList)
    (Text.isLineBreak_of_all (by decide)) (by decide) s.description.toList
  have hcomments : IsComment ("-- Dialect: " ++ d.displayName).toList ∧
      IsComment ("-- Generated at: " ++ now.header).toList := by
    rw [String.toList_append, String.toList_append]
    exact ⟨IsComment.append (by decide) _, IsComment.append (by decide) _⟩
  rw [headText_eq,
    splitLines_parts (isLineBreak_dialectLine d) (isLineBreak_momentLine now) (by simp),
    List.forall_mem_append, List.forall_mem_cons, List.forall_mem_append, hname,
    List.forall_mem_singleton, and_iff_right hcomments.1, and_iff_left hcomments.2]
  cases hempty : s.description.isEmpty with
  | true =>
    rw [String.isEmpty_iff.1 hempty, if_pos rfl]
    simp [openedLines_of_isLineBreak]
  | false => rw [if_neg Bool.false_ne_true, hdescription]

/-- The last line of the head is the moment, so what follows opens lines of its own. -/
theorem splitLines_headText_append (d : Dialect) (now : Moment) (s : Schema) (rest : List Char) :
    splitLines (headText d now s ++ '\n' :: rest) =
      splitLines (headText d now s) ++ splitLines rest := by
  obtain ⟨front, hfront⟩ : ("-- Generated at: " ++ now.header).toList <:+ headText d now s := by
    rw [headText_eq]
    refine .trans ?_ (List.suffix_append _ _)
    refine .trans ?_ (List.suffix_cons _ _)
    refine .trans ?_ (List.suffix_append _ _)
    exact .trans (List.suffix_append _ _) (List.suffix_cons _ _)
  have hne : ("-- Generated at: " ++ now.header).toList ≠ [] := by simp
  refine Text.splitLines_append_feed (by rw [← hfront]; simp) (fun c hc => ?_) rest
  rw [← hfront, List.getLast?_append_of_ne_nil _ hne] at hc
  exact isLineBreak_momentLine now c (List.mem_of_getLast? hc)

/-! ## What follows the head -/

/-- The text of a first statement, and what follows it. -/
theorem toList_joinStatements_cons (text : String) (texts : List String) :
    (joinStatements (text :: texts)).toList =
      text.toList ++ '\n' ::
        (if texts = [] then [] else '\n' :: (joinStatements texts).toList) := by
  have hfeed : "\n".toList = ['\n'] ∧ "\n\n".toList = ['\n', '\n'] := ⟨rfl, rfl⟩
  rw [joinStatements, String.toList_append, String.toList_intercalate, hfeed.1, hfeed.2]
  cases texts with
  | nil => simp
  | cons next texts =>
    rw [if_neg (by simp), joinStatements, String.toList_append, String.toList_intercalate, hfeed.1,
      hfeed.2, List.map_cons, List.map_cons, List.intercalate_cons_cons]
    simp only [List.append_assoc, List.cons_append, List.nil_append]

namespace Script

/-- The script for a schema without its head. -/
def body (d : Dialect) (s : Schema) : Except ScriptError Script := do
  let expanded ← s.expandManyToMany.mapError .violation
  expanded.check.mapError .violation
  (ofTables d [] (.of expanded.tables)).mapError .length

/-- The script with statements in front. -/
def behind (head : List Statement) (script : Script) : Script :=
  { script with statements := head ++ script.statements }

theorem ofTables_eq_map_behind (d : Dialect) (head : List Statement) (order : CreationOrder) :
    ofTables d head order = (ofTables d [] order).map (behind head) := by
  unfold ofTables
  dsimp only
  generalize order.tables.mapM (TableDefinition.of d order.deferred) = definitions
  generalize procedures d order.tables = procedures
  cases definitions with
  | error fault => rfl
  | ok definitions =>
    cases procedures with
    | error fault => rfl
    | ok procedures =>
      refine congrArg Except.ok ?_
      simp only [behind, List.append_assoc, List.nil_append]

/-- **A script is its head and its body.** -/
theorem of_eq_map_body (d : Dialect) (now : Moment) (s : Schema) :
    Script.of d now s = (body d s).map (behind (heading d s now)) := by
  rw [Script.of, body]
  cases s.expandManyToMany with
  | error v => rfl
  | ok expanded =>
    change (expanded.check.mapError ScriptError.violation >>= fun _ =>
        (ofTables d (heading d s now) (.of expanded.tables)).mapError .length) =
      (expanded.check.mapError ScriptError.violation >>= fun _ =>
        (ofTables d [] (.of expanded.tables)).mapError .length).map (behind (heading d s now))
    rw [ofTables_eq_map_behind]
    cases expanded.check with
    | error v => rfl
    | ok _ => cases ofTables d [] (.of expanded.tables) <;> rfl

/-- The body of a script depends on tables and relationships only. -/
theorem body_with (d : Dialect) (s : Schema) (name description : String) :
    body d { s with name, description } = body d s := by
  rw [body, body, Schema.expandManyToMany, Schema.expandManyToMany]
  cases expandRelationships s.tables s.relationships with
  | error v => rfl
  | ok result => rfl

/-- What follows the head in the text of a script does not depend on the head, however the
statements are laid out. -/
theorem exists_rest (d : Dialect) (now : Moment) (layout : String → String) (script : Script)
    (pretty : Bool) : ∃ rest, ∀ s,
      ((behind (heading d s now) script).renderWith layout pretty).toList =
        headText d now s ++ '\n' :: rest := by
  let opening : List Statement := if d = .postgresql then [.startTransaction] else []
  let texts := (opening ++ script.statements).map fun statement : Statement =>
    layOut layout (pretty && statement.isFormattable) (statement.render script.dialect)
  refine ⟨if texts = [] then [] else '\n' :: (joinStatements texts).toList, fun s => ?_⟩
  -- comments are never laid out anew
  have hrender : (behind (heading d s now) script).renderWith layout pretty =
      joinStatements (joinLines (headingLines d s now) :: texts) := by
    cases pretty <;> rfl
  rw [hrender, toList_joinStatements_cons]
  rfl

end Script

/-- **The head of a script.** All its lines are comments just if those are that the breaks in the
name and in the description of the schema open. However the statements are laid out, the lines of a
script are those of its head and of what follows the head, and what follows is the same for every
name and description. -/
theorem comments_heading (d : Dialect) (now : Moment) (s : Schema) :
    ((∀ line ∈ splitLines (headText d now s), IsComment line) ↔
      (∀ line ∈ openedLines s.name.toList, IsComment line) ∧
        ∀ line ∈ openedLines s.description.toList, IsComment line) ∧
      ∀ script, Script.of d now s = .ok script → ∀ layout pretty, ∃ rest,
        (script.renderWith layout pretty).toList = headText d now s ++ '\n' :: rest ∧
        splitLines (script.renderWith layout pretty).toList =
          splitLines (headText d now s) ++ splitLines rest ∧
        ∀ name description, ∃ other,
          Script.of d now { s with name, description } = .ok other ∧
            (other.renderWith layout pretty).toList =
              headText d now { s with name, description } ++ '\n' :: rest := by
  refine ⟨comments_headText_iff d now s, fun script h layout pretty => ?_⟩
  rw [Script.of_eq_map_body, map_eq_ok] at h
  obtain ⟨body, hbody, rfl⟩ := h
  obtain ⟨rest, hrest⟩ := Script.exists_rest d now layout body pretty
  refine ⟨rest, hrest s, ?_, fun name description => ?_⟩
  · rw [hrest s, splitLines_headText_append]
  · refine ⟨_, ?_, hrest _⟩
    rw [Script.of_eq_map_body, Script.body_with, hbody]
    rfl

/-- Ships, described in two lines of which the second has dashes of its own. -/
def harbour : Schema where
  name := "Harbour"
  description := "Ships\n-- and their berths"
  createdAt := { year := 2024, month := 1, day := 1 }
  updatedAt := { year := 2024, month := 1, day := 1 }

theorem comments_heading_harbour :
    (∀ line ∈ splitLines (headText .sqlite harbour.createdAt harbour), IsComment line) ∧
      ∃ script, Script.of .sqlite harbour.createdAt harbour = .ok script ∧ ∃ rest,
        splitLines (script.render false).toList =
          splitLines (headText .sqlite harbour.createdAt harbour) ++ splitLines rest := by
  have hok : (Script.of .sqlite harbour.createdAt harbour).isOk = true := by decide +kernel
  have hopened : (∀ line ∈ openedLines harbour.name.toList, IsComment line) ∧
      ∀ line ∈ openedLines harbour.description.toList, IsComment line := by
    decide +kernel
  cases h : Script.of .sqlite harbour.createdAt harbour with
  | error e =>
    rw [h] at hok
    contradiction
  | ok script =>
    obtain ⟨hcomments, hscript⟩ := comments_heading .sqlite harbour.createdAt harbour
    obtain ⟨rest, -, hlines, -⟩ := hscript script h tidyDrop false
    rw [← Script.render_eq_renderWith] at hlines
    exact ⟨hcomments.2 hopened, script, rfl, rest, hlines⟩

/-- A statement in the second line of a description is one of the script. -/
theorem not_comments_heading_harbour :
    ¬∀ (d : Dialect) (now : Moment) (s : Schema),
      ∀ line ∈ splitLines (headText d now s), IsComment line := by
  intro h
  have hline : "DROP TABLE users;".toList ∈ splitLines (headText .sqlite harbour.createdAt
      { harbour with description := "Ships\nDROP TABLE users;" }) := by
    decide +kernel
  exact absurd (h _ _ _ _ hline) (by decide)

end Schemata.Sql
