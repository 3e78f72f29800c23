import Mathlib.Data.List.Chain
import Schemata.Proofs.Text.Word
import Schemata.Sql.ColumnType

/-!
# Texts of types

A text of a type has blanks, a name, blanks, and then nothing or arguments in parentheses and more
blanks (`Spells`). A text may be taken apart in several ways, as the spaces behind a name are blanks
as well, but all of them give the same type (`read?_of_spells`). The texts that are read are just
those that can be taken apart (`isSome_read?_iff`).

What is kept of a name is a base name (`IsBaseName`), of which reading it once more would keep all
(`keep_eq_self`), and of arguments the blanks around them are lost. So a type that is spelled anew
from its parts is read as the same type (`ofString_spelled`), and no dialect tells the two texts
apart (`Sql.Dialect.columnType_congr`).
-/

namespace Schemata

namespace DataType

open Text (isBlank replaceRuns strip stripRight upper)

variable {c : Char} {s name base : List Char} {arguments : Option (List Char)}

/-! ## Characters of base names -/

theorem toNat_of_isBaseChar (h : isBaseChar c = true) : c.toNat < 128 := by
  simp only [isBaseChar, Bool.or_eq_true, beq_iff_eq] at h
  rcases h with (h | rfl) | rfl
  · have hcode := Text.toNat_of_isAlphanum h
    omega
  · decide
  · decide

theorem isBaseChar_of_isAlpha (h : c.isAlpha = true) : isBaseChar c = true := by
  simp [isBaseChar, Char.isAlphanum, h]

/-- The upper-case forms of the ASCII characters, which are tried one by one. -/
theorem toUpper_ascii : ∀ c : Char, c.toNat < 128 →
    (isBaseChar c = true → isBaseChar c.toUpper = true ∧ c.toUpper.toUpper = c.toUpper ∧
      (c ≠ ' ' → isBlank c = false)) ∧
    (c.isAlpha = true → c.toUpper.isAlpha = true) ∧ (c.toUpper = ' ' → c = ' ') :=
  Text.forall_ascii (by decide +kernel)

/-- The space is the only blank in a base name. -/
theorem isBlank_of_isBaseChar (h : isBaseChar c = true) (hspace : c ≠ ' ') : isBlank c = false :=
  ((toUpper_ascii c (toNat_of_isBaseChar h)).1 h).2.2 hspace

theorem isBlank_of_isAlpha (h : c.isAlpha = true) : isBlank c = false := by
  refine isBlank_of_isBaseChar (isBaseChar_of_isAlpha h) ?_
  rintro rfl
  contradiction

theorem isBaseChar_toUpper (h : isBaseChar c = true) : isBaseChar c.toUpper = true :=
  ((toUpper_ascii c (toNat_of_isBaseChar h)).1 h).1

theorem toUpper_toUpper (h : isBaseChar c = true) : c.toUpper.toUpper = c.toUpper :=
  ((toUpper_ascii c (toNat_of_isBaseChar h)).1 h).2.1

theorem isAlpha_toUpper (h : c.isAlpha = true) : c.toUpper.isAlpha = true :=
  (toUpper_ascii c (toNat_of_isBaseChar (isBaseChar_of_isAlpha h))).2.1 h

theorem eq_space_of_toUpper (h : c.toUpper = ' ') : c = ' ' :=
  (toUpper_ascii c (Text.toNat_lt_of_toUpper (by rw [h]; decide))).2.2 h

theorem upper_of_isBaseChar (h : ∀ c ∈ s, isBaseChar c = true) : upper s = s.map Char.toUpper := by
  rw [upper, ← List.flatMap_singleton' (s.map _), List.flatMap_map]
  exact List.flatMap_congr fun c hc => if_pos (toNat_of_isBaseChar (h c hc))

/-! ## Names -/

/-- A text that names a type: a letter, then base characters. -/
structure IsName (s : List Char) : Prop where
  head : ∃ c ∈ s.head?, c.isAlpha = true
  isBaseChar : ∀ c ∈ s, isBaseChar c = true

/-- What is kept of the name of a type: its blanks are single, none of them is last, and its letters
are capitals. -/
def keep (name : List Char) : List Char :=
  upper (replaceRuns isBlank ' ' (stripRight name))

/-- The base name of a type: a capital letter, then capital letters, digits, underscores and single
blanks, none of which is last. -/
structure IsBaseName (s : List Char) : Prop extends IsName s where
  capital : ∀ c ∈ s, c.toUpper = c
  last : ∀ c ∈ s.getLast?, c ≠ ' '
  apart : s.IsChain fun a b => ¬(a = ' ' ∧ b = ' ')

namespace IsName

theorem exists_cons (h : IsName name) : ∃ c rest, name = c :: rest ∧ c.isAlpha = true := by
  obtain ⟨c, hc, halpha⟩ := h.head
  cases name with
  | nil => contradiction
  | cons d rest =>
    obtain rfl : d = c := by simpa using hc
    exact ⟨d, rest, rfl, halpha⟩

theorem parenthesis_notMem (h : IsName name) : '(' ∉ name := fun hmem => by
  have hbase := h.isBaseChar _ hmem
  contradiction

theorem stripRight (h : IsName name) : IsName (stripRight name) := by
  obtain ⟨c, rest, rfl, halpha⟩ := h.exists_cons
  refine ⟨⟨c, ?_, halpha⟩, fun d hd => h.isBaseChar d (Text.mem_stripRight hd)⟩
  rw [Text.stripRight_cons (isBlank_of_isAlpha halpha)]
  rfl

/-- **What is kept of a name is a base name.** -/
theorem keep (h : IsName name) : IsBaseName (keep name) := by
  have hstrip := h.stripRight
  set core := Text.stripRight name with hcore
  set spaced := replaceRuns isBlank ' ' core with hspaced
  have hbase : ∀ c ∈ spaced, DataType.isBaseChar c = true := by
    intro c hc
    rcases Text.mem_replaceRuns hc with rfl | hc
    · decide
    · exact hstrip.isBaseChar c hc
  have hkeep : DataType.keep name = spaced.map Char.toUpper := upper_of_isBaseChar hbase
  rw [hkeep]
  refine ⟨⟨?_, ?_⟩, ?_, ?_, ?_⟩
  · obtain ⟨c, rest, hcons, halpha⟩ := hstrip.exists_cons
    refine ⟨c.toUpper, ?_, isAlpha_toUpper halpha⟩
    rw [hspaced, hcons, replaceRuns, replaceRuns.go, if_neg (by simp [isBlank_of_isAlpha halpha])]
    rfl
  · rw [List.forall_mem_map]
    exact fun c hc => isBaseChar_toUpper (hbase c hc)
  · rw [List.forall_mem_map]
    exact fun c hc => toUpper_toUpper (hbase c hc)
  · -- the last character is that of the name without blanks behind it
    rintro c hc rfl
    obtain ⟨d, hd⟩ : ∃ d, core.getLast? = some d := by
      refine Option.ne_none_iff_exists'.1 fun hnone => ?_
      obtain ⟨e, rest, hcons, -⟩ := hstrip.exists_cons
      rw [List.getLast?_eq_none_iff.1 hnone] at hcons
      contradiction
    have hblank := Text.getLast?_stripRight hd
    rw [List.getLast?_map, Text.getLast?_replaceRuns hd hblank] at hc
    obtain rfl := eq_space_of_toUpper (Option.some.inj hc)
    contradiction
  · rw [List.isChain_map]
    refine (Text.isChain_replaceRuns isBlank ' ' core).imp fun a b h heq => h ?_
    obtain rfl := eq_space_of_toUpper heq.1
    obtain rfl := eq_space_of_toUpper heq.2
    decide

end IsName

/-- **All of a base name is kept.** -/
theorem keep_eq_self (h : IsBaseName base) : keep base = base := by
  have hlast : ∀ c ∈ base.getLast?, isBlank c = false := fun c hc =>
    isBlank_of_isBaseChar (h.isBaseChar c (List.mem_of_mem_getLast? hc)) (h.last c hc)
  have hspace : ∀ c ∈ base, isBlank c = true → c = ' ' := by
    intro c hc hblank
    by_contra hne
    rw [isBlank_of_isBaseChar (h.isBaseChar c hc) hne] at hblank
    contradiction
  have hruns : replaceRuns isBlank ' ' base = base :=
    Text.replaceRuns_eq_self (h.apart.imp_of_mem_imp fun a b ha hb hne hblank =>
      hne ⟨hspace a ha hblank.1, hspace b hb hblank.2⟩) hspace
  rw [keep, Text.stripRight_eq_self hlast, hruns, upper_of_isBaseChar h.isBaseChar,
    List.map_congr_left h.capital, List.map_id']

/-! ## Reading -/

theorem readBase?_append (h : IsName name) {after : List Char}
    (hafter : ∀ c ∈ after, isBlank c = true) : readBase? (name ++ after) = some (keep name) := by
  obtain ⟨c, rest, hcons, halpha⟩ := h.stripRight.exists_cons
  have hall : rest.all isBaseChar = true :=
    List.all_eq_true.2 fun d hd => h.stripRight.isBaseChar d (hcons ▸ List.mem_cons_of_mem _ hd)
  rw [readBase?, Text.stripRight_append hafter, keep, hcons]
  simp [halpha, hall]

theorem exists_name (h : readBase? s = some base) : ∃ name after, s = name ++ after ∧
    IsName name ∧ (∀ c ∈ after, isBlank c = true) ∧ base = keep name := by
  obtain ⟨after, hafter, hsplit⟩ := Text.exists_stripRight s
  refine ⟨stripRight s, after, hsplit, ?_⟩
  have hkeep : stripRight (stripRight s) = stripRight s :=
    Text.stripRight_eq_self fun _ => Text.getLast?_stripRight
  rw [readBase?] at h
  rw [keep, hkeep]
  split at h
  · rename_i c rest hcons
    rw [Option.ite_none_right_eq_some, Bool.and_eq_true, List.all_eq_true, Option.some.injEq] at h
    obtain ⟨⟨halpha, hall⟩, rfl⟩ := h
    rw [hcons]
    exact ⟨⟨⟨c, rfl, halpha⟩, List.forall_mem_cons.2 ⟨isBaseChar_of_isAlpha halpha, hall⟩⟩,
      hafter, rfl⟩
  · contradiction

theorem readArguments?_append {inside after : List Char} (hline : '\n' ∉ inside)
    (hafter : ∀ c ∈ after, isBlank c = true) :
    readArguments? (inside ++ ')' :: after) = some (strip inside) := by
  have hend : stripRight (inside ++ ')' :: after) = inside ++ [')'] := by
    rw [← List.singleton_append, ← List.append_assoc, Text.stripRight_append hafter]
    refine Text.stripRight_eq_self fun c hc => ?_
    obtain rfl : ')' = c := by simpa using hc
    decide
  rw [readArguments?, hend]
  simp [hline]

theorem exists_inside {kept : List Char} (h : readArguments? s = some kept) :
    ∃ inside after, s = inside ++ ')' :: after ∧ '\n' ∉ inside ∧
      (∀ c ∈ after, isBlank c = true) ∧ kept = strip inside := by
  obtain ⟨after, hafter, hsplit⟩ := Text.exists_stripRight s
  rw [readArguments?] at h
  split at h
  · rename_i rest hend
    rw [Option.ite_none_left_eq_some, Option.some.injEq, Bool.not_eq_true] at h
    obtain ⟨hline, rfl⟩ := h
    rw [List.reverse_eq_iff, List.reverse_cons] at hend
    refine ⟨rest.reverse, after, ?_, by simpa using hline, hafter, rfl⟩
    rw [hsplit, hend, List.append_assoc, List.singleton_append]
  · contradiction

/-- The ways to take a text of a type apart: blanks, a name, blanks, and then nothing, or arguments
in parentheses, on one line, and blanks. -/
inductive Spells : List Char → List Char → Option (List Char) → Prop
  | plain {before name after : List Char} (hbefore : ∀ c ∈ before, isBlank c = true)
    (hname : IsName name) (hafter : ∀ c ∈ after, isBlank c = true) :
    Spells (before ++ (name ++ after)) name none
  | call {before name between inside after : List Char} (hbefore : ∀ c ∈ before, isBlank c = true)
    (hname : IsName name) (hbetween : ∀ c ∈ between, isBlank c = true) (hline : '\n' ∉ inside)
    (hafter : ∀ c ∈ after, isBlank c = true) :
    Spells (before ++ (name ++ between ++ '(' :: (inside ++ ')' :: after))) name (some inside)

/-- Blanks before a name are passed over. -/
theorem dropWhile_append_name {before rest : List Char} (hname : IsName name)
    (hbefore : ∀ c ∈ before, isBlank c = true) :
    (before ++ (name ++ rest)).dropWhile isBlank = name ++ rest := by
  obtain ⟨c, cs, rfl, halpha⟩ := hname.exists_cons
  rw [List.dropWhile_append_of_pos hbefore]
  exact List.dropWhile_cons_of_neg (by simp [isBlank_of_isAlpha halpha])

/-- **However a text is taken apart**, the type is what is kept of the name and of the arguments. -/
theorem read?_of_spells (h : Spells s name arguments) :
    read? s = some (keep name, arguments.map strip) := by
  have hopen : ∀ {blanks : List Char}, IsName name → (∀ c ∈ blanks, isBlank c = true) →
      ∀ c ∈ name ++ blanks, (c != '(') = true := by
    intro blanks hname hblanks c hc
    rcases List.mem_append.1 hc with hc | hc
    · simpa using ne_of_mem_of_not_mem hc hname.parenthesis_notMem
    · have hblank := hblanks c hc
      simp only [bne_iff_ne]
      rintro rfl
      contradiction
  cases h with
  | plain hbefore hname hafter =>
    have hnone := List.dropWhile_eq_nil_iff.2 (hopen hname hafter)
    rw [read?, dropWhile_append_name hname hbefore]
    simp only [hnone, readBase?_append hname hafter, Option.map_some, Option.map_none]
  | call hbefore hname hbetween hline hafter =>
    rw [read?, List.append_assoc, dropWhile_append_name hname hbefore, ← List.append_assoc,
      List.dropWhile_append_of_pos (hopen hname hbetween),
      List.takeWhile_append_of_pos (hopen hname hbetween), List.dropWhile_cons_of_neg (by decide),
      List.takeWhile_cons_of_neg (by decide), List.append_nil, readBase?_append hname hbetween]
    simp only [readArguments?_append hline hafter]
    rfl

/-- A text that is read can be taken apart. -/
theorem exists_spells (h : read? s = some (base, arguments)) :
    ∃ name written, Spells s name written ∧ base = keep name ∧ arguments = written.map strip := by
  have hbefore : ∀ c ∈ s.takeWhile isBlank, isBlank c = true := fun c => List.mem_takeWhile_imp
  rw [← List.takeWhile_append_dropWhile (p := isBlank) (l := s)]
  rw [read?] at h
  set text := s.dropWhile isBlank with htext
  split at h
  · obtain ⟨base, hbase, heq⟩ := Option.map_eq_some_iff.1 h
    obtain ⟨name, after, hsplit, hname, hafter, rfl⟩ := exists_name hbase
    obtain ⟨rfl, rfl⟩ := Prod.mk.inj heq
    rw [hsplit]
    exact ⟨name, none, .plain hbefore hname hafter, rfl, rfl⟩
  · rename_i c tail hcall
    obtain ⟨base', hbase, h⟩ := Option.bind_eq_some_iff.1 h
    obtain ⟨kept, hkept, h⟩ := Option.bind_eq_some_iff.1 h
    obtain ⟨rfl, rfl⟩ := Prod.mk.inj (Option.some.inj h)
    obtain ⟨name, between, hsplit, hname, hbetween, rfl⟩ := exists_name hbase
    obtain ⟨inside, after, rfl, hline, hafter, rfl⟩ := exists_inside hkept
    have hopen : c = '(' := by
      have hnot := List.head?_dropWhile_not (· != '(') text
      rw [hcall] at hnot
      simpa using hnot
    rw [← List.takeWhile_append_dropWhile (p := (· != '(')) (l := text), hsplit, hcall, hopen]
    exact ⟨name, some inside, .call hbefore hname hbetween hline hafter, rfl, rfl⟩

/-- **The texts that are read** are those that can be taken apart. -/
theorem isSome_read?_iff : (read? s).isSome = true ↔ ∃ name written, Spells s name written := by
  refine ⟨fun h => ?_, fun ⟨name, written, h⟩ => by rw [read?_of_spells h]; rfl⟩
  obtain ⟨⟨base, arguments⟩, hread⟩ := Option.isSome_iff_exists.1 h
  obtain ⟨name, written, hspells, -⟩ := exists_spells hread
  exact ⟨name, written, hspells⟩

/-! ## Types that are spelled anew -/

/-- The text of a type: its base name, and its arguments in parentheses. -/
def spelled (t : DataType) : String :=
  Sql.withArguments t.base t.arguments

theorem ofString_of_spells {text : String} (h : Spells text.toList name arguments) :
    ofString text =
      ⟨String.ofList (keep name), (arguments.map strip).map String.ofList⟩ := by
  rw [ofString, read?_of_spells h]

/-- The text of a type can be taken apart into its parts. -/
theorem spells_spelled (hname : IsName name) (hline : ∀ inside ∈ arguments, '\n' ∉ inside) :
    Spells (spelled ⟨String.ofList name, arguments.map String.ofList⟩).toList name arguments := by
  cases arguments with
  | none =>
    have hplain : Spells ([] ++ (name ++ [])) name none := .plain (by simp) hname (by simp)
    simpa [spelled, Sql.withArguments] using hplain
  | some inside =>
    have hcall : Spells ([] ++ (name ++ [] ++ '(' :: (inside ++ [')']))) name (some inside) :=
      .call (by simp) hname (by simp) (hline inside rfl) (by simp)
    simpa [spelled, Sql.withArguments] using hcall

/-- What can be taken apart has a name, and arguments on one line. -/
theorem Spells.parts (h : Spells s name arguments) :
    IsName name ∧ ∀ inside ∈ arguments, '\n' ∉ inside := by
  cases h with
  | plain _ hname _ => exact ⟨hname, by simp⟩
  | call _ hname _ hline _ => exact ⟨hname, by simpa using hline⟩

end DataType

namespace Sql

/-- In no dialect the type of a column depends on more of its text than the type that it denotes. -/
theorem Dialect.columnType_congr {c : Column} {text text' : String}
    (h : DataType.ofString text = DataType.ofString text') (d : Dialect) (t : Table) :
    d.columnType t { c with dataType := text } = d.columnType t { c with dataType := text' } := by
  have hgenerated : t.isGeneratedKey { c with dataType := text } =
      t.isGeneratedKey { c with dataType := text' } := by
    unfold Table.isGeneratedKey
    simp only [h]
  cases d <;> simp only [Dialect.columnType, postgresqlType, hgenerated, h]

end Sql

namespace DataType

/-- What is read from a text that can be taken apart is read again from the text that has nothing
but it. -/
theorem read?_spelled {text : String} {name : List Char} {arguments : Option (List Char)}
    (h : Spells text.toList name arguments) :
    read? (ofString text).spelled.toList = some (keep name, arguments.map Text.strip) := by
  obtain ⟨hname, hline⟩ := h.parts
  have hkept : ∀ inside ∈ arguments.map Text.strip, '\n' ∉ inside := by
    intro inside hinside
    obtain ⟨written, hwritten, rfl⟩ := Option.map_eq_some_iff.1 hinside
    exact fun hmem => hline written hwritten (Text.mem_trim hmem)
  have hstrip : (arguments.map Text.strip).map Text.strip = arguments.map Text.strip := by
    rw [Option.map_map]
    exact congrArg (arguments.map ·) (funext Text.strip_strip)
  rw [ofString_of_spells h, read?_of_spells (spells_spelled hname.keep.toIsName hkept),
    keep_eq_self hname.keep, hstrip]

/-- **A type that is spelled anew is the same type.** The texts that are read are those that can be
taken apart. However such a text is taken apart, its base name and its arguments are read again from
the text that has nothing but them, and in every dialect a column with the one text has the same
type as with the other. -/
theorem ofString_spelled (text : String) :
    ((read? text.toList).isSome = true ↔ ∃ name written, Spells text.toList name written) ∧
      ∀ name arguments, Spells text.toList name arguments →
        read? text.toList = some (keep name, arguments.map Text.strip) ∧
          read? (ofString text).spelled.toList = some (keep name, arguments.map Text.strip) ∧
          ofString (ofString text).spelled = ofString text ∧
          ∀ (d : Sql.Dialect) (t : Table) (c : Column),
            d.columnType t { c with dataType := (ofString text).spelled } =
              d.columnType t { c with dataType := text } := by
  refine ⟨isSome_read?_iff, fun name arguments h => ?_⟩
  have hread := read?_of_spells h
  have hagain := read?_spelled h
  have htype : ofString (ofString text).spelled = ofString text := by
    rw [ofString_of_spells h] at hagain ⊢
    rw [ofString, hagain]
  exact ⟨hread, hagain, htype, fun d t c => Sql.Dialect.columnType_congr htype d t⟩

end DataType

/-- A type with blanks wherever they may stand, and parentheses between its parentheses. -/
def looseType : String :=
  " Double  Precision\t( (10, 2) ) "

theorem spells_looseType :
    DataType.Spells looseType.toList "Double  Precision".toList (some " (10, 2) ".toList) := by
  have hcall : DataType.Spells ([' '] ++ ("Double  Precision".toList ++ ['\t'] ++
      '(' :: (" (10, 2) ".toList ++ ')' :: [' ']))) "Double  Precision".toList
      (some " (10, 2) ".toList) :=
    .call (List.all_eq_true.1 (by decide))
      ⟨⟨'D', by decide, by decide⟩, List.all_eq_true.1 (by decide)⟩
      (List.all_eq_true.1 (by decide)) (by decide) (List.all_eq_true.1 (by decide))
  exact hcall

theorem ofString_spelled_looseType :
    (DataType.ofString looseType).spelled = "DOUBLE PRECISION((10, 2))" ∧
      DataType.ofString "DOUBLE PRECISION((10, 2))" = ⟨"DOUBLE PRECISION", some "(10, 2)"⟩ ∧
      Sql.Dialect.mysql.columnType { name := "station" }
        { name := "depth", dataType := "DOUBLE PRECISION((10, 2))" } = .ok "DOUBLE((10, 2))" := by
  have hspelled : (DataType.ofString looseType).spelled = "DOUBLE PRECISION((10, 2))" := by
    decide +kernel
  obtain ⟨-, hspells⟩ := DataType.ofString_spelled looseType
  obtain ⟨-, -, htype, hcolumn⟩ := hspells _ _ spells_looseType
  have hcolumn := hcolumn .mysql { name := "station" } { name := "depth" }
  rw [hspelled] at htype hcolumn
  have hread : DataType.ofString looseType = ⟨"DOUBLE PRECISION", some "(10, 2)"⟩ := by
    decide +kernel
  refine ⟨hspelled, htype.trans hread, hcolumn.trans ?_⟩
  have hmysql : Sql.mysqlType ⟨"DOUBLE PRECISION", some "(10, 2)"⟩ = "DOUBLE((10, 2))" := by
    decide +kernel
  rw [Sql.Dialect.columnType, hread, hmysql]

end Schemata
