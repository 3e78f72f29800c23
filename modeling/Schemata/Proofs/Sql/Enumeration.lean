import Schemata.Proofs.DataType
import Schemata.Proofs.Sql.Value

/-!
# Types of enumerations that are spelled out

A type that is spelled with a base name and arguments in parentheses is read as these, parentheses
in the arguments included (`DataType.ofString_of_spells`). The arguments of an enumeration that
are text constants hold the values from which they are written (`enumValues_quoteTexts`).

So the values of such an enumeration, whatever their characters are, stand in the scripts that write
them anew just as in its type (`lists_enumeration`).
-/

namespace Schemata

namespace Sql

variable {texts : List String}

/-! ## Lists of text constants -/

/-- A list of text constants starts and ends with quotation marks. -/
theorem exists_quoteTexts (h : texts ≠ []) :
    ∃ inside, (quoteTexts texts).toList = '\'' :: (inside ++ ['\'']) := by
  induction texts with
  | nil => contradiction
  | cons text texts ih =>
    cases texts with
    | nil =>
      refine ⟨doubleQuotes text.toList, ?_⟩
      rw [quoteTexts, List.map_singleton, String.intercalate_singleton, toList_quoteText]
    | cons next texts =>
      obtain ⟨inside, hinside⟩ := ih (by simp)
      refine ⟨doubleQuotes text.toList ++ '\'' :: ',' :: ' ' :: '\'' :: inside, ?_⟩
      have hcons : quoteTexts (text :: next :: texts) =
          quoteText text ++ ", " ++ quoteTexts (next :: texts) :=
        String.intercalate_cons_of_ne_nil (by simp)
      simp [hcons, hinside, toList_quoteText]

theorem strip_quoteTexts (h : texts ≠ []) :
    Text.strip (quoteTexts texts).toList = (quoteTexts texts).toList := by
  obtain ⟨inside, hinside⟩ := exists_quoteTexts h
  rw [hinside]
  refine Text.trim_eq_self ?_ ?_
  · intro c hc
    obtain rfl : '\'' = c := by simpa using hc
    decide
  · intro c hc
    rw [← List.cons_append, List.getLast?_append] at hc
    obtain rfl : '\'' = c := by simpa using hc
    decide

theorem feed_notMem_quoteTexts (h : ∀ text ∈ texts, '\n' ∉ text.toList) :
    '\n' ∉ (quoteTexts texts).toList := by
  refine Text.notMem_intercalate (by decide) fun quoted hquoted => ?_
  obtain ⟨text, htext, rfl⟩ := List.mem_map.1 hquoted
  have hvalue : '\n' ∉ doubleQuotes text.toList := by
    intro hmem
    obtain ⟨c, hc, hfeed⟩ := List.mem_flatMap.1 hmem
    split at hfeed
    · exact absurd hfeed (by decide)
    · exact h text htext (List.mem_singleton.1 hfeed ▸ hc)
  simp [toList_quoteText, hvalue]

/-- **The values of arguments that are text constants** are the texts that these are written
from. -/
theorem enumValues_quoteTexts (h : texts ≠ []) : enumValues (some (quoteTexts texts)) = texts := by
  have hread : (readLiterals .outside (quoteTexts texts).toList).map (·.map String.ofList) =
      some texts := literals?_quoteTexts texts
  have heven : Even ((quoteTexts texts).toList.count '\'') := by
    refine (isSome_readLiterals _).1.1 ?_
    rw [← Option.isSome_map, hread]
    rfl
  rw [readLiterals_of_even heven, Option.map_some, Option.some_inj] at hread
  rw [enumValues, Option.getD_some]
  split
  case h_1 hnil =>
    rw [hnil] at hread
    exact absurd hread.symm h
  case h_2 => exact hread

/-! ## Scripts -/

/-- The type of an enumeration whose values are spelled as text constants. -/
def enumeration (values : List String) : String :=
  "ENUM" ++ "(" ++ quoteTexts values ++ ")"

theorem ofString_enumeration {values : List String} (hne : values ≠ [])
    (hfeed : ∀ value ∈ values, '\n' ∉ value.toList) :
    DataType.ofString (enumeration values) = ⟨"ENUM", some (quoteTexts values)⟩ := by
  have hname : DataType.IsName "ENUM".toList :=
    ⟨⟨'E', by decide, by decide⟩, List.all_eq_true.1 (by decide)⟩
  have hline : ∀ inside ∈ some (quoteTexts values).toList, '\n' ∉ inside := by
    rintro inside ⟨⟩
    exact feed_notMem_quoteTexts hfeed
  have hspells := DataType.spells_spelled hname hline
  have htext : enumeration values = DataType.spelled ⟨String.ofList "ENUM".toList,
      (some (quoteTexts values).toList).map String.ofList⟩ := by
    rw [Option.map_some, String.ofList_toList, String.ofList_toList]
    rfl
  have hkeep : DataType.keep "ENUM".toList = "ENUM".toList := by decide
  rw [htext, DataType.ofString_of_spells hspells, hkeep, Option.map_some, strip_quoteTexts hne,
    Option.map_some, String.ofList_toList, String.ofList_toList]

/-- **Values of enumerations, from their type to the scripts.** The type with text constants between
its parentheses is read as an enumeration with these arguments, its values are the texts of the
constants, and every script of PostgreSQL, SQLite or SQL Server lists the same constants for a
column of this type. -/
theorem lists_enumeration {values : List String} (hne : values ≠ [])
    (hfeed : ∀ value ∈ values, '\n' ∉ value.toList) :
    DataType.ofString (enumeration values) = ⟨"ENUM", some (quoteTexts values)⟩ ∧
      enumValues (some (quoteTexts values)) = values ∧
      ∀ (d : Dialect) (s : Schema) (now : Moment) (script : Script), d ≠ .mysql →
        Script.of d now s = .ok script → ∃ expanded, s.expandManyToMany = .ok expanded ∧
          ∀ t ∈ expanded.tables, ∀ c ∈ t.columns, c.dataType = enumeration values →
            Lists d script.statements t.name c.name (quoteTexts values) := by
  have htype := ofString_enumeration hne hfeed
  have hvalues := enumValues_quoteTexts hne
  refine ⟨htype, hvalues, fun d s now script hd h => ?_⟩
  obtain ⟨expanded, hexpanded, -, hscript⟩ := Script.of_eq_ok h
  refine ⟨expanded, hexpanded, fun t ht c hc hspelled => ?_⟩
  have ht : t ∈ (CreationOrder.of expanded.tables).tables := CreationOrder.mem_of ht
  rw [← hspelled] at htype
  have henum : (DataType.ofString c.dataType).isEnumeration = true := by
    rw [htype]
    rfl
  have hlist : (DataType.ofString c.dataType).values = values := by
    rw [htype]
    exact hvalues
  rw [← hlist]
  cases d with
  | mysql => contradiction
  | postgresql => exact lists_postgresql hscript ht hc henum
  | sqlite | sqlserver => exact lists_of_checksValues rfl hscript ht hc henum

/-- Answers with quotation marks, commas, parentheses, blanks and nothing at all. -/
def answers : List String :=
  ["it's", "'yes', (no)", " ", "", "''", ")"]

/-- A survey with such answers. -/
def survey : Schema where
  tables :=
    [{ name := "reply"
       columns := [.defaultKey, { name := "answer", dataType := enumeration answers }] }]
  createdAt := { year := 2024, month := 1, day := 1 }
  updatedAt := { year := 2024, month := 1, day := 1 }

theorem lists_enumeration_answers :
    DataType.ofString "ENUM('it''s', '''yes'', (no)', ' ', '', '''''', ')')" =
        ⟨"ENUM", some "'it''s', '''yes'', (no)', ' ', '', '''''', ')'"⟩ ∧
      enumValues (some "'it''s', '''yes'', (no)', ' ', '', '''''', ')'") = answers ∧
      ∃ script, Script.of .sqlite survey.createdAt survey = .ok script ∧
        Lists .sqlite script.statements "reply" "answer"
          "'it''s', '''yes'', (no)', ' ', '', '''''', ')'" := by
  have htexts : quoteTexts answers = "'it''s', '''yes'', (no)', ' ', '', '''''', ')'" := by
    decide +kernel
  obtain ⟨htype, hvalues, hlists⟩ := lists_enumeration (show answers ≠ [] by decide) (by decide)
  have ⟨script, hscript⟩ :
      ∃ script, script ∈ (Script.of .sqlite survey.createdAt survey).toOption :=
    Option.isSome_iff_exists.1 (by decide +kernel)
  have hsurvey : ∀ expanded ∈ survey.expandManyToMany.toOption, ∃ t ∈ expanded.tables,
      t.name = "reply" ∧ ∃ c ∈ t.columns, c.name = "answer" ∧ c.dataType = enumeration answers := by
    decide +kernel
  obtain ⟨expanded, hexpanded, hlist⟩ :=
    hlists .sqlite survey _ script (by decide) (mem_toOption.1 hscript)
  obtain ⟨t, ht, htable, c, hc, hcolumn, hspelled⟩ := hsurvey expanded (mem_toOption.2 hexpanded)
  have hshown := hlist t ht c hc hspelled
  rw [enumeration, htexts] at htype
  rw [htexts] at hvalues hshown
  rw [htable, hcolumn] at hshown
  exact ⟨htype, hvalues, script, mem_toOption.1 hscript, hshown⟩

end Sql

end Schemata
