import Mathlib.Algebra.Group.Nat.Even
import Schemata.Proofs.Sql.ForeignKey
import Schemata.Proofs.Sql.Scan

/-!
# The values of enumerations in scripts

The values of an enumeration stand in a script as text constants: in the type of the column in
MySQL, in the type made for it in PostgreSQL, and in a condition of its table elsewhere (`Lists`).
`literals?` reads the text constants of a text as the standard has them: a quotation mark opens one,
and it ends at the next that is not written twice. Backslashes are characters like others, also in
MySQL.

PostgreSQL, SQLite and SQL Server get a list that is written anew from the values, so reading it
gives them back (`literals?_quoteTexts`). MySQL gets the arguments as they were spelled.
`literals?_mysqlType` tells for which of them this says the same.
-/

namespace Schemata.Sql

/-! ## Text constants -/

/-- Where a reader of text constants stands. -/
inductive LiteralState where
  /-- Outside of text constants. -/
  | outside
  /-- Inside of one, behind some characters of it. -/
  | inside (value : List Char)
  /-- Behind a quotation mark inside of one, which ends it unless another one follows. -/
  | behindMark (value : List Char)

/-- The text constants that a text goes on with, if it leaves none open. -/
def readLiterals : LiteralState → List Char → Option (List (List Char))
  | .outside, [] => some []
  | .inside _, [] => none
  | .behindMark value, [] => some [value]
  | .outside, c :: cs => readLiterals (if c = '\'' then .inside [] else .outside) cs
  | .inside value, c :: cs =>
    readLiterals (if c = '\'' then .behindMark value else .inside (value ++ [c])) cs
  | .behindMark value, c :: cs =>
    if c = '\'' then readLiterals (.inside (value ++ [c])) cs
    else (readLiterals .outside cs).map (value :: ·)

/-- The text constants in a text, as the standard has them, if it leaves none open. -/
def literals? (text : String) : Option (List String) :=
  (readLiterals .outside text.toList).map (·.map String.ofList)

variable {s t : List Char} {c : Char} {value : List Char}

theorem readLiterals_outside_append (h : '\'' ∉ s) :
    readLiterals .outside (s ++ t) = readLiterals .outside t := by
  induction s with
  | nil => rfl
  | cons c s ih =>
    rw [List.mem_cons, not_or] at h
    rw [List.cons_append, readLiterals, if_neg (Ne.symm h.1), ih h.2]

/-- A character at the end neither opens nor ends a text constant, if it is no quotation mark. -/
theorem readLiterals_append_singleton (h : c ≠ '\'') (state : LiteralState) :
    readLiterals state (s ++ [c]) = readLiterals state s := by
  induction s generalizing state with
  | nil => cases state <;> simp [readLiterals, h]
  | cons d s ih => cases state <;> simp only [List.cons_append, readLiterals, ih]

/-! ## Values written anew -/

theorem readLiterals_doubleQuotes (value s t : List Char) :
    readLiterals (.inside value) (doubleQuotes s ++ t) =
      readLiterals (.inside (value ++ s)) t := by
  induction s generalizing value with
  | nil => rw [doubleQuotes, List.flatMap_nil, List.nil_append, List.append_nil]
  | cons c s ih =>
    rw [doubleQuotes_cons]
    by_cases hc : c = '\''
    · rw [if_pos hc, List.append_assoc, List.cons_append, List.singleton_append, readLiterals,
        if_pos rfl, readLiterals, if_pos rfl, ih, List.append_assoc, hc]
      rfl
    · rw [if_neg hc, List.append_assoc, List.singleton_append, readLiterals, if_neg hc, ih,
        List.append_assoc]
      rfl

theorem readLiterals_quoteText (text : String) (t : List Char) :
    readLiterals .outside ((quoteText text).toList ++ t) =
      readLiterals (.behindMark text.toList) t := by
  rw [toList_quoteText, List.cons_append, readLiterals, if_pos rfl, List.append_assoc,
    readLiterals_doubleQuotes, List.singleton_append, readLiterals, if_pos rfl, List.nil_append]

/-- **A list of text constants holds the texts that it is written from.** -/
theorem literals?_quoteTexts (texts : List String) : literals? (quoteTexts texts) = some texts := by
  have hread : readLiterals .outside (quoteTexts texts).toList =
      some (texts.map String.toList) := by
    have hseparator : ", ".toList = [',', ' '] := rfl
    rw [quoteTexts, String.toList_intercalate, List.map_map, hseparator]
    induction texts with
    | nil => rfl
    | cons text texts ih =>
      cases texts with
      | nil =>
        rw [List.map_singleton, List.intercalate_singleton, Function.comp,
          ← List.append_nil (quoteText text).toList, readLiterals_quoteText]
        rfl
      | cons next texts =>
        rw [List.map_cons, List.map_cons, List.intercalate_cons_cons, ← List.map_cons,
          Function.comp, List.append_assoc, readLiterals_quoteText]
        rw [List.cons_append, readLiterals, if_neg (by decide),
          readLiterals_outside_append (by decide), ih]
        rfl
  rw [literals?, hread, Option.map_some, List.map_map]
  simp

/-! ## Values as they are spelled -/

/-- No text constant stays open just if there is an even number of quotation marks. -/
theorem isSome_readLiterals (s : List Char) :
    ((readLiterals .outside s).isSome = true ↔ Even (s.count '\'')) ∧
      (∀ value, (readLiterals (.behindMark value) s).isSome = true ↔ Even (s.count '\'')) ∧
      ∀ value, (readLiterals (.inside value) s).isSome = true ↔ ¬Even (s.count '\'') := by
  induction s with
  | nil => simp [readLiterals]
  | cons c s ih =>
    obtain ⟨houtside, hbehind, hinside⟩ := ih
    by_cases hc : c = '\''
    · subst hc
      simp [readLiterals, hinside, hbehind, Nat.even_add_one]
    · simp [readLiterals, hc, houtside, hinside]

/-- Behind a quotation mark that is not the last one by itself, a value is read that ends at a
mark. -/
theorem quotedValue?_of_odd (h : ¬Even (s.count '\'')) :
    ∃ value rest, quotedValue? s = some (value, rest) ∧ Even (rest.count '\'') ∧
      ∀ front, readLiterals (.inside front) s =
        (readLiterals .outside rest).map ((front ++ value) :: ·) := by
  fun_induction quotedValue? s with
  | case1 => simp at h
  | case2 cs value rest hq ih =>
    obtain ⟨value', rest', hvalue, heven, hread⟩ := ih (by simpa [Nat.even_add_one] using h)
    obtain ⟨rfl, rfl⟩ := Prod.mk.inj (Option.some.inj (hq.symm.trans hvalue))
    refine ⟨_, rest, rfl, heven, fun front => ?_⟩
    rw [readLiterals, if_pos rfl, readLiterals, if_pos rfl, hread, List.append_assoc]
    rfl
  | case3 cs hq ih =>
    obtain ⟨value', rest', hvalue, -⟩ := ih (by simpa [Nat.even_add_one] using h)
    rw [hq] at hvalue
    contradiction
  | case4 cs hfirst =>
    refine ⟨[], cs, rfl, by simpa [Nat.even_add_one] using h, fun front => ?_⟩
    rw [readLiterals, if_pos rfl, List.append_nil]
    cases cs with
    | nil => rfl
    | cons c cs =>
      have hc : c ≠ '\'' := by
        rintro rfl
        exact hfirst cs rfl rfl
      rw [readLiterals, if_neg hc, readLiterals, if_neg hc]
  | case5 c cs hfirst hc ih =>
    obtain ⟨value, rest, hvalue, heven, hread⟩ := ih (by simpa [hc] using h)
    refine ⟨c :: value, rest, by rw [hvalue]; rfl, heven, fun front => ?_⟩
    rw [readLiterals, if_neg hc, hread, List.append_assoc]
    rfl

/-- **Where no text constant stays open, the values that are read are the text constants.** -/
theorem readLiterals_of_even (h : Even (s.count '\'')) :
    readLiterals .outside s = some (quotedValues s) := by
  fun_induction quotedValues s with
  | case1 => rfl
  | case2 cs value rest hvalue ih =>
    obtain ⟨value', rest', hvalue', heven, hread⟩ :=
      quotedValue?_of_odd (s := cs) (by simpa [Nat.even_add_one] using h)
    obtain ⟨rfl, rfl⟩ := Prod.mk.inj (Option.some.inj (hvalue.symm.trans hvalue'))
    rw [readLiterals, if_pos rfl, hread, ih heven]
    rfl
  | case3 cs hvalue =>
    obtain ⟨value', rest', hvalue', -⟩ :=
      quotedValue?_of_odd (s := cs) (by simpa [Nat.even_add_one] using h)
    rw [hvalue] at hvalue'
    contradiction
  | case4 c cs hc ih =>
    rw [readLiterals, if_neg hc]
    exact ih (by simpa [hc] using h)

/-- Then there are values just if there are quotation marks. -/
theorem quotedValues_eq_nil_iff (h : Even (s.count '\'')) : quotedValues s = [] ↔ '\'' ∉ s := by
  fun_induction quotedValues s with
  | case1 => simp
  | case2 cs value rest hvalue ih => simp
  | case3 cs hvalue =>
    obtain ⟨value', rest', hvalue', -⟩ :=
      quotedValue?_of_odd (s := cs) (by simpa [Nat.even_add_one] using h)
    rw [hvalue] at hvalue'
    contradiction
  | case4 c cs hc ih =>
    rw [ih (by simpa [hc] using h), List.mem_cons, not_or, and_iff_right (Ne.symm hc)]

/-- What MySQL reads of the type of an enumeration is what stands between its parentheses. -/
theorem literals?_mysqlType_eq (arguments : String) :
    literals? (mysqlType ⟨"ENUM", some arguments⟩) = literals? arguments := by
  have htype : mysqlType ⟨"ENUM", some arguments⟩ =
      withArguments "ENUM" (DataType.arguments? ⟨"ENUM", some arguments⟩) := by
    have hbase : (mysqlTypes.lookup "ENUM").getD "ENUM" = "ENUM" := by decide
    rw [mysqlType]
    dsimp only
    rw [hbase, if_neg (by decide), if_neg (by decide)]
  rw [htype, DataType.arguments?, Option.filter_some]
  by_cases hempty : arguments = ""
  · subst hempty
    rfl
  · have hparts : ("ENUM" ++ "(" ++ arguments ++ ")").toList =
        "ENUM(".toList ++ (arguments.toList ++ [')']) := by
      simp
    rw [if_pos (by simpa using hempty), withArguments, literals?, literals?, hparts,
      readLiterals_outside_append (by decide), readLiterals_append_singleton (by decide)]

/-- **MySQL admits the values of an enumeration** just if its arguments leave no text constant open
and hold one, or spell no value at all. -/
theorem literals?_mysqlType (arguments : String) :
    literals? (mysqlType ⟨"ENUM", some arguments⟩) = some (enumValues (some arguments)) ↔
      Even (arguments.toList.count '\'') ∧
        ('\'' ∈ arguments.toList ∨ enumValues (some arguments) = []) := by
  rw [literals?_mysqlType_eq, literals?]
  by_cases heven : Even (arguments.toList.count '\'')
  · rw [and_iff_right heven, readLiterals_of_even heven, Option.map_some, Option.some_inj]
    by_cases hmark : '\'' ∈ arguments.toList
    · have hne : quotedValues arguments.toList ≠ [] := by
        rwa [Ne, quotedValues_eq_nil_iff heven, not_not]
      refine iff_of_true ?_ (.inl hmark)
      rw [enumValues, Option.getD_some]
      split
      · contradiction
      · rfl
    · rw [(quotedValues_eq_nil_iff heven).2 hmark, or_iff_right hmark]
      exact eq_comm
  · refine iff_of_false (fun heq => heven ?_) fun h => heven h.1
    have hsome : (readLiterals .outside arguments.toList).isSome = true := by
      rw [← Option.isSome_map, heq]
      rfl
    exact (isSome_readLiterals _).1.1 hsome

/-! ## Scripts -/

/-- A text in which statements list the values of a column: the type of the column in MySQL, and
elsewhere what stands between the parentheses of a statement that makes a type, or of a condition of
the table. -/
def Lists (d : Dialect) (statements : List Statement) (table column list : String) : Prop :=
  match d with
  | .mysql => ∃ definition, .createTable definition ∈ statements ∧ definition.name = table ∧
      ∃ c ∈ definition.columns, c.name = column ∧ c.type = list
  | .postgresql => ∃ statement ∈ statements, statement.render d =
      s!"CREATE TYPE {d.quoteName (enumTypeName table column)} AS ENUM ({list});"
  | d => ∃ definition, .createTable definition ∈ statements ∧ definition.name = table ∧
      ∃ check ∈ definition.checks, definition.checkClause d check =
        "CONSTRAINT " ++ d.quoteName ("chk_" ++ table ++ "_" ++ column)
          ++ s!" CHECK ({d.quoteName column} IN ({list}))"

variable {d : Dialect} {order : CreationOrder} {head : List Statement} {script : Script}
  {t : Table} {c : Column} {arguments : String}

theorem lists_mysql (h : Script.ofTables .mysql head order = .ok script) (ht : t ∈ order.tables)
    (hc : c ∈ t.columns) : Lists .mysql script.statements t.name c.name
      (mysqlType (DataType.ofString c.dataType)) := by
  obtain ⟨definition, hdefinition, hmem⟩ := Script.createTable_mem h ht
  obtain ⟨columns, hcolumns, rfl⟩ := TableDefinition.of_eq_ok hdefinition
  obtain ⟨column, hcolumn, heq⟩ := exists_mem_of_mapM_ok hcolumns hc
  obtain ⟨hname, htype, -⟩ := ColumnDefinition.of_eq_ok heq
  exact ⟨_, hmem, rfl, column, hcolumn, hname, (Except.ok.inj htype).symm⟩

theorem lists_postgresql (h : Script.ofTables .postgresql head order = .ok script)
    (ht : t ∈ order.tables) (hc : c ∈ t.columns)
    (htype : (DataType.ofString c.dataType).isEnumeration = true) :
    Lists .postgresql script.statements t.name c.name
      (quoteTexts (DataType.ofString c.dataType).values) := by
  obtain ⟨definitions, procedures, -, -, hstatements⟩ := Script.ofTables_eq_ok h
  have henum : (enumTypeName t.name c.name, (DataType.ofString c.dataType).values) ∈
      Script.enumTypes order.tables :=
    List.mem_flatMap.2 ⟨t, ht, List.mem_filterMap.2 ⟨c, hc, if_pos htype⟩⟩
  have hmem : Statement.createType (enumTypeName t.name c.name)
      (DataType.ofString c.dataType).values ∈ Script.types .postgresql order.tables :=
    List.mem_map_of_mem henum
  have hscript : Statement.createType (enumTypeName t.name c.name)
      (DataType.ofString c.dataType).values ∈ script.statements := by
    simp only [hstatements, List.mem_append, hmem, true_or, or_true]
  exact ⟨_, hscript, rfl⟩

theorem lists_of_checksValues (hd : d.checksValues = true)
    (h : Script.ofTables d head order = .ok script) (ht : t ∈ order.tables) (hc : c ∈ t.columns)
    (htype : (DataType.ofString c.dataType).isEnumeration = true) :
    Lists d script.statements t.name c.name
      (quoteTexts (DataType.ofString c.dataType).values) := by
  obtain ⟨definition, hdefinition, hmem⟩ := Script.createTable_mem h ht
  obtain ⟨columns, -, rfl⟩ := TableDefinition.of_eq_ok hdefinition
  have hcheck : ⟨c.name, (DataType.ofString c.dataType).values⟩ ∈ valueChecks d t := by
    rw [valueChecks, if_pos hd]
    exact List.mem_filterMap.2 ⟨c, hc, if_pos htype⟩
  cases d with
  | mysql | postgresql => contradiction
  | sqlite | sqlserver => exact ⟨_, hmem, rfl, _, hcheck, rfl⟩

/-- **The values of enumerations in scripts.** For every column of the expanded schema that is an
enumeration with arguments, the script lists values, and these are the values of the type: in
PostgreSQL, SQLite and SQL Server always, in MySQL just if the arguments leave no text constant open
and hold one, or spell no value at all.

The list is read as the standard has it in all dialects (`literals?`): the escapes by backslashes
that MySQL adds in its default mode are not read, nor are comments. -/
theorem literals_script {s : Schema} {now : Moment} (h : Script.of d now s = .ok script) :
    ∃ expanded, s.expandManyToMany = .ok expanded ∧
      ∀ t ∈ expanded.tables, ∀ c ∈ t.columns, ∀ arguments,
        DataType.ofString c.dataType = ⟨"ENUM", some arguments⟩ →
          ∃ list, Lists d script.statements t.name c.name list ∧
            (literals? list = some (enumValues (some arguments)) ↔
              (d = .mysql → Even (arguments.toList.count '\'') ∧
                ('\'' ∈ arguments.toList ∨ enumValues (some arguments) = []))) := by
  obtain ⟨expanded, hexpanded, -, hscript⟩ := Script.of_eq_ok h
  refine ⟨expanded, hexpanded, fun t ht c hc arguments htype => ?_⟩
  have ht : t ∈ (CreationOrder.of expanded.tables).tables := CreationOrder.mem_of ht
  have henum : (DataType.ofString c.dataType).isEnumeration = true := by
    rw [htype]
    rfl
  have hvalues : (DataType.ofString c.dataType).values = enumValues (some arguments) := by
    rw [htype]
    rfl
  cases d with
  | mysql =>
    refine ⟨_, lists_mysql hscript ht hc, ?_⟩
    rw [htype, literals?_mysqlType]
    exact ⟨fun h _ => h, fun h => h rfl⟩
  | postgresql =>
    refine ⟨_, lists_postgresql hscript ht hc henum, ?_⟩
    rw [hvalues]
    exact iff_of_true (literals?_quoteTexts _) (by simp)
  | sqlite | sqlserver =>
    refine ⟨_, lists_of_checksValues rfl hscript ht hc henum, ?_⟩
    rw [hvalues]
    exact iff_of_true (literals?_quoteTexts _) (by simp)

/-- Members whose names for plans are spelled without and with quotation marks. -/
def plans : Schema where
  tables :=
    [{ name := "member"
       columns := [.defaultKey, { name := "plan", dataType := "ENUM(free, pro)" },
        { name := "role", dataType := "ENUM('owner','friend''s')" }] }]
  createdAt := { year := 2024, month := 1, day := 1 }
  updatedAt := { year := 2024, month := 1, day := 1 }

theorem literals_script_plans :
    ∃ script, Script.of .mysql plans.createdAt plans = .ok script ∧
      ∃ list, Lists .mysql script.statements "member" "role" list ∧
        literals? list = some ["owner", "friend's"] := by
  have ⟨script, hscript⟩ : ∃ script, script ∈ (Script.of .mysql plans.createdAt plans).toOption :=
    Option.isSome_iff_exists.1 (by decide +kernel)
  have hplans : ∀ expanded ∈ plans.expandManyToMany.toOption, ∃ t ∈ expanded.tables,
      t.name = "member" ∧ ∃ c ∈ t.columns, c.name = "role" ∧
        DataType.ofString c.dataType = ⟨"ENUM", some "'owner','friend''s'"⟩ := by
    decide +kernel
  obtain ⟨expanded, hexpanded, hlists⟩ := literals_script (mem_toOption.1 hscript)
  obtain ⟨t, ht, htable, c, hc, hcolumn, htype⟩ := hplans expanded (mem_toOption.2 hexpanded)
  obtain ⟨list, hlist, hliterals⟩ := hlists t ht c hc _ htype
  have hvalues : enumValues (some "'owner','friend''s'") = ["owner", "friend's"] := by
    decide +kernel
  rw [htable, hcolumn] at hlist
  refine ⟨script, mem_toOption.1 hscript, list, hlist, ?_⟩
  rw [← hvalues]
  exact hliterals.2 fun _ => by decide +kernel

/-- MySQL does not admit the values of every enumeration. -/
theorem not_literals_script_plans :
    ¬∀ (d : Dialect) (s expanded : Schema) (now : Moment) (script : Script),
      Script.of d now s = .ok script → s.expandManyToMany = .ok expanded →
        ∀ t ∈ expanded.tables, ∀ c ∈ t.columns, ∀ arguments,
          DataType.ofString c.dataType = ⟨"ENUM", some arguments⟩ →
            ∃ list, Lists d script.statements t.name c.name list ∧
              literals? list = some (enumValues (some arguments)) := by
  intro h
  have ⟨expanded, hexpanded, t, ht, c, hc, hcolumn, htype⟩ :
      ∃ expanded ∈ plans.expandManyToMany.toOption, ∃ t ∈ expanded.tables, ∃ c ∈ t.columns,
        c.name = "plan" ∧ DataType.ofString c.dataType = ⟨"ENUM", some "free, pro"⟩ := by
    decide +kernel
  have ⟨script, hscript, hplain⟩ :
      ∃ script ∈ (Script.of .mysql plans.createdAt plans).toOption,
        ∀ definition ∈ script.statements.flatMap Statement.tables, ∀ c ∈ definition.columns,
          c.name = "plan" → literals? c.type ≠ some (enumValues (some "free, pro")) := by
    decide +kernel
  obtain ⟨list, ⟨definition, hdefinition, -, column, hmem, hname, rfl⟩, hliterals⟩ :=
    h .mysql plans expanded _ script (mem_toOption.1 hscript) (mem_toOption.1 hexpanded) t ht c hc
      _ htype
  exact hplain definition (Statement.mem_tables.2 hdefinition) column hmem (hname.trans hcolumn)
    hliterals

end Schemata.Sql
