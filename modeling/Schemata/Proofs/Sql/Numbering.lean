import Schemata.Proofs.Sql.DefaultValue
import Schemata.Proofs.Sql.Stamp

/-!
# Columns that the database numbers

Each dialect has words of its own by which the definition of a column asks for numbers
(`Dialect.numberingWords`). They count where they stand outside of quotations and parentheses
(`outerWords`, read as the standard has it) behind the name of the column
(`ColumnDefinition.Says`).

The definition of a generated key says such a word and has no default value. Other definitions say
one only if it is spelled by the type or the default value of the column, both of which are free
text: `asksForNumbers_iff` and `carriesDefault_iff` tell exactly when.
-/

namespace Schemata.Sql

-- the test of the core library, whatever is imported
attribute [local instance (2000)] List.decidableBAll

/-! ## Words of a script -/

/-- A text with blanks in the place of all that stands in quotations and parentheses. -/
def outerChars (d : Dialect) : Place → List Char → List Char
  | _, [] => []
  | place, c :: cs =>
    (if place = .outside 0 ∧ place.step d c = .outside 0 then c else ' ') ::
      outerChars d (place.step d c) cs

/-- The words of a text that stand outside of quotations and parentheses, in capitals. -/
def outerWords (d : Dialect) (text : String) : List String :=
  (Text.wordsBy (!Text.isWord ·) (outerChars d (.outside 0) text.toList)).map fun word =>
    String.ofList (word.map Char.toUpper)

variable {d : Dialect} {s t : List Char} {c : Char} {place : Place} {word text : String}

theorem outerChars_append (place : Place) (s t : List Char) : outerChars d place (s ++ t) =
    outerChars d place s ++ outerChars d (place.read d s) t := by
  induction s generalizing place with
  | nil => rfl
  | cons c s ih => rw [List.cons_append, outerChars, ih, outerChars, Place.read_cons]; rfl

theorem outerChars_ordinary (h : ∀ c ∈ s, Place.IsOrdinary d c) :
    outerChars d (.outside 0) s = s := by
  induction s with
  | nil => rfl
  | cons c s ih =>
    have hstep : (Place.outside 0).step d c = .outside 0 := Place.step_ordinary (h c (by simp))
    rw [outerChars, if_pos ⟨rfl, hstep⟩, hstep, ih fun c' hc' => h c' (by simp [hc'])]

theorem isOrdinary_of_isWord (h : Text.isWord c = true) : Place.IsOrdinary d c := by
  have hall : ∀ mark ∈ heededMarks, Text.isWord mark = false := by decide
  refine isOrdinary_of_notMem fun hmark => ?_
  rw [hall c hmark] at h
  contradiction

theorem isOrdinary_blank : Place.IsOrdinary d ' ' :=
  isOrdinary_of_notMem (by decide)

/-- The outer words of a word are the word alone. -/
theorem outerWords_of_isWord (h : ∀ c ∈ text.toList, Text.isWord c = true) (hne : text ≠ "") :
    outerWords d text = [String.ofList (text.toList.map Char.toUpper)] := by
  have hnil : text.toList ≠ [] := by simpa using hne
  rw [outerWords, outerChars_ordinary fun c hc => isOrdinary_of_isWord (h c hc),
    Text.wordsBy_of_forall (by simpa using h) hnil, List.map_singleton]

/-- A word in front of a text is one of its outer words. -/
theorem outerWords_cons (hword : ∀ c ∈ word.toList, Text.isWord c = true) (hne : word ≠ "")
    (text : String) : outerWords d (word ++ " " ++ text) =
      String.ofList (word.toList.map Char.toUpper) :: outerWords d text := by
  have hnil : word.toList ≠ [] := by simpa using hne
  have hordinary : ∀ c ∈ word.toList ++ [' '], Place.IsOrdinary d c := by
    intro c hc
    rcases List.mem_append.1 hc with hc | hc
    · exact isOrdinary_of_isWord (hword c hc)
    · exact List.mem_singleton.1 hc ▸ isOrdinary_blank
  have hread : (Place.outside 0).read d (word.toList ++ [' ']) = .outside 0 :=
    (isBalanced_of_forall_ordinary hordinary).read_eq 0
  have hparts : (word ++ " " ++ text).toList = (word.toList ++ [' ']) ++ text.toList := by
    simp
  rw [outerWords, hparts, outerChars_append, outerChars_ordinary hordinary, hread,
    List.append_assoc, List.singleton_append, Text.wordsBy_append (by simpa using hword) hnil
      (by decide), List.map_cons, outerWords]

theorem outerChars_quoted (value : List Char) :
    ∀ c ∈ outerChars d (.quoted '\'' 0) (doubleQuotes value ++ ['\'']), c = ' ' := by
  induction value with
  | nil => simp [doubleQuotes, outerChars]
  | cons c value ih =>
    rw [doubleQuotes_cons, List.append_assoc]
    by_cases hc : c = '\''
    · rw [if_pos hc, List.cons_append, List.singleton_append, outerChars, outerChars,
        Place.step_closing, Place.step_opening (quote_mem_quotations d)]
      simpa using ih
    · rw [if_neg hc, List.singleton_append, outerChars, Place.step, if_neg hc]
      simpa using ih

/-- A text constant has no outer words. -/
theorem outerWords_quoteText (value : String) : outerWords d (quoteText value) = [] := by
  have hblank : ∀ c ∈ outerChars d (.outside 0) (quoteText value).toList, c = ' ' := by
    rw [toList_quoteText, outerChars, Place.step_opening (quote_mem_quotations d)]
    simpa using outerChars_quoted (d := d) value.toList
  have hnone : ∀ {s : List Char}, (∀ c ∈ s, c = ' ') → Text.wordsBy (!Text.isWord ·) s = [] := by
    intro s hs
    induction s with
    | nil => rfl
    | cons c s ih =>
      obtain rfl : c = ' ' := hs c (by simp)
      rw [Text.wordsBy_cons (by decide), ih fun c hc => hs c (by simp [hc])]
  rw [outerWords, hnone hblank, List.map_nil]

/-! ## What definitions say -/

/-- The words by which a definition asks for numbers. -/
def Dialect.numberingWords : Dialect → List String
  | mysql => ["AUTO_INCREMENT"]
  | postgresql => ["SERIAL", "BIGSERIAL"]
  | sqlite => ["AUTOINCREMENT"]
  | sqlserver => ["IDENTITY"]

/-- The word in front of a default value. -/
def defaultWord : String := "DEFAULT"

/-- What stands behind the name of a column in its definition. -/
def ColumnDefinition.parts (d : Dialect) (c : ColumnDefinition) : List String :=
  let numbering := if c.isGenerated then d.numbering else []
  if d = .sqlite ∧ c.isGenerated then "INTEGER" :: numbering
  else
    c.type :: (numbering ++ (if c.isRequired then ["NOT NULL"] else [])
      ++ (if c.isUnique then ["UNIQUE"] else [])
      ++ (c.default.map fun v => defaultWord ++ " " ++ v.render d).toList
      ++ (if c.isStamped then ["ON UPDATE CURRENT_TIMESTAMP"] else [])
      ++ (c.comment.map fun text => "COMMENT" ++ " " ++ quoteText text).toList)

/-- The text of a definition is the name of the column and its parts. -/
theorem ColumnDefinition.render_eq (d : Dialect) (c : ColumnDefinition) :
    c.render d = String.intercalate " " (d.quoteName c.name :: c.parts d) := by
  unfold render parts
  dsimp only
  split
  · rfl
  · simp only [List.cons_append, List.nil_append]
    rfl

/-- A word stands in the definition behind the name of the column, outside of quotations and
parentheses. -/
def ColumnDefinition.Says (d : Dialect) (c : ColumnDefinition) (word : String) : Prop :=
  ∃ part ∈ c.parts d, word ∈ outerWords d part

/-- The definition asks the database to number the rows. -/
def ColumnDefinition.AsksForNumbers (d : Dialect) (c : ColumnDefinition) : Prop :=
  ∃ word ∈ d.numberingWords, c.Says d word

/-- The definition has a default value. -/
def ColumnDefinition.CarriesDefault (d : Dialect) (c : ColumnDefinition) : Prop :=
  c.Says d defaultWord

instance (d : Dialect) (c : ColumnDefinition) (word : String) : Decidable (c.Says d word) :=
  inferInstanceAs (Decidable (∃ part ∈ c.parts d, word ∈ outerWords d part))

instance (d : Dialect) (c : ColumnDefinition) : Decidable (c.AsksForNumbers d) :=
  inferInstanceAs (Decidable (∃ word ∈ d.numberingWords, c.Says d word))

instance (d : Dialect) (c : ColumnDefinition) : Decidable (c.CarriesDefault d) :=
  inferInstanceAs (Decidable (c.Says d defaultWord))

/-- The words that tell how a column comes by its values. -/
def Dialect.valueSources (d : Dialect) : List String :=
  defaultWord :: d.numberingWords

theorem outerWords_default (d : Dialect) (text : String) :
    outerWords d (defaultWord ++ " " ++ text) = defaultWord :: outerWords d text :=
  outerWords_cons (by decide) (by decide) text

theorem outerWords_comment (d : Dialect) (text : String) :
    outerWords d ("COMMENT" ++ " " ++ quoteText text) = ["COMMENT"] := by
  rw [outerWords_cons (by decide) (by decide), outerWords_quoteText]
  rfl

/-- The clauses that are the same for every column say nothing of where its values come from. -/
theorem notMem_outerWords_clause (hword : word ∈ d.valueSources) :
    ∀ clause ∈ ["NOT NULL", "UNIQUE", "ON UPDATE CURRENT_TIMESTAMP"],
      word ∉ outerWords d clause := by
  revert word
  cases d <;> decide +kernel

/-- **What the definition of a column says of where its values come from.** -/
theorem ColumnDefinition.says_iff {column : ColumnDefinition} (hword : word ∈ d.valueSources)
    (hplain : ¬(d = .sqlite ∧ column.isGenerated = true)) : column.Says d word ↔
      word ∈ outerWords d column.type ∨
      (column.isGenerated = true ∧ ∃ clause ∈ d.numbering, word ∈ outerWords d clause) ∨
      ∃ v ∈ column.default, word = defaultWord ∨ word ∈ outerWords d (v.render d) := by
  have hclauses := notMem_outerWords_clause hword
  have hsilent : ∀ {b : Bool}, ∀ clause ∈ ["NOT NULL", "UNIQUE", "ON UPDATE CURRENT_TIMESTAMP"],
      ¬∃ part ∈ (if b = true then [clause] else []), word ∈ outerWords d part := by
    rintro b clause hclause ⟨part, hpart, hmem⟩
    rw [List.mem_ite_nil_right, List.mem_singleton] at hpart
    exact hclauses clause hclause (hpart.2 ▸ hmem)
  have hcomment : ¬∃ part ∈ (column.comment.map fun text => "COMMENT" ++ " " ++ quoteText text).toList,
      word ∈ outerWords d part := by
    rintro ⟨part, hpart, hmem⟩
    obtain ⟨text, -, rfl⟩ := Option.map_eq_some_iff.1 (Option.mem_toList.1 hpart)
    rw [outerWords_comment, List.mem_singleton] at hmem
    revert hmem
    revert word
    cases d <;> decide
  have hnumbering : (∃ part ∈ (if column.isGenerated = true then d.numbering else []),
      word ∈ outerWords d part) ↔
        column.isGenerated = true ∧ ∃ clause ∈ d.numbering, word ∈ outerWords d clause := by
    simp only [List.mem_ite_nil_right, and_assoc, exists_and_left]
  have hdefault : (∃ part ∈ (column.default.map fun v => defaultWord ++ " " ++ v.render d).toList,
      word ∈ outerWords d part) ↔
        ∃ v ∈ column.default, word = defaultWord ∨ word ∈ outerWords d (v.render d) := by
    cases column.default <;> simp [outerWords_default]
  rw [ColumnDefinition.Says, ColumnDefinition.parts, if_neg hplain]
  simp only [List.exists_mem_cons_iff, List.mem_append, or_and_right, exists_or]
  rw [hnumbering, hdefault, or_iff_left hcomment,
    or_iff_left (hsilent "ON UPDATE CURRENT_TIMESTAMP" (by simp)),
    or_iff_left (hsilent "UNIQUE" (by simp)), or_iff_left (hsilent "NOT NULL" (by simp))]

/-! ## What types and default values spell -/

/-- The outer words of the type for a token, as a dialect writes it for a column of a table without
a key. -/
def typeWords (d : Dialect) (dataType : String) : List String :=
  match d.columnType { name := "" } { name := "", dataType } with
  | .ok type => outerWords d type
  | .error _ => []

/-- The outer words of a default value. -/
def defaultWords (d : Dialect) (text : String) : List String :=
  outerWords d ((DefaultValue.ofText text).render d)

/-- The type for a token says nothing of where values come from. -/
def IsSilentType (d : Dialect) (dataType : String) : Prop :=
  ∀ word ∈ d.valueSources, word ∉ typeWords d dataType

/-- A default value does not ask for numbers. -/
def IsSilentDefault (d : Dialect) (text : String) : Prop :=
  ∀ word ∈ d.numberingWords, word ∉ defaultWords d text

/-- What a type says depends on its base name and its arguments alone. -/
theorem typeWords_congr {dataType other : String}
    (hbase : (DataType.ofString dataType).base = (DataType.ofString other).base)
    (harguments : (DataType.ofString dataType).arguments? = (DataType.ofString other).arguments?) :
    typeWords d dataType = typeWords d other := by
  have hgenerated : ∀ token, Table.isGeneratedKey { name := "" } { name := "", dataType := token } =
      false := fun _ => rfl
  cases d with
  | mysql => simp only [typeWords, Dialect.columnType, mysqlType, hbase, harguments]
  | postgresql =>
    simp only [typeWords, Dialect.columnType, postgresqlType, DataType.isEnumeration, hgenerated,
      hbase, harguments]
  | sqlite => simp only [typeWords, Dialect.columnType, sqliteType, hbase]
  | sqlserver => simp only [typeWords, Dialect.columnType, sqlserverType, hbase, harguments]

/-- The base names of the integer types. -/
def integerTypes : List String :=
  ["INTEGER", "INT", "BIGINT", "SMALLINT", "TINYINT", "MEDIUMINT", "SERIAL", "BIGSERIAL"]

theorem mem_integerTypes {type : DataType} (h : type.isInteger = true) :
    type.base ∈ integerTypes :=
  List.contains_iff_mem.1 h

/-- The word of an integer type without arguments is its own base name at most, and that in
PostgreSQL alone, which has integer types that number their rows. -/
theorem mem_typeWords_of_isInteger {dataType : String}
    (hinteger : (DataType.ofString dataType).isInteger = true)
    (harguments : (DataType.ofString dataType).arguments? = none) (hword : word ∈ d.valueSources) :
    word ∈ typeWords d dataType ↔ d = .postgresql ∧ word = (DataType.ofString dataType).base := by
  have hall : ∀ base ∈ integerTypes, ∀ word ∈ d.valueSources,
      (word ∈ typeWords d base ↔ d = .postgresql ∧ word = base) := by
    cases d <;> decide +kernel
  have hplain : ∀ base ∈ integerTypes, (DataType.ofString base).base = base ∧
      (DataType.ofString base).arguments? = none := by
    decide +kernel
  obtain ⟨hbase, hnone⟩ := hplain _ (mem_integerTypes hinteger)
  rw [typeWords_congr hbase.symm (harguments.trans hnone.symm)]
  exact hall _ (mem_integerTypes hinteger) word hword

variable {t : Table} {c : Column} {definition : ColumnDefinition}

theorem ColumnDefinition.generated_of_eq_ok (h : ColumnDefinition.of d t c = .ok definition) :
    definition.isGenerated = t.isGeneratedKey c ∧ definition.default =
      if t.isGeneratedKey c then none else c.defaultValue.map .ofText := by
  rw [ColumnDefinition.of] at h
  obtain ⟨type, -, h⟩ := bind_eq_ok.1 h
  obtain rfl := Except.ok.inj h
  exact ⟨rfl, rfl⟩

/-- The name of a type for the values of a column says nothing of where they come from. -/
theorem notMem_outerWords_enumTypeName {table column : String} (htable : Plain table)
    (hcolumn : Plain column) (hword : word ∈ Dialect.postgresql.valueSources) :
    word ∉ outerWords d (enumTypeName table column) := by
  have hsnake : Plain (enumTypeName table column) :=
    ((htable.append (List.all_eq_true.1 (by decide))).append hcolumn).append
      (List.all_eq_true.1 (by decide))
  have hname : (enumTypeName table column).toList = (table ++ "_" ++ column ++ "_enu").toList ++ ['m'] := by
    simp [enumTypeName]
  have hlast : ∀ word ∈ Dialect.postgresql.valueSources, word.toList.getLast? ≠ some 'M' := by
    decide
  rw [outerWords_of_isWord (fun c hc => Text.isWord_of_isSnake (hsnake c hc))
    (fun heq => by simp [heq] at hname), List.mem_singleton]
  rintro rfl
  refine hlast _ hword ?_
  rw [String.toList_ofList, hname, List.map_append, List.map_singleton, List.getLast?_concat]
  rfl

/-- A type that is not the one of a numbered column in PostgreSQL says of where values come from what
it would say in any other column. -/
theorem mem_outerWords_type (h : ColumnDefinition.of d t c = .ok definition) (ht : Plain t.name)
    (hc : Plain c.name) (hword : word ∈ d.valueSources)
    (hplain : ¬(d = .postgresql ∧ t.isGeneratedKey c = true)) :
    word ∈ outerWords d definition.type ↔ word ∈ typeWords d c.dataType := by
  obtain ⟨-, htype, -⟩ := ColumnDefinition.of_eq_ok h
  cases d with
  | mysql | sqlite =>
    rw [← Except.ok.inj htype]
    rfl
  | sqlserver =>
    have hsame : Dialect.sqlserver.columnType { name := "" }
        { name := "", dataType := c.dataType } = .ok definition.type := htype
    rw [typeWords, hsame]
  | postgresql =>
    have hgenerated : t.isGeneratedKey c = false := by simpa using hplain
    have hnot : Table.isGeneratedKey { name := "" } { name := "", dataType := c.dataType } = false :=
      rfl
    rw [← Except.ok.inj htype]
    simp only [typeWords, Dialect.columnType, postgresqlType, hgenerated, hnot]
    cases henumeration : (DataType.ofString c.dataType).isEnumeration with
    | true =>
      simp only [if_true]
      exact iff_of_false (notMem_outerWords_enumTypeName ht hc hword)
        (notMem_outerWords_enumTypeName (List.all_eq_true.1 (by decide))
          (List.all_eq_true.1 (by decide)) hword)
    | false => rfl

theorem isInteger_of_isGeneratedKey (h : t.isGeneratedKey c = true) :
    (DataType.ofString c.dataType).isInteger = true := by
  unfold Table.isGeneratedKey at h
  split at h
  · exact (Bool.and_eq_true_iff.1 h).2
  · contradiction

/-- A numbered column has a type of its own in PostgreSQL. -/
theorem postgresqlType_of_isGeneratedKey (h : t.isGeneratedKey c = true) :
    postgresqlType t c (DataType.ofString c.dataType) ∈ ["SERIAL", "BIGSERIAL"] := by
  have hnot : (DataType.ofString c.dataType).isEnumeration = false := by
    have hall : ∀ base ∈ integerTypes, (base == "ENUM") = false := by decide
    exact hall _ (mem_integerTypes (isInteger_of_isGeneratedKey h))
  rw [postgresqlType, hnot, if_neg Bool.false_ne_true, if_pos h]
  split <;> simp

/-- The definition of a generated key asks for numbers. -/
theorem asksForNumbers_of_isGeneratedKey (h : ColumnDefinition.of d t c = .ok definition)
    (hkey : t.isGeneratedKey c = true) : definition.AsksForNumbers d := by
  obtain ⟨-, htype, -⟩ := ColumnDefinition.of_eq_ok h
  have hgenerated := (ColumnDefinition.generated_of_eq_ok h).1.trans hkey
  cases d with
  | mysql =>
    refine ⟨"AUTO_INCREMENT", by decide, ?_⟩
    rw [ColumnDefinition.says_iff (by decide) (by simp)]
    exact .inr (.inl ⟨hgenerated, "AUTO_INCREMENT", by decide, by decide +kernel⟩)
  | postgresql =>
    have hwords : ∀ type ∈ ["SERIAL", "BIGSERIAL"], type ∈ Dialect.postgresql.numberingWords ∧
        type ∈ outerWords .postgresql type := by
      decide +kernel
    have hmem : definition.type ∈ ["SERIAL", "BIGSERIAL"] :=
      Except.ok.inj htype ▸ postgresqlType_of_isGeneratedKey hkey
    obtain ⟨hword, houter⟩ := hwords _ hmem
    refine ⟨definition.type, hword, ?_⟩
    rw [ColumnDefinition.says_iff (List.mem_cons_of_mem _ hword) (by simp)]
    exact .inl houter
  | sqlite =>
    refine ⟨"AUTOINCREMENT", by decide, "PRIMARY KEY AUTOINCREMENT", ?_, by decide +kernel⟩
    rw [ColumnDefinition.parts, if_pos ⟨rfl, hgenerated⟩, if_pos hgenerated]
    decide
  | sqlserver =>
    refine ⟨"IDENTITY", by decide, ?_⟩
    rw [ColumnDefinition.says_iff (by decide) (by simp)]
    exact .inr (.inl ⟨hgenerated, "IDENTITY(1,1)", by decide, by decide +kernel⟩)

/-- The words that ask for numbers are spelled by the type or the default value of a column. -/
def SpellsNumbering (d : Dialect) (c : Column) : Prop :=
  ∃ word ∈ d.numberingWords, word ∈ typeWords d c.dataType ∨
    ∃ text ∈ c.defaultValue, word ∈ defaultWords d text

/-- **Which definitions ask for numbers**: those of generated keys, and those of columns that spell
it. -/
theorem asksForNumbers_iff (h : ColumnDefinition.of d t c = .ok definition) (ht : Plain t.name)
    (hc : Plain c.name) :
    definition.AsksForNumbers d ↔ t.isGeneratedKey c = true ∨ SpellsNumbering d c := by
  by_cases hkey : t.isGeneratedKey c = true
  · exact iff_of_true (asksForNumbers_of_isGeneratedKey h hkey) (.inl hkey)
  · obtain ⟨hgenerated, hdefault⟩ := ColumnDefinition.generated_of_eq_ok h
    rw [Bool.not_eq_true] at hkey
    rw [hkey, if_neg Bool.false_ne_true] at hdefault
    rw [hkey] at hgenerated
    rw [hkey, or_iff_right Bool.false_ne_true]
    refine exists_congr fun word => and_congr_right fun hword => ?_
    have hne : word ≠ defaultWord := by
      rintro rfl
      revert hword
      cases d <;> decide
    have hsource : word ∈ d.valueSources := List.mem_cons_of_mem _ hword
    rw [ColumnDefinition.says_iff hsource (by simp [hgenerated]),
      mem_outerWords_type h ht hc hsource (by simp [hkey]), hgenerated, hdefault]
    simp [hne, defaultWords]

/-- The type of a column in SQLite says nothing of where its values come from. -/
theorem notMem_typeWords_sqlite (dataType : String)
    (hword : word ∈ Dialect.sqlite.valueSources) : word ∉ typeWords .sqlite dataType := by
  have hclass : sqliteType (DataType.ofString dataType) ∈ "TEXT" :: sqliteClasses.map (·.2) := by
    rw [sqliteType]
    cases hlookup : sqliteClasses.lookup (DataType.ofString dataType).base with
    | none => exact List.mem_cons_self
    | some type => exact List.mem_cons_of_mem _ (List.mem_map_of_mem (mem_of_lookup hlookup))
  have hall : ∀ type ∈ "TEXT" :: sqliteClasses.map (·.2),
      ∀ word ∈ Dialect.sqlite.valueSources, word ∉ outerWords .sqlite type := by
    decide +kernel
  exact hall _ hclass word hword

/-- **Which definitions have a default value**: those of columns with one that are no generated
keys, and those of columns whose type spells it. -/
theorem carriesDefault_iff (h : ColumnDefinition.of d t c = .ok definition) (ht : Plain t.name)
    (hc : Plain c.name) : definition.CarriesDefault d ↔
      (t.isGeneratedKey c = false ∧ c.defaultValue.isSome = true) ∨
        ¬(d = .postgresql ∧ t.isGeneratedKey c = true) ∧ defaultWord ∈ typeWords d c.dataType := by
  obtain ⟨-, htype, -⟩ := ColumnDefinition.of_eq_ok h
  obtain ⟨hgenerated, hdefault⟩ := ColumnDefinition.generated_of_eq_ok h
  have hsource : defaultWord ∈ d.valueSources := List.mem_cons_self
  have hnumbering : ¬(definition.isGenerated = true ∧
      ∃ clause ∈ d.numbering, defaultWord ∈ outerWords d clause) := by
    have hnone : ¬∃ clause ∈ d.numbering, defaultWord ∈ outerWords d clause := by
      cases d <;> decide +kernel
    exact fun h => hnone h.2
  rw [ColumnDefinition.CarriesDefault]
  by_cases hsqlite : d = .sqlite ∧ definition.isGenerated = true
  · obtain ⟨rfl, hyes⟩ := hsqlite
    have hnone : ¬definition.Says .sqlite defaultWord := by
      rw [ColumnDefinition.Says, ColumnDefinition.parts, if_pos ⟨rfl, hyes⟩, if_pos hyes]
      decide +kernel
    refine iff_of_false hnone (not_or.2 ⟨by simp [← hgenerated, hyes], fun h => ?_⟩)
    exact notMem_typeWords_sqlite _ hsource h.2
  rw [ColumnDefinition.says_iff hsource hsqlite, or_iff_right hnumbering]
  by_cases hpostgresql : d = .postgresql ∧ t.isGeneratedKey c = true
  · obtain ⟨rfl, hkey⟩ := hpostgresql
    have hall : ∀ type ∈ ["SERIAL", "BIGSERIAL"], defaultWord ∉ outerWords .postgresql type := by
      decide +kernel
    have hnone := hall _ (Except.ok.inj htype ▸ postgresqlType_of_isGeneratedKey hkey)
    simp [hnone, hdefault, hkey]
  · rw [mem_outerWords_type h ht hc hsource hpostgresql, hdefault, or_comm, and_iff_right hpostgresql]
    refine or_congr_left ?_
    cases t.isGeneratedKey c <;> cases c.defaultValue <;> simp

/-- What the definition of a column says of where its values come from. -/
structure ColumnDefinition.Sourced (d : Dialect) (t : Table) (c : Column)
    (definition : ColumnDefinition) : Prop where
  /-- Generated keys ask for numbers, and so do columns that spell it. -/
  asksForNumbers_iff : definition.AsksForNumbers d ↔
    t.isGeneratedKey c = true ∨ SpellsNumbering d c
  /-- Columns that are no generated keys have their default value, if there is one, and so do
  columns whose type spells one. -/
  carriesDefault_iff : definition.CarriesDefault d ↔
    (t.isGeneratedKey c = false ∧ c.defaultValue.isSome = true) ∨
      ¬(d = .postgresql ∧ t.isGeneratedKey c = true) ∧ defaultWord ∈ typeWords d c.dataType
  /-- Among the columns of integer types without arguments, it is those of the integer types by
  which PostgreSQL numbers rows that spell it. -/
  of_isInteger : (DataType.ofString c.dataType).isInteger = true →
    (DataType.ofString c.dataType).arguments? = none →
      (definition.AsksForNumbers d ↔ t.isGeneratedKey c = true ∨
        (d = .postgresql ∧ (DataType.ofString c.dataType).base ∈ d.numberingWords) ∨
          ∃ text ∈ c.defaultValue, ¬IsSilentDefault d text) ∧
      (definition.CarriesDefault d ↔ t.isGeneratedKey c = false ∧ c.defaultValue.isSome = true)

theorem ColumnDefinition.sourced (h : ColumnDefinition.of d t c = .ok definition)
    (ht : Plain t.name) (hc : Plain c.name) : definition.Sourced d t c := by
  have hasks := asksForNumbers_iff h ht hc
  have hcarries := carriesDefault_iff h ht hc
  refine ⟨hasks, hcarries, fun hinteger harguments => ⟨?_, ?_⟩⟩
  · have htype : ∀ word ∈ d.numberingWords, (word ∈ typeWords d c.dataType ↔
        d = .postgresql ∧ word = (DataType.ofString c.dataType).base) := fun word hword =>
      mem_typeWords_of_isInteger hinteger harguments (List.mem_cons_of_mem _ hword)
    have hspells : SpellsNumbering d c ↔
        (d = .postgresql ∧ (DataType.ofString c.dataType).base ∈ d.numberingWords) ∨
          ∃ text ∈ c.defaultValue, ¬IsSilentDefault d text := by
      simp only [SpellsNumbering, IsSilentDefault, and_or_left, exists_or, not_forall, not_not]
      refine or_congr ⟨?_, fun ⟨hd, hword⟩ => ⟨_, hword, (htype _ hword).2 ⟨hd, rfl⟩⟩⟩
        ⟨fun ⟨word, hword, text, htext, hmem⟩ => ⟨text, htext, word, hword, hmem⟩,
          fun ⟨text, htext, word, hword, hmem⟩ => ⟨word, hword, text, htext, hmem⟩⟩
      rintro ⟨word, hword, hmem⟩
      obtain ⟨hd, rfl⟩ := (htype word hword).1 hmem
      exact ⟨hd, hword⟩
    rw [hasks, hspells]
  · have hnone : defaultWord ∉ typeWords d c.dataType := by
      rw [mem_typeWords_of_isInteger hinteger harguments List.mem_cons_self]
      rintro ⟨-, heq⟩
      have hmem := mem_integerTypes hinteger
      rw [← heq] at hmem
      exact absurd hmem (by decide)
    rw [hcarries, or_iff_left fun h => hnone h.2]

/-- If neither its type nor its default value tells otherwise, a column asks for numbers just if it
is a generated key, and then it has no default value. -/
theorem ColumnDefinition.Sourced.of_silent (h : definition.Sourced d t c)
    (htype : IsSilentType d c.dataType) (hdefault : ∀ text ∈ c.defaultValue, IsSilentDefault d text) :
    (definition.AsksForNumbers d ↔ t.isGeneratedKey c = true) ∧
      (t.isGeneratedKey c = true → ¬definition.CarriesDefault d) := by
  constructor
  · rw [h.asksForNumbers_iff, or_iff_left]
    rintro ⟨word, hword, hmem | ⟨text, htext, hmem⟩⟩
    · exact htype word (List.mem_cons_of_mem _ hword) hmem
    · exact hdefault text htext word hword hmem
  · intro hkey hcarries
    rcases h.carriesDefault_iff.1 hcarries with ⟨hnot, -⟩ | ⟨-, hmem⟩
    · exact Bool.false_ne_true (hnot.symm.trans hkey)
    · exact htype _ List.mem_cons_self hmem

end Schemata.Sql
