import Schemata.Proofs.Normalize.Identifier
import Schemata.Sql.Name

/-!
# Names in scripts, read back

A dialect reads a name as a word that is not reserved, or behind an opening mark as what stands up
to the closing mark, two closing marks being one of the name (`Dialect.readName?`).

`readName?_quoteName` says for every name what becomes of it. What is written between marks is
written as it is, so a closing mark in it ends the name too early unless another one follows, and
what is written without marks may end with a line feed, which is then no part of what is read. The
names in a normalized extraction are read back in every dialect (`readName?_normalize`).
-/

namespace Schemata.Sql

variable {mark c : Char} {s name rest : List Char} {d : Dialect}

/-! ## Between marks -/

/-- The characters of a text with every mark of a kind doubled. -/
def doubleMark (mark : Char) (s : List Char) : List Char :=
  s.flatMap fun c => if c = mark then [mark, mark] else [c]

/-- The name that a script goes on with up to a closing mark, and what follows. Two closing marks
are one of the name; `behind` tells whether the last character was a first one. -/
def quotedName? (mark : Char) (behind : Bool) : List Char → Option (List Char × List Char)
  | [] => if behind then some ([], []) else none
  | c :: s =>
    match behind with
    | false =>
      if c = mark then quotedName? mark true s
      else (quotedName? mark false s).map fun (name, rest) => (c :: name, rest)
    | true =>
      if c = mark then (quotedName? mark false s).map fun (name, rest) => (mark :: name, rest)
      else some ([], c :: s)

theorem doubleMark_cons (mark c : Char) (s : List Char) : doubleMark mark (c :: s) =
    (if c = mark then [mark, mark] else [c]) ++ doubleMark mark s :=
  List.flatMap_cons

theorem length_doubleMark (mark : Char) (s : List Char) :
    (doubleMark mark s).length = s.length + s.count mark := by
  induction s with
  | nil => rfl
  | cons c s ih =>
    rw [doubleMark_cons, List.length_append, ih, List.length_cons, List.count_cons]
    by_cases hc : c = mark <;> simp [hc] <;> omega

/-- Doubling changes just the texts that hold marks. -/
theorem doubleMark_eq_self : doubleMark mark s = s ↔ mark ∉ s := by
  constructor
  · intro h
    have hlength := congrArg List.length h
    rw [length_doubleMark] at hlength
    exact List.count_eq_zero.1 (by omega)
  · intro h
    induction s with
    | nil => rfl
    | cons c s ih =>
      rw [List.mem_cons, not_or] at h
      rw [doubleMark_cons, if_neg (Ne.symm h.1), ih h.2, List.singleton_append]

/-- A name with its closing marks doubled is read as the name, if no further one follows. -/
theorem quotedName?_doubleMark (hrest : rest.head? ≠ some mark) :
    quotedName? mark false (doubleMark mark name ++ mark :: rest) = some (name, rest) := by
  induction name with
  | nil =>
    change quotedName? mark false (mark :: rest) = _
    rw [quotedName?, if_pos rfl]
    cases rest with
    | nil => rfl
    | cons c rest => rw [quotedName?, if_neg fun heq => hrest (by rw [heq]; rfl)]
  | cons c name ih =>
    rw [doubleMark_cons, List.append_assoc]
    by_cases hc : c = mark
    · rw [if_pos hc, List.cons_append, List.singleton_append, quotedName?, if_pos rfl, quotedName?,
        if_pos rfl, ih, hc]
      rfl
    · rw [if_neg hc, List.singleton_append, quotedName?, if_neg hc, ih]
      rfl

/-- What has been read had its closing marks doubled. -/
theorem eq_of_quotedName? {behind : Bool} (h : quotedName? mark behind s = some (name, rest)) :
    (if behind then mark :: s else s) = doubleMark mark name ++ mark :: rest ∧
      rest.head? ≠ some mark := by
  induction s generalizing behind name rest with
  | nil =>
    cases behind with
    | false => contradiction
    | true =>
      obtain ⟨rfl, rfl⟩ := Prod.mk.inj (Option.some.inj h)
      exact ⟨rfl, by simp⟩
  | cons c s ih =>
    have hnext : (quotedName? mark false s).map (fun (name, rest) => (c :: name, rest)) =
        some (name, rest) → ∃ name', name = c :: name' ∧
          s = doubleMark mark name' ++ mark :: rest ∧ rest.head? ≠ some mark := by
      intro hmap
      obtain ⟨⟨name', rest'⟩, hread, heq⟩ := Option.map_eq_some_iff.1 hmap
      obtain ⟨rfl, rfl⟩ := Prod.mk.inj heq
      exact ⟨name', rfl, ih hread⟩
    cases behind with
    | false =>
      by_cases hc : c = mark
      · rw [quotedName?, if_pos hc] at h
        exact hc ▸ ih h
      · rw [quotedName?, if_neg hc] at h
        obtain ⟨name', rfl, rfl, hrest⟩ := hnext h
        refine ⟨?_, hrest⟩
        rw [if_neg (by simp), doubleMark_cons, if_neg hc]
        rfl
    | true =>
      by_cases hc : c = mark
      · rw [quotedName?, if_pos hc] at h
        obtain ⟨name', rfl, rfl, hrest⟩ := hnext (hc ▸ h)
        refine ⟨?_, hrest⟩
        rw [if_pos rfl, doubleMark_cons, if_pos hc, hc]
        rfl
      · rw [quotedName?, if_neg hc] at h
        obtain ⟨rfl, rfl⟩ := Prod.mk.inj (Option.some.inj h)
        exact ⟨rfl, by simpa using hc⟩

/-- **What is read between marks** stands there with its closing marks doubled. -/
theorem quotedName?_eq_some : quotedName? mark false s = some (name, rest) ↔
    s = doubleMark mark name ++ mark :: rest ∧ rest.head? ≠ some mark :=
  ⟨eq_of_quotedName?, fun ⟨hs, hrest⟩ => hs ▸ quotedName?_doubleMark hrest⟩

/-! ## Names of a dialect -/

/-- Whether a character goes on with a word. -/
def isNamePart (c : Char) : Bool :=
  Text.isWord c || ['$', '@', '#'].contains c

namespace Dialect

/-- The mark in front of a quoted name. -/
def opening : Dialect → Char
  | mysql => '`'
  | postgresql => '"'
  | sqlite => '"'
  | sqlserver => '['

/-- The mark behind a quoted name. -/
def closing : Dialect → Char
  | mysql => '`'
  | postgresql => '"'
  | sqlite => '"'
  | sqlserver => ']'

/-- The name at the start of a text and what follows: what stands between marks, or a plain word
that is not reserved. -/
def readName? (d : Dialect) : List Char → Option (List Char × List Char)
  | [] => none
  | c :: s =>
    if c = d.opening then quotedName? d.closing false s
    else
      let word := ((c :: s).span isNamePart).1
      if isPlainName word && !reservedWords.contains (String.ofList word) then
        some ((c :: s).span isNamePart)
      else none

theorem toList_nameMarks (d : Dialect) :
    d.nameMarks.1.toList = [d.opening] ∧ d.nameMarks.2.toList = [d.closing] := by
  cases d <;> exact ⟨rfl, rfl⟩

/-- The marks are no characters of plain names. -/
theorem isSnake_marks (d : Dialect) :
    Text.isSnake d.opening = false ∧ Text.isSnake d.closing = false := by
  cases d <;> decide

/-- What follows a name in a text ends it: it goes on neither with a word nor with the closing
mark. -/
def EndsName (d : Dialect) (rest : List Char) : Prop :=
  ∀ c ∈ rest.head?, isNamePart c = false ∧ c ≠ d.closing

instance (d : Dialect) : (rest : List Char) → Decidable (d.EndsName rest)
  | [] => isTrue (by simp [EndsName])
  | c :: _ => decidable_of_iff (isNamePart c = false ∧ c ≠ d.closing) (by simp [EndsName])

end Dialect

/-! ## Names without marks -/

theorem notMem_of_isPlainName (h : isPlainName s = true) (hc : Text.isSnake c = false) :
    c ∉ s := fun hmem =>
  Bool.false_ne_true (hc.symm.trans ((isPlainName_iff.1 h).2.1 c hmem))

theorem getLast?_ne_of_isPlainName (h : isPlainName s = true) : s.getLast? ≠ some '\n' :=
  fun hlast => notMem_of_isPlainName h (by decide) (List.mem_of_getLast? hlast)

theorem not_exists_break (h : s.getLast? ≠ some '\n') :
    ¬∃ word, isPlainName word = true ∧ s = word ++ ['\n'] := by
  rintro ⟨word, -, hbreak⟩
  exact h (by rw [hbreak, List.getLast?_concat])

/-- **Which names are written without marks**: plain ones that are not reserved, and besides those
that a line feed follows. -/
theorem isBareName_iff {name : String} : isBareName name = true ↔
    (isPlainName name.toList = true ∨
      ∃ word, isPlainName word = true ∧ name.toList = word ++ ['\n']) ∧
        name ∉ reservedWords := by
  have hplain : isPlainName (dropFinalBreak name.toList) = true ↔
      isPlainName name.toList = true ∨
        ∃ word, isPlainName word = true ∧ name.toList = word ++ ['\n'] := by
    unfold dropFinalBreak
    split
    · rename_i hlast
      have hsplit := List.dropLast_append_getLast? _ hlast
      constructor
      · exact fun h => .inr ⟨_, h, hsplit.symm⟩
      · rintro (h | ⟨word, h, hword⟩)
        · exact absurd hlast (getLast?_ne_of_isPlainName h)
        · rwa [hword, List.dropLast_concat]
    · rename_i hlast
      exact (or_iff_left (not_exists_break hlast)).symm
  rw [isBareName, Bool.and_eq_true, hplain, Bool.not_eq_true', ← Bool.not_eq_true,
    List.contains_iff_mem]

/-- A plain word is read as the name, unless it is reserved. -/
theorem readName?_append_of_isPlainName (h : isPlainName s = true)
    (hrest : ∀ c ∈ rest.head?, isNamePart c = false) : d.readName? (s ++ rest) =
      if String.ofList s ∈ reservedWords then none else some (s, rest) := by
  obtain ⟨hne, hsnake, -⟩ := isPlainName_iff.1 h
  obtain ⟨c, s, rfl⟩ := List.exists_cons_of_ne_nil hne
  have hopening : c ≠ d.opening := fun heq =>
    notMem_of_isPlainName h d.isSnake_marks.1 (heq ▸ List.mem_cons_self)
  have hword : ∀ c' ∈ c :: s, isNamePart c' = true := fun c' hc =>
    Bool.or_eq_true_iff.2 (.inl (Text.isWord_of_isSnake (hsnake c' hc)))
  have hspan : ((c :: s) ++ rest).span isNamePart = (c :: s, rest) :=
    Text.span_append hword hrest
  rw [List.cons_append] at hspan ⊢
  rw [Dialect.readName?, if_neg hopening]
  dsimp only
  rw [hspan, h]
  simp

/-! ## Names as they are written -/

theorem toList_quoteName (d : Dialect) (name : String) : (d.quoteName name).toList =
    if isBareName name then name.toList else d.opening :: name.toList ++ [d.closing] := by
  unfold Dialect.quoteName
  split
  · rfl
  · rw [String.toList_append, String.toList_append, d.toList_nameMarks.1, d.toList_nameMarks.2]
    rfl

/-- What is read of a name between marks. -/
theorem readName?_opening (d : Dialect) (s : List Char) :
    d.readName? (d.opening :: s) = quotedName? d.closing false s := by
  rw [Dialect.readName?, if_pos rfl]

/-- Behind an opening mark, a name is read just if its closing marks are doubled. -/
theorem readName?_marked (hrest : d.EndsName rest) :
    d.readName? (d.opening :: s ++ d.closing :: rest) = some (name, rest) ↔
      s = doubleMark d.closing name := by
  have hhead : rest.head? ≠ some d.closing := fun h => (hrest _ h).2 rfl
  rw [List.cons_append, readName?_opening, quotedName?_eq_some, and_iff_left hhead]
  exact List.append_left_inj _

/-- A name is written as it is just if it needs no marks. -/
theorem quoteName_eq_self_iff (d : Dialect) (name : String) :
    d.quoteName name = name ↔ isBareName name = true := by
  rw [← String.toList_inj, toList_quoteName]
  split
  · simpa
  · rename_i hno
    refine iff_of_false (fun heq => ?_) hno
    have hlength := congrArg List.length heq
    simp at hlength
    omega

/-- Of a name that needs marks, another one is read just if it has the closing marks of that one
doubled. -/
theorem readName?_quoteName_of_marked {name : String} (hrest : d.EndsName rest)
    (h : ¬isBareName name = true) (read : List Char) :
    d.readName? ((d.quoteName name).toList ++ rest) = some (read, rest) ↔
      name.toList = doubleMark d.closing read := by
  rw [toList_quoteName, if_neg h, List.append_assoc, List.singleton_append,
    readName?_marked hrest]

/-- **Which names are read back.** -/
theorem readName?_quoteName_eq_some_iff {name : String} (hrest : d.EndsName rest) :
    d.readName? ((d.quoteName name).toList ++ rest) = some (name.toList, rest) ↔
      d.closing ∉ name.toList ∧
        ¬∃ word, isPlainName word = true ∧ name.toList = word ++ ['\n'] := by
  by_cases h : isBareName name = true
  · have hword : ∀ c ∈ rest.head?, isNamePart c = false := fun c hc => (hrest c hc).1
    rw [toList_quoteName, if_pos h]
    obtain ⟨hplain | ⟨word, hplain, hbreak⟩, hreserved⟩ := isBareName_iff.1 h
    · rw [readName?_append_of_isPlainName hplain hword,
        if_neg (by rwa [String.ofList_toList])]
      exact iff_of_true rfl ⟨notMem_of_isPlainName hplain d.isSnake_marks.2,
        not_exists_break (getLast?_ne_of_isPlainName hplain)⟩
    · refine iff_of_false ?_ fun hnot => hnot.2 ⟨word, hplain, hbreak⟩
      have hfeed : isNamePart '\n' = false := by decide
      rw [hbreak, List.append_assoc, List.singleton_append,
        readName?_append_of_isPlainName hplain (by simpa using hfeed)]
      split
      · exact nofun
      · intro heq
        have hlength := congrArg List.length (Prod.mk.inj (Option.some.inj heq)).1
        simp at hlength
  · rw [readName?_quoteName_of_marked hrest h, eq_comm, doubleMark_eq_self, and_iff_left_of_imp]
    rintro - ⟨word, hplain, hbreak⟩
    -- such a name would stand without marks, since no reserved word ends with a line feed
    refine h (isBareName_iff.2 ⟨.inr ⟨word, hplain, hbreak⟩, fun hreserved => ?_⟩)
    have hends : ∀ name ∈ reservedWords, name.toList.getLast? ≠ some '\n' := by decide +kernel
    exact hends name hreserved (by rw [hbreak, List.getLast?_concat])

/-- **Names in scripts, read back.** A name is written without marks just if it is a plain name that
is not reserved, or one that a line feed follows. Otherwise it stands as it is between the marks, so
that a name is read up to the mark behind it just if the closing marks of the name are those of
another one, doubled. In all, the name itself is read just if no closing mark is in it and it is no
plain name that a line feed follows. -/
theorem readName?_quoteName (d : Dialect) (name : String) (rest : List Char)
    (hrest : d.EndsName rest) :
    (d.quoteName name = name ↔
      (isPlainName name.toList = true ∨
        ∃ word, isPlainName word = true ∧ name.toList = word ++ ['\n']) ∧
          name ∉ reservedWords) ∧
      (d.quoteName name ≠ name →
        (d.quoteName name).toList = d.opening :: name.toList ++ [d.closing] ∧
          ∀ read, d.readName? ((d.quoteName name).toList ++ rest) = some (read, rest) ↔
            name.toList = doubleMark d.closing read) ∧
      (d.readName? ((d.quoteName name).toList ++ rest) = some (name.toList, rest) ↔
        d.closing ∉ name.toList ∧
          ¬∃ word, isPlainName word = true ∧ name.toList = word ++ ['\n']) := by
  refine ⟨(quoteName_eq_self_iff d name).trans isBareName_iff, fun hne => ?_,
    readName?_quoteName_eq_some_iff hrest⟩
  have hmarked : ¬isBareName name = true := mt (quoteName_eq_self_iff d name).2 hne
  exact ⟨by rw [toList_quoteName, if_neg hmarked], readName?_quoteName_of_marked hrest hmarked⟩

/-- A reserved word is read back from between its marks. -/
theorem readName?_quoteName_order :
    Dialect.sqlserver.EndsName " (".toList ∧
      Dialect.sqlserver.readName? ((Dialect.sqlserver.quoteName "order").toList ++ " (".toList) =
        some ("order".toList, " (".toList) := by
  have hends : Dialect.sqlserver.EndsName " (".toList := by decide +kernel
  have ⟨hfree, hlast⟩ : Dialect.sqlserver.closing ∉ "order".toList ∧
      "order".toList.getLast? ≠ some '\n' := by
    decide +kernel
  obtain ⟨-, -, hread⟩ := readName?_quoteName .sqlserver "order" " (".toList hends
  exact ⟨hends, hread.2 ⟨hfree, not_exists_break hlast⟩⟩

/-- A quotation mark in a name ends it, and the rest of the name stands outside of the marks. -/
theorem not_readName?_quoteName_inches :
    Dialect.postgresql.readName? ((Dialect.postgresql.quoteName "5\" disk").toList ++ " (".toList) =
        some ("5".toList, " disk\" (".toList) ∧
      ¬∀ (d : Dialect) (name : String) (rest : List Char), d.EndsName rest →
        d.readName? ((d.quoteName name).toList ++ rest) = some (name.toList, rest) := by
  have hread : Dialect.postgresql.readName?
      ((Dialect.postgresql.quoteName "5\" disk").toList ++ " (".toList) =
        some ("5".toList, " disk\" (".toList) := by
    decide +kernel
  refine ⟨hread, fun h => ?_⟩
  have hall := h .postgresql "5\" disk" " (".toList (by decide +kernel)
  exact absurd (hread.symm.trans hall) (by decide +kernel)

/-! ## Names in normalized extractions -/

/-- **The names in a normalized extraction are read back**, whatever labels they are made of. -/
theorem readName?_normalize (e : Extraction) (heading : Heading) (small : ℤ) (now : Moment) :
    ∀ t ∈ (e.normalize heading small now).schema.tables, ∀ name,
      name = t.name ∨ t.hasColumn name = true → ∀ (d : Dialect) (rest : List Char),
        d.EndsName rest →
          d.readName? ((d.quoteName name).toList ++ rest) = some (name.toList, rest) := by
  intro t ht name hname d rest hrest
  obtain ⟨htable, hcolumns⟩ := e.guarded_normalize heading small now t ht
  have hguarded : IsGuarded name := hname.elim (· ▸ htable) (hcolumns name)
  have hplain := hguarded.isPlainName
  exact (readName?_quoteName_eq_some_iff hrest).2
    ⟨notMem_of_isPlainName hplain d.isSnake_marks.2,
      not_exists_break (getLast?_ne_of_isPlainName hplain)⟩

end Schemata.Sql
