import Mathlib.Data.List.Chain
import Schemata.Proofs.Naming
import Schemata.Sql.Name

/-!
# Identifiers

What `snakeCase` makes of a label are words of lower-case letters and digits, joined by single
underscores (`IsTidy`, `exists_words_snakeCase`). The names of tables and columns are such words,
behind an underscore if they start with a digit (`IsGuarded`).

To make a name of such a name takes the underscore away and puts it back: the names in `IsGuarded`
are just those that stay as they are (`isGuarded_iff`). The names that are put together from others,
with a number or as that of a reference, are among them too.
-/

namespace Schemata

open Text (isSnake isLowerAlphanum replaceRuns trim splitCamel)

/-- A text of words of lower-case ASCII letters and digits that are joined by single underscores. -/
structure IsTidy (s : List Char) : Prop where
  ne_nil : s ≠ []
  isSnake : ∀ c ∈ s, Text.isSnake c = true
  head : ∀ c ∈ s.head?, c ≠ '_'
  last : ∀ c ∈ s.getLast?, c ≠ '_'
  apart : s.IsChain fun a b => ¬(a = '_' ∧ b = '_')

/-- A name of tidy words, behind an underscore if they start with a digit. -/
def IsGuarded (name : String) : Prop :=
  ∃ core, IsTidy core ∧ name = guardDigit (String.ofList core)

variable {s w : List Char} {name : String}

/-- What can stand in a script as a name without quotation marks. -/
theorem Sql.isPlainName_iff : Sql.isPlainName s = true ↔
    s ≠ [] ∧ (∀ c ∈ s, isSnake c = true) ∧ ∀ c ∈ s.head?, c.isDigit = false := by
  cases s with
  | nil => simp [isPlainName]
  | cons c rest =>
    have hdigit : c.isLower = true ∨ c = '_' → c.isDigit = false := by
      rintro (hlower | rfl)
      · have hcode := Text.toNat_of_isLower hlower
        by_contra hdigit
        have hcode' : 48 ≤ c.toNat ∧ c.toNat ≤ 57 :=
          Char.isDigit_iff_toNat.1 (by simpa using hdigit)
        omega
      · decide
    have hstart : c.isLower = true ∨ c = '_' ↔ isSnake c = true ∧ c.isDigit = false := by
      simp only [isSnake, isLowerAlphanum, Bool.or_eq_true, beq_iff_eq]
      refine ⟨fun h => ⟨h.imp_left .inl, hdigit h⟩, fun h => h.1.imp_left fun hstart => ?_⟩
      exact hstart.resolve_right (by simp [h.2])
    simp only [isPlainName, Bool.and_eq_true, Bool.or_eq_true, beq_iff_eq, hstart,
      List.all_eq_true]
    simp
    tauto

/-! ## Underscores -/

theorem isChain_underscores (s : List Char) :
    (replaceRuns (· == '_') '_' s).IsChain fun a b => ¬(a = '_' ∧ b = '_') := by
  simpa using Text.isChain_replaceRuns (· == '_') '_' s

/-- Where underscores are single, none is taken away. -/
theorem underscores_eq_self (h : s.IsChain fun a b => ¬(a = '_' ∧ b = '_')) :
    replaceRuns (· == '_') '_' s = s :=
  Text.replaceRuns_eq_self (by simpa using h) fun c _ hc => by simpa using hc

/-- A text with single underscores, none of which is at an end. -/
structure IsSpaced (s : List Char) : Prop where
  ne_nil : s ≠ []
  head : ∀ c ∈ s.head?, c ≠ '_'
  last : ∀ c ∈ s.getLast?, c ≠ '_'
  apart : s.IsChain fun a b => ¬(a = '_' ∧ b = '_')

theorem isSpaced_of_trim (s : List Char) :
    trim (· == '_') (replaceRuns (· == '_') '_' s) = [] ∨
      IsSpaced (trim (· == '_') (replaceRuns (· == '_') '_' s)) := by
  by_cases hnil : trim (· == '_') (replaceRuns (· == '_') '_' s) = []
  · exact .inl hnil
  · obtain ⟨l, r, -, -, hsplit⟩ := Text.exists_trim (· == '_') (replaceRuns (· == '_') '_' s)
    refine .inr ⟨hnil, fun c hc => ?_, fun c hc => ?_, ?_⟩
    · simpa using Text.head?_trim hc
    · simpa using Text.getLast?_trim hc
    · have hapart := isChain_underscores s
      rw [hsplit] at hapart
      exact hapart.left_of_append.right_of_append

theorem IsSpaced.trim_eq_self (h : IsSpaced s) : trim (· == '_') s = s :=
  Text.trim_eq_self (fun c hc => by simpa using h.head c hc) fun c hc => by simpa using h.last c hc

/-- Such a text stays as it is. -/
theorem IsSpaced.trim_replaceRuns (h : IsSpaced s) :
    trim (· == '_') (replaceRuns (· == '_') '_' s) = s := by
  rw [underscores_eq_self h.apart, h.trim_eq_self]

/-- No word starts inside of a text without capitals. -/
theorem Text.splitCamel_of_isSnake (h : ∀ c ∈ s, isSnake c = true) : splitCamel s = s := by
  refine splitCamel_eq_self fun c hc => ?_
  by_contra hupper
  have hcode := toNat_of_isUpper (by simpa using hupper)
  have hsnake := toNat_of_isSnake (h c hc)
  omega

/-- Of a plain text, `snakeCase` changes nothing but the underscores. -/
theorem snakeChars_of_isSnake (h : ∀ c ∈ s, isSnake c = true) :
    snakeChars s = trim (· == '_') (replaceRuns (· == '_') '_' s) := by
  have hblank : ∀ c ∈ s, Text.isBlank c = false := fun c hc =>
    Text.isBlank_of_isWord (Text.isWord_of_isSnake (h c hc))
  have hstrip : Text.strip s = s := Text.trim_eq_self
    (fun c hc => hblank c (List.mem_of_mem_head? hc))
    fun c hc => hblank c (List.mem_of_mem_getLast? hc)
  rw [snakeChars, hstrip, Text.splitCamel_of_isSnake h, Text.lower_of_isSnake h,
    Text.replaceRuns_of_forall hblank, List.filter_eq_self.2 h]

/-! ## Tidy words -/

namespace IsTidy

theorem of_trim (hsnake : ∀ c ∈ s, Text.isSnake c = true) :
    trim (· == '_') (replaceRuns (· == '_') '_' s) = [] ∨
      IsTidy (trim (· == '_') (replaceRuns (· == '_') '_' s)) := by
  refine (isSpaced_of_trim s).imp_right fun h => ⟨h.ne_nil, fun c hc => ?_, h.head, h.last, h.apart⟩
  rcases Text.mem_replaceRuns (Text.mem_trim hc) with rfl | hc
  · decide
  · exact hsnake c hc

theorem snakeChars (label : List Char) : snakeChars label = [] ∨ IsTidy (snakeChars label) :=
  of_trim fun _ hc => (List.mem_filter.1 hc).2

theorem isSpaced (h : IsTidy s) : IsSpaced s :=
  ⟨h.ne_nil, h.head, h.last, h.apart⟩

theorem snakeChars_eq_self (h : IsTidy s) : Schemata.snakeChars s = s := by
  rw [snakeChars_of_isSnake h.isSnake, h.isSpaced.trim_replaceRuns]

/-- The underscore in front of a digit is no part of the words. -/
theorem trim_guardDigit (h : IsTidy s) :
    (∀ c ∈ (guardDigit (String.ofList s)).toList, Text.isSnake c = true) ∧
      trim (· == '_') (replaceRuns (· == '_') '_' (guardDigit (String.ofList s)).toList) = s := by
  obtain ⟨c, rest, rfl⟩ := List.exists_cons_of_ne_nil h.ne_nil
  unfold guardDigit
  simp only [String.toList_ofList]
  split
  · have hchars : ("_" ++ String.ofList (c :: rest)).toList = '_' :: c :: rest := by simp
    rw [hchars]
    refine ⟨List.forall_mem_cons.2 ⟨by decide, h.isSnake⟩, ?_⟩
    rw [underscores_eq_self (h.apart.cons fun d hd hd' => h.head d hd hd'.2)]
    exact (Text.trim_append_left (s := ['_']) (by simp)).trans h.isSpaced.trim_eq_self
  · rw [String.toList_ofList, underscores_eq_self h.apart]
    exact ⟨h.isSnake, h.isSpaced.trim_eq_self⟩

/-- One more word behind tidy words. -/
theorem append_word (h : IsTidy s) (hne : w ≠ []) (hw : ∀ c ∈ w, isLowerAlphanum c = true) :
    IsTidy (s ++ '_' :: w) := by
  have hplain : ∀ c ∈ w, c ≠ '_' := by
    rintro c hc rfl
    exact absurd (hw _ hc) (by decide)
  have hapart : w.IsChain fun a b => ¬(a = '_' ∧ b = '_') := by
    refine (List.pairwise_of_forall_mem_list fun a ha b _ => ?_).isChain
    exact fun h => hplain a ha h.1
  constructor
  · simp
  · intro c hc
    rcases List.mem_append.1 hc with hc | hc
    · exact h.isSnake c hc
    · rcases List.mem_cons.1 hc with rfl | hc
      · decide
      · exact Bool.or_eq_true_iff.2 (.inl (hw c hc))
  · rw [List.head?_append_of_ne_nil _ h.ne_nil]
    exact h.head
  · intro c hc
    rw [List.getLast?_append_of_ne_nil _ (by simp), List.getLast?_cons] at hc
    obtain ⟨d, hd⟩ := Option.isSome_iff_exists.1 (List.getLast?_isSome.2 hne)
    rw [hd, Option.getD_some, Option.mem_some_iff] at hc
    exact hc ▸ hplain d (List.mem_of_getLast? hd)
  · refine h.apart.append (hapart.cons fun c hc h => ?_) fun a ha b hb h' => h.last a ha h'.1
    exact hplain c (List.mem_of_mem_head? hc) h.2

/-- What follows an underscore in tidy words is tidy. -/
theorem of_append (h : IsTidy (w ++ '_' :: s)) : IsTidy s := by
  have hapart : ('_' :: s).IsChain fun a b => ¬(a = '_' ∧ b = '_') := h.apart.right_of_append
  have hne : s ≠ [] := by
    rintro rfl
    exact h.last '_' (by simp) rfl
  refine ⟨hne, fun c hc => h.isSnake c (by simp [hc]), fun c hc hunderscore => ?_,
    fun c hc => h.last c ?_, (List.isChain_cons.1 hapart).2⟩
  · exact (List.isChain_cons.1 hapart).1 c hc ⟨rfl, hunderscore⟩
  · rw [List.getLast?_append_of_ne_nil _ (by simp), List.getLast?_cons_of_ne_nil hne]
    exact hc

theorem isLowerAlphanum_of_notMem (h : ∀ c ∈ s, Text.isSnake c = true) (hnot : '_' ∉ s) :
    ∀ c ∈ s, isLowerAlphanum c = true := by
  intro c hc
  refine (Bool.or_eq_true_iff.1 (h c hc)).resolve_right fun hunderscore => hnot ?_
  rwa [← beq_iff_eq.1 hunderscore]

/-- **Tidy words are words joined by underscores.** -/
theorem exists_words (h : IsTidy s) : ∃ words : List (List Char), words ≠ [] ∧
    (∀ w ∈ words, w ≠ [] ∧ ∀ c ∈ w, isLowerAlphanum c = true) ∧
      s = List.intercalate ['_'] words := by
  -- the words behind the first underscore are shorter by more than one character
  induction hlength : s.length using Nat.strong_induction_on generalizing s with
  | _ length ih =>
  subst hlength
  by_cases hmem : '_' ∈ s
  · obtain ⟨w, rest, rfl, hw⟩ := List.eq_append_cons_of_mem hmem
    obtain ⟨words, hne, hwords, heq⟩ := ih rest.length (by simp; omega) h.of_append rfl
    have hnil : w ≠ [] := by
      rintro rfl
      exact h.head '_' rfl rfl
    have hword := isLowerAlphanum_of_notMem (fun c hc => h.isSnake c (by simp [hc])) hw
    refine ⟨w :: words, by simp, List.forall_mem_cons.2 ⟨⟨hnil, hword⟩, hwords⟩, ?_⟩
    rw [List.intercalate_cons_of_ne_nil hne, ← heq, List.append_assoc, List.singleton_append]
  · exact ⟨[s], by simp, by simpa using ⟨h.ne_nil, isLowerAlphanum_of_notMem h.isSnake hmem⟩,
      by simp⟩

end IsTidy

/-- **Snake case**: words of lower-case ASCII letters and digits, joined by single underscores. -/
theorem exists_words_snakeCase (label : String) : ∃ words : List String,
    (∀ word ∈ words, word ≠ "" ∧ ∀ c ∈ word.toList, isLowerAlphanum c = true) ∧
      snakeCase label = String.intercalate "_" words := by
  rcases IsTidy.snakeChars label.toList with hnil | htidy
  · exact ⟨[], by simp, by rw [snakeCase, hnil]; rfl⟩
  · obtain ⟨words, -, hwords, heq⟩ := htidy.exists_words
    refine ⟨words.map String.ofList, List.forall_mem_map.2 fun w hw => ⟨fun hempty => ?_, ?_⟩, ?_⟩
    · exact (hwords w hw).1 (String.ofList_inj.1 hempty)
    · rw [String.toList_ofList]
      exact (hwords w hw).2
    · rw [← String.toList_inj, snakeCase, String.toList_ofList, heq, String.toList_intercalate,
        List.map_map]
      simp

/-- The snake case of a text in snake case is the text itself. -/
theorem snakeCase_snakeCase (label : String) : snakeCase (snakeCase label) = snakeCase label := by
  rw [snakeCase, snakeCase, String.toList_ofList]
  rcases IsTidy.snakeChars label.toList with hnil | htidy
  · rw [hnil]
    rfl
  · rw [htidy.snakeChars_eq_self]

/-! ## Names of tables and columns -/

/-- Where a name starts with a digit is told by its start. -/
theorem guardDigit_append (hne : s ≠ []) (t : List Char) :
    guardDigit (String.ofList (s ++ t)) = guardDigit (String.ofList s) ++ String.ofList t := by
  obtain ⟨c, rest, rfl⟩ := List.exists_cons_of_ne_nil hne
  unfold guardDigit
  simp only [String.toList_ofList, List.cons_append]
  split <;> exact String.toList_inj.1 (by simp)

namespace IsGuarded

theorem plain (h : IsGuarded name) : Plain name := by
  obtain ⟨core, hcore, rfl⟩ := h
  exact hcore.trim_guardDigit.1

theorem ne_empty (h : IsGuarded name) : name ≠ "" := by
  obtain ⟨core, hcore, rfl⟩ := h
  obtain ⟨c, rest, rfl⟩ := List.exists_cons_of_ne_nil hcore.ne_nil
  rw [ne_eq, ← String.toList_eq_nil_iff]
  unfold guardDigit
  simp only [String.toList_ofList]
  split <;> simp

/-- A name can stand in a script as it is. -/
theorem isPlainName (h : IsGuarded name) : Sql.isPlainName name.toList = true := by
  refine Sql.isPlainName_iff.2 ⟨by simpa using h.ne_empty, h.plain, ?_⟩
  obtain ⟨core, hcore, rfl⟩ := h
  obtain ⟨c, rest, rfl⟩ := List.exists_cons_of_ne_nil hcore.ne_nil
  unfold guardDigit
  simp only [String.toList_ofList]
  split
  · simp
  · rename_i hdigit
    simpa using hdigit

/-- **A name stays as it is** where a name is made of it. -/
theorem identifierFor_eq_self (h : IsGuarded name) (fallback : String) :
    identifierFor fallback (some name) = name := by
  obtain ⟨core, hcore, rfl⟩ := h
  obtain ⟨hsnake, htrim⟩ := hcore.trim_guardDigit
  have hchars : snakeCase (guardDigit (String.ofList core)) = String.ofList core := by
    rw [snakeCase, snakeChars_of_isSnake hsnake, htrim]
  have hne : (String.ofList core).isEmpty = false := by
    rw [String.isEmpty_eq_false_iff]
    exact fun hempty => hcore.ne_nil (String.ofList_inj.1 hempty)
  rw [identifierFor, Option.getD_some, hchars, hne]
  rfl

theorem identifierFor {fallback : String} (h : IsGuarded fallback) (label : Option String) :
    IsGuarded (identifierFor fallback label) := by
  unfold Schemata.identifierFor
  dsimp only
  split
  · exact h
  · rename_i hne
    refine ⟨snakeChars (label.getD "").toList, ?_, rfl⟩
    refine (IsTidy.snakeChars _).resolve_left fun hnil => hne ?_
    rw [snakeCase, hnil]
    rfl

theorem unnamedTable : IsGuarded unnamedTable := by
  have htidy : IsTidy Schemata.unnamedTable.toList :=
    { ne_nil := by decide
      isSnake := List.all_eq_true.1 (by decide)
      head := by simp [Schemata.unnamedTable]
      last := by simp [Schemata.unnamedTable]
      apart := by decide }
  exact ⟨_, htidy, by decide⟩

theorem tableName (label : Option String) : IsGuarded (tableName label) :=
  identifierFor unnamedTable label

end IsGuarded

/-- **The names of tables are just those that stay as they are.** -/
theorem isGuarded_iff : IsGuarded name ↔ tableName (some name) = name :=
  ⟨fun h => h.identifierFor_eq_self _, fun h => h ▸ IsGuarded.tableName _⟩

instance (name : String) : Decidable (IsGuarded name) :=
  decidable_of_iff _ isGuarded_iff.symm

namespace IsGuarded

theorem columnName (label : Option String) : IsGuarded (columnName label) :=
  identifierFor (by decide +kernel) label

/-- One more word behind a name does not change whether it starts with a digit. -/
theorem append_word (h : IsGuarded name) (hne : w ≠ [])
    (hw : ∀ c ∈ w, isLowerAlphanum c = true) : IsGuarded (name ++ String.ofList ('_' :: w)) := by
  obtain ⟨core, hcore, rfl⟩ := h
  exact ⟨_, hcore.append_word hne hw, (guardDigit_append hcore.ne_nil _).symm⟩

theorem numbered (h : IsGuarded name) (n : ℕ) : IsGuarded (numbered name n) := by
  have hdigits : ∀ c ∈ Nat.toDigits 10 n, isLowerAlphanum c = true := fun c hc =>
    Bool.or_eq_true_iff.2 (.inr (Nat.isDigit_of_mem_toDigits (by decide) (by decide) hc))
  have hname : Schemata.numbered name n = name ++ String.ofList ('_' :: Nat.toDigits 10 n) := by
    rw [Schemata.numbered, Nat.toString_eq_ofList_toDigits]
    exact String.toList_inj.1 (by simp)
  exact hname ▸ h.append_word Nat.toDigits_ne_nil hdigits

theorem uniqueName (h : IsGuarded name) (taken : List String) :
    IsGuarded (uniqueName name taken) := by
  rcases uniqueName_cases name taken with ⟨-, heq⟩ | ⟨-, n, -, heq⟩ <;> rw [heq]
  · exact h
  · exact h.numbered n

theorem foreignKeyName (h : IsGuarded name) : IsGuarded (foreignKeyName name) := by
  rw [foreignKeyName_of_plain h.plain]
  exact h.append_word (w := ['i', 'd']) (by simp) (List.all_eq_true.1 (by decide))

end IsGuarded

end Schemata
