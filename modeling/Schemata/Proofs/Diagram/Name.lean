import Schemata.Diagram.Name
import Schemata.Proofs.Diagram.Line
import Schemata.Proofs.Identifier

/-!
# Names in diagrams

The name that a diagram shows for a label consists of word characters in lower case, with single
underscores between them, and is its own name, with one exception: a capital dotted I leaves a
combining dot in it, which is no word character (`isName_diagramName_iff`,
`diagramName_diagramName_iff`).

A diagram shows the name of a table without the underscore that it has in front if it starts with a
digit (`diagramName_guardDigit`), which loses nothing, so that different tables are shown under
different names. Only a reserved word is shown under another name, which may be that of another
table (`nodup_entityNames`).
-/

namespace Schemata

open Text (isSnake isWord replaceRuns trim splitCamel lowerChar)

variable {s : List Char} {label : String} {c : Char}

namespace Diagram

/-! ## Names of labels -/

/-- The name for a label is made of word characters, with a capital dotted I just if the label has
one. -/
theorem exists_nameChars (label : List Char) : ∃ words : List Char,
    (∀ c ∈ words, isWord c = true) ∧ ('İ' ∈ words ↔ 'İ' ∈ label) ∧
      nameChars label = trim (· == '_') (replaceRuns (· == '_') '_' (Text.lower words)) := by
  refine ⟨(splitCamel label).map fun c => if isWord c then c else '_', ?_, ?_, rfl⟩
  · rw [List.forall_mem_map]
    intro c _
    split
    · assumption
    · decide
  · have hword : isWord 'İ' = true := by decide +kernel
    rw [← Text.mem_splitCamel_iff (s := label) (by decide), List.mem_map]
    constructor
    · rintro ⟨c, hc, heq⟩
      split at heq
      · exact heq ▸ hc
      · exact absurd heq (by decide)
    · exact fun hmem => ⟨_, hmem, if_pos hword⟩

/-- The characters of a name are their own lower-case forms. All of them are word characters but for
the combining dot. -/
theorem mem_nameChars (h : c ∈ nameChars s) :
    lowerChar c = [c] ∧ (isWord c = true ∨ c = '\u0307') := by
  obtain ⟨words, hwords, -, heq⟩ := exists_nameChars s
  rw [heq] at h
  rcases Text.mem_replaceRuns (Text.mem_trim h) with rfl | h
  · exact ⟨by decide, .inl (by decide)⟩
  · exact ⟨Text.lowerChar_of_mem_lower h, (Text.isWord_of_mem_lower hwords h).imp_right And.left⟩

theorem dot_mem_nameChars_iff : '\u0307' ∈ nameChars s ↔ 'İ' ∈ s := by
  obtain ⟨words, hwords, hdot, heq⟩ := exists_nameChars s
  rw [heq, ← hdot, ← Text.dot_mem_lower_iff hwords]
  constructor
  · intro h
    exact (Text.mem_replaceRuns (Text.mem_trim h)).resolve_left (by decide)
  · intro h
    exact Text.mem_trim_of_mem (Text.mem_replaceRuns_of_mem h (by decide) _) (by decide)

/-- Of word characters in lower case, only underscores are taken away. -/
theorem nameChars_of_forall (h : ∀ c ∈ s, lowerChar c = [c] ∧ isWord c = true) :
    nameChars s = trim (· == '_') (replaceRuns (· == '_') '_' s) := by
  have hcamel : splitCamel s = s :=
    Text.splitCamel_eq_self fun c hc => Text.isUpper_of_lowerChar (h c hc).1
  have hwords : (s.map fun c => if isWord c then c else '_') = s := by
    refine (List.map_congr_left fun c hc => ?_).trans (List.map_id s)
    exact if_pos (h c hc).2
  rw [nameChars, hcamel, hwords, Text.lower_eq_self fun c hc => (h c hc).1]

theorem diagramName_cases (label : String) :
    (diagramName label = unnamed ∧ 'İ' ∉ label.toList) ∨
      ((diagramName label).toList = nameChars label.toList ∧
        IsSpaced (diagramName label).toList) := by
  obtain ⟨words, -, -, heq⟩ := exists_nameChars label.toList
  unfold diagramName
  dsimp only
  rcases isSpaced_of_trim (Text.lower words) with hnil | hspaced
  · rw [← heq] at hnil
    refine .inl ⟨by rw [hnil]; rfl, fun hdot => ?_⟩
    rw [← dot_mem_nameChars_iff, hnil] at hdot
    contradiction
  · rw [← heq] at hspaced
    rw [if_neg (by simpa using hspaced.ne_nil), String.toList_ofList]
    exact .inr ⟨rfl, hspaced⟩

theorem mem_diagramName (h : c ∈ (diagramName label).toList) :
    lowerChar c = [c] ∧ (isWord c = true ∨ c = '\u0307') := by
  rcases diagramName_cases label with ⟨hname, -⟩ | ⟨hname, -⟩
  · have hunnamed : ∀ c ∈ unnamed.toList, Text.isSnake c = true := List.all_eq_true.1 (by decide)
    have hsnake := hunnamed c (hname ▸ h)
    exact ⟨Text.lowerChar_of_isSnake hsnake, .inl (Text.isWord_of_isSnake hsnake)⟩
  · exact mem_nameChars (hname ▸ h)

theorem diagramName_ne_empty (label : String) : diagramName label ≠ "" := by
  rcases diagramName_cases label with ⟨hname, -⟩ | ⟨-, hspaced⟩
  · rw [hname]
    decide
  · simpa using hspaced.ne_nil

theorem dot_mem_diagramName_iff : '\u0307' ∈ (diagramName label).toList ↔ 'İ' ∈ label.toList := by
  rcases diagramName_cases label with ⟨hname, hdot⟩ | ⟨hname, -⟩
  · rw [hname]
    exact iff_of_false (by decide) hdot
  · rw [hname, dot_mem_nameChars_iff]

/-- No name has a capital dotted I. -/
theorem dotted_notMem_diagramName (label : String) : 'İ' ∉ (diagramName label).toList := fun h =>
  absurd (mem_diagramName h).1 (by decide)

/-- A text of word characters and combining dots is a name if it has no dot. -/
theorem isName_iff_of_forall (hne : s ≠ []) (h : ∀ c ∈ s, isWord c = true ∨ c = '\u0307') :
    IsName s ↔ '\u0307' ∉ s := by
  refine ⟨fun hname hdot => ?_, fun hdot => ⟨hne, fun c hc => (h c hc).resolve_right ?_⟩⟩
  · exact absurd (hname.isWord _ hdot) (by decide +kernel)
  · rintro rfl
    exact hdot hc

/-- **Which labels have names of word characters.** -/
theorem isName_diagramName_iff : IsName (diagramName label).toList ↔ 'İ' ∉ label.toList := by
  rw [isName_iff_of_forall (by simpa using diagramName_ne_empty label)
    fun c hc => (mem_diagramName hc).2, dot_mem_diagramName_iff]

/-- **Which names are their own names.** -/
theorem diagramName_diagramName_iff :
    diagramName (diagramName label) = diagramName label ↔ 'İ' ∉ label.toList := by
  constructor
  · intro heq hdot
    rw [← dot_mem_diagramName_iff, ← heq, dot_mem_diagramName_iff] at hdot
    exact dotted_notMem_diagramName label hdot
  · intro hdot
    rcases diagramName_cases label with ⟨hname, -⟩ | ⟨-, hspaced⟩
    · rw [hname]
      decide
    · have hword := (isName_diagramName_iff.2 hdot).isWord
      rw [diagramName, nameChars_of_forall fun c hc => ⟨(mem_diagramName hc).1, hword c hc⟩,
        hspaced.trim_replaceRuns, String.ofList_toList]
      exact if_neg (by simpa using diagramName_ne_empty label)

/-! ## Names of entities -/

theorem mem_entityName (h : c ∈ (entityName label).toList) : isWord c = true ∨ c = '\u0307' := by
  unfold entityName at h
  dsimp only at h
  split at h
  · rw [String.toList_append, List.mem_append] at h
    rcases h with h | h
    · exact (mem_diagramName h).2
    · exact .inl (List.all_eq_true.1 (by decide : "_entity".toList.all isWord = true) c h)
  · exact (mem_diagramName h).2

theorem entityName_ne_nil (label : String) : (entityName label).toList ≠ [] := by
  have hne : (diagramName label).toList ≠ [] := by simpa using diagramName_ne_empty label
  unfold entityName
  dsimp only
  split
  · simp [hne]
  · exact hne

theorem dot_mem_entityName_iff : '\u0307' ∈ (entityName label).toList ↔ 'İ' ∈ label.toList := by
  rw [← dot_mem_diagramName_iff]
  unfold entityName
  dsimp only
  split
  · rw [String.toList_append, List.mem_append, or_iff_left (by decide)]
  · rfl

theorem isName_entityName_iff : IsName (entityName label).toList ↔ 'İ' ∉ label.toList := by
  rw [isName_iff_of_forall (entityName_ne_nil label) fun c hc => mem_entityName hc,
    dot_mem_entityName_iff]

/-! ## Plain names -/

theorem dotted_notMem_of_plain {name : String} (h : Plain name) : 'İ' ∉ name.toList := fun hmem =>
  absurd (h _ hmem) (by decide)

/-- **A table is shown under its name**, without the underscore that keeps a digit off its start. -/
theorem diagramName_guardDigit (h : IsTidy s) :
    diagramName (guardDigit (String.ofList s)) = String.ofList s := by
  obtain ⟨hsnake, htrim⟩ := h.trim_guardDigit
  rw [diagramName, nameChars_of_forall fun c hc =>
    ⟨Text.lowerChar_of_isSnake (hsnake c hc), Text.isWord_of_isSnake (hsnake c hc)⟩, htrim]
  exact if_neg (by simpa using h.ne_nil)

/-! ## Reserved words -/

/-- A reserved word, and the name that it is given, start with a letter and are shown as they are;
the name that it is given is not reserved. -/
theorem reservedWords_spec : ∀ word ∈ reservedWords,
    (guardDigit word = word ∧ diagramName word = word) ∧
      (guardDigit (word ++ "_entity") = word ++ "_entity" ∧
        diagramName (word ++ "_entity") = word ++ "_entity") ∧
      word ++ "_entity" ∉ reservedWords := by
  decide +kernel

/-- Two tables that are shown under one name: the name of one is a reserved word, and that of the
other the name that this word is given. -/
theorem entityName_eq {a b : String} (ha : IsGuarded a) (hb : IsGuarded b) (hne : a ≠ b)
    (heq : entityName a = entityName b) : ∃ word ∈ reservedWords,
      (a = word ∧ b = word ++ "_entity") ∨ b = word ∧ a = word ++ "_entity" := by
  obtain ⟨s, hs, rfl⟩ := ha
  obtain ⟨t, ht, rfl⟩ := hb
  rw [entityName, entityName, diagramName_guardDigit hs, diagramName_guardDigit ht] at heq
  simp only [List.contains_iff_mem] at heq
  have hsame : String.ofList s ≠ String.ofList t := fun h => hne (congrArg guardDigit h)
  by_cases hsword : String.ofList s ∈ reservedWords <;>
    by_cases htword : String.ofList t ∈ reservedWords
  · rw [if_pos hsword, if_pos htword] at heq
    exact absurd ((String.append_left_inj _).1 heq) hsame
  · rw [if_pos hsword, if_neg htword] at heq
    obtain ⟨⟨hguard, -⟩, ⟨hguard', -⟩, -⟩ := reservedWords_spec _ hsword
    exact ⟨_, hsword, .inl ⟨hguard, by rw [← heq, hguard']⟩⟩
  · rw [if_neg hsword, if_pos htword] at heq
    obtain ⟨⟨hguard, -⟩, ⟨hguard', -⟩, -⟩ := reservedWords_spec _ htword
    exact ⟨_, htword, .inr ⟨hguard, by rw [heq, hguard']⟩⟩
  · rw [if_neg hsword, if_neg htword] at heq
    exact absurd heq hsame

/-- **Different tables are shown under different names** unless the name of one is a reserved word
and that of another the name that this word is given. -/
theorem nodup_entityNames {names : List String} (hguarded : ∀ name ∈ names, IsGuarded name)
    (hnodup : names.Nodup) : (names.map entityName).Nodup ↔
      ∀ word ∈ reservedWords, ¬(word ∈ names ∧ word ++ "_entity" ∈ names) := by
  rw [List.nodup_map_iff_inj_on hnodup]
  constructor
  · rintro h word hword ⟨hmem, hmem'⟩
    obtain ⟨⟨-, hname⟩, ⟨-, hname'⟩, hother⟩ := reservedWords_spec word hword
    have heq : entityName word = entityName (word ++ "_entity") := by
      rw [entityName, entityName, hname, hname']
      simp [hword, hother]
    have hword_eq := h word hmem _ hmem' heq
    exact hother (hword_eq ▸ hword)
  · intro h a ha b hb heq
    by_contra hne
    obtain ⟨word, hword, ⟨rfl, rfl⟩ | ⟨rfl, rfl⟩⟩ :=
      entityName_eq (hguarded a ha) (hguarded b hb) hne heq
    · exact h _ hword ⟨ha, hb⟩
    · exact h _ hword ⟨hb, ha⟩

end Diagram

end Schemata
