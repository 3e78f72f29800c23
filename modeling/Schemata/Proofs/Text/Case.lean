import Schemata.Proofs.Text.Word

/-!
# Lower case

The lower-case form of a text consists of characters that are their own lower-case forms
(`lowerChar_of_mem_lower`), and a text of such characters stays as it is (`lower_eq_self`). The form
has no blanks if the text has none (`isBlank_lower`), and that of word characters consists of such
with one exception (`isWord_of_mem_lower`): the capital dotted I becomes an `i` and a combining dot,
which is no word character.

All this is a matter of the runs of case pairs. A run keeps the order and the distances of what it
moves (`moveBy_lowerRuns_cases`), so it is enough to look at the limits of the runs.
-/

namespace Schemata.Text

variable {s : List Char} {c d : Char} {run other : CaseRun} {n m : Nat}

/-! ## Single characters -/

/-- Characters that lower-case forms bring in are their own, and but for the combining dot they are
word characters. -/
theorem lowerChar_brought :
    (lowerChar 'i' = ['i'] ∧ lowerChar '\u0307' = ['\u0307'] ∧ lowerChar 'σ' = ['σ'] ∧
      lowerChar 'ς' = ['ς']) ∧
    isWord 'i' = true ∧ isWord '\u0307' = false ∧ isWord 'ς' = true := by
  decide +kernel

theorem toLower_eq_self (h : c.toNat < 65 ∨ 90 < c.toNat) : c.toLower = c := by
  have hupper : ¬(c.val ≥ 'A'.val ∧ c.val ≤ 'Z'.val) := by
    rintro ⟨h₁, h₂⟩
    have h₁ : 65 ≤ c.toNat := h₁
    have h₂ : c.toNat ≤ 90 := h₂
    omega
  exact dif_neg hupper

/-- The lower-case forms of the ASCII characters, which are tried one by one. -/
theorem toLower_ascii : ∀ c : Char, c.toNat < 128 →
    lowerChar c.toLower = [c.toLower] ∧ (lowerChar c = [c] → c.isUpper = false) ∧
      (isWord c = true → isWord c.toLower = true) ∧
      (isBlank c = false → isBlank c.toLower = false) :=
  forall_ascii (by decide +kernel)

theorem isUpper_of_lowerChar (h : lowerChar c = [c]) : c.isUpper = false := by
  by_contra hupper
  obtain ⟨-, hcode⟩ := toNat_of_isUpper (by simpa using hupper)
  exact hupper ((toLower_ascii c (by omega)).2.1 h)

/-! ## Runs -/

/-- The code point to which a run moves another one. -/
def CaseRun.target (run : CaseRun) (n : Nat) : Nat :=
  (n + run.shift).toNat

/-- A code point belongs to a run. -/
def CaseRun.Holds (run : CaseRun) (n : Nat) : Prop :=
  run.first ≤ n ∧ n ≤ run.last ∧ (n - run.first) % run.step = 0

theorem CaseRun.image?_eq_some : run.image? n = some m ↔ run.Holds n ∧ run.target n = m := by
  simp [image?, Holds, target, and_assoc]

/-- The run of one character, which it does not move. -/
def singleRun (c : Char) : CaseRun where
  first := c.toNat
  last := c.toNat
  step := 2
  shift := 0

/-- The limits of a run tell that no code point to which it moves belongs to another run: they lie
beside each other, or alternate. -/
def CaseRun.isApart (run other : CaseRun) : Bool :=
  Nat.blt (run.target run.last) other.first || Nat.blt other.last (run.target run.first)
    || (other.step == 2 && (run.step == 2 || run.first == run.last)
      && (run.target run.first - other.first) % 2 == 1)

/-- The limits of a run tell that it moves word characters to such, if it has any. -/
def CaseRun.keepsWords (run : CaseRun) : Bool :=
  (wordRanges.any fun word =>
      Nat.ble word.1 (run.target run.first) && Nat.ble (run.target run.last) word.2)
    || (run.first == run.last && isWord (Char.ofNat (run.target run.first)))
    || wordRanges.all fun word => Nat.blt run.last word.1 || Nat.blt word.2 run.first

/-- The limits of a run are no ASCII characters. The code points to which it moves are those of
characters, and they are neither ASCII capitals nor blanks. -/
theorem limits_of_mem_lowerRuns : ∀ run ∈ lowerRuns,
    (0 < run.first + run.shift ∧ (run.last + run.shift < 0xD800 ∨
      0xDFFF < run.first + run.shift ∧ run.last + run.shift < 0x110000)) ∧
    (128 ≤ run.first ∧ 90 < run.target run.first) ∧
    ∀ range ∈ blankRanges, run.last + run.shift < range.1 ∨ range.2 < run.first + run.shift := by
  decide +kernel

/-- No run, nor either of the two letters that belong to none, is reached from a run. -/
theorem isApart_lowerRuns : (lowerRuns.all fun run =>
    (singleRun 'İ' :: singleRun 'Σ' :: lowerRuns).all run.isApart) = true := by
  decide +kernel

theorem keepsWords_lowerRuns : (lowerRuns.all CaseRun.keepsWords) = true := by
  decide +kernel

theorem CaseRun.not_holds_of_isApart (hapart : run.isApart other = true)
    (hstart : 0 < run.first + run.shift) (hn : run.Holds n) (hm : (m : Int) = n + run.shift) :
    ¬other.Holds m := by
  obtain ⟨hfirst, hlast, hstep⟩ := hn
  rintro ⟨hfirst', hlast', hstep'⟩
  simp only [isApart, target, Bool.or_eq_true, Bool.and_eq_true, Nat.blt_eq, beq_iff_eq] at hapart
  rcases hapart with (hapart | hapart) | ⟨⟨htwo, hsingle⟩, hparity⟩
  · omega
  · omega
  · rw [htwo] at hstep'
    rcases hsingle with htwo' | hsingle
    · rw [htwo'] at hstep
      omega
    · omega

/-- **What the runs do to a character**: it belongs to none and stays, or one of them moves it. -/
theorem moveBy_lowerRuns_cases (c : Char) :
    (moveBy lowerRuns c = c ∧ ∀ run ∈ lowerRuns, ¬run.Holds c.toNat) ∨
      ∃ run ∈ lowerRuns, run.Holds c.toNat ∧
        ((moveBy lowerRuns c).toNat : Int) = c.toNat + run.shift := by
  unfold moveBy
  split
  · rename_i n himage
    obtain ⟨run, hrun, himage⟩ := List.exists_of_findSome?_eq_some himage
    obtain ⟨hholds, rfl⟩ := CaseRun.image?_eq_some.1 himage
    refine .inr ⟨run, hrun, hholds, ?_⟩
    obtain ⟨hfirst, hlast, -⟩ := hholds
    obtain ⟨⟨hstart, hvalid⟩, -⟩ := limits_of_mem_lowerRuns run hrun
    have hchar : (run.target c.toNat).isValidChar := by
      unfold Nat.isValidChar CaseRun.target
      omega
    have htoNat : (Char.ofNat (run.target c.toNat)).toNat = run.target c.toNat := by
      rw [Char.ofNat, dif_pos hchar]
      rfl
    rw [htoNat, CaseRun.target]
    omega
  · rename_i hnone
    refine .inl ⟨rfl, fun run hrun hholds => ?_⟩
    have himage := List.findSome?_eq_none_iff.1 hnone run hrun
    rw [CaseRun.image?_eq_some.2 ⟨hholds, rfl⟩] at himage
    contradiction

/-! ## Characters -/

theorem holds_singleRun_iff : (singleRun d).Holds c.toNat ↔ c = d := by
  refine ⟨fun h => Char.toNat_inj.1 (Nat.le_antisymm h.2.1 h.1), ?_⟩
  rintro rfl
  simp [CaseRun.Holds, singleRun]

/-- What is no capital of ASCII and belongs to no run is its own lower-case form. -/
theorem lowerChar_eq_self (hcapital : c.toNat < 65 ∨ 90 < c.toNat)
    (h : ∀ run ∈ singleRun 'İ' :: singleRun 'Σ' :: lowerRuns, ¬run.Holds c.toNat) :
    lowerChar c = [c] := by
  simp only [List.forall_mem_cons, holds_singleRun_iff] at h
  obtain ⟨hdot, hsigma, hruns⟩ := h
  have hmove : moveBy lowerRuns c = c := by
    rcases moveBy_lowerRuns_cases c with ⟨hmove, -⟩ | ⟨run, hrun, hholds, -⟩
    · exact hmove
    · exact absurd hholds (hruns run hrun)
  unfold lowerChar
  rw [toLower_eq_self hcapital, if_neg hdot, if_neg hsigma, hmove, ite_self]

/-- **Lower-case forms consist of characters that are their own.** -/
theorem lowerChar_of_mem_lowerChar (h : d ∈ lowerChar c) : lowerChar d = [d] := by
  obtain ⟨⟨hi, hdot, hsigma, -⟩, -⟩ := lowerChar_brought
  unfold lowerChar at h
  split at h
  · rename_i hcode
    rw [List.mem_singleton.1 h, (toLower_ascii c hcode).1]
  rename_i hcode
  split at h
  · rcases List.mem_pair.1 h with rfl | rfl
    · exact hi
    · exact hdot
  split at h
  · rw [List.mem_singleton.1 h, hsigma]
  rename_i hdot hsigma
  obtain rfl := List.mem_singleton.1 h
  rcases moveBy_lowerRuns_cases c with ⟨hmove, hruns⟩ | ⟨run, hrun, hholds, hshift⟩
  · rw [hmove]
    refine lowerChar_eq_self (by omega) ?_
    simp only [List.forall_mem_cons, holds_singleRun_iff]
    exact ⟨hdot, hsigma, hruns⟩
  · obtain ⟨⟨hstart, -⟩, ⟨-, hcapital⟩, -⟩ := limits_of_mem_lowerRuns run hrun
    have hfirst := hholds.1
    refine lowerChar_eq_self (.inr (by unfold CaseRun.target at hcapital; omega)) ?_
    intro other hother
    have hapart := List.all_eq_true.1 (List.all_eq_true.1 isApart_lowerRuns run hrun) other hother
    exact CaseRun.not_holds_of_isApart hapart hstart hholds hshift

/-- Letters beyond ASCII that are moved are moved to word characters. -/
theorem isWord_moveBy (hc : isWord c = true) : isWord (moveBy lowerRuns c) = true := by
  rcases moveBy_lowerRuns_cases c with ⟨hmove, -⟩ | ⟨run, hrun, ⟨hfirst, hlast, -⟩, hshift⟩
  · rwa [hmove]
  obtain ⟨⟨hstart, -⟩, ⟨hbehind, -⟩, -⟩ := limits_of_mem_lowerRuns run hrun
  have hkeeps := List.all_eq_true.1 keepsWords_lowerRuns run hrun
  simp only [CaseRun.keepsWords, Bool.or_eq_true, List.any_eq_true, List.all_eq_true,
    Bool.and_eq_true, Nat.ble_eq, Nat.blt_eq, beq_iff_eq] at hkeeps
  rcases hkeeps with (⟨word, hword, hlow, hhigh⟩ | ⟨hsingle, hword⟩) | hapart
  · have hrange := first_of_mem_wordRanges word hword
    unfold CaseRun.target at hlow hhigh
    rw [isWord, if_neg (by omega)]
    exact inRanges_iff.2 ⟨word, hword, by omega, by omega⟩
  · have htarget : run.target run.first = (moveBy lowerRuns c).toNat := by
      unfold CaseRun.target
      omega
    rwa [htarget, Char.ofNat_toNat] at hword
  · rw [isWord, if_neg (by omega)] at hc
    obtain ⟨word, hword, hlow, hhigh⟩ := inRanges_iff.1 hc
    have hside := hapart word hword
    omega

/-- **The capital dotted I is the only word character** whose lower-case form has a character that
is none. -/
theorem isWord_lowerChar (hc : isWord c = true) (hdot : c ≠ 'İ') :
    ∀ d ∈ lowerChar c, isWord d = true := by
  unfold lowerChar
  split
  · rename_i hcode
    exact List.forall_mem_singleton.2 ((toLower_ascii c hcode).2.2.1 hc)
  split
  · exact List.forall_mem_singleton.2 (by decide)
  · exact List.forall_mem_singleton.2 (isWord_moveBy hc)

/-- No letter beyond ASCII has a blank for its lower-case form. -/
theorem isBlank_moveBy (hc : isBlank c = false) : isBlank (moveBy lowerRuns c) = false := by
  rcases moveBy_lowerRuns_cases c with ⟨hmove, -⟩ | ⟨run, hrun, ⟨hfirst, hlast, -⟩, hshift⟩
  · rwa [hmove]
  · by_contra hblank
    obtain ⟨range, hmem, hlow, hhigh⟩ := inRanges_iff.1 (by simpa [isBlank] using hblank)
    have hside := (limits_of_mem_lowerRuns run hrun).2.2 range hmem
    omega

theorem isBlank_lowerChar (hc : isBlank c = false) : ∀ d ∈ lowerChar c, isBlank d = false := by
  unfold lowerChar
  split
  · rename_i hcode
    exact List.forall_mem_singleton.2 ((toLower_ascii c hcode).2.2.2 hc)
  · split
    · exact eq_false_of_any (by decide)
    · split
      · exact eq_false_of_any (by decide)
      · exact List.forall_mem_singleton.2 (isBlank_moveBy hc)

/-! ## Texts -/

/-- The characters of a lower-case form: those of the characters of the text, and the final form of
the sigma. -/
theorem mem_lower (h : d ∈ lower s) : d = 'ς' ∨ ∃ c ∈ s, d ∈ lowerChar c := by
  have hgo : ∀ (s before : List Char), d ∈ lower.go before s →
      d = 'ς' ∨ ∃ c ∈ s, d ∈ lowerChar c := by
    intro s
    induction s with
    | nil => intro _ h; simp [lower.go] at h
    | cons c s ih =>
      intro before h
      rw [lower.go] at h
      rcases List.mem_append.1 h with h | h
      · split at h
        · exact .inl (List.mem_singleton.1 h)
        · exact .inr ⟨c, List.mem_cons_self, h⟩
      · refine (ih _ h).imp_right ?_
        rintro ⟨c', hc', hd⟩
        exact ⟨c', List.mem_cons_of_mem _ hc', hd⟩
  exact hgo s [] h

/-- But for the sigma, the lower-case forms of all characters are there. -/
theorem mem_lower_of_mem (h : c ∈ s) (hsigma : c ≠ 'Σ') (hd : d ∈ lowerChar c) : d ∈ lower s := by
  have hgo : ∀ (s before : List Char), c ∈ s → d ∈ lower.go before s := by
    intro s
    induction s with
    | nil => intro _ h; contradiction
    | cons c' s ih =>
      intro before h
      rw [lower.go, List.mem_append]
      rcases List.mem_cons.1 h with rfl | h
      · simp [hsigma, hd]
      · exact .inr (ih _ h)
  exact hgo s [] h

/-- A text of characters that are their own lower-case forms stays as it is. -/
theorem lower_eq_self (h : ∀ c ∈ s, lowerChar c = [c]) : lower s = s := by
  have hgo : ∀ (s before : List Char), (∀ c ∈ s, lowerChar c = [c]) → lower.go before s = s := by
    intro s
    induction s with
    | nil => exact fun _ _ => rfl
    | cons c s ih =>
      intro before h
      have ⟨hc, hs⟩ := List.forall_mem_cons.1 h
      have hsigma : c ≠ 'Σ' := by
        rintro rfl
        exact absurd hc (by decide)
      rw [lower.go, ih (c :: before) hs]
      simp [hsigma, hc]
  exact hgo s [] h

theorem lowerChar_of_mem_lower (h : d ∈ lower s) : lowerChar d = [d] := by
  rcases mem_lower h with rfl | ⟨c, -, hd⟩
  · exact lowerChar_brought.1.2.2.2
  · exact lowerChar_of_mem_lowerChar hd

/-- A text without blanks has none in its lower-case form. -/
theorem isBlank_lower (h : ∀ c ∈ s, isBlank c = false) : ∀ c ∈ lower s, isBlank c = false := by
  intro d hd
  rcases mem_lower hd with rfl | ⟨c, hc, hd⟩
  · decide
  · exact isBlank_lowerChar (h c hc) d hd

/-- A text of word characters stays one, but for the combining dot that a capital dotted I
leaves. -/
theorem isWord_of_mem_lower (h : ∀ c ∈ s, isWord c = true) (hd : d ∈ lower s) :
    isWord d = true ∨ d = '\u0307' ∧ 'İ' ∈ s := by
  rcases mem_lower hd with rfl | ⟨c, hc, hd⟩
  · exact .inl lowerChar_brought.2.2.2
  · by_cases hdot : c = 'İ'
    · subst hdot
      have hcases : d = 'i' ∨ d = '\u0307' := by simpa [lowerChar] using hd
      rcases hcases with rfl | rfl
      · exact .inl lowerChar_brought.2.1
      · exact .inr ⟨rfl, hc⟩
    · exact .inl (isWord_lowerChar (h c hc) hdot d hd)

/-- The combining dot above in the lower-case form of word characters comes from a capital dotted
I. -/
theorem dot_mem_lower_iff (h : ∀ c ∈ s, isWord c = true) : '\u0307' ∈ lower s ↔ 'İ' ∈ s := by
  constructor
  · intro hmem
    refine (isWord_of_mem_lower h hmem).elim (fun hword => ?_) And.right
    rw [lowerChar_brought.2.2.1] at hword
    contradiction
  · intro hdot
    exact mem_lower_of_mem hdot (by decide) (by decide)

/-- Every character has a lower-case form. -/
theorem lower_ne_nil (h : s ≠ []) : lower s ≠ [] := by
  obtain ⟨c, s, rfl⟩ := List.exists_cons_of_ne_nil h
  have hne : lowerChar c ≠ [] := by
    unfold lowerChar
    split_ifs <;> simp
  rw [lower, lower.go]
  refine fun hnil => ?_
  have hfirst := (List.append_eq_nil_iff.1 hnil).1
  split at hfirst
  · contradiction
  · exact hne hfirst

end Schemata.Text
