import Mathlib.Data.List.Chain
import Mathlib.Data.List.DropRight
import Schemata.Text.Blank
import Schemata.Text.Case

/-!
# Blanks around texts

`trim` takes characters of a class away from both ends of a text and nothing else (`exists_trim`):
what remains neither starts nor ends with one, and a text that neither starts nor ends with one is
left as it is (`trim_eq_self`).

`replaceRuns` leaves no two characters of a class side by side (`isChain_replaceRuns`), and where
none are it changes nothing but single ones (`replaceRuns_eq_self`).
-/

namespace Schemata.Text

variable {p : Char → Bool} {s t : List Char} {c : Char}

theorem eq_false_of_any (h : s.any p = false) : ∀ c ∈ s, p c = false := fun c hc => by
  simpa using List.any_eq_false.1 h c hc

theorem mem_trim (h : c ∈ trim p s) : c ∈ s := by
  have h' := List.dropWhile_sublist _ |>.mem (List.mem_reverse.1 h)
  exact List.dropWhile_sublist _ |>.mem (List.mem_reverse.1 h')

/-- A text is its trimmed form between characters of the class. -/
theorem exists_trim (p : Char → Bool) (s : List Char) :
    ∃ l r, (∀ c ∈ l, p c = true) ∧ (∀ c ∈ r, p c = true) ∧ s = l ++ trim p s ++ r := by
  refine ⟨s.takeWhile p, (s.dropWhile p).rtakeWhile p, fun c hc => List.mem_takeWhile_imp hc,
    fun c hc => List.mem_rtakeWhile_imp hc, ?_⟩
  have hright : trim p s ++ (s.dropWhile p).rtakeWhile p = s.dropWhile p :=
    List.rdropWhile_append_rtakeWhile
  rw [List.append_assoc, hright, List.takeWhile_append_dropWhile]

/-- Only characters of the class are taken away. -/
theorem mem_trim_of_mem (h : c ∈ s) (hc : p c = false) : c ∈ trim p s := by
  obtain ⟨l, r, hl, hr, hsplit⟩ := exists_trim p s
  rw [hsplit, List.mem_append, List.mem_append] at h
  rcases h with (h | h) | h
  · rw [hl c h] at hc
    contradiction
  · exact h
  · rw [hr c h] at hc
    contradiction

theorem head?_trim (h : c ∈ (trim p s).head?) : p c = false := by
  have hprefix : trim p s <+: s.dropWhile p := List.rdropWhile_prefix p _
  obtain ⟨r, hr⟩ := hprefix
  have hhead : (s.dropWhile p).head? = some c := by
    rw [← hr, List.head?_append, Option.mem_def.1 h, Option.some_or]
  have hnot := List.head?_dropWhile_not p s
  rw [hhead] at hnot
  exact hnot

theorem getLast?_rdropWhile (h : c ∈ (s.rdropWhile p).getLast?) : p c = false := by
  rw [List.rdropWhile, List.getLast?_reverse, Option.mem_def] at h
  have hnot := List.head?_dropWhile_not p s.reverse
  rw [h] at hnot
  exact hnot

theorem getLast?_trim (h : c ∈ (trim p s).getLast?) : p c = false :=
  getLast?_rdropWhile h

theorem dropWhile_eq_self (h : ∀ c ∈ s.head?, p c = false) : s.dropWhile p = s := by
  cases s with
  | nil => rfl
  | cons c s => exact List.dropWhile_cons_of_neg (by simp [h c rfl])

/-- **What neither starts nor ends with a character of the class stays.** -/
theorem trim_eq_self (hhead : ∀ c ∈ s.head?, p c = false)
    (hlast : ∀ c ∈ s.getLast?, p c = false) : trim p s = s := by
  rw [trim, dropWhile_eq_self hhead, dropWhile_eq_self (by rwa [List.head?_reverse]),
    List.reverse_reverse]

theorem trim_trim (p : Char → Bool) (s : List Char) : trim p (trim p s) = trim p s :=
  trim_eq_self (fun _ => head?_trim) fun _ => getLast?_trim

theorem trim_append_left (h : ∀ c ∈ s, p c = true) : trim p (s ++ t) = trim p t := by
  rw [trim, trim, List.dropWhile_append_of_pos h]

theorem trim_append_right (h : ∀ c ∈ t, p c = true) : trim p (s ++ t) = trim p s := by
  have hall : ∀ c ∈ t.reverse, p c = true := fun c hc => h c (List.mem_reverse.1 hc)
  by_cases hs : s.dropWhile p = []
  · have hs' : ∀ c ∈ s, p c = true := by simpa using hs
    rw [trim_append_left hs', trim, trim, hs, List.dropWhile_eq_nil_iff.2 h]
  · rw [trim, trim, List.dropWhile_append, if_neg (by simpa using hs), List.reverse_append,
      List.dropWhile_append_of_pos hall]

/-! ## Runs -/

theorem mem_replaceRuns {r : Char} (h : c ∈ replaceRuns p r s) : c = r ∨ c ∈ s := by
  have go : ∀ (s : List Char) (inside : Bool), c ∈ replaceRuns.go p r inside s → c = r ∨ c ∈ s := by
    intro s
    induction s with
    | nil => intro _ h; simp [replaceRuns.go] at h
    | cons d s ih =>
      intro inside h
      rw [replaceRuns.go] at h
      split_ifs at h
      · exact (ih _ h).imp_right (List.mem_cons_of_mem _)
      · rcases List.mem_cons.1 h with rfl | h
        · exact .inl rfl
        · exact (ih _ h).imp_right (List.mem_cons_of_mem _)
      · rcases List.mem_cons.1 h with rfl | h
        · exact .inr (by simp)
        · exact (ih _ h).imp_right (List.mem_cons_of_mem _)
  exact go s false h

/-- Only characters of the class are replaced. -/
theorem mem_replaceRuns_of_mem (h : c ∈ s) (hc : p c = false) (r : Char) :
    c ∈ replaceRuns p r s := by
  have go : ∀ (s : List Char) (inside : Bool), c ∈ s → c ∈ replaceRuns.go p r inside s := by
    intro s
    induction s with
    | nil => intro _ h; contradiction
    | cons d s ih =>
      intro inside h
      rw [replaceRuns.go]
      rcases List.mem_cons.1 h with rfl | h
      · rw [if_neg (by simp [hc])]
        exact List.mem_cons_self
      · split_ifs
        · exact ih _ h
        · exact List.mem_cons_of_mem _ (ih _ h)
        · exact List.mem_cons_of_mem _ (ih _ h)
  exact go s false h

/-- Of a run one character is left. -/
theorem isChain_replaceRuns (p : Char → Bool) (r : Char) (s : List Char) :
    (replaceRuns p r s).IsChain fun a b => ¬(p a = true ∧ p b = true) := by
  -- inside of a run, what is left does not start with a character of the class
  have hgo : ∀ (s : List Char) (inside : Bool),
      (replaceRuns.go p r inside s).IsChain (fun a b => ¬(p a = true ∧ p b = true)) ∧
        (inside = true → ∀ c ∈ (replaceRuns.go p r inside s).head?, p c = false) := by
    intro s
    induction s with
    | nil => simp [replaceRuns.go]
    | cons c s ih =>
      intro inside
      obtain ⟨hinside, hhead⟩ := ih true
      have hhead := hhead rfl
      rw [replaceRuns.go]
      by_cases hc : p c = true
      · rw [if_pos hc]
        cases inside with
        | true => exact ⟨hinside, fun _ => hhead⟩
        | false =>
          refine ⟨hinside.cons fun d hd h => ?_, by simp⟩
          rw [hhead d hd] at h
          exact Bool.false_ne_true h.2
      · rw [if_neg hc]
        refine ⟨(ih false).1.cons fun d _ h => hc h.1, fun _ d hd => ?_⟩
        rw [← Option.some.inj hd]
        simpa using hc
  exact (hgo s false).1

/-- **Where characters of the class are single, and are the one put in their place, all stays.** -/
theorem replaceRuns_eq_self {r : Char} (h : s.IsChain fun a b => ¬(p a = true ∧ p b = true))
    (hr : ∀ c ∈ s, p c = true → c = r) : replaceRuns p r s = s := by
  have hgo : ∀ (s : List Char) (inside : Bool),
      s.IsChain (fun a b => ¬(p a = true ∧ p b = true)) → (∀ c ∈ s, p c = true → c = r) →
        (inside = true → ∀ c ∈ s.head?, p c = false) → replaceRuns.go p r inside s = s := by
    intro s
    induction s with
    | nil => exact fun _ _ _ _ => rfl
    | cons c s ih =>
      intro inside h hr hhead
      obtain ⟨hnext, hrest⟩ := List.isChain_cons.1 h
      obtain ⟨hc, hr⟩ := List.forall_mem_cons.1 hr
      rw [replaceRuns.go]
      by_cases hp : p c = true
      · have hinside : inside = false := by
          cases inside with
          | true => exact absurd hp (by simp [hhead rfl c rfl])
          | false => rfl
        have hstays : replaceRuns.go p r true s = s := ih true hrest hr fun _ d hd => by
          simpa using fun hd' => hnext d hd ⟨hp, hd'⟩
        rw [if_pos hp, hinside, if_neg (by simp), hstays, hc hp]
      · rw [if_neg hp, ih false hrest hr (by simp)]
  exact hgo s false h hr (by simp)

/-- A text without characters of the class is left as it is. -/
theorem replaceRuns_of_forall (h : ∀ c ∈ s, p c = false) (r : Char) : replaceRuns p r s = s := by
  refine replaceRuns_eq_self (List.Pairwise.isChain ?_) fun c hc hp => ?_
  · exact List.pairwise_of_forall_mem_list fun a ha b _ => by simp [h a ha]
  · rw [h c hc] at hp
    contradiction

/-- A text keeps its last character if that is not of the class. -/
theorem getLast?_replaceRuns (h : c ∈ s.getLast?) (hc : p c = false) (r : Char) :
    (replaceRuns p r s).getLast? = some c := by
  have hgo : ∀ (s : List Char) (inside : Bool),
      (replaceRuns.go p r inside (s ++ [c])).getLast? = some c := by
    intro s
    induction s with
    | nil => simp [replaceRuns.go, hc]
    | cons d s ih =>
      intro inside
      rw [List.cons_append, replaceRuns.go]
      split_ifs
      · exact ih true
      · rw [List.getLast?_cons, ih true, Option.getD_some]
      · rw [List.getLast?_cons, ih false, Option.getD_some]
  rw [← List.dropLast_append_getLast? c h]
  exact hgo _ false

/-! ## Blanks -/

theorem strip_strip (s : List Char) : strip (strip s) = strip s :=
  trim_trim _ s

theorem mem_stripRight (h : c ∈ stripRight s) : c ∈ s :=
  (List.rdropWhile_prefix isBlank s).subset h

/-- A text is what remains of it, and blanks. -/
theorem exists_stripRight (s : List Char) :
    ∃ r, (∀ c ∈ r, isBlank c = true) ∧ s = stripRight s ++ r :=
  ⟨s.rtakeWhile isBlank, fun _ hc => List.mem_rtakeWhile_imp hc,
    List.rdropWhile_append_rtakeWhile.symm⟩

theorem getLast?_stripRight (h : c ∈ (stripRight s).getLast?) : isBlank c = false :=
  getLast?_rdropWhile h

theorem stripRight_eq_self (h : ∀ c ∈ s.getLast?, isBlank c = false) : stripRight s = s := by
  rw [stripRight, dropWhile_eq_self (by rwa [List.head?_reverse]), List.reverse_reverse]

theorem stripRight_append (h : ∀ c ∈ t, isBlank c = true) :
    stripRight (s ++ t) = stripRight s := by
  rw [stripRight, List.reverse_append,
    List.dropWhile_append_of_pos fun c hc => h c (List.mem_reverse.1 hc), stripRight]

theorem stripRight_cons (h : isBlank c = false) (s : List Char) :
    stripRight (c :: s) = c :: stripRight s := by
  rw [stripRight, List.reverse_cons, List.dropWhile_append]
  split
  · rename_i hnil
    rw [List.dropWhile_cons_of_neg (by simp [h]), stripRight, List.isEmpty_iff.1 hnil]
    rfl
  · rw [List.reverse_append, stripRight]
    rfl

theorem strip_append_left (h : ∀ c ∈ s, isBlank c = true) : strip (s ++ t) = strip t :=
  trim_append_left h

theorem strip_append_right (h : ∀ c ∈ t, isBlank c = true) : strip (s ++ t) = strip s :=
  trim_append_right h

/-- Blanks have no case. -/
theorem upperChar_of_isBlank (h : isBlank c = true) : upperChar c = [c] := by
  have hall : ∀ range ∈ blankRanges, ∀ n ∈ List.range (range.2 - range.1 + 1),
      upperChar (Char.ofNat (range.1 + n)) = [Char.ofNat (range.1 + n)] := by
    decide +kernel
  obtain ⟨range, hrange, hlow, hhigh⟩ := inRanges_iff.1 h
  have hchar := hall range hrange (c.toNat - range.1) (List.mem_range.2 (by omega))
  rwa [Nat.add_sub_cancel' hlow, Char.ofNat_toNat] at hchar

/-- A text has no blanks around it if its upper-case form has none at all. -/
theorem strip_eq_self_of_upper (h : (upper s).any isBlank = false) : strip s = s := by
  have hnone : ∀ c ∈ s, isBlank c = false := by
    intro c hc
    by_contra hblank
    rw [Bool.not_eq_false] at hblank
    have hmem : c ∈ upper s :=
      List.mem_flatMap.2 ⟨c, hc, by rw [upperChar_of_isBlank hblank]; exact List.mem_singleton_self c⟩
    rw [eq_false_of_any h c hmem] at hblank
    contradiction
  exact trim_eq_self (fun c hc => hnone c (List.mem_of_mem_head? hc))
    fun c hc => hnone c (List.mem_of_mem_getLast? hc)

end Schemata.Text
