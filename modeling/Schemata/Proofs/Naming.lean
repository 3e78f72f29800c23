import Mathlib.Data.List.Nodup
import Mathlib.Data.List.Range
import Mathlib.Order.Bounds.Basic
import Schemata.Naming
import Schemata.Proofs.Text.Case

/-!
# Names of tables and columns

Every name that is made from a label consists of lower-case ASCII letters, digits and underscores
(`Plain`), so that its lower-case form is the name itself: the column that refers to a table is
called after it, `_id` behind its name (`foreignKeyName_of_plain`).

`uniqueName` gives a name that is not taken (`uniqueName_notMem`). A candidate that is taken gets a
number, and the numbers are searched one by one: as no two numbers give the same name
(`numbered_injective`), one of as many numbers as there are taken names, and one more, is free, so
that the search ends (`exists_searchEnds`), at the least free number (`SearchEnds.isLeast`). Names
for one candidate after the other are then distinct (`nodup_uniqueNames`), whatever numbers the
candidates end in.
-/

namespace Schemata

/-- A name of lower-case ASCII letters, digits and underscores. -/
def Plain (name : String) : Prop :=
  ∀ c ∈ name.toList, Text.isSnake c = true

namespace Text

/-! ## Snake-case characters -/

theorem isSnake_of_isDigit {c : Char} (h : c.isDigit = true) : isSnake c = true := by
  simp [isSnake, isLowerAlphanum, h]

theorem toNat_of_isSnake {c : Char} (h : isSnake c = true) :
    (97 ≤ c.toNat ∧ c.toNat ≤ 122) ∨ (48 ≤ c.toNat ∧ c.toNat ≤ 57) ∨ c.toNat = 95 := by
  simp only [isSnake, isLowerAlphanum, Bool.or_eq_true, beq_iff_eq] at h
  rcases h with (h | h) | rfl
  · exact .inl (toNat_of_isLower h)
  · exact .inr (.inl (Char.isDigit_iff_toNat.1 h))
  · exact .inr (.inr rfl)

theorem isWord_of_isSnake {c : Char} (h : isSnake c = true) : isWord c = true := by
  have hcode := toNat_of_isSnake h
  have halphanum : c.isAlphanum = (c.isUpper || c.isLower || c.isDigit) := rfl
  rw [isWord, if_pos (by omega), halphanum]
  simp only [isSnake, isLowerAlphanum, Bool.or_eq_true, beq_iff_eq] at h ⊢
  tauto

theorem lowerChar_of_isSnake {c : Char} (h : isSnake c = true) : lowerChar c = [c] := by
  have hcode := toNat_of_isSnake h
  rw [lowerChar, if_pos (by omega), toLower_eq_self (by omega)]

/-- The lower-case form of a plain text is the text itself. -/
theorem lower_of_isSnake {s : List Char} (h : ∀ c ∈ s, isSnake c = true) : lower s = s :=
  lower_eq_self fun c hc => lowerChar_of_isSnake (h c hc)

end Text

/-! ## Names from labels -/

namespace Plain

theorem append {a b : String} (ha : Plain a) (hb : Plain b) : Plain (a ++ b) := by
  intro c hc
  rw [String.toList_append] at hc
  exact (List.mem_append.1 hc).elim (ha c) (hb c)

theorem snakeCase (label : String) : Plain (snakeCase label) := by
  intro c hc
  rw [Schemata.snakeCase, String.toList_ofList] at hc
  rcases Text.mem_replaceRuns (Text.mem_trim hc) with rfl | hc
  · decide
  · exact (List.mem_filter.1 hc).2

theorem guardDigit {name : String} (h : Plain name) : Plain (guardDigit name) := by
  unfold Schemata.guardDigit
  split
  · split
    · exact append (List.all_eq_true.1 (by decide)) h
    · exact h
  · exact h

theorem identifierFor {fallback : String} (h : Plain fallback) (label : Option String) :
    Plain (identifierFor fallback label) := by
  unfold Schemata.identifierFor
  dsimp only
  split
  · exact h
  · exact guardDigit (snakeCase _)

theorem tableName (label : Option String) : Plain (tableName label) :=
  identifierFor (List.all_eq_true.1 (by decide)) label

theorem numbered {candidate : String} (h : Plain candidate) (n : ℕ) :
    Plain (numbered candidate n) := by
  refine append (append h (List.all_eq_true.1 (by decide))) fun c hc => Text.isSnake_of_isDigit ?_
  rw [Nat.toString_eq_ofList_toDigits, String.toList_ofList] at hc
  exact Nat.isDigit_of_mem_toDigits (by decide) (by decide) hc

/-- A full stop ends a plain name. -/
theorem dot_inj {a b column column' : String} (ha : Plain a) (hb : Plain b)
    (h : a ++ "." ++ column = b ++ "." ++ column') : a = b ∧ column = column' := by
  have htake : ∀ {name : String} (rest : List Char), Plain name →
      (name.toList ++ '.' :: rest).takeWhile Text.isSnake = name.toList := fun rest hname => by
    rw [List.takeWhile_append_of_pos hname, List.takeWhile_cons_of_neg (by decide),
      List.append_nil]
  have hlists : a.toList ++ '.' :: column.toList = b.toList ++ '.' :: column'.toList := by
    simpa [String.toList_append, List.append_assoc] using congrArg String.toList h
  have hname : a.toList = b.toList := by rw [← htake column.toList ha, hlists, htake _ hb]
  rw [hname, List.append_right_inj, List.cons_inj_right] at hlists
  exact ⟨String.toList_inj.1 hname, String.toList_inj.1 hlists⟩

end Plain

/-- The column that refers to a table of a plain name is called after it. -/
theorem foreignKeyName_of_plain {table : String} (h : Plain table) :
    foreignKeyName table = table ++ "_id" := by
  rw [foreignKeyName, Text.lower_of_isSnake h, String.ofList_toList]

theorem foreignKeyName_inj {a b : String} (ha : Plain a) (hb : Plain b) :
    foreignKeyName a = foreignKeyName b ↔ a = b := by
  rw [foreignKeyName_of_plain ha, foreignKeyName_of_plain hb, String.append_left_inj]

/-! ## Names that are not taken -/

/-- Names stay distinct when something of a name that is not among them is put behind. -/
theorem nodup_map_append {α β : Type} {f : α → β} {as : List α} {a : α} (h : (as.map f).Nodup)
    (hnew : ∀ b ∈ as, f b ≠ f a) : ((as ++ [a]).map f).Nodup := by
  rw [List.map_append, List.map_singleton]
  refine h.append (List.nodup_singleton _) (List.disjoint_singleton.2 fun hmem => ?_)
  obtain ⟨b, hb, hname⟩ := List.mem_map.1 hmem
  exact hnew b hb hname

theorem numbered_injective (candidate : String) : Function.Injective (numbered candidate) := by
  intro m n h
  rw [numbered, numbered, String.append_right_inj, Nat.toString_eq_ofList_toDigits,
    Nat.toString_eq_ofList_toDigits, String.ofList_inj] at h
  have h := congrArg (fun digits => Nat.ofDigitChars 10 digits 0) h
  simpa using h

/-- Of more numbered candidates than taken names, one is free. -/
theorem exists_numbered_notMem (candidate : String) (taken : List String) (n : ℕ) :
    ∃ m, n ≤ m ∧ m ≤ n + taken.length ∧ numbered candidate m ∉ taken := by
  by_contra h
  push Not at h
  set numbers := (List.range (taken.length + 1)).map (· + n) with hnumbers
  have hnodup : (numbers.map (numbered candidate)).Nodup :=
    (List.nodup_range.map fun m n h => by simpa using h).map (numbered_injective candidate)
  have hsubset : numbers.map (numbered candidate) ⊆ taken := by
    intro name hname
    obtain ⟨m, hm, rfl⟩ := List.mem_map.1 hname
    obtain ⟨k, hk, rfl⟩ := List.mem_map.1 hm
    have hk := List.mem_range.1 hk
    exact h (k + n) (by omega) (by omega)
  have hlength := hnodup.length_le_of_subset hsubset
  simp only [hnumbers, List.length_map, List.length_range] at hlength
  omega

/-- The search for a free number, from a number on: a number whose name is taken is passed over, and
the first other one ends the search. -/
inductive SearchEnds (candidate : String) (taken : List String) : ℕ → ℕ → Prop
  | free {n : ℕ} (h : numbered candidate n ∉ taken) : SearchEnds candidate taken n n
  | pass {n m : ℕ} (h : numbered candidate n ∈ taken)
    (rest : SearchEnds candidate taken (n + 1) m) : SearchEnds candidate taken n m

namespace SearchEnds

variable {candidate : String} {taken : List String} {n m : ℕ}

/-- **Where the search ends**: at the least number whose name is free. -/
theorem isLeast (h : SearchEnds candidate taken n m) :
    IsLeast {k | n ≤ k ∧ numbered candidate k ∉ taken} m := by
  induction h with
  | free hfree => exact ⟨⟨le_refl _, hfree⟩, fun k hk => hk.1⟩
  | @pass n m htaken rest ih =>
    refine ⟨⟨by have := ih.1.1; omega, ih.1.2⟩, fun k ⟨hle, hfree⟩ => ih.2 ⟨?_, hfree⟩⟩
    have hne : n ≠ k := by
      rintro rfl
      exact hfree htaken
    omega

/-- The search comes to every free number, unless it ends before. -/
theorem exists_of_free (hle : n ≤ m) (hfree : numbered candidate m ∉ taken) :
    ∃ k, SearchEnds candidate taken n k := by
  induction hle using Nat.decreasingInduction with
  | self => exact ⟨m, .free hfree⟩
  | of_succ n _ ih =>
    by_cases htaken : numbered candidate n ∈ taken
    · obtain ⟨k, hk⟩ := ih
      exact ⟨k, .pass htaken hk⟩
    · exact ⟨n, .free htaken⟩

/-- The search passes over as many numbers as there are taken names at most. -/
theorem le (h : SearchEnds candidate taken n m) : m ≤ n + taken.length := by
  obtain ⟨k, hle, hbound, hfree⟩ := exists_numbered_notMem candidate taken n
  exact (h.isLeast.2 ⟨hle, hfree⟩).trans hbound

end SearchEnds

/-- **The search ends**, from whatever number it starts. -/
theorem exists_searchEnds (candidate : String) (taken : List String) (n : ℕ) :
    ∃ m, SearchEnds candidate taken n m := by
  obtain ⟨m, hle, -, hfree⟩ := exists_numbered_notMem candidate taken n
  exact SearchEnds.exists_of_free hle hfree

/-- **What `uniqueName` gives**: the candidate, or the candidate with the number at which the search
from 2 on ends. -/
theorem uniqueName_cases (candidate : String) (taken : List String) :
    (candidate ∉ taken ∧ uniqueName candidate taken = candidate) ∨
      candidate ∈ taken ∧ ∃ n, SearchEnds candidate taken 2 n ∧
        uniqueName candidate taken = numbered candidate n := by
  by_cases hmem : candidate ∈ taken
  · obtain ⟨n, hends⟩ := exists_searchEnds candidate taken 2
    obtain ⟨⟨hlow, hfree⟩, hleast⟩ := hends.isLeast
    have hbound := hends.le
    refine .inr ⟨hmem, n, hends, ?_⟩
    have hfind : (List.range (taken.length + 1)).find?
        ((fun n => decide (numbered candidate n ∉ taken)) ∘ (· + 2)) = some (n - 2) := by
      rw [List.find?_range_eq_some]
      refine ⟨?_, List.mem_range.2 (by omega), fun k hk => ?_⟩
      · simpa [Nat.sub_add_cancel hlow] using hfree
      · by_contra hnot
        have hle : n ≤ k + 2 := hleast ⟨by omega, by simpa using hnot⟩
        omega
    rw [uniqueName, if_pos hmem]
    dsimp only
    rw [List.find?_map, hfind, Option.map_some, Nat.sub_add_cancel hlow]
  · exact .inl ⟨hmem, uniqueName_of_not_mem hmem⟩

variable {taken : List String}

/-- **The name that `uniqueName` gives is not taken.** -/
theorem uniqueName_notMem (candidate : String) (taken : List String) :
    uniqueName candidate taken ∉ taken := by
  rcases uniqueName_cases candidate taken with ⟨hfree, heq⟩ | ⟨-, n, hends, heq⟩
  · rwa [heq]
  · rw [heq]
    exact hends.isLeast.1.2

theorem Plain.uniqueName {candidate : String} (h : Plain candidate) (taken : List String) :
    Plain (uniqueName candidate taken) := by
  rcases uniqueName_cases candidate taken with ⟨-, heq⟩ | ⟨-, n, -, heq⟩ <;> rw [heq]
  · exact h
  · exact h.numbered n

/-- The name depends only on which names are taken. -/
theorem uniqueName_congr {taken' : List String} (candidate : String)
    (h : ∀ name, name ∈ taken ↔ name ∈ taken') :
    uniqueName candidate taken = uniqueName candidate taken' := by
  rcases uniqueName_cases candidate taken with ⟨hfree, heq⟩ | ⟨hmem, n, hends, heq⟩ <;>
    rcases uniqueName_cases candidate taken' with ⟨hfree', heq'⟩ | ⟨hmem', n', hends', heq'⟩
  · rw [heq, heq']
  · exact absurd ((h candidate).2 hmem') hfree
  · exact absurd ((h candidate).1 hmem) hfree'
  · have hleast := hends.isLeast
    simp only [h] at hleast
    rw [heq, heq', hleast.unique hends'.isLeast]

/-! ## Names for one candidate after the other -/

/-- The names for candidates in order: the name for each is taken when the next is chosen. -/
def uniqueNames (taken : List String) : List String → List String
  | [] => []
  | candidate :: candidates =>
    let name := uniqueName candidate taken
    name :: uniqueNames (taken ++ [name]) candidates

theorem length_uniqueNames (taken candidates : List String) :
    (uniqueNames taken candidates).length = candidates.length := by
  induction candidates generalizing taken with
  | nil => rfl
  | cons candidate candidates ih => rw [uniqueNames, List.length_cons, List.length_cons, ih]

/-- None of the names was taken before. -/
theorem disjoint_uniqueNames (taken candidates : List String) :
    (uniqueNames taken candidates).Disjoint taken := by
  induction candidates generalizing taken with
  | nil => exact List.disjoint_nil_left _
  | cons candidate candidates ih =>
    rw [uniqueNames, List.disjoint_cons_left]
    exact ⟨uniqueName_notMem candidate taken, (List.disjoint_append_right.1 (ih _)).1⟩

/-- **Names for one candidate after the other are distinct**: each is taken when the next is
chosen. -/
theorem nodup_uniqueNames (taken candidates : List String) :
    (uniqueNames taken candidates).Nodup := by
  induction candidates generalizing taken with
  | nil => exact List.nodup_nil
  | cons candidate candidates ih =>
    rw [uniqueNames, List.nodup_cons]
    have hfree := disjoint_uniqueNames (taken ++ [uniqueName candidate taken]) candidates
    exact ⟨List.disjoint_singleton.1 (List.disjoint_append_right.1 hfree).2, ih _⟩

/-- **How a name is chosen**: the search for a free number ends, after as many steps as there are
taken names at most. The name is the candidate if that is free, and otherwise the candidate with the
least number from 2 on that makes it free. It is not taken, and neither the order nor the
repetitions of the taken names matter for it. Of any candidates the names chosen one after the other
are distinct, and none was taken. -/
theorem uniqueName_isLeast (candidate : String) (taken : List String) :
    (∃ n ≤ taken.length + 2, SearchEnds candidate taken 2 n ∧
      IsLeast {k | 2 ≤ k ∧ numbered candidate k ∉ taken} n ∧
      uniqueName candidate taken = if candidate ∈ taken then numbered candidate n else candidate) ∧
    uniqueName candidate taken ∉ taken ∧
    (∀ taken', (∀ name, name ∈ taken ↔ name ∈ taken') →
      uniqueName candidate taken = uniqueName candidate taken') ∧
    ∀ candidates, (uniqueNames taken candidates).length = candidates.length ∧
      (uniqueNames taken candidates).Nodup ∧ (uniqueNames taken candidates).Disjoint taken := by
  refine ⟨?_, uniqueName_notMem candidate taken, fun taken' h => uniqueName_congr candidate h,
    fun candidates => ⟨length_uniqueNames taken candidates, nodup_uniqueNames taken candidates,
      disjoint_uniqueNames taken candidates⟩⟩
  rcases uniqueName_cases candidate taken with ⟨hfree, heq⟩ | ⟨hmem, n, hends, heq⟩
  · obtain ⟨n, hends⟩ := exists_searchEnds candidate taken 2
    refine ⟨n, by have := hends.le; omega, hends, hends.isLeast, ?_⟩
    rw [heq, if_neg hfree]
  · refine ⟨n, by have := hends.le; omega, hends, hends.isLeast, ?_⟩
    rw [heq, if_pos hmem]

/-- Of three orders, the third asks for the name that the second was given. The name for one more
order is the same whichever of the other two is known first. -/
theorem uniqueName_isLeast_order :
    uniqueNames [] ["order", "order", "order_2"] = ["order", "order_2", "order_2_2"] ∧
      uniqueName "order" ["order", "order_2"] = "order_3" ∧
      uniqueName "order" ["order", "order_2"] = uniqueName "order" ["order_2", "order"] :=
  ⟨by decide +kernel, by decide +kernel,
    (uniqueName_isLeast "order" ["order", "order_2"]).2.2.1 _ fun name => by simp [or_comm]⟩

end Schemata
