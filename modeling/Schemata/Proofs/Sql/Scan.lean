import Schemata.Proofs.Result
import Schemata.Proofs.Text.Word
import Schemata.Sql.Name

/-!
# Quotations and parentheses in scripts

A dialect reads a script one character after another. What it makes of a character depends on
whether that stands inside of a quotation and of how many parentheses (`Place`). Inside of a
quotation a mark that is written twice is one character of it; for the reader it ends the quotation
and opens another one right away. This is the reading of the standard: a backslash is a character
like others in all dialects, also in MySQL, which takes it for an escape in its default mode, and
the marks of comments mean nothing.

A text is *balanced* if it closes what it opens (`IsBalanced`, as a grammar). The reader tells so: it
ends outside of all quotations and parentheses just for balanced texts (`isBalanced_iff`). What
follows a balanced text, and no other, is read as if the text were not there
(`isBalanced_iff_forall_read_append`).
-/

namespace Schemata.Sql

/-- The marks that open quotations, each with the mark that closes it. -/
def Dialect.quotations : Dialect → List (Char × Char)
  | mysql => [('\'', '\''), ('"', '"'), ('`', '`')]
  | postgresql => [('\'', '\''), ('"', '"')]
  | sqlite => [('\'', '\''), ('"', '"'), ('`', '`'), ('[', ']')]
  | sqlserver => [('\'', '\''), ('"', '"'), ('[', ']')]

/-! ## The reader -/

/-- Where a reader of a script stands. -/
inductive Place where
  /-- Outside of quotations, behind so many parentheses that are still open. -/
  | outside (depth : ℕ)
  /-- Inside of a quotation up to a mark. -/
  | quoted (closing : Char) (depth : ℕ)
  /-- Behind a closing parenthesis where none was open. -/
  | astray
deriving DecidableEq, Repr

namespace Place

/-- Where the reader stands behind a closing parenthesis. -/
def leave : ℕ → Place
  | 0 => .astray
  | depth + 1 => .outside depth

/-- Where the reader stands behind one more character, by the standard: it knows neither escapes by
backslashes nor comments. -/
def step (d : Dialect) : Place → Char → Place
  | .astray, _ => .astray
  | .quoted closing depth, c => if c = closing then .outside depth else .quoted closing depth
  | .outside depth, c =>
    match d.quotations.lookup c with
    | some closing => .quoted closing depth
    | none =>
      if c = '(' then .outside (depth + 1)
      else if c = ')' then leave depth
      else .outside depth

/-- Where the reader stands behind a text. -/
def read (d : Dialect) (place : Place) (s : List Char) : Place :=
  s.foldl (step d) place

variable {d : Dialect} {s t : List Char} {c opening closing : Char} {n : ℕ} {place : Place}

@[simp] theorem read_nil : place.read d [] = place := rfl

theorem read_cons : place.read d (c :: s) = (place.step d c).read d s := rfl

theorem read_append : place.read d (s ++ t) = (place.read d s).read d t :=
  List.foldl_append

@[simp] theorem read_astray : astray.read d s = .astray := by
  induction s with
  | nil => rfl
  | cons c s ih => rw [read_cons, step, ih]

@[simp] theorem step_openParenthesis : (outside n).step d '(' = .outside (n + 1) := by
  cases d <;> rfl

@[simp] theorem step_closeParenthesis : (outside n).step d ')' = leave n := by
  cases d <;> rfl

theorem step_opening (h : (opening, closing) ∈ d.quotations) :
    (outside n).step d opening = .quoted closing n := by
  have hall : ∀ mark ∈ d.quotations, d.quotations.lookup mark.1 = some mark.2 := by
    cases d <;> decide
  rw [step, hall _ h]

@[simp] theorem step_closing : (quoted closing n).step d closing = .outside n :=
  if_pos rfl

/-- Whether a character is none of the marks that the reader heeds outside of quotations. -/
def IsOrdinary (d : Dialect) (c : Char) : Prop :=
  d.quotations.lookup c = none ∧ c ≠ '(' ∧ c ≠ ')'

instance (d : Dialect) (c : Char) : Decidable (IsOrdinary d c) :=
  inferInstanceAs (Decidable (_ ∧ _))

theorem step_ordinary (h : IsOrdinary d c) : (outside n).step d c = .outside n := by
  rw [step, h.1]
  dsimp only
  rw [if_neg h.2.1, if_neg h.2.2]

/-- Outside of quotations a character is an opening mark, a parenthesis or an ordinary one. -/
theorem opening_cases (d : Dialect) (c : Char) :
    (∃ closing, (c, closing) ∈ d.quotations) ∨ c = '(' ∨ c = ')' ∨ IsOrdinary d c := by
  cases hlookup : d.quotations.lookup c with
  | some closing => exact .inl ⟨closing, mem_of_lookup hlookup⟩
  | none =>
    by_cases hopen : c = '('
    · exact .inr (.inl hopen)
    · by_cases hclose : c = ')'
      · exact .inr (.inr (.inl hclose))
      · exact .inr (.inr (.inr ⟨hlookup, hopen, hclose⟩))

theorem read_quoted (h : closing ∉ s) : (quoted closing n).read d s = .quoted closing n := by
  induction s with
  | nil => rfl
  | cons c s ih =>
    rw [List.mem_cons, not_or] at h
    rw [read_cons, step, if_neg (Ne.symm h.1), ih h.2]

theorem read_quoted_closing (h : closing ∉ s) :
    (quoted closing n).read d (s ++ closing :: t) = (outside n).read d t := by
  rw [read_append, read_quoted h, read_cons, step_closing]

end Place

/-! ## Balanced texts -/

/-- A text that closes every quotation and parenthesis that it opens, and no other. -/
inductive IsBalanced (d : Dialect) : List Char → Prop
  /-- The empty text. -/
  | nil : IsBalanced d []
  /-- A character that the reader does not heed, and a balanced text. -/
  | ordinary {c : Char} {s : List Char} (hc : Place.IsOrdinary d c) (hs : IsBalanced d s) :
      IsBalanced d (c :: s)
  /-- A quotation and a balanced text. -/
  | quotation {opening closing : Char} {inner s : List Char}
      (hmarks : (opening, closing) ∈ d.quotations) (hinner : closing ∉ inner)
      (hs : IsBalanced d s) : IsBalanced d (opening :: inner ++ closing :: s)
  /-- A balanced text between parentheses, and another one. -/
  | parentheses {inner s : List Char} (hinner : IsBalanced d inner) (hs : IsBalanced d s) :
      IsBalanced d ('(' :: inner ++ ')' :: s)

/-- A text that closes what it opens and so many parentheses more. -/
def Closes (d : Dialect) : ℕ → List Char → Prop
  | 0, s => IsBalanced d s
  | n + 1, s => ∃ inner rest, s = inner ++ ')' :: rest ∧ IsBalanced d inner ∧ Closes d n rest

variable {d : Dialect} {s t : List Char} {n : ℕ}

theorem IsBalanced.append (hs : IsBalanced d s) (ht : IsBalanced d t) :
    IsBalanced d (s ++ t) := by
  induction hs with
  | nil => exact ht
  | ordinary hc _ ih => exact .ordinary hc ih
  | quotation hmarks hinner _ ih =>
    rw [List.append_assoc, List.cons_append]
    exact .quotation hmarks hinner ih
  | parentheses hinner _ _ ih =>
    rw [List.append_assoc, List.cons_append]
    exact .parentheses hinner ih

/-- A balanced text in front changes nothing of what a text closes. -/
theorem Closes.append (hs : IsBalanced d s) (ht : Closes d n t) : Closes d n (s ++ t) := by
  cases n with
  | zero => exact IsBalanced.append hs ht
  | succ n =>
    obtain ⟨inner, rest, rfl, hinner, hrest⟩ := ht
    exact ⟨s ++ inner, rest, by rw [List.append_assoc], hs.append hinner, hrest⟩

/-- Behind a balanced text the reader stands where it stood before. -/
theorem IsBalanced.read_eq (h : IsBalanced d s) (n : ℕ) :
    (Place.outside n).read d s = .outside n := by
  induction h generalizing n with
  | nil => rfl
  | ordinary hc _ ih => rw [Place.read_cons, Place.step_ordinary hc, ih]
  | quotation hmarks hinner _ ih =>
    rw [List.cons_append, Place.read_cons, Place.step_opening hmarks,
      Place.read_quoted_closing hinner, ih]
  | parentheses _ _ ihinner ih =>
    rw [List.cons_append, Place.read_cons, Place.step_openParenthesis, Place.read_append, ihinner,
      Place.read_cons, Place.step_closeParenthesis, Place.leave, ih]

/-- **A text behind which nothing is open closes what was open before it.** -/
theorem closes_of_read (h : (Place.outside n).read d s = .outside 0) : Closes d n s := by
  -- the text behind a quotation is shorter, but no tail of one step
  induction hlength : s.length using Nat.strong_induction_on generalizing s n with
  | _ length ih =>
  subst hlength
  cases s with
  | nil =>
    obtain rfl : n = 0 := by simpa using h
    exact IsBalanced.nil
  | cons c s =>
    rw [Place.read_cons] at h
    rcases Place.opening_cases d c with ⟨closing, hmarks⟩ | rfl | rfl | hc
    · rw [Place.step_opening hmarks] at h
      have hmem : closing ∈ s := by
        by_contra hnot
        rw [Place.read_quoted hnot] at h
        contradiction
      obtain ⟨inner, rest, rfl, hinner⟩ := List.eq_append_cons_of_mem hmem
      rw [Place.read_quoted_closing hinner] at h
      have hrest := ih rest.length (by simp; omega) h rfl
      have hquotation : IsBalanced d (c :: inner ++ [closing]) := .quotation hmarks hinner .nil
      simpa using Closes.append hquotation hrest
    · rw [Place.step_openParenthesis] at h
      obtain ⟨inner, rest, rfl, hinner, hrest⟩ := ih s.length (by simp) h rfl
      have hparentheses : IsBalanced d ('(' :: inner ++ [')']) := .parentheses hinner .nil
      simpa using Closes.append hparentheses hrest
    · cases n with
      | zero => simp [Place.leave] at h
      | succ n =>
        rw [Place.step_closeParenthesis, Place.leave] at h
        exact ⟨[], s, rfl, .nil, ih s.length (by simp) h rfl⟩
    · rw [Place.step_ordinary hc] at h
      have hordinary : IsBalanced d [c] := .ordinary hc .nil
      exact Closes.append hordinary (ih s.length (by simp) h rfl)

/-- **The reader tells whether a text is balanced.** -/
theorem isBalanced_iff : IsBalanced d s ↔ (Place.outside 0).read d s = .outside 0 :=
  ⟨fun h => h.read_eq 0, closes_of_read⟩

instance (d : Dialect) (s : List Char) : Decidable (IsBalanced d s) :=
  decidable_of_iff _ isBalanced_iff.symm

/-- **What follows a balanced text is read as if that were not there.** -/
theorem isBalanced_iff_forall_read_append :
    IsBalanced d s ↔ ∀ n t, (Place.outside n).read d (s ++ t) = (Place.outside n).read d t := by
  refine ⟨fun h n t => by rw [Place.read_append, h.read_eq], fun h => isBalanced_iff.2 ?_⟩
  simpa using h 0 []

theorem isBalanced_of_forall_ordinary (h : ∀ c ∈ s, Place.IsOrdinary d c) : IsBalanced d s := by
  induction s with
  | nil => exact .nil
  | cons c s ih => exact .ordinary (h c (by simp)) (ih fun c' hc' => h c' (by simp [hc']))

/-! ## Text constants -/

theorem doubleQuotes_cons (c : Char) (value : List Char) : doubleQuotes (c :: value) =
    (if c = '\'' then ['\'', '\''] else [c]) ++ doubleQuotes value := rfl

theorem toList_quoteText (value : String) :
    (quoteText value).toList = '\'' :: (doubleQuotes value.toList ++ ['\'']) := by
  simp [quoteText]

/-- Every dialect knows the mark around text constants. -/
theorem quote_mem_quotations (d : Dialect) : ('\'', '\'') ∈ d.quotations := by
  cases d <;> decide

theorem read_doubleQuotes (value : List Char) (n : ℕ) :
    (Place.quoted '\'' n).read d (doubleQuotes value) = .quoted '\'' n := by
  induction value with
  | nil => rfl
  | cons c value ih =>
    rw [doubleQuotes_cons, Place.read_append]
    by_cases hc : c = '\''
    · rw [if_pos hc, Place.read_cons, Place.step_closing, Place.read_cons,
        Place.step_opening (quote_mem_quotations d), Place.read_nil, ih]
    · rw [if_neg hc, Place.read_cons, Place.step, if_neg hc, Place.read_nil, ih]

end Schemata.Sql
