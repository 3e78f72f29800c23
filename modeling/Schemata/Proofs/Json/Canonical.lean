import Schemata.Json.Reader
import Schemata.Proofs.Decimal.Binary64
import Schemata.Proofs.Result

/-!
# Documents hold numbers in normal form

Every number of a document that was read is in normal form (`Value.isCanonical_of_read?`): it was
rounded when its token was scanned (`isCanonical_scan`), and the reader only puts values together
(`ReaderState.IsCanonical.step`).
-/

namespace Schemata.Json

variable {limits : Limits} {value : Value}

/-- The numbers of the document are in normal form. -/
inductive Value.IsCanonical : Value → Prop where
  /-- Nothing. -/
  | null : IsCanonical .null
  /-- A truth value. -/
  | bool (b : Bool) : IsCanonical (.bool b)
  /-- A whole number. -/
  | integer (n : Int) : IsCanonical (.integer n)
  /-- A number in normal form. -/
  | float {x : Binary64} (hx : x.IsCanonical) : IsCanonical (.float x)
  /-- A text. -/
  | text (s : String) : IsCanonical (.text s)
  /-- A list whose items hold such numbers. -/
  | list {items : List Value} (hitems : ∀ item ∈ items, IsCanonical item) :
    IsCanonical (.list items)
  /-- An object whose members hold such numbers. -/
  | object {members : Members} (hmembers : ∀ member ∈ members, IsCanonical member.2) :
    IsCanonical (.object members)

/-! ## Scanning -/

theorem isCanonical_unsigned? {negative : Bool} {s : List Char}
    (h : unsigned? negative s = some value) : value.IsCanonical := by
  rw [unsigned?] at h
  obtain ⟨⟨whole, rest⟩, -, h⟩ := Option.bind_eq_some_iff.1 h
  dsimp only at h
  split at h
  · contradiction
  split at h
  · obtain rfl := Option.some.inj h
    exact .integer _
  · obtain ⟨⟨fraction, rest'⟩, -, h⟩ := Option.bind_eq_some_iff.1 h
    have hfloat : ∃ n power, Value.float (.ofDecimal negative n power) = value := by
      split at h <;> obtain ⟨power, -, h⟩ := Option.bind_eq_some_iff.1 h <;>
        exact ⟨_, _, Option.some.inj h⟩
    obtain ⟨_, _, rfl⟩ := hfloat
    exact .float (Binary64.isCanonical_ofDecimal _ _ _)
  · obtain ⟨power, -, h⟩ := Option.bind_eq_some_iff.1 h
    obtain rfl := Option.some.inj h
    exact .float (Binary64.isCanonical_ofDecimal _ _ _)

theorem isCanonical_number? {s : List Char} (h : number? s = some value) : value.IsCanonical := by
  rw [number?.eq_def] at h
  split at h <;> exact isCanonical_unsigned? h

theorem isCanonical_words : ∀ word ∈ words, word.2.IsCanonical := by
  simp only [words, List.forall_mem_cons, List.not_mem_nil, false_implies, implies_true, and_true]
  exact ⟨.null, .bool _, .bool _, .float trivial, .float trivial, .float trivial⟩

theorem isCanonical_scalar? {s : List Char} (h : scalar? limits s = some value) :
    value.IsCanonical := by
  rw [scalar?] at h
  split at h
  · next word hword =>
    obtain rfl := Option.some.inj h
    exact isCanonical_words _ (mem_of_lookup hword)
  · split at h
    · exact isCanonical_number? h
    · contradiction

/-- The value of the token, if it has one, holds numbers in normal form. -/
def Token.IsCanonical : Token → Prop
  | .scalar value => value.IsCanonical
  | _ => True

theorem isCanonical_punctuation? {c : Char} {token : Token} (h : punctuation? c = some token) :
    token.IsCanonical := by
  unfold punctuation? at h
  split at h <;> first | contradiction | (obtain rfl := Option.some.inj h; trivial)

theorem isCanonical_of_map {tokens : List Token} {found : Option (List Token)}
    (front : List Token) (hfront : ∀ token ∈ front, token.IsCanonical)
    (hfound : ∀ {tokens}, found = some tokens → ∀ token ∈ tokens, token.IsCanonical)
    (h : found.map (front ++ ·) = some tokens) : ∀ token ∈ tokens, token.IsCanonical := by
  obtain ⟨behind, hbehind, rfl⟩ := Option.map_eq_some_iff.1 h
  exact List.forall_mem_append.2 ⟨hfront, hfound hbehind⟩

/-- **The tokens of a document hold numbers in normal form.** -/
theorem isCanonical_scan {state : Scan} {s : List Char} {tokens : List Token}
    (h : scan limits state s = some tokens) : ∀ token ∈ tokens, token.IsCanonical := by
  fun_induction scan limits state s generalizing tokens
  case case1 =>
    obtain rfl := Option.some.inj h
    simp
  case case2 =>
    obtain ⟨value, hvalue, rfl⟩ := Option.map_eq_some_iff.1 h
    exact List.forall_mem_singleton.2 (isCanonical_scalar? hvalue)
  case case5 token htoken ih =>
    exact isCanonical_of_map [token]
      (List.forall_mem_singleton.2 (isCanonical_punctuation? htoken)) ih h
  case case8 ih =>
    obtain ⟨value, hvalue, h⟩ := Option.bind_eq_some_iff.1 h
    exact isCanonical_of_map [.scalar value]
      (List.forall_mem_singleton.2 (isCanonical_scalar? hvalue)) ih h
  case case9 token htoken ih =>
    obtain ⟨value, hvalue, h⟩ := Option.bind_eq_some_iff.1 h
    exact isCanonical_of_map [.scalar value, token]
      (List.forall_mem_cons.2 ⟨isCanonical_scalar? hvalue,
        List.forall_mem_singleton.2 (isCanonical_punctuation? htoken)⟩) ih h
  case case12 ih =>
    obtain ⟨chars, -, h⟩ := Option.bind_eq_some_iff.1 h
    exact isCanonical_of_map [.text (String.ofList chars)] (List.forall_mem_singleton.2 trivial)
      ih h
  -- no token ends here
  all_goals first
    | contradiction
    | rename_i ih
      exact ih h

/-! ## Reading -/

/-- What is read of an open list or object holds numbers in normal form. -/
def Frame.IsCanonical : Frame → Prop
  | .list items => ∀ item ∈ items, item.IsCanonical
  | .object members _ => ∀ member ∈ members, member.2.IsCanonical

/-- What is read of the object or value in work holds numbers in normal form. -/
def Awaiting.IsCanonical : Awaiting → Prop
  | .name members => ∀ member ∈ members, member.2.IsCanonical
  | .colon members _ => ∀ member ∈ members, member.2.IsCanonical
  | .next value => value.IsCanonical
  | _ => True

/-- All that the reader has read holds numbers in normal form. -/
structure ReaderState.IsCanonical (state : ReaderState) : Prop where
  /-- So do the open lists and objects. -/
  stack : ∀ frame ∈ state.stack, frame.IsCanonical
  /-- So does what is in work. -/
  awaiting : state.awaiting.IsCanonical

theorem isCanonical_set {members : Members} {name : String}
    (hmembers : ∀ member ∈ members, member.2.IsCanonical) (hvalue : value.IsCanonical) :
    ∀ member ∈ members.set name value, member.2.IsCanonical := by
  unfold Members.set
  split
  · rw [List.forall_mem_map]
    intro member hmember
    split
    · exact hvalue
    · exact hmembers member hmember
  · exact List.forall_mem_append.2 ⟨hmembers, List.forall_mem_singleton.2 hvalue⟩

theorem isCanonical_open? {frame : Frame} {stack opened : List Frame}
    (hframe : frame.IsCanonical) (hstack : ∀ frame ∈ stack, frame.IsCanonical)
    (h : Frame.open? limits frame stack = some opened) : ∀ frame ∈ opened, frame.IsCanonical := by
  unfold Frame.open? at h
  split at h
  · obtain rfl := Option.some.inj h
    exact List.forall_mem_cons.2 ⟨hframe, hstack⟩
  · contradiction

theorem isCanonical_startValue {stack : List Frame} {token : Token} {state : ReaderState}
    (hstack : ∀ frame ∈ stack, frame.IsCanonical) (htoken : token.IsCanonical)
    (h : ReaderState.startValue stack token = some state) : state.IsCanonical := by
  unfold ReaderState.startValue at h
  split at h <;> first | contradiction | obtain rfl := Option.some.inj h
  · exact ⟨hstack, trivial⟩
  · exact ⟨hstack, trivial⟩
  · exact ⟨hstack, .text _⟩
  · exact ⟨hstack, htoken⟩

/-- What follows a complete value puts it into the list or object that is open. -/
theorem isCanonical_of_next {stack : List Frame} {token : Token} {next : ReaderState}
    (hstack : ∀ frame ∈ stack, frame.IsCanonical) (hvalue : value.IsCanonical)
    (h : ReaderState.step limits ⟨stack, .next value⟩ token = some next) : next.IsCanonical := by
  unfold ReaderState.step at h
  dsimp only at h
  split at h
  case h_1 items stack =>
    obtain rfl := Option.some.inj h
    rw [List.forall_mem_cons] at hstack
    exact ⟨List.forall_mem_cons.2 ⟨List.forall_mem_cons.2 ⟨hvalue, hstack.1⟩, hstack.2⟩, trivial⟩
  case h_2 items stack =>
    obtain rfl := Option.some.inj h
    rw [List.forall_mem_cons] at hstack
    refine ⟨hstack.2, .list fun item hitem => ?_⟩
    rw [List.mem_reverse] at hitem
    exact List.forall_mem_cons.2 ⟨hvalue, hstack.1⟩ item hitem
  case h_3 members name stack =>
    obtain rfl := Option.some.inj h
    rw [List.forall_mem_cons] at hstack
    exact ⟨hstack.2, isCanonical_set hstack.1 hvalue⟩
  case h_4 members name stack =>
    obtain rfl := Option.some.inj h
    rw [List.forall_mem_cons] at hstack
    exact ⟨hstack.2, .object (isCanonical_set hstack.1 hvalue)⟩
  case h_5 => contradiction

/-- **A step keeps numbers in normal form.** -/
theorem ReaderState.IsCanonical.step {state next : ReaderState} {token : Token}
    (hstate : state.IsCanonical) (htoken : token.IsCanonical)
    (h : state.step limits token = some next) : next.IsCanonical := by
  obtain ⟨stack, awaiting⟩ := state
  obtain ⟨hstack, hawaiting⟩ := hstate
  cases awaiting with
  | value => exact isCanonical_startValue hstack htoken h
  | next value => exact isCanonical_of_next hstack hawaiting h
  | firstItem =>
    have hitem : (∃ stack', Frame.open? limits (.list []) stack = some stack' ∧
        startValue stack' token = some next) ∨ next = ⟨stack, .next (.list [])⟩ := by
      cases token with
      | closeList => exact .inr (Option.some.inj h).symm
      | _ => exact .inl (Option.bind_eq_some_iff.1 h)
    rcases hitem with ⟨stack', hopen, hstart⟩ | rfl
    · exact isCanonical_startValue (isCanonical_open? (by simp [Frame.IsCanonical]) hstack hopen)
        htoken hstart
    · exact ⟨hstack, .list (by simp)⟩
  | firstName =>
    cases token with
    | closeObject =>
      obtain rfl := Option.some.inj h
      exact ⟨hstack, .object (by simp)⟩
    | text name =>
      obtain rfl := Option.some.inj h
      exact ⟨hstack, by simp [Awaiting.IsCanonical]⟩
    | _ => contradiction
  | name members =>
    cases token with
    | text name =>
      obtain rfl := Option.some.inj h
      exact ⟨hstack, hawaiting⟩
    | _ => contradiction
  | colon members name =>
    cases token with
    | colon =>
      obtain ⟨stack', hopen, rfl⟩ := Option.map_eq_some_iff.1 h
      have hframe : Frame.IsCanonical (.object members name) := hawaiting
      exact ⟨isCanonical_open? hframe hstack hopen, trivial⟩
    | _ => contradiction

theorem ReaderState.IsCanonical.steps {state next : ReaderState} {tokens : List Token}
    (hstate : state.IsCanonical) (htokens : ∀ token ∈ tokens, token.IsCanonical)
    (h : tokens.foldlM (ReaderState.step limits) state = some next) : next.IsCanonical := by
  induction tokens generalizing state with
  | nil =>
    obtain rfl := Option.some.inj h
    exact hstate
  | cons token tokens ih =>
    rw [List.forall_mem_cons] at htokens
    obtain ⟨state', hstep, hrest⟩ := Option.bind_eq_some_iff.1 h
    exact ih (hstate.step htokens.1 hstep) htokens.2 hrest

/-- **The numbers of a document that was read are in normal form.** -/
theorem Value.isCanonical_of_read? {s : String} (h : Value.read? limits s = some value) :
    value.IsCanonical := by
  obtain ⟨tokens, htokens, h⟩ := Option.bind_eq_some_iff.1 h
  obtain ⟨state, hstate, h⟩ := Option.bind_eq_some_iff.1 h
  have hstart : ReaderState.IsCanonical ⟨[], .value⟩ := ⟨by simp, trivial⟩
  have hcanonical := hstart.steps (isCanonical_scan htokens) hstate
  split at h
  · obtain rfl := Option.some.inj h
    exact hcanonical.awaiting
  · contradiction

end Schemata.Json
