import Schemata.Json.Reader
import Schemata.Proofs.Json.Scan

/-!
# Documents are read back

A document that was written is read back, with nulls in the place of the numbers that are not finite
(`Value.read?_render`). It has to fit (`Value.Fits`): it keeps to the limits, its numbers are in
normal form, and no object gives a name twice. Its text is scanned to the tokens of its structure
(`Value.Fits.endsAs_render`), and these are read one part after another, whatever is open around
them (`Value.Fits.isRead`).
-/

namespace Schemata.Json

variable {limits : Limits} {depth : Nat} {value : Value} {items : List Value} {members : Members}

/-! ## What is kept -/

mutual

/-- What a document keeps of a value: nulls for the numbers that are not finite. -/
def Value.kept : Value → Value
  | .null => .null
  | .bool b => .bool b
  | .integer n => .integer n
  | .float x => if x.isFinite then .float x else .null
  | .text s => .text s
  | .list items => .list (Value.keptItems items)
  | .object members => .object (Value.keptMembers members)

/-- What a document keeps of the items of a list. -/
def Value.keptItems : List Value → List Value
  | [] => []
  | item :: items => item.kept :: Value.keptItems items

/-- What a document keeps of the members of an object. -/
def Value.keptMembers : List (String × Value) → List (String × Value)
  | [] => []
  | (name, value) :: members => (name, value.kept) :: Value.keptMembers members

end

theorem Value.keptItems_eq_map : ∀ items, Value.keptItems items = items.map Value.kept
  | [] => rfl
  | item :: items => by rw [keptItems, keptItems_eq_map items, List.map_cons]

/-- The value can be written into a document within the limits, inside of `depth` lists and objects,
and be told from what is written there. -/
inductive Value.Fits (limits : Limits) : Nat → Value → Prop where
  /-- Nothing. -/
  | null {depth : Nat} : Fits limits depth .null
  /-- Truth values. -/
  | bool {depth : Nat} (b : Bool) : Fits limits depth (.bool b)
  /-- Whole numbers with not too many digits. -/
  | integer {depth : Nat} {n : Int}
      (hwhole : Limits.keeps limits.whole (wholeLength (toString n).toList) = true) :
      Fits limits depth (.integer n)
  /-- Numbers in normal form, where sixteen digits and a sign may stand before a fraction. -/
  | float {depth : Nat} {x : Binary64} (hx : x.IsCanonical)
      (hwhole : Limits.keeps limits.whole 17 = true) : Fits limits depth (.float x)
  /-- Texts. -/
  | text {depth : Nat} (s : String) : Fits limits depth (.text s)
  /-- Lists that do not lie too deep. -/
  | list {depth : Nat} {items : List Value}
      (hdepth : items ≠ [] → Limits.keeps limits.depth (depth + 1) = true)
      (hitems : ∀ item ∈ items, Fits limits (depth + 1) item) : Fits limits depth (.list items)
  /-- Objects that do not lie too deep and give every name once. -/
  | object {depth : Nat} {members : Members}
      (hdepth : members ≠ [] → Limits.keeps limits.depth (depth + 1) = true)
      (hnames : (members.map (·.1)).Nodup)
      (hmembers : ∀ member ∈ members, Fits limits (depth + 1) member.2) :
      Fits limits depth (.object members)

/-! ## Scanning -/

mutual

/-- The tokens of a document. -/
def Value.tokens : Value → List Token
  | .null => [.scalar .null]
  | .bool b => [.scalar (.bool b)]
  | .integer n => [.scalar (.integer n)]
  | .float x => [.scalar (if x.isFinite then .float x else .null)]
  | .text s => [.text s]
  | .list items =>
    .openList :: ([Token.comma].intercalate (Value.itemTokens items) ++ [.closeList])
  | .object members =>
    .openObject :: ([Token.comma].intercalate (Value.memberTokens members) ++ [.closeObject])

/-- The tokens of the items of a list, one item after another. -/
def Value.itemTokens : List Value → List (List Token)
  | [] => []
  | item :: items => item.tokens :: Value.itemTokens items

/-- The tokens of the members of an object, one member after another. -/
def Value.memberTokens : List (String × Value) → List (List Token)
  | [] => []
  | (name, value) :: members =>
    (.text name :: .colon :: value.tokens) :: Value.memberTokens members

end

theorem keeps_of_le {bound : Option Nat} {m n : Nat} (h : Limits.keeps bound n = true)
    (hle : m ≤ n) : Limits.keeps bound m = true := by
  cases bound with
  | none => rfl
  | some bound => exact decide_eq_true (hle.trans (of_decide_eq_true h))

theorem endsAs_writeFloat {x : Binary64} (hx : x.IsCanonical)
    (hwhole : Limits.keeps limits.whole 17 = true) :
    EndsAs limits (writeFloat x).toList
      [.scalar (if x.isFinite then .float x else .null)] := by
  unfold writeFloat
  split
  · next hfinite =>
    obtain ⟨hread, hnumeral⟩ := number?_render documentNumber hx hfinite
    exact hnumeral.endsAs (keeps_of_le hwhole hnumeral.wholeLength_le) hread
  · exact endsAs_word rfl

theorem endsAs_items {layout : Layout} {level : Nat}
    (h : ∀ item ∈ items, EndsAs limits (item.render layout level).toList item.tokens) :
    List.Forall₂ (fun part => EndsAs limits part.toList) (Value.renderItems layout level items)
      (Value.itemTokens items) := by
  induction items with
  | nil => exact .nil
  | cons item items ih =>
    rw [List.forall_mem_cons] at h
    exact .cons h.1 (ih h.2)

theorem endsAs_members {layout : Layout} {level : Nat}
    (h : ∀ m ∈ members, EndsAs limits (m.2.render layout level).toList m.2.tokens) :
    List.Forall₂ (fun part => EndsAs limits part.toList)
      (Value.renderMembers layout level members) (Value.memberTokens members) := by
  induction members with
  | nil => exact .nil
  | cons member members ih =>
    rw [List.forall_mem_cons] at h
    refine .cons ?_ (ih h.2)
    rw [String.toList_append, String.toList_append]
    exact ((scansTo_quoteText member.1).append (scansTo_colon layout)).append_endsAs h.1

/-- **The text of a document is scanned to its tokens.** -/
theorem Value.Fits.endsAs_render (h : value.Fits limits depth) (layout : Layout) (level : Nat) :
    EndsAs limits (value.render layout level).toList value.tokens := by
  induction h generalizing level with
  | null => exact endsAs_word rfl
  | bool b => cases b <;> exact endsAs_word rfl
  | integer hwhole =>
    obtain ⟨hread, bound, hnumeral⟩ := number?_toString _
    exact hnumeral.endsAs hwhole hread
  | float hx hwhole => exact endsAs_writeFloat hx hwhole
  | text s => exact (scansTo_quoteText s).endsAs
  | list _ _ ih =>
    rw [Value.render, Value.tokens]
    exact (scansTo_enclose rfl rfl (scansTo_punctuation rfl rfl) (scansTo_punctuation rfl rfl)
      rfl (endsAs_items fun item hitem => ih item hitem _)).endsAs
  | object _ _ _ ih =>
    rw [Value.render, Value.tokens]
    exact (scansTo_enclose rfl rfl (scansTo_punctuation rfl rfl) (scansTo_punctuation rfl rfl)
      rfl (endsAs_members fun member hmember => ih member hmember _)).endsAs

/-! ## Reading -/

/-- Reads some tokens. -/
def ReaderState.steps (limits : Limits) (state : ReaderState) (tokens : List Token) :
    Option ReaderState :=
  tokens.foldlM (ReaderState.step limits) state

open ReaderState (step steps)

variable {state : ReaderState} {stack : List Frame} {token : Token} {tokens : List Token}

theorem steps_cons : steps limits state (token :: tokens) =
    (step limits state token).bind (steps limits · tokens) :=
  List.foldlM_cons

theorem steps_append {us : List Token} : steps limits state (tokens ++ us) =
    (steps limits state tokens).bind (steps limits · us) :=
  List.foldlM_append

/-- The first item of a list opens it. -/
theorem step_firstItem (hdepth : Limits.keeps limits.depth (stack.length + 1) = true)
    (htoken : token ≠ .closeList) :
    step limits ⟨stack, .firstItem⟩ token = step limits ⟨.list [] :: stack, .value⟩ token := by
  cases token <;> first | contradiction | simp [step, Frame.open?, hdepth]

theorem exists_tokens_eq_cons (value : Value) :
    ∃ token tokens, value.tokens = token :: tokens ∧ token ≠ .closeList := by
  cases value <;> exact ⟨_, _, by rw [Value.tokens], by simp⟩

theorem Members.set_of_notMem {name : String} (h : name ∉ members.map (·.1)) :
    members.set name value = members ++ [(name, value)] := by
  refine if_neg fun hany => h ?_
  obtain ⟨member, hmem, hname⟩ := List.any_eq_true.1 hany
  exact List.mem_map.2 ⟨member, hmem, beq_iff_eq.1 hname⟩

/-- A value is read as what is kept of it, whatever is open around it. -/
def IsRead (limits : Limits) (depth : Nat) (value : Value) : Prop :=
  ∀ stack : List Frame, stack.length = depth →
    steps limits ⟨stack, .value⟩ value.tokens = some ⟨stack, .next value.kept⟩

theorem steps_items {item : Value} (read : List Value)
    (hread : ∀ i ∈ item :: items, IsRead limits (stack.length + 1) i) :
    steps limits ⟨.list read :: stack, .value⟩
        ([Token.comma].intercalate (Value.itemTokens (item :: items)) ++ [.closeList]) =
      some ⟨stack, .next (.list (read.reverse ++ Value.keptItems (item :: items)))⟩ := by
  induction items generalizing item read with
  | nil =>
    have hitem := hread item (by simp) (.list read :: stack) rfl
    rw [Value.itemTokens, Value.itemTokens, List.intercalate_singleton, steps_append, hitem]
    simp [steps, step, Value.keptItems]
  | cons next items ih =>
    rw [List.forall_mem_cons] at hread
    have hitem := hread.1 (.list read :: stack) rfl
    have hrest := ih (item.kept :: read) hread.2
    rw [Value.itemTokens, Value.itemTokens, List.intercalate_cons_cons, ← Value.itemTokens,
      List.append_assoc, List.append_assoc, steps_append, hitem, Option.bind_some,
      List.singleton_append, steps_cons]
    rw [Value.keptItems]
    simpa [step] using hrest

theorem steps_list (hdepth : items ≠ [] → Limits.keeps limits.depth (stack.length + 1) = true)
    (hread : ∀ item ∈ items, IsRead limits (stack.length + 1) item) :
    steps limits ⟨stack, .value⟩ (Value.list items).tokens =
      some ⟨stack, .next (.list (Value.keptItems items))⟩ := by
  rw [Value.tokens, steps_cons]
  change steps limits ⟨stack, .firstItem⟩ _ = _
  cases items with
  | nil => rfl
  | cons item items =>
    have hitems := steps_items [] hread
    obtain ⟨token, tokens, htokens, htoken⟩ := exists_tokens_eq_cons item
    have hhead : ∃ rest, [Token.comma].intercalate (Value.itemTokens (item :: items))
        ++ [.closeList] = token :: rest := by
      rw [Value.itemTokens, htokens]
      cases items with
      | nil => exact ⟨_, rfl⟩
      | cons next items => exact ⟨_, rfl⟩
    obtain ⟨rest, hrest⟩ := hhead
    rw [hrest, steps_cons] at hitems ⊢
    rwa [step_firstItem (hdepth (by simp)) htoken]

/-- A name is read at the place where one is waited for. -/
theorem steps_member {name : String} {read : Members} {awaiting : Awaiting}
    (hname : step limits ⟨stack, awaiting⟩ (.text name) = some ⟨stack, .colon read name⟩)
    (hdepth : Limits.keeps limits.depth (stack.length + 1) = true)
    (hread : IsRead limits (stack.length + 1) value) :
    steps limits ⟨stack, awaiting⟩ (.text name :: .colon :: value.tokens) =
      some ⟨.object read name :: stack, .next value.kept⟩ := by
  have hcolon : step limits ⟨stack, .colon read name⟩ .colon =
      some ⟨.object read name :: stack, .value⟩ := by
    simp [step, Frame.open?, hdepth]
  rw [steps_cons, hname, Option.bind_some, steps_cons, hcolon, Option.bind_some,
    hread (.object read name :: stack) rfl]

theorem notMem_of_nodup {member : String × Value} {read : Members}
    (hnames : ((read ++ member :: members).map (·.1)).Nodup) : member.1 ∉ read.map (·.1) := by
  rw [List.map_append, List.nodup_append] at hnames
  exact fun hmem => hnames.2.2 _ hmem _ (by simp) rfl

theorem steps_members {member : String × Value} (read : Members) (awaiting : Awaiting)
    (hname : ∀ name, step limits ⟨stack, awaiting⟩ (.text name) = some ⟨stack, .colon read name⟩)
    (hnames : ((read ++ member :: members).map (·.1)).Nodup)
    (hdepth : Limits.keeps limits.depth (stack.length + 1) = true)
    (hread : ∀ m ∈ member :: members, IsRead limits (stack.length + 1) m.2) :
    steps limits ⟨stack, awaiting⟩
        ([Token.comma].intercalate (Value.memberTokens (member :: members)) ++ [.closeObject]) =
      some ⟨stack, .next (.object (read ++ Value.keptMembers (member :: members)))⟩ := by
  induction members generalizing member read awaiting with
  | nil =>
    obtain ⟨name, value⟩ := member
    have hmember := steps_member (hname name) hdepth (hread (name, value) (by simp))
    have hnew := notMem_of_nodup hnames
    rw [Value.memberTokens, Value.memberTokens, List.intercalate_singleton, steps_append, hmember]
    simp [steps, step, Value.keptMembers, Members.set_of_notMem hnew]
  | cons next members ih =>
    obtain ⟨name, value⟩ := member
    have hmember := steps_member (hname name) hdepth (hread (name, value) (by simp))
    have hnew := notMem_of_nodup hnames
    have hrest := ih (read ++ [(name, value.kept)]) (.name (read ++ [(name, value.kept)]))
      (fun _ => rfl) (by simpa using hnames) (List.forall_mem_cons.1 hread).2
    rw [Value.memberTokens, Value.memberTokens, List.intercalate_cons_cons, ← Value.memberTokens,
      List.append_assoc, List.append_assoc, steps_append, hmember, Option.bind_some,
      List.singleton_append, steps_cons]
    rw [Value.keptMembers]
    simpa [step, Members.set_of_notMem hnew] using hrest

theorem steps_object (hdepth : members ≠ [] → Limits.keeps limits.depth (stack.length + 1) = true)
    (hnames : (members.map (·.1)).Nodup)
    (hread : ∀ m ∈ members, IsRead limits (stack.length + 1) m.2) :
    steps limits ⟨stack, .value⟩ (Value.object members).tokens =
      some ⟨stack, .next (.object (Value.keptMembers members))⟩ := by
  rw [Value.tokens, steps_cons]
  change steps limits ⟨stack, .firstName⟩ _ = _
  cases members with
  | nil => rfl
  | cons member members =>
    exact steps_members [] .firstName (fun _ => rfl) hnames (hdepth (by simp)) hread

/-- **A document is read from its tokens**, whatever is open around it. -/
theorem Value.Fits.isRead (h : value.Fits limits depth) : IsRead limits depth value := by
  induction h with
  | null => exact fun _ _ => rfl
  | bool b => exact fun _ _ => rfl
  | integer hwhole => exact fun _ _ => rfl
  | float hx hwhole => exact fun _ _ => rfl
  | text s => exact fun _ _ => rfl
  | list hdepth _ ih =>
    rintro stack rfl
    exact steps_list hdepth ih
  | object hdepth hnames _ ih =>
    rintro stack rfl
    exact steps_object hdepth hnames ih

/-- **A document is read back** as what is kept of it, however it is laid out. -/
theorem Value.read?_render (h : value.Fits limits 0) (layout : Layout) (level : Nat) :
    Value.read? limits (value.render layout level) = some value.kept := by
  have htokens : tokens? limits (value.render layout level) = some value.tokens := by
    have hscan := h.endsAs_render layout level [] (by simp)
    simpa [scan, tokens?] using hscan
  have hsteps : value.tokens.foldlM (step limits) ⟨[], .value⟩ = some ⟨[], .next value.kept⟩ :=
    h.isRead [] rfl
  rw [Value.read?, htokens, Option.bind_eq_bind, Option.bind_some, hsteps]
  rfl

end Schemata.Json
