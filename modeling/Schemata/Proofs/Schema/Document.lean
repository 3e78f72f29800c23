import Schemata.Proofs.Loading
import Schemata.Proofs.Moment
import Schemata.Proofs.Reading
import Schemata.Schema.Document

/-!
# Schemas are loaded back

A schema that was written into a file is loaded as it was, unless the place of a table has a
coordinate that is not finite (`loadSchema_toJson`). Such a coordinate is null in the file, and null
is no coordinate, so that loading fails with a fault for each of them (`Schema.lostCoordinates`). All
other fields are read back: each part of a schema is read off its document (`Column.read_toJson`,
`Relationship.read_toJson`), and the faults of the places are carried up to the schema
(`Schema.read_toJson`).
-/

namespace Schemata

open Json (Value)

/-! ## Values with faults -/

namespace Reading

variable {α β γ : Type} {a : α} {faults : List Fault}

/-- The value, unless there are faults. -/
def judged (a : α) (faults : List Fault) : Reading α :=
  if faults.isEmpty then .read a else .faulty faults

theorem judged_nil (a : α) : judged a [] = .read a := rfl

theorem map_judged (f : α → β) (a : α) (faults : List Fault) :
    f <$> judged a faults = judged (f a) faults := by
  unfold judged
  split <;> rfl

theorem judged_seq (f : α → β) (a : α) (first second : List Fault) :
    judged f first <*> judged a second = judged (f a) (first ++ second) := by
  cases first <;> cases second <;> simp [judged, Seq.seq, both]

theorem read_seq_judged (f : α → β) (a : α) (faults : List Fault) :
    Reading.read f <*> judged a faults = judged (f a) faults :=
  judged_seq f a [] faults

theorem judged_seq_read (f : α → β) (a : α) (faults : List Fault) :
    judged f faults <*> Reading.read a = judged (f a) faults := by
  rw [← judged_nil, judged_seq, List.append_nil]

theorem under_judged (step : Step) (a : α) (faults : List Fault) :
    (judged a faults).under step =
      judged a (faults.map fun fault => { fault with path := step :: fault.path }) := by
  cases faults <;> rfl

/-- A list whose items are read with faults. -/
theorem items_judged {read : γ → Reading α} {toItem : α → γ} {faults : α → List Fault}
    (h : ∀ a, read (toItem a) = judged a (faults a)) (index : ℕ) (as : List α) :
    Reading.items read index (as.map toItem) =
      judged as ((as.zipIdx index).flatMap fun item =>
        (faults item.1).map fun fault => { fault with path := .item item.2 :: fault.path }) := by
  induction as generalizing index with
  | nil => rfl
  | cons a as ih =>
    rw [List.map_cons, Reading.items, h, under_judged, map_judged, ih, judged_seq,
      List.zipIdx_cons, List.flatMap_cons]

theorem items_read {read : γ → Reading α} {toItem : α → γ} (h : ∀ a, read (toItem a) = .read a)
    (index : ℕ) (as : List α) : Reading.items read index (as.map toItem) = .read as := by
  induction as generalizing index with
  | nil => rfl
  | cons a as ih => rw [List.map_cons, Reading.items, h, ih]; rfl

end Reading

/-! ## Parts without places -/

section

variable {α : Type} {origin : Origin}

@[simp] theorem under_read (step : Step) (a : α) : (Reading.read a).under step = .read a := rfl

@[simp] theorem readText_text (s : String) : readText (.text s) = .read s := rfl

@[simp] theorem readFlag_bool (b : Bool) : readFlag origin (.bool b) = .read b := rfl

@[simp] theorem readNullable_ofText? (s : Option String) :
    readNullable readText (.ofText? s) = .read s := by
  cases s <;> rfl

theorem readNullable_ofOption {read : Value → Reading α} {toJson : α → Value}
    (hnull : ∀ a, (toJson a).isNull = false) (h : ∀ a, read (toJson a) = .read a) (a : Option α) :
    readNullable read (.ofOption toJson a) = .read a := by
  cases a with
  | none => rfl
  | some a => exact (readNullable_of_isNull_eq_false (hnull a)).trans (by rw [h]; rfl)

theorem readList_map {read : Value → Reading α} {toJson : α → Value}
    (h : ∀ a, read (toJson a) = .read a) (as : List α) :
    readList read (.list (as.map toJson)) = .read as :=
  Reading.items_read h 0 as

@[simp] theorem readChoice_word {words : List (String × α)} {word : String} {a : α}
    (h : words.lookup word = some a) : readChoice words (.text word) = .read a := by
  rw [readChoice, h]

attribute [local simp] readObject Json.Members.fieldD Json.Members.field Json.Members.field?
  Json.Members.get? FieldName.single List.lookup_cons

theorem Reference.read_toJson (r : Reference) : Reference.read r.toJson = .read r := by
  simp [Reference.read, Reference.toJson]

theorem Column.read_toJson (origin : Origin) (c : Column) :
    Column.read origin c.toJson = .read c := by
  simp [Column.read, Column.toJson,
    readNullable_ofOption (fun _ => rfl) Reference.read_toJson]

theorem Multiplicity.readNullable_toJson (m : Option Multiplicity) :
    readNullable (readChoice Multiplicity.words) (.ofOption Multiplicity.toJson m) = .read m :=
  readNullable_ofOption (fun _ => rfl) (fun m => readChoice_word m.lookup_word) m

theorem Multiplicities.read_toJson (m : Multiplicities) :
    Multiplicities.read m.toJson = .read m := by
  simp [Multiplicities.read, Multiplicities.toJson, Multiplicity.readNullable_toJson]

theorem Relationship.read_toJson (origin : Origin) (r : Relationship) :
    Relationship.read origin r.toJson = .read r := by
  simp [Relationship.read, Relationship.toJson, readChoice_word r.kind.lookup_word,
    readChoice_word r.sourceParticipation.lookup_word,
    readChoice_word r.targetParticipation.lookup_word,
    readNullable_ofOption (fun _ => rfl) Multiplicities.read_toJson,
    readList_map (Column.read_toJson origin)]

/-! ## What is kept of the parts -/

attribute [local simp] Value.kept Value.keptItems Value.keptMembers

@[simp] theorem kept_ofText? (s : Option String) : (Value.ofText? s).kept = .ofText? s := by
  cases s <;> rfl

theorem kept_ofOption {toJson : α → Value} (h : ∀ a, (toJson a).kept = toJson a) (a : Option α) :
    (Value.ofOption toJson a).kept = .ofOption toJson a := by
  cases a with
  | none => rfl
  | some a => exact h a

theorem keptItems_map (toJson : α → Value) (as : List α) :
    Value.keptItems (as.map toJson) = as.map fun a => (toJson a).kept := by
  rw [Value.keptItems_eq_map, List.map_map]
  rfl

theorem Reference.kept_toJson (r : Reference) : r.toJson.kept = r.toJson := by
  simp [toJson]

theorem Column.kept_toJson (c : Column) : c.toJson.kept = c.toJson := by
  simp [toJson, kept_ofOption Reference.kept_toJson]

theorem Multiplicities.kept_toJson (m : Multiplicities) : m.toJson.kept = m.toJson := by
  have hside : ∀ m : Multiplicity, m.toJson.kept = m.toJson := fun _ => rfl
  simp [toJson, kept_ofOption hside]

theorem Relationship.kept_toJson (r : Relationship) : r.toJson.kept = r.toJson := by
  simp [toJson, kept_ofOption Multiplicities.kept_toJson, keptItems_map, Column.kept_toJson]

/-! ## Places -/

open Reading (judged)

/-- The axes on which a place has no finite coordinate. -/
def Position.unboundedAxes (p : Position) : List String :=
  (if p.x.isFinite then [] else ["x"]) ++ (if p.y.isFinite then [] else ["y"])

/-- The faults of the document of a schema: the coordinates of its tables that are not finite. -/
def Schema.lostCoordinates (s : Schema) : List Fault :=
  s.tables.zipIdx.flatMap fun item =>
    (item.1.position.elim [] Position.unboundedAxes).map fun axis =>
      ⟨.notANumber, [.member "tables", .item item.2, .member "position", .member axis]⟩

/-- A number that is not finite is not read back. -/
theorem readNumber_kept (origin : Origin) (x : Binary64) :
    readNumber origin (Value.float x).kept =
      judged x (if x.isFinite then [] else [⟨.notANumber, []⟩]) := by
  rw [Value.kept]
  split <;> rfl

theorem Position.read_kept (origin : Origin) (p : Position) :
    Position.read origin p.toJson.kept =
      judged p (p.unboundedAxes.map fun axis => ⟨.notANumber, [.member axis]⟩) := by
  have haxis : ∀ (x : Binary64) (axis : String),
      (readNumber origin (Value.float x).kept).under (.member axis) =
        judged x (if x.isFinite then [] else [⟨.notANumber, [.member axis]⟩]) := by
    intro x axis
    rw [readNumber_kept, Reading.under_judged]
    split <;> rfl
  have hread : Position.read origin p.toJson.kept =
      Position.mk <$> (readNumber origin (Value.float p.x).kept).under (.member "x") <*>
        (readNumber origin (Value.float p.y).kept).under (.member "y") <*>
        Reading.read p.isDraggable := by
    simp [Position.read, toJson]
  rw [hread, haxis, haxis, Reading.map_judged, Reading.judged_seq, Reading.judged_seq_read,
    unboundedAxes, List.map_append]
  split <;> split <;> rfl

theorem Position.readNullable_kept (origin : Origin) (p : Option Position) :
    readNullable (Position.read origin) (Value.ofOption Position.toJson p).kept =
      judged p ((p.elim [] Position.unboundedAxes).map fun axis =>
        ⟨.notANumber, [.member axis]⟩) := by
  cases p with
  | none => rfl
  | some p =>
    have hnull : p.toJson.kept.isNull = false := rfl
    exact (readNullable_of_isNull_eq_false hnull).trans
      (by rw [read_kept, Reading.map_judged]; rfl)

theorem Table.read_kept (origin : Origin) (t : Table) :
    Table.read origin t.toJson.kept =
      judged t ((t.position.elim [] Position.unboundedAxes).map fun axis =>
        ⟨.notANumber, [.member "position", .member axis]⟩) := by
  have hread : Table.read origin t.toJson.kept =
      Reading.read (Table.mk t.name t.columns t.description t.isWeakEntity t.isLookupTable
        t.isJunctionTable) <*>
        (readNullable (Position.read origin) (Value.ofOption Position.toJson t.position).kept).under
          (.member "position") := by
    simp [Table.read, toJson, keptItems_map, Column.kept_toJson,
      readList_map (Column.read_toJson origin)]
  rw [hread, Position.readNullable_kept, Reading.under_judged, Reading.read_seq_judged,
    List.map_map]
  rfl

/-- **What is kept of a schema is read back**, but for the coordinates that are not finite. -/
theorem Schema.read_kept {s : Schema} (hcreated : s.createdAt.IsReal)
    (hupdated : s.updatedAt.IsReal) (now : Moment) :
    Schema.read origin now s.toJson.kept = judged s s.lostCoordinates := by
  have htables := Reading.items_judged (Table.read_kept origin) 0 s.tables
  have hread : Schema.read origin now s.toJson.kept =
      Reading.read (Schema.mk s.name s.description) <*>
        (Reading.items (Table.read origin) 0 (s.tables.map fun t => t.toJson.kept)).under
          (.member "tables") <*>
        Reading.read s.relationships <*> Reading.read s.version <*> Reading.read s.createdAt <*>
        Reading.read s.updatedAt := by
    simp [Schema.read, toJson, keptItems_map, Relationship.kept_toJson, readList,
      Reading.items_read (Relationship.read_toJson origin), readInteger,
      Moment.readMoment_document hcreated, Moment.readMoment_document hupdated]
  rw [hread, htables, Reading.under_judged]
  simp only [Reading.read_seq_judged, Reading.judged_seq_read]
  rw [lostCoordinates, List.map_flatMap]
  simp only [List.map_map]
  rfl

end

/-! ## Files -/

/-- Members in a row. -/
theorem fits_object {depth : ℕ} {members : Json.Members}
    (hdepth : Json.Limits.keeps fileLimits.depth (depth + 1) = true)
    (hnames : (members.map (·.1)).Nodup)
    (hmembers : ∀ value ∈ members.map (·.2), value.Fits fileLimits (depth + 1)) :
    (Value.object members).Fits fileLimits depth :=
  .object (fun _ => hdepth) hnames fun _ hmember => hmembers _ (List.mem_map_of_mem hmember)

/-- Items of one kind. -/
theorem fits_list {α : Type} {depth : ℕ} {toJson : α → Value} {as : List α}
    (hdepth : Json.Limits.keeps fileLimits.depth (depth + 1) = true)
    (h : ∀ a ∈ as, (toJson a).Fits fileLimits (depth + 1)) :
    (Value.list (as.map toJson)).Fits fileLimits depth :=
  .list (fun _ => hdepth) (List.forall_mem_map.2 h)

theorem fits_ofText? {depth : ℕ} (s : Option String) :
    (Value.ofText? s).Fits fileLimits depth := by
  cases s with
  | none => exact .null
  | some s => exact .text s

theorem fits_ofOption {α : Type} {depth : ℕ} {toJson : α → Value} {a : Option α}
    (h : ∀ b ∈ a, (toJson b).Fits fileLimits depth) :
    (Value.ofOption toJson a).Fits fileLimits depth := by
  cases a with
  | none => exact .null
  | some a => exact h a rfl

attribute [local simp] Value.Fits.null Value.Fits.bool Value.Fits.text fits_ofText?

theorem Reference.fits_toJson (r : Reference) : r.toJson.Fits fileLimits 5 :=
  fits_object rfl (by simp) (by simp)

theorem Column.fits_toJson (c : Column) : c.toJson.Fits fileLimits 4 :=
  fits_object rfl (by simp) (by simp [fits_ofOption fun r _ => Reference.fits_toJson r])

/-- The coordinates of the place are in normal form. -/
def Position.IsCanonical (p : Position) : Prop :=
  p.x.IsCanonical ∧ p.y.IsCanonical

theorem Position.fits_toJson {p : Position} (h : p.IsCanonical) : p.toJson.Fits fileLimits 3 := by
  have hx : (Value.float p.x).Fits fileLimits 4 := .float h.1 rfl
  have hy : (Value.float p.y).Fits fileLimits 4 := .float h.2 rfl
  exact fits_object rfl (by simp) (by simp [hx, hy])

theorem Table.fits_toJson {t : Table} (h : ∀ p ∈ t.position, p.IsCanonical) :
    t.toJson.Fits fileLimits 2 := by
  have hcolumns : (Value.list (t.columns.map Column.toJson)).Fits fileLimits 3 :=
    fits_list rfl fun c _ => c.fits_toJson
  have hposition : (Value.ofOption Position.toJson t.position).Fits fileLimits 3 :=
    fits_ofOption fun p hp => Position.fits_toJson (h p hp)
  exact fits_object rfl (by simp) (by simp [hcolumns, hposition])

theorem Multiplicities.fits_toJson (m : Multiplicities) : m.toJson.Fits fileLimits 3 := by
  have hside : ∀ side : Option Multiplicity,
      (Value.ofOption Multiplicity.toJson side).Fits fileLimits 4 := fun _ =>
    fits_ofOption fun _ _ => .text _
  exact fits_object rfl (by simp) (by simp [hside])

theorem Relationship.fits_toJson (r : Relationship) : r.toJson.Fits fileLimits 2 := by
  have hcardinality : (Value.ofOption Multiplicities.toJson r.cardinality).Fits fileLimits 3 :=
    fits_ofOption fun m _ => m.fits_toJson
  have hattributes : (Value.list (r.attributes.map Column.toJson)).Fits fileLimits 3 :=
    fits_list rfl fun c _ => c.fits_toJson
  exact fits_object rfl (by simp) (by simp [hcardinality, hattributes])

/-- A schema that a file can hold: the coordinates of its tables are in normal form, its version has
not too many digits, and its dates are moments of the calendar. -/
structure Schema.IsStorable (s : Schema) : Prop where
  /-- The coordinates are in normal form. -/
  places : ∀ t ∈ s.tables, ∀ p ∈ t.position, p.IsCanonical
  /-- The version has not too many digits. -/
  version : Json.Limits.keeps fileLimits.whole
    (Json.wholeLength (toString s.version).toList) = true
  /-- The schema was made at a moment of the calendar. -/
  created : s.createdAt.IsReal
  /-- It was changed at a moment of the calendar. -/
  updated : s.updatedAt.IsReal

theorem Schema.IsStorable.fits_toJson {s : Schema} (h : s.IsStorable) :
    s.toJson.Fits fileLimits 0 := by
  have htables : (Value.list (s.tables.map Table.toJson)).Fits fileLimits 1 :=
    fits_list rfl fun t ht => Table.fits_toJson (h.places t ht)
  have hrelationships : (Value.list (s.relationships.map Relationship.toJson)).Fits fileLimits 1 :=
    fits_list rfl fun r _ => r.fits_toJson
  have hversion : (Value.integer s.version).Fits fileLimits 1 := .integer h.version
  exact fits_object rfl (by simp) (by simp [htables, hrelationships, hversion])

/-- The text of a document that is an object stands between curly brackets. -/
theorem exists_render_object (layout : Json.Layout) (members : Json.Members) :
    ∃ inner, ((Value.object members).render layout 0).toList =
      '\x7b' :: (inner ++ ['\x7d']) := by
  have hleft : "\x7b".toList = ['\x7b'] := rfl
  have hright : "\x7d".toList = ['\x7d'] := rfl
  rw [Value.render, Json.Layout.enclose]
  split
  · exact ⟨[], by rw [String.toList_append, hleft, hright]; rfl⟩
  · simp only [String.toList_append, hleft, hright, List.singleton_append]
    exact ⟨_, rfl⟩

/-- **A stored schema is loaded back** as it was, unless a coordinate is not finite: then loading
fails with a fault for every such coordinate. -/
theorem loadSchema_toJson {s : Schema} (h : s.IsStorable) (now : Moment) :
    loadSchema now (some (s.toJson.indented 2)) =
      if s.lostCoordinates.isEmpty then .ok s else .error (.faulty s.lostCoordinates) := by
  obtain ⟨inner, hinner⟩ : ∃ inner, (s.toJson.indented 2).toList =
      '\x7b' :: (inner ++ ['\x7d']) := exists_render_object _ _
  have hne : (s.toJson.indented 2).toList ≠ [] := by simp [hinner]
  have hstrip : Text.strip (s.toJson.indented 2).toList = (s.toJson.indented 2).toList := by
    refine Text.trim_eq_self ?_ ?_
    · rw [hinner]
      simp only [List.head?_cons, Option.mem_some_iff, forall_eq']
      decide
    · rw [hinner, ← List.cons_append]
      simp only [List.getLast?_concat, Option.mem_some_iff, forall_eq']
      decide
  have hread := Value.read?_render h.fits_toJson (.lines 2) 0
  rw [loadSchema, load_of_read? hne hstrip hread, Schema.read_kept h.created h.updated]
  unfold Reading.judged
  split <;> rfl

end Schemata
