import Schemata.Normalize.Basic
import Schemata.Proofs.Extraction.Null

/-!
# Nulls in documents that are normalized

The schema of an extraction asks for no more of the place of an entity than its two coordinates
(`normalize_settled`). So it does not matter whether what is not known is left out of a document or
given as null, be the document read as a whole, or its entities and relationships be handed over
apart (`Extraction.ofMembers`).
-/

namespace Schemata

open Json (Value Members)

namespace Noted

variable {α β σ : Type}

theorem fold_map (f : σ → β → Noted σ) (g : α → β) (s : σ) (as : List α) :
    fold f s (as.map g) = fold (fun s a => f s (g a)) s as := by
  induction as generalizing s with
  | nil => rfl
  | cons a as ih => rw [List.map_cons, fold, fold, ih]

end Noted

/-! ## Settled places -/

theorem Normalize.buildTables_settled (entities : List Extraction.Entity) :
    buildTables (entities.map (·.settled)) = buildTables entities := by
  rw [buildTables, List.zipIdx_map, Noted.fold_map]
  rfl

/-- **What an extraction says about places is all that its schema asks for.** -/
theorem Extraction.normalize_settled (e : Extraction) (heading : Heading) (small : Int)
    (now : Moment) : e.settled.normalize heading small now = e.normalize heading small now := by
  have htables : Normalize.tablesAndRelationships small e.settled =
      Normalize.tablesAndRelationships small e := by
    rw [Normalize.tablesAndRelationships, Normalize.tablesAndRelationships, settled,
      Normalize.buildTables_settled]
  rw [normalize, normalize, htables]

/-! ## Parts that are handed over apart -/

namespace Extraction

/-- Reads an extraction, handing over entities and relationships apart. -/
def ofMembers (document : Value) : Reading Extraction :=
  ofParts ((document.member? "entities").getD .null) ((document.member? "relationships").getD .null)

/-- A part that says nothing is an empty list. -/
def orNoItems (part : Value) : Value :=
  if isVoid part then .list [] else part

theorem getD_member?_withoutNulls {document : Value} (h : document.GivesOnce []) (name : String) :
    ((withoutNulls document).member? name).getD .null =
      Json.clean itemLists name ((document.member? name).getD .null) := by
  have hnull : Json.clean itemLists name .null = .null := by
    rw [Json.clean, Value.withoutNulls]
    · split <;> rfl
    · simp
    · simp
  cases document with
  | object members =>
    rw [withoutNulls, Json.withoutNulls_object, Value.member?, Value.member?,
      Json.get?_withoutNulls h.nodup]
    cases hvalue : Members.get? members name with
    | none => exact hnull.symm
    | some value => cases value <;> simp [Option.filter_some, Value.isNull, hnull]
  | list items => rw [withoutNulls, Json.withoutNulls_list]; exact hnull.symm
  | _ => rw [withoutNulls, Value.withoutNulls] <;> simp [Value.member?, hnull]

/-- A part that is no object, a list of nulls saying as much as an empty one. -/
theorem readItems_orNoItems {α : Type} {read : Value → Reading α} {name : String} {value : Value}
    (hname : name ∈ itemLists) (hvalue : ∀ members, value ≠ .object members)
    (hread : ∀ item ∈ value.items, read (withoutNulls item) = read item) :
    readItems read (orNoItems (Json.clean itemLists name value)) =
      readItems read (orNoItems value) := by
  have hlist : ∀ items, readItems read (orNoItems (.list items)) =
      readItems read (.list items) := by
    intro items
    cases items <;> rfl
  cases hcases : value with
  | list items =>
    subst hcases
    obtain ⟨items', hclean⟩ : ∃ items', Json.clean itemLists name (.list items) = .list items' := by
      rw [Json.clean, if_pos hname, Json.withoutNulls_list]
      exact ⟨_, rfl⟩
    rw [hclean, hlist, ← hclean, hlist, readItems_clean hname hread]
  | object members => exact absurd hcases (hvalue members)
  | _ =>
    rw [Json.clean, if_pos hname, Value.withoutNulls]
    · rfl
    · simp
    · simp

theorem settled_ofParts (entities relationships : Value) :
    settled <$> ofParts entities relationships = Extraction.mk
      <$> (readItems (fun value => Entity.settled <$> Entity.read value)
        (orNoItems entities)).under (.member "entities")
      <*> (readItems Relationship.read (orNoItems relationships)).under
        (.member "relationships") := by
  rw [ofParts, document, settled_readExtraction]
  rfl

theorem settled_ofMembers_withoutNulls {document : Value} (h : GivesOnce document)
    (hentities : ∀ members, document.member? "entities" ≠ some (.object members))
    (hrelationships : ∀ members, document.member? "relationships" ≠ some (.object members)) :
    settled <$> ofMembers (withoutNulls document) = settled <$> ofMembers document := by
  have hpart : ∀ name, (∀ members, document.member? name ≠ some (.object members)) →
      ∀ members, (document.member? name).getD .null ≠ .object members := by
    intro name hname members
    cases hmember : document.member? name with
    | none => simp
    | some value => simpa [hmember] using hname members
  have hitems : ∀ name, ((document.member? name).getD .null).items = document.itemsAt name := by
    intro name
    rw [Value.itemsAt]
    cases document.member? name <;> rfl
  rw [ofMembers, ofMembers, getD_member?_withoutNulls h.fields, getD_member?_withoutNulls h.fields,
    settled_ofParts, settled_ofParts,
    readItems_orNoItems (by decide) (hpart _ hentities) fun e he =>
      Entity.settled_read_withoutNulls (h.entities e (hitems _ ▸ he)),
    readItems_orNoItems (by decide) (hpart _ hrelationships) fun r hr =>
      Relationship.read_withoutNulls (h.relationships r (hitems _ ▸ hr))]

end Extraction

/-- **Null means absent**: a document without its nulls is normalized to the same schema with the
same diagnostics, or has the same faults, be it read as a whole or in parts that are lists. -/
theorem normalize_withoutNulls {document : Value} (h : Extraction.GivesOnce document)
    (heading : Heading) (small : Int) (now : Moment) :
    (·.normalize heading small now) <$> Extraction.read (Extraction.withoutNulls document) =
        (·.normalize heading small now) <$> Extraction.read document ∧
      ((∀ members, document.member? "entities" ≠ some (.object members)) →
        (∀ members, document.member? "relationships" ≠ some (.object members)) →
        (·.normalize heading small now) <$>
            Extraction.ofMembers (Extraction.withoutNulls document) =
          (·.normalize heading small now) <$> Extraction.ofMembers document) := by
  have hsettled : ∀ x y : Reading Extraction,
      Extraction.settled <$> x = Extraction.settled <$> y →
      (·.normalize heading small now) <$> x = (·.normalize heading small now) <$> y := by
    intro x y hxy
    have hnormalize : (fun e : Extraction => e.normalize heading small now) =
        (fun e => e.normalize heading small now) ∘ Extraction.settled :=
      funext fun e => (e.normalize_settled heading small now).symm
    rw [hnormalize, comp_map, comp_map, hxy]
  exact ⟨hsettled _ _ (Extraction.settled_read_withoutNulls h), fun hentities hrelationships =>
    hsettled _ _ (Extraction.settled_ofMembers_withoutNulls h hentities hrelationships)⟩

/-- Tags with labels; nulls in all places. -/
def sparse : Value :=
  .object
    [("entities", .list
      [.null, .object
        [("name", .text "Tag"), ("isWeakEntity", .null),
         ("position", .object [("x", .null), ("y", .integer 5)]),
         ("attributes", .list
          [.null, .object [("name", .text "label"), ("is_unique", .null)]])]]),
     ("relationships", .list
      [.object
        [("sourceEntity", .text "Tag"), ("verb", .null),
         ("cardinality", .object [("source", .null)])], .null])]

theorem givesOnce_sparse : Extraction.GivesOnce sparse where
  fields := ⟨by decide, by simp⟩
  entities := by
    refine List.forall_mem_cons.2 ⟨⟨trivial, nofun, nofun⟩, List.forall_mem_singleton.2 ?_⟩
    refine ⟨⟨by decide, by decide⟩, fun position hposition => ?_, ?_⟩
    · obtain rfl := Option.some.inj hposition
      exact ⟨by decide, by simp⟩
    · exact List.forall_mem_cons.2 ⟨trivial,
        List.forall_mem_singleton.2 ⟨by decide, by decide⟩⟩
  relationships := by
    refine List.forall_mem_cons.2 ⟨?_, List.forall_mem_singleton.2 ⟨trivial, nofun, nofun⟩⟩
    refine ⟨⟨by decide, by decide⟩, fun sides hsides => ?_, nofun⟩
    obtain rfl := Option.some.inj hsides
    exact ⟨by decide, by simp⟩

theorem normalize_withoutNulls_sparse :
    Extraction.GivesOnce sparse ∧
      Extraction.withoutNulls sparse = .object
        [("entities", .list
          [.object
            [("name", .text "Tag"), ("position", .object [("y", .integer 5)]),
             ("attributes", .list [.object [("name", .text "label")]])]]),
         ("relationships", .list
          [.object [("sourceEntity", .text "Tag"), ("cardinality", .object [])]])] ∧
      (·.normalize {} 3 { year := 2024, month := 1, day := 1 }) <$>
          Extraction.read (Extraction.withoutNulls sparse) =
        (·.normalize {} 3 { year := 2024, month := 1, day := 1 }) <$>
          Extraction.read sparse ∧
      (·.normalize {} 3 { year := 2024, month := 1, day := 1 }) <$>
          Extraction.ofMembers (Extraction.withoutNulls sparse) =
        (·.normalize {} 3 { year := 2024, month := 1, day := 1 }) <$>
          Extraction.ofMembers sparse := by
  obtain ⟨hread, hparts⟩ := normalize_withoutNulls givesOnce_sparse {} 3
    { year := 2024, month := 1, day := 1 }
  exact ⟨givesOnce_sparse, rfl, hread, hparts nofun nofun⟩

end Schemata
