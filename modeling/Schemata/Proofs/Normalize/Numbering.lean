import Schemata.Proofs.Normalize.Content
import Schemata.Proofs.Normalize.Diagram
import Schemata.Proofs.Sql.Numbering

/-!
# Numbered columns in the scripts of extractions

In every table of the expanded schema of an extraction, the generated keys ask the database for
numbers, and other columns do so just if their type or their default value spells it.
`numbering_normalize` says so, and that no column does if no attribute of the extraction does. The
types travel along references: a customer whose key is declared `SERIAL` lets the orders be numbered
by their customers in PostgreSQL (`not_asksForNumbers_iff_customers`).
-/

namespace Schemata

open Normalize
open Sql (ColumnDefinition Dialect IsSilentDefault IsSilentType)

variable {t source target : Table} {r : Relationship}

/-! ## Names in junctions -/

namespace Normalize

theorem HasPlainNames.asSide (h : HasPlainNames t) (names : List String)
    (rs : List Relationship) : HasPlainNames (Schemata.asSide names rs t) := by
  rw [hasPlainNames_iff, columnNames_asSide, ← hasPlainNames_iff]
  exact h

theorem plain_junctionKeyNames (hsource : Plain source.name) (htarget : Plain target.name)
    (hsourceKey : Plain source.referencedKey.name) (htargetKey : Plain target.referencedKey.name) :
    Plain (junctionKeyNames source target).1 ∧ Plain (junctionKeyNames source target).2 := by
  have hname : ∀ {side : Table}, Plain side.name → Plain side.referencedKey.name →
      Plain (side.name ++ "_" ++ side.referencedKey.name) := fun hside hkey =>
    (hside.append (List.all_eq_true.1 (by decide))).append hkey
  unfold junctionKeyNames
  dsimp only
  split
  · exact ⟨hname hsource hsourceKey,
      .append (List.all_eq_true.1 (by decide)) (hname htarget htargetKey)⟩
  · exact ⟨hname hsource hsourceKey, hname htarget htargetKey⟩

/-- A junction has plain names if its sides and the attributes of the relationship do. -/
theorem hasPlainNames_junctionTable
    (hkeys : Plain (junctionKeyNames source target).1 ∧ Plain (junctionKeyNames source target).2)
    (hr : ∀ a ∈ r.attributes, Plain a.name) : HasPlainNames (junctionTable r source target) := by
  intro name hname
  obtain ⟨c, hc, rfl⟩ := Table.hasColumn_iff.1 hname
  rcases mem_columns_junctionTable.1 hc with rfl | rfl | ⟨a, ha, rfl⟩ | ⟨stamp, hstamp, rfl⟩
  · exact hkeys.1
  · exact hkeys.2
  · exact hr a (untaken_subset _ _ ha)
  · have hstamps : ∀ stamp ∈ stampNames, stamp.toList.all Text.isSnake = true := by decide
    exact List.all_eq_true.1 (hstamps stamp hstamp)

end Normalize

namespace Extraction

variable {e : Extraction} {heading : Heading} {small : ℤ} {now : Moment} {expanded : Schema}

/-- The tables and columns of the expanded schema of an extraction have plain names. -/
theorem plain_expandManyToMany
    (h : (e.normalize heading small now).schema.expandManyToMany = .ok expanded) :
    ∀ t ∈ expanded.tables, Plain t.name ∧ HasPlainNames t := by
  set s := (e.normalize heading small now).schema with hs
  have hclosed : s.Closed := closed_normalize e heading small now
  have hplain : ∀ t ∈ s.tables, Plain t.name ∧ HasPlainNames t := fun t ht =>
    ⟨(tablesAndRelationships_spec small e).linked.plain t ht,
      e.hasPlainNames_normalize heading small now t ht⟩
  obtain ⟨junctions, rfl, hjunctions⟩ := hclosed.tables_expandManyToMany h
  intro t ht
  rcases List.mem_append.1 ht with ht | ht
  · obtain ⟨u, hu, rfl⟩ := List.mem_map.1 ht
    obtain ⟨hname, hnames⟩ := hplain u hu
    exact ⟨(name_asSide _ _ u).symm ▸ hname, hnames.asSide _ _⟩
  · obtain ⟨r, hr, source, hsource, target, htarget, -, -, rfl⟩ := hjunctions t ht
    have hkey : ∀ u ∈ s.tables, Plain u.referencedKey.name := fun u hu =>
      (hplain u hu).2 _ (Table.hasColumn_referencedKey (hclosed.tables.keyed u hu))
    have hkeys := plain_junctionKeyNames (hplain source hsource).1 (hplain target htarget).1
      (hkey source hsource) (hkey target htarget)
    refine ⟨((hplain source hsource).1.append (List.all_eq_true.1 (by decide))).append
      (hplain target htarget).1, hasPlainNames_junctionTable hkeys fun a ha => ?_⟩
    obtain ⟨q, -, b, -, rfl⟩ := exists_attribute_of_mem hr ha
    exact (isGuarded_relationshipColumn b).plain

end Extraction

/-! ## Columns that the database numbers -/

theorem usual_silent (d : Dialect) : Usual (IsSilentType d) (IsSilentDefault d) := by
  have hall : (∀ type ∈ ["INTEGER", "TIMESTAMP", defaultType], IsSilentType d type) ∧
      IsSilentDefault d "CURRENT_TIMESTAMP" := by
    unfold IsSilentType IsSilentDefault
    cases d <;> decide +kernel
  obtain ⟨htypes, hmoment⟩ := hall
  exact ⟨htypes _ (by simp), htypes _ (by simp), htypes _ (by simp), hmoment⟩

/-- **Where the values of the columns of an extraction come from**: in the expanded schema the
definitions of the generated keys ask for numbers, and others do so just if the type or the default
value of the column spells it; if those of the attributes do not, none does. -/
theorem numbering_normalize (e : Extraction) (heading : Heading) (small : ℤ) (now : Moment)
    (d : Dialect) : ∃ expanded,
      (e.normalize heading small now).schema.expandManyToMany = .ok expanded ∧
      (∀ t ∈ expanded.tables, ∀ c ∈ t.columns,
        (d ≠ .sqlserver ∨
            (DataType.ofString c.dataType).base ∉ ["CHAR", "VARCHAR", "NVARCHAR", "STRING"] →
          ∃ definition, ColumnDefinition.of d t c = .ok definition) ∧
        ∀ definition, ColumnDefinition.of d t c = .ok definition → definition.Sourced d t c) ∧
      (e.EntitiesWithin (IsSilentType d) (IsSilentDefault d) →
        e.RelationshipsWithin (IsSilentType d) (IsSilentDefault d) →
        ∀ t ∈ expanded.tables, ∀ c ∈ t.columns, ∀ definition,
          ColumnDefinition.of d t c = .ok definition →
            (definition.AsksForNumbers d ↔ t.isGeneratedKey c = true) ∧
            (t.isGeneratedKey c = true → ¬definition.CarriesDefault d)) := by
  obtain ⟨expanded, hexpanded, -⟩ := (closed_normalize e heading small now).expandManyToMany
  have hsourced : ∀ t ∈ expanded.tables, ∀ c ∈ t.columns, ∀ definition,
      ColumnDefinition.of d t c = .ok definition → definition.Sourced d t c := by
    intro t ht c hc definition h
    obtain ⟨hname, hnames⟩ := Extraction.plain_expandManyToMany hexpanded t ht
    exact ColumnDefinition.sourced h hname (hnames c.name (Table.hasColumn_iff.2 ⟨c, hc, rfl⟩))
  refine ⟨expanded, hexpanded, fun t ht c hc => ⟨fun h => ColumnDefinition.exists_of h t,
    hsourced t ht c hc⟩, fun he he' t ht c hc definition h => ?_⟩
  have hwithin : c.Within (IsSilentType d) (IsSilentDefault d) :=
    Extraction.within_expandManyToMany (usual_silent d) he he' hexpanded t ht c hc
  exact (hsourced t ht c hc definition h).of_silent hwithin.dataType hwithin.defaultValue

/-- Orders of customers that are numbered. -/
def customers : Extraction where
  entities :=
    [{ name := some "Customer"
       attributes := [{ name := some "id", dataType := some "SERIAL", isPrimaryKey := true }] },
     { name := some "Order" }]
  relationships := [{ sourceEntity := some "Customer", targetEntity := some "Order" }]

theorem numbering_customers :
    let s := (customers.normalize {} 3 { year := 2024, month := 1, day := 1 }).schema
    ∃ expanded, s.expandManyToMany = .ok expanded ∧
      ∀ t ∈ expanded.tables, ∀ c ∈ t.columns,
        ∃ definition, ColumnDefinition.of .mysql t c = .ok definition ∧
          (definition.AsksForNumbers .mysql ↔ t.isGeneratedKey c = true) ∧
          (t.isGeneratedKey c = true → ¬definition.CarriesDefault .mysql) := by
  have hentities : customers.EntitiesWithin (IsSilentType .mysql) (IsSilentDefault .mysql) := by
    intro entity hentity a ha
    have hall : ∀ entity ∈ customers.entities, ∀ a ∈ entity.attributes,
        (∀ word ∈ Dialect.mysql.valueSources, word ∉ Sql.typeWords .mysql a.column.dataType) ∧
          a.column.defaultValue = none := by
      decide +kernel
    exact .of_none (hall entity hentity a ha).1 (hall entity hentity a ha).2
  have hrelationships :
      customers.RelationshipsWithin (IsSilentType .mysql) (IsSilentDefault .mysql) := by
    have hnone : ∀ r ∈ customers.relationships, r.attributes = [] := by decide
    intro r hr a ha
    rw [hnone r hr] at ha
    contradiction
  obtain ⟨expanded, hexpanded, hcolumns, hsilent⟩ :=
    numbering_normalize customers {} 3 { year := 2024, month := 1, day := 1 } .mysql
  refine ⟨expanded, hexpanded, fun t ht c hc => ?_⟩
  obtain ⟨definition, hdefinition⟩ := (hcolumns t ht c hc).1 (.inl (by decide))
  exact ⟨definition, hdefinition, hsilent hentities hrelationships t ht c hc definition hdefinition⟩

/-- In PostgreSQL the orders are numbered by their customers. -/
theorem not_asksForNumbers_iff_customers :
    let s := (customers.normalize {} 3 { year := 2024, month := 1, day := 1 }).schema
    ∃ expanded ∈ s.expandManyToMany.toOption, ∃ t ∈ expanded.tables, ∃ c ∈ t.columns,
      t.name = "order" ∧ c.name = "customer_id" ∧
        ∃ definition ∈ (ColumnDefinition.of .postgresql t c).toOption,
          ¬(definition.AsksForNumbers .postgresql ↔ t.isGeneratedKey c = true) := by
  decide +kernel

end Schemata
