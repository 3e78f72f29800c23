import Schemata.Proofs.Schema.Order

/-!
# Schemas with their tables in another order

Where names are distinct, the order of the tables of a schema changes neither whether the schema can
be used nor what is made of it: junctions are made in the same way
(`Schema.expandManyToMany_perm`), and the check passes as well (`Schema.check_perm`).

What a relationship does depends on which tables there are (`Expands.perm`), so each step gives the
same for either order, with the tables in the order it was given.
-/

namespace Schemata

variable {tables tables' ts : List Table} {r : Relationship} {rs new : List Relationship}

/-! ## Junctions -/

/-- A relationship does the same to the tables in either order. -/
theorem Expands.perm (h : Expands tables r ts new) (hperm : tables.Perm tables') :
    ∃ ts', Expands tables' r ts' new ∧ ts.Perm ts' := by
  have hnames {name : String} : name ∈ tables.map (·.name) ↔ name ∈ tables'.map (·.name) :=
    (hperm.map _).mem_iff
  cases h with
  | plain hkind => exact ⟨tables', .plain hkind, hperm⟩
  | taken hkind hjoins hmem =>
    exact ⟨tables', .taken hkind (hjoins.mono (hperm.map _).subset) (hnames.1 hmem), hperm⟩
  | made hkind hsource htarget hsourceName htargetName hfree =>
    exact ⟨_, .made hkind (hperm.subset hsource) (hperm.subset htarget) hsourceName htargetName
      fun hmem => hfree (hnames.2 hmem), (hperm.map _).append_right _⟩

theorem ExpandsAll.perm (h : ExpandsAll tables rs ts new) (hperm : tables.Perm tables') :
    ∃ ts', ExpandsAll tables' rs ts' new ∧ ts.Perm ts' := by
  induction h generalizing tables' with
  | nil => exact ⟨tables', .nil tables', hperm⟩
  | cons hstep _ ih =>
    obtain ⟨middle', hstep', hmiddle⟩ := hstep.perm hperm
    obtain ⟨ts', hrest', hts⟩ := ih hmiddle
    exact ⟨ts', .cons hstep' hrest', hts⟩

/-- **Junctions are made in the same way in either order of the tables.** -/
theorem Schema.expandManyToMany_perm {s expanded : Schema} (h : s.tableNames.Nodup)
    (hperm : s.tables.Perm tables') (heq : s.expandManyToMany = .ok expanded) :
    ∃ ts', Schema.expandManyToMany { s with tables := tables' } =
        .ok { expanded with tables := ts' } ∧ expanded.tables.Perm ts' := by
  have hdistinct : (Schema.tableNames { s with tables := tables' }).Nodup :=
    (hperm.map _).nodup_iff.1 h
  obtain ⟨ts, new, hrun, rfl⟩ := (expandManyToMany_eq_ok h).1 heq
  obtain ⟨ts', hrun', hts⟩ := hrun.perm hperm
  exact ⟨ts', (expandManyToMany_eq_ok hdistinct).2 ⟨ts', new, hrun', rfl⟩, hts⟩

/-! ## The check -/

/-- **The check passes in either order of the tables.** -/
theorem Schema.check_perm {s : Schema} (h : s.tableNames.Nodup) (hperm : s.tables.Perm tables')
    (hcheck : s.check = .ok ()) : Schema.check { s with tables := tables' } = .ok () := by
  have hnames : s.tableNames.Perm (tables'.map (·.name)) := hperm.map _
  obtain ⟨hresolves, hjoins⟩ := check_eq_ok.1 hcheck
  refine check_eq_ok.2 ⟨fun t ht c hc hforeign => ?_, fun r hr => ?_⟩
  · have hc := (Column.resolves_iff h).1 (hresolves t (hperm.mem_iff.2 ht) c hc hforeign)
    simp only [hperm.mem_iff] at hc
    exact (Column.resolves_iff (hnames.nodup_iff.1 h)).2 hc
  · exact Relationship.Joins.mono (hjoins r hr) hnames.subset

end Schemata
