import Mathlib.Data.Fintype.Card
import Mathlib.Data.Fintype.EquivFin
import Mathlib.Data.Fintype.Sets
import Mathlib.Data.List.Nodup
import Mathlib.Data.List.Perm.Basic
import Mathlib.Logic.Relation
import Mathlib.Order.WellFounded
import Schemata.Proofs.Schema.Junction
import Schemata.Schema.Order

/-!
# The order in which tables are made

`CreationOrder.Follows` says of tables in an order that each one refers to itself, to an earlier
one, or by a deferred reference. It holds of the tables that rounds have placed, with no reference
deferred (`rounds_spec`), and of those that remain, with the references that `deferredOf` lists
(`follows_deferredOf`). Together: the order of tables of distinct names has the same tables
(`perm_of`), and they follow one another (`follows_of`).

Tables that are in order stay as they are (`of_tables_of`), also where a cycle of references leaves
some of them over: the rounds over them place the same tables again (`rounds_again`). Without such a
cycle, the rounds place all tables (`rounds_of_acyclic`), and no reference is deferred. A reference
that is deferred leads to no table in front (`mem_deferredOf`).
-/

namespace Schemata.CreationOrder

/-- Every reference of the tables to one of the `names` leads to the table itself, to one before it
— `before` being the names of those in front of the list — or is deferred. -/
def Follows (names : List String) (deferred : List (String × String)) :
    List String → List Table → Prop
  | _, [] => True
  | before, t :: ts =>
    (∀ key ∈ t.foreignKeys, key.2.table ∈ names → key.2.table = t.name ∨ key.2.table ∈ before ∨
      (t.name, key.1.name) ∈ deferred) ∧ Follows names deferred (before ++ [t.name]) ts

variable {names before : List String} {deferred : List (String × String)}
  {tables tables' placed remaining ts : List Table}

theorem follows_append (xs ys : List Table) : Follows names deferred before (xs ++ ys) ↔
    Follows names deferred before xs ∧ Follows names deferred (before ++ xs.map (·.name)) ys := by
  induction xs generalizing before with
  | nil => simp [Follows]
  | cons t xs ih =>
    rw [List.cons_append, Follows, ih, Follows, and_assoc, List.map_cons, List.append_assoc,
      List.singleton_append]

theorem Follows.mono (h : Follows names deferred before ts) {deferred' : List (String × String)}
    (hsub : deferred ⊆ deferred') : Follows names deferred' before ts := by
  induction ts generalizing before with
  | nil => trivial
  | cons t ts ih =>
    refine ⟨fun key hkey hname => ?_, ih h.2⟩
    exact (h.1 key hkey hname).imp_right (Or.imp_right fun hmem => hsub hmem)

/-- Tables that refer to themselves and to earlier ones may stand in any order. -/
theorem follows_of_forall (h : ∀ t ∈ ts, ∀ key ∈ t.foreignKeys, key.2.table ∈ names →
    key.2.table = t.name ∨ key.2.table ∈ before) : Follows names deferred before ts := by
  induction ts generalizing before with
  | nil => trivial
  | cons t ts ih =>
    refine ⟨fun key hkey hname => ?_, ih fun u hu key hkey hname => ?_⟩
    · exact (h t (by simp) key hkey hname).imp_right .inl
    · exact (h u (by simp [hu]) key hkey hname).imp_right fun hmem => List.mem_append_left _ hmem

/-- What is known of a table in the middle of others that follow one another. -/
theorem Follows.mem {xs ys : List Table} {t : Table}
    (h : Follows names deferred before (xs ++ t :: ys)) :
    ∀ key ∈ t.foreignKeys, key.2.table ∈ names → key.2.table = t.name ∨
      key.2.table ∈ before ++ xs.map (·.name) ∨ (t.name, key.1.name) ∈ deferred :=
  ((follows_append xs (t :: ys)).1 h).2.1

/-! ## Rounds -/

/-- Where names are distinct, a table depends on the other tables to which it refers. -/
theorem dependsOn_name (h : (tables.map (·.name)).Nodup) {t : Table} (ht : t ∈ tables) :
    dependsOn tables t.name = dependencies (tables.map (·.name)) t := by
  have hnodup : (tables.reverse.map (·.name)).Nodup := by
    rw [List.map_reverse, List.nodup_reverse]
    exact h
  rw [dependsOn, find?_name hnodup (List.mem_reverse.2 ht)]

/-- A table that is ready refers to itself and to tables that have been placed. -/
theorem isReady_iff (h : (tables.map (·.name)).Nodup) {t : Table} (ht : t ∈ tables)
    {placed : List String} : isReady tables placed t = true ↔ ∀ key ∈ t.foreignKeys,
      key.2.table ∈ tables.map (·.name) → key.2.table = t.name ∨ key.2.table ∈ placed := by
  rw [isReady, dependsOn_name h ht, List.all_eq_true]
  constructor
  · intro hall key hkey hname
    by_cases hself : key.2.table = t.name
    · exact .inl hself
    · refine .inr (of_decide_eq_true (hall key.2.table (List.mem_filter.2 ⟨?_, ?_⟩)))
      · exact List.mem_map_of_mem hkey
      · simpa [hself] using hname
  · intro hkeys name hname
    obtain ⟨hmem, hother⟩ := List.mem_filter.1 hname
    obtain ⟨key, hkey, rfl⟩ := List.mem_map.1 hmem
    rw [Bool.and_eq_true, decide_eq_true_eq, bne_iff_ne] at hother
    exact decide_eq_true ((hkeys key hkey hother.1).resolve_left hother.2)

/-- Where no name is placed already, the tables that a round leaves are those that are not ready:
tables of one name are ready at the same time. -/
theorem unplaced_of_free (hfree : ∀ t ∈ remaining, t.name ∉ placed.map (·.name)) :
    unplaced (placed ++ readyTables tables placed remaining) remaining =
      remaining.filter fun t => !isReady tables (placed.map (·.name)) t := by
  refine List.filter_congr fun t ht => ?_
  rw [Bool.eq_iff_iff, decide_eq_true_eq, Bool.not_eq_true', List.map_append, List.mem_append,
    not_or, and_iff_right (hfree t ht), ← Bool.not_eq_true, not_iff_not]
  constructor
  · intro hmem
    obtain ⟨u, hu, hname⟩ := List.mem_map.1 hmem
    have hready := (List.mem_filter.1 hu).2
    rw [isReady] at hready ⊢
    rwa [← hname]
  · exact fun hready => List.mem_map_of_mem (List.mem_filter.2 ⟨ht, hready⟩)

/-- Where no name is repeated, the tables that a round leaves are those that are not ready. -/
theorem unplaced_readyTables (h : ((placed ++ remaining).map (·.name)).Nodup) :
    unplaced (placed ++ readyTables tables placed remaining) remaining =
      remaining.filter fun t => !isReady tables (placed.map (·.name)) t := by
  rw [List.map_append, List.nodup_append] at h
  obtain ⟨-, -, hdisjoint⟩ := h
  exact unplaced_of_free fun t ht hmem => hdisjoint _ hmem _ (List.mem_map_of_mem ht) rfl

/-- No table is lost in rounds, whether or not names are repeated. -/
theorem mem_rounds (hfree : ∀ t ∈ remaining, t.name ∉ placed.map (·.name)) {t : Table}
    (ht : t ∈ placed ++ remaining) :
    t ∈ (rounds tables placed remaining).1 ++ (rounds tables placed remaining).2 := by
  induction placed, remaining using rounds.induct tables with
  | case1 placed remaining hnone =>
    rw [rounds, dif_pos hnone]
    exact ht
  | case2 placed remaining hsome _ ih =>
    rw [rounds, dif_neg hsome]
    refine ih (fun u hu => of_decide_eq_true (List.mem_filter.1 hu).2) ?_
    rw [unplaced_of_free hfree, List.append_assoc]
    exact ((List.filter_append_perm _ remaining).append_left placed).mem_iff.2 ht

/-- **The tables that rounds have placed follow one another**, and no table is lost. -/
theorem rounds_spec (hnames : (tables.map (·.name)).Nodup)
    (hperm : (placed ++ remaining).Perm tables)
    (hfollows : Follows (tables.map (·.name)) [] [] placed) :
    ((rounds tables placed remaining).1 ++ (rounds tables placed remaining).2).Perm tables ∧
      Follows (tables.map (·.name)) [] [] (rounds tables placed remaining).1 := by
  induction placed, remaining using rounds.induct tables with
  | case1 placed remaining hnone =>
    rw [rounds, dif_pos hnone]
    exact ⟨hperm, hfollows⟩
  | case2 placed remaining hsome _ ih =>
    rw [rounds, dif_neg hsome]
    have hnodup : ((placed ++ remaining).map (·.name)).Nodup :=
      (hperm.map _).nodup_iff.2 hnames
    refine ih ?_ ?_
    · rw [unplaced_readyTables hnodup, List.append_assoc]
      exact ((List.filter_append_perm _ remaining).append_left placed).trans hperm
    · refine (follows_append _ _).2 ⟨hfollows, follows_of_forall fun t ht => ?_⟩
      obtain ⟨hmem, hready⟩ := List.mem_filter.1 ht
      have ht : t ∈ tables := hperm.subset (List.mem_append_right _ hmem)
      rw [List.nil_append]
      exact (isReady_iff hnames ht).1 hready

/-! ## What remains -/

/-- **The tables that remain follow one another** but for the references that are deferred. -/
theorem follows_deferredOf (names before : List String) (ts : List Table) :
    Follows names (deferredOf before ts) before ts := by
  induction ts generalizing before with
  | nil => trivial
  | cons t ts ih =>
    refine ⟨fun key hkey _ => ?_, (ih _).mono (List.subset_append_right _ _)⟩
    by_cases hself : key.2.table = t.name
    · exact .inl hself
    · by_cases hbefore : key.2.table ∈ before
      · exact .inr (.inl hbefore)
      · refine .inr (.inr (List.mem_append_left _ ?_))
        exact List.mem_map.2 ⟨key, List.mem_filter.2 ⟨hkey, by simp [hself, hbefore]⟩, rfl⟩

theorem rounds_nil (h : (tables.map (·.name)).Nodup) :
    ((rounds tables [] tables).1 ++ (rounds tables [] tables).2).Perm tables ∧
      Follows (tables.map (·.name)) [] [] (rounds tables [] tables).1 :=
  rounds_spec h (by rw [List.nil_append]) (by trivial)

/-- **The order has the tables it is made of.** -/
theorem perm_of (h : (tables.map (·.name)).Nodup) :
    (CreationOrder.of tables).tables.Perm tables :=
  (rounds_nil h).1

/-- Every table has its place in the order, whether or not names are repeated. -/
theorem mem_of {t : Table} (ht : t ∈ tables) : t ∈ (CreationOrder.of tables).tables :=
  mem_rounds (by simp) (by rwa [List.nil_append])

/-- **In the order, every reference leads to the table itself, to an earlier one, or is
deferred.** -/
theorem follows_of (h : (tables.map (·.name)).Nodup) :
    Follows (tables.map (·.name)) (CreationOrder.of tables).deferred []
      (CreationOrder.of tables).tables := by
  refine (follows_append _ _).2 ⟨(rounds_nil h).2.mono (List.nil_subset _), ?_⟩
  rw [List.nil_append]
  exact (follows_deferredOf _ _ _).mono fun key hkey => List.mem_eraseDups.2 hkey

/-- A table stands behind every other table to which it refers, unless the reference is
deferred. -/
theorem sublist_of (h : (tables.map (·.name)).Nodup) {t : Table} (ht : t ∈ tables)
    {key : Column × Reference} (hkey : key ∈ t.foreignKeys)
    (hname : key.2.table ∈ tables.map (·.name)) (hother : key.2.table ≠ t.name)
    (hkept : (t.name, key.1.name) ∉ (CreationOrder.of tables).deferred) :
    [key.2.table, t.name].Sublist ((CreationOrder.of tables).tables.map (·.name)) := by
  obtain ⟨xs, ys, hsplit⟩ := List.append_of_mem ((perm_of h).mem_iff.2 ht)
  have hfollows := follows_of h
  rw [hsplit] at hfollows
  rcases hfollows.mem key hkey hname with hself | hbefore | hdeferred
  · exact absurd hself hother
  · rw [hsplit, List.map_append, List.map_cons]
    rw [List.nil_append] at hbefore
    exact (List.singleton_sublist.2 hbefore).append
      (List.singleton_sublist.2 List.mem_cons_self)
  · exact absurd hdeferred hkept

/-! ## Tables that are in order -/

/-- Where no name is repeated, the order in which tables are given does not change what a name
depends on. -/
theorem dependsOn_perm {tables' : List Table} (h : (tables.map (·.name)).Nodup)
    (hperm : tables.Perm tables') (name : String) :
    dependsOn tables name = dependsOn tables' name := by
  have hfind : tables.reverse.find? (·.name == name) = tables'.reverse.find? (·.name == name) := by
    rw [← find?_perm h (tables.reverse_perm).symm name, find?_perm h hperm name,
      find?_perm ((hperm.map _).nodup_iff.1 h) (tables'.reverse_perm).symm name]
  have hnames : ∀ t, dependencies (tables.map (·.name)) t =
      dependencies (tables'.map (·.name)) t := fun t =>
    List.filter_congr fun _ _ => by rw [decide_eq_decide.2 (hperm.map _).mem_iff]
  rw [dependsOn, dependsOn, hfind]
  simp only [hnames]

theorem readyTables_perm {tables' : List Table} (h : (tables.map (·.name)).Nodup)
    (hperm : tables.Perm tables') : readyTables tables = readyTables tables' := by
  funext placed remaining
  refine List.filter_congr fun t _ => ?_
  rw [isReady, isReady, dependsOn_perm h hperm]

theorem rounds_of_ready_eq_nil (h : readyTables tables placed remaining = []) :
    rounds tables placed remaining = (placed, remaining) := by
  rw [rounds, dif_pos h]

theorem rounds_of_ready_ne_nil (h : readyTables tables placed remaining ≠ []) :
    rounds tables placed remaining =
      rounds tables (placed ++ readyTables tables placed remaining)
        (unplaced (placed ++ readyTables tables placed remaining) remaining) := by
  rw [rounds, dif_neg h]

/-- The rounds do not change with the order in which the tables are given that may be referred
to. -/
theorem rounds_perm {tables' : List Table} (h : (tables.map (·.name)).Nodup)
    (hperm : tables.Perm tables') (placed remaining : List Table) :
    rounds tables placed remaining = rounds tables' placed remaining := by
  have hready := readyTables_perm h hperm
  induction placed, remaining using rounds.induct tables with
  | case1 placed remaining hnone =>
    rw [rounds_of_ready_eq_nil hnone, rounds_of_ready_eq_nil (hready ▸ hnone)]
  | case2 placed remaining hsome _ ih =>
    have hsome' : readyTables tables' placed remaining ≠ [] := hready ▸ hsome
    rw [rounds_of_ready_ne_nil hsome, rounds_of_ready_ne_nil hsome', ← hready]
    exact ih

/-- A round over tables of which those in front are ready and the others are not. -/
theorem rounds_append {early late : List Table}
    (h : ((placed ++ (early ++ late)).map (·.name)).Nodup) (hne : early ≠ [])
    (hearly : ∀ t ∈ early, isReady tables (placed.map (·.name)) t = true)
    (hlate : ∀ t ∈ late, isReady tables (placed.map (·.name)) t = false) :
    rounds tables placed (early ++ late) = rounds tables (placed ++ early) late := by
  have hready : readyTables tables placed (early ++ late) = early := by
    rw [readyTables, List.filter_append, List.filter_eq_self.2 hearly,
      List.filter_eq_nil_iff.2 fun t ht => by simp [hlate t ht], List.append_nil]
  have hbehind := @unplaced_readyTables tables placed _ h
  rw [hready, List.filter_append, List.filter_eq_nil_iff.2 fun t ht => by simp [hearly t ht],
    List.filter_eq_self.2 fun t ht => by simp [hlate t ht], List.nil_append] at hbehind
  rw [rounds_of_ready_ne_nil (by rwa [hready]), hready, hbehind]

/-- **Rounds over what rounds have put in order** place the same tables in the same order: in every
round the tables that were ready stand in front, and those behind them are still not ready. -/
theorem rounds_again (h : ((placed ++ remaining).map (·.name)).Nodup) :
    ∃ ts, (rounds tables placed remaining).1 = placed ++ ts ∧
      (ts ++ (rounds tables placed remaining).2).Perm remaining ∧
      rounds tables placed (ts ++ (rounds tables placed remaining).2) =
        rounds tables placed remaining := by
  induction placed, remaining using rounds.induct tables with
  | case1 placed remaining hnone =>
    have hstop := rounds_of_ready_eq_nil hnone
    exact ⟨[], by rw [hstop, List.append_nil], by rw [hstop, List.nil_append],
      by rw [hstop, List.nil_append, hstop]⟩
  | case2 placed remaining hsome _ ih =>
    set early := readyTables tables placed remaining
    have hround := rounds_of_ready_ne_nil hsome
    have hbehind := @unplaced_readyTables tables placed _ h
    have hperm : (early ++ unplaced (placed ++ early) remaining).Perm remaining :=
      hbehind ▸ List.filter_append_perm _ remaining
    have hnodup := (((hperm.append_left placed).map (·.name)).nodup_iff).2 h
    obtain ⟨ts, hplaced, hts, hagain⟩ := ih (by rwa [List.append_assoc])
    rw [← hround] at hplaced hts hagain
    set rest := (rounds tables placed remaining).2
    have hlate : ∀ t ∈ ts ++ rest, isReady tables (placed.map (·.name)) t = false := by
      intro t ht
      have hmem := hts.subset ht
      rw [hbehind] at hmem
      simpa using (List.mem_filter.1 hmem).2
    refine ⟨early ++ ts, by rw [hplaced, List.append_assoc], ?_, ?_⟩
    · rw [List.append_assoc]
      exact (hts.append_left early).trans hperm
    · rw [List.append_assoc, rounds_append ?_ hsome (fun t ht => (List.mem_filter.1 ht).2) hlate,
        hagain]
      exact ((((hts.append_left early).append_left placed).map (·.name)).nodup_iff).2 hnodup

/-- **Tables that are in order stay as they are**, and so do the references that are deferred. -/
theorem of_tables_of (h : (tables.map (·.name)).Nodup) :
    CreationOrder.of (CreationOrder.of tables).tables = CreationOrder.of tables := by
  obtain ⟨ts, hplaced, -, hagain⟩ := @rounds_again tables [] tables (by rwa [List.nil_append])
  have hordered : (CreationOrder.of tables).tables = ts ++ (rounds tables [] tables).2 :=
    congrArg (· ++ (rounds tables [] tables).2) hplaced
  have hrounds : rounds (CreationOrder.of tables).tables [] (CreationOrder.of tables).tables =
      rounds tables [] tables := by
    rw [← rounds_perm h (perm_of h).symm, hordered, hagain]
  rw [CreationOrder.of, hrounds]
  rfl

/-- Tables that are in order are dropped in the opposite order. -/
theorem dropOrder_of (h : (tables.map (·.name)).Nodup) :
    dropOrder (CreationOrder.of tables).tables = (CreationOrder.of tables).tables.reverse := by
  rw [dropOrder, of_tables_of h]

/-! ## References without a cycle -/

/-- A table called `a` refers to another one, called `b`. -/
def RefersTo (tables : List Table) (a b : String) : Prop :=
  a ≠ b ∧ ∃ t ∈ tables, t.name = a ∧ ∃ key ∈ t.foreignKeys, key.2.table = b

/-- No table refers to itself by way of others. -/
def Acyclic (tables : List Table) : Prop :=
  ∀ name, ¬Relation.TransGen (RefersTo tables) name name

theorem Acyclic.perm (h : Acyclic tables) (hperm : tables.Perm tables') : Acyclic tables' := by
  intro name hcycle
  have hle : RefersTo tables' ≤ RefersTo tables := by
    rintro a b ⟨hne, t, ht, hrefers⟩
    exact ⟨hne, t, hperm.mem_iff.2 ht, hrefers⟩
  exact h name (Relation.TransGen.mono hle name name hcycle)

/-- Of some names, one belongs to a table that refers to none of the others. -/
theorem Acyclic.exists_sink (h : Acyclic tables) {names : List String} (hne : names ≠ []) :
    ∃ a ∈ names, ∀ b ∈ names, ¬RefersTo tables a b := by
  let Leads (b a : { name // name ∈ names }) : Prop :=
    Relation.TransGen (RefersTo tables) a.1 b.1
  have htrans : IsTrans _ Leads := ⟨fun _ _ _ hab hbc => hbc.trans hab⟩
  have hirrefl : Std.Irrefl Leads := ⟨fun a => h a.1⟩
  obtain ⟨name, hname⟩ := List.exists_mem_of_ne_nil names hne
  obtain ⟨⟨a, ha⟩, -, hmin⟩ :=
    (Finite.wellFounded_of_trans_of_irrefl Leads).has_min Set.univ ⟨⟨name, hname⟩, trivial⟩
  exact ⟨a, ha, fun b hb hab => hmin ⟨b, hb⟩ trivial (.single hab)⟩

/-- **Where references make no cycle, rounds place all tables**: as long as some remain, one of them
refers to none of the others. -/
theorem rounds_of_acyclic (h : Acyclic tables) (hnames : (tables.map (·.name)).Nodup)
    {placed remaining : List Table} (hperm : (placed ++ remaining).Perm tables) :
    (rounds tables placed remaining).2 = [] := by
  induction placed, remaining using rounds.induct tables with
  | case1 placed remaining hnone =>
    rw [rounds_of_ready_eq_nil hnone]
    by_contra hne
    have hnames_ne : remaining.map (·.name) ≠ [] := by simpa using hne
    obtain ⟨a, ha, hsink⟩ := h.exists_sink hnames_ne
    obtain ⟨t, ht, rfl⟩ := List.mem_map.1 ha
    have hmem : t ∈ tables := hperm.subset (List.mem_append_right _ ht)
    have hready : isReady tables (placed.map (·.name)) t = true := by
      rw [isReady_iff hnames hmem]
      intro key hkey hname
      by_contra! hlate
      rw [← (hperm.map (·.name)).mem_iff, List.map_append, List.mem_append] at hname
      exact hsink _ (hname.resolve_left hlate.2) ⟨hlate.1.symm, t, hmem, rfl, key, hkey, rfl⟩
    have hfirst : t ∈ readyTables tables placed remaining := List.mem_filter.2 ⟨ht, hready⟩
    rw [hnone] at hfirst
    contradiction
  | case2 placed remaining hsome _ ih =>
    rw [rounds_of_ready_ne_nil hsome]
    refine ih ?_
    rw [unplaced_readyTables ((hperm.map _).nodup_iff.2 hnames), List.append_assoc]
    exact ((List.filter_append_perm _ remaining).append_left placed).trans hperm

/-- **Where references make no cycle, none is deferred.** -/
theorem deferred_of_acyclic (h : Acyclic tables) (hnames : (tables.map (·.name)).Nodup) :
    (CreationOrder.of tables).deferred = [] := by
  have hnone : (rounds tables [] tables).2 = [] :=
    rounds_of_acyclic h hnames (by rw [List.nil_append])
  change (deferredOf _ (rounds tables [] tables).2).eraseDups = []
  rw [hnone]
  rfl

/-- References that lead down in some ranking of the names make no cycle. -/
theorem acyclic_of_lt (rank : String → ℕ) (h : ∀ t ∈ tables, ∀ key ∈ t.foreignKeys,
    t.name ≠ key.2.table → rank key.2.table < rank t.name) : Acyclic tables := by
  intro name hcycle
  have hlt : ∀ a b, RefersTo tables a b → rank b < rank a := by
    rintro _ _ ⟨hne, t, ht, rfl, key, hkey, rfl⟩
    exact h t ht key hkey hne
  have hdown : ∀ a b, Relation.TransGen (RefersTo tables) a b → rank b < rank a := by
    intro a b hab
    induction hab with
    | single hstep => exact hlt _ _ hstep
    | tail _ hstep ih => exact (hlt _ _ hstep).trans ih
  exact (hdown name name hcycle).false

/-! ## What is deferred -/

/-- A reference is deferred for a table that remains and where it leads to no table in front. -/
theorem mem_deferredOf {pair : String × String} (h : pair ∈ deferredOf before ts) :
    ∃ xs t ys, ts = xs ++ t :: ys ∧ ∃ key ∈ t.foreignKeys, pair = (t.name, key.1.name) ∧
      key.2.table ≠ t.name ∧ key.2.table ∉ before ++ xs.map (·.name) := by
  induction ts generalizing before with
  | nil => simp [deferredOf] at h
  | cons t ts ih =>
    rw [deferredOf, List.mem_append] at h
    rcases h with hfirst | hlater
    · obtain ⟨key, hkey, rfl⟩ := List.mem_map.1 hfirst
      obtain ⟨hmem, hforward⟩ := List.mem_filter.1 hkey
      have hforward := of_decide_eq_true hforward
      exact ⟨[], t, ts, rfl, key, hmem, rfl, hforward.1, by simpa using hforward.2⟩
    · obtain ⟨xs, u, ys, rfl, key, hkey, hpair, hother, hbefore⟩ := ih hlater
      refine ⟨t :: xs, u, ys, rfl, key, hkey, hpair, hother, ?_⟩
      rwa [List.map_cons, ← List.singleton_append, ← List.append_assoc]

/-- What stands before a table among tables of distinct names. -/
theorem mem_of_pair_sublist {xs ys : List Table} {r t : Table}
    (h : ((xs ++ t :: ys).map (·.name)).Nodup) (hsub : [r, t].Sublist (xs ++ t :: ys)) :
    r ∈ xs := by
  have hnodup : (xs ++ t :: ys).Nodup := List.Nodup.of_map _ h
  obtain ⟨hxs, hys⟩ : t ∉ xs ∧ t ∉ ys := by
    have hmiddle := (List.nodup_middle.1 hnodup).notMem
    simpa [not_or] using hmiddle
  obtain ⟨front, back, hpair, hfront, hback⟩ := List.sublist_append_iff.1 hsub
  cases front with
  | nil =>
    rw [List.nil_append] at hpair
    subst hpair
    refine absurd ?_ hys
    cases hback with
    | cons _ hback => exact hback.subset (by simp)
    | cons_cons _ hback => exact hback.subset (by simp)
  | cons first front =>
    obtain ⟨rfl, -⟩ := List.cons_eq_cons.1 hpair
    exact hfront.subset List.mem_cons_self

/-- **The order of tables of distinct names is a correct one**: it has the same tables; every
reference to another of them leads to a table before, or is deferred; no reference is deferred that
leads to the table itself or to one before; and where references make no cycle, none is deferred. -/
theorem order_spec (h : (tables.map (·.name)).Nodup) :
    (CreationOrder.of tables).tables.Perm tables ∧
      (∀ t ∈ tables, ∀ key ∈ t.foreignKeys, ∀ r ∈ tables, r ≠ t → key.2.table = r.name →
        [r, t].Sublist (CreationOrder.of tables).tables ∨
          (t.name, key.1.name) ∈ (CreationOrder.of tables).deferred) ∧
      (∀ pair ∈ (CreationOrder.of tables).deferred, ∃ t ∈ tables, ∃ key ∈ t.foreignKeys,
        pair = (t.name, key.1.name) ∧ key.2.table ≠ t.name ∧
          ∀ r, r.name = key.2.table → ¬[r, t].Sublist (CreationOrder.of tables).tables) ∧
      (Acyclic tables → (CreationOrder.of tables).deferred = []) := by
  have hperm := perm_of h
  have hordered : ((CreationOrder.of tables).tables.map (·.name)).Nodup :=
    (hperm.map _).nodup_iff.2 h
  refine ⟨hperm, fun t ht key hkey r hr hother hname => ?_, fun pair hpair => ?_,
    fun hacyclic => deferred_of_acyclic hacyclic h⟩
  · by_cases hdeferred : (t.name, key.1.name) ∈ (CreationOrder.of tables).deferred
    · exact .inr hdeferred
    have hne : key.2.table ≠ t.name := fun heq =>
      hother (List.inj_on_of_nodup_map h hr ht (hname.symm.trans heq))
    have hnames := sublist_of h ht hkey (hname ▸ List.mem_map_of_mem hr) hne hdeferred
    obtain ⟨pair, hsub, hpair⟩ := List.sublist_map_iff.1 hnames
    obtain ⟨r', rest, rfl, hr', hrest⟩ := List.map_eq_cons_iff.1 hpair.symm
    obtain ⟨t', rfl, ht'⟩ := List.map_eq_singleton_iff.1 hrest
    have hmem : r' ∈ tables ∧ t' ∈ tables :=
      ⟨hperm.subset (hsub.subset (by simp)), hperm.subset (hsub.subset (by simp))⟩
    obtain rfl := List.inj_on_of_nodup_map h hmem.1 hr (hr'.trans hname)
    obtain rfl := List.inj_on_of_nodup_map h hmem.2 ht ht'
    exact .inl hsub
  · obtain ⟨xs, t, ys, hsplit, key, hkey, rfl, hother, hbefore⟩ :=
      mem_deferredOf (List.mem_eraseDups.1 hpair)
    have horder : (CreationOrder.of tables).tables =
        (rounds tables [] tables).1 ++ xs ++ t :: ys := by
      rw [List.append_assoc, ← hsplit]
      rfl
    rw [horder] at hperm hordered ⊢
    refine ⟨t, hperm.subset (by simp), key, hkey, rfl, hother, fun r hname hsub => hbefore ?_⟩
    rw [← List.map_append, ← hname]
    exact List.mem_map_of_mem (mem_of_pair_sublist hordered hsub)

/-- Badges of employees, who belong to departments, which are led by employees. -/
def staff : List Table :=
  [{ name := "badge"
     columns := [.defaultKey,
      { name := "employee_id", isForeignKey := true
        references := some ⟨"employee", "id", "", ""⟩ }] },
   { name := "employee"
     columns := [.defaultKey,
      { name := "department_id", isForeignKey := true
        references := some ⟨"department", "id", "", ""⟩ }] },
   { name := "department"
     columns := [.defaultKey,
      { name := "employee_id", isForeignKey := true
        references := some ⟨"employee", "id", "", ""⟩ }] }]

theorem order_spec_staff :
    (staff.map (·.name)).Nodup ∧ (CreationOrder.of staff).tables.Perm staff ∧
      [staff[1], staff[2]].Sublist (CreationOrder.of staff).tables ∧
      ("badge", "employee_id") ∈ (CreationOrder.of staff).deferred ∧ ¬Acyclic staff := by
  have hnames : (staff.map (·.name)).Nodup := by decide
  have hkept : ("department", "employee_id") ∉ (CreationOrder.of staff).deferred := by
    decide +kernel
  have hdeferred : ("badge", "employee_id") ∈ (CreationOrder.of staff).deferred := by
    decide +kernel
  obtain ⟨hperm, hbefore, -, hacyclic⟩ := order_spec hnames
  refine ⟨hnames, hperm, ?_, hdeferred, fun h => ?_⟩
  · exact (hbefore staff[2] (by decide) (staff[2].columns[1], ⟨"employee", "id", "", ""⟩)
      (by decide) staff[1] (by decide) (by decide) rfl).resolve_right hkept
  · rw [hacyclic h] at hdeferred
    contradiction

end Schemata.CreationOrder
