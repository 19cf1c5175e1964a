import AbstractSql.Proofs.Outline.Flattening
import AbstractSql.Proofs.Outline.Matching
import AbstractSql.Proofs.Outline.Naming
import AbstractSql.Proofs.Outline.Order
import Mathlib.Data.List.Flatten
import Mathlib.Data.List.Nodup
import Mathlib.Data.List.Pairwise
import Mathlib.Data.List.Perm.Subperm

/-!
# Where aliases are introduced

The clause of a join introduces an alias. An ON clause that tests the condition of a joined query
uses aliases of later clauses when that query has been handed a condition by a query that it joins,
and the outer condition uses aliases that no clause introduces when a condition on joined rows has.
Otherwise every alias is introduced before it is used.
-/

namespace AbstractSql

/-- The aliases whose columns a test uses, outside of the selects in it. -/
def Test.aliases : Test → List String
  | .missing tableAlias .. => [tableAlias]
  | .value tableAlias .. => [tableAlias]
  | .text tableAlias .. => [tableAlias]
  | .rows tableAlias .. => [tableAlias]
  | .pair left _ right => [left.tableAlias, right.tableAlias]
  | .member column _ => [column.tableAlias]

/-- The aliases whose columns a condition uses, outside of the selects in it. -/
def usedAliases (row : List (Lexeme Test)) : List String :=
  row.flatMap fun
    | .atom test => test.aliases
    | _ => []

/-- A condition uses the aliases of its tests. -/
theorem mem_usedAliases {a : String} {row : List (Lexeme Test)} :
    a ∈ usedAliases row ↔ ∃ test, .atom test ∈ row ∧ a ∈ test.aliases := by
  rw [usedAliases, List.mem_flatMap]
  constructor
  · rintro ⟨lexeme, hm, ha⟩
    cases lexeme with
    | atom test => exact ⟨test, hm, ha⟩
    | _ => exact absurd ha List.not_mem_nil
  · rintro ⟨test, hm, ha⟩
    exact ⟨.atom test, hm, ha⟩

/-- Every test uses an alias. -/
theorem Test.exists_alias (test : Test) : ∃ a, a ∈ test.aliases := by
  cases test <;> exact ⟨_, List.mem_cons_self⟩

/-- A comparison uses the alias of its query. -/
theorem ResolvedCriterion.aliases_test (c : ResolvedCriterion) (tableAlias : String) :
    (c.test tableAlias).aliases = [tableAlias] := by
  cases c <;> rfl

/-- The alias of a statement is not issued. -/
theorem NameSupply.mainAlias_ne_subqueryAlias (n : Nat) : mainAlias ≠ subqueryAlias n := by
  intro h
  have hchars : 'T' :: ['B'] = 'S' :: (toString n).toList := by
    have hchars := congrArg String.toList h
    rwa [subqueryAlias, String.toList_append] at hchars
  exact absurd (List.head_eq_of_cons_eq hchars) (by decide)

namespace Outline

/-- All conditions use only these aliases. -/
def UsesOnly (aliases : List String) (o : Outline) : Prop :=
  ∀ row ∈ o.rows, ∀ a ∈ usedAliases row, a ∈ aliases

variable {o joined extra : Outline} {aliases : List String}

/-- No conditions. -/
theorem usesOnly_empty (text : Option String) : UsesOnly aliases { text } := by
  intro row hrow a ha
  obtain rfl := List.mem_singleton.mp hrow
  exact absurd ha List.not_mem_nil

/-- Adding a join whose conditions use only these aliases. -/
theorem UsesOnly.addJoin (ho : o.UsesOnly aliases) (hj : joined.UsesOnly aliases)
    (he : extra.UsesOnly aliases) (tableAlias : String) (join : ResolvedJoin) :
    (o.addJoin tableAlias join joined extra).UsesOnly aliases := by
  intro row hrow a ha
  rcases List.mem_cons.mp hrow with rfl | hrow
  · obtain ⟨test, hm, ha⟩ := mem_usedAliases.mp ha
    rcases Lexeme.atom_mem_requireAll.mp hm with hm | ⟨row, hrow, hm⟩
    · exact ho _ List.mem_cons_self a (mem_usedAliases.mpr ⟨test, hm, ha⟩)
    · exact hj row (mem_rows_of_lifted hrow) a (mem_usedAliases.mpr ⟨test, hm, ha⟩)
  · rcases List.mem_append.mp hrow with hrow | hrow
    · exact ho row (List.mem_cons_of_mem _ hrow) a ha
    · exact he row (mem_rows_of_required hrow) a ha

/-- More aliases. -/
theorem UsesOnly.mono {more : List String} (h : o.UsesOnly aliases) (hm : aliases ⊆ more) :
    o.UsesOnly more :=
  fun row hrow a ha => hm (h row hrow a ha)

end Outline

namespace ResolvedJoin

variable {join : ResolvedJoin}

/-- Aliases of the joined query are aliases of the join. -/
theorem query_aliases_subset (join : ResolvedJoin) :
    join.innerAlias :: join.query.joinAliases ⊆ join.aliases := by
  rw [aliases]
  intro a ha
  simp only [List.mem_cons, List.mem_append] at ha ⊢
  exact ha.imp_right fun ha => .inl (.inl ha)

/-- The clause of a join introduces the alias of the joined rows. -/
theorem clause_tableAlias (tableAlias : String) (join : ResolvedJoin) (joined : Outline) :
    (join.clause tableAlias joined).tableAlias = join.targetAlias := rfl

/-- Where the aliases of a join are different, so are those of the joined query. -/
theorem nodup_inner (hn : join.aliases.Nodup) :
    join.innerAlias ∉ join.query.joinAliases ∧ join.query.joinAliases.Nodup := by
  rw [aliases, List.append_assoc, ← List.cons_append] at hn
  exact List.nodup_cons.mp (List.nodup_append.mp hn).1

/-- The alias of the joined rows is one of a join. -/
theorem targetAlias_mem (join : ResolvedJoin) : join.targetAlias ∈ join.aliases := by
  rw [targetAlias, aliases]
  split <;> simp

/-- Aliases of the condition on joined rows are aliases of the join. -/
theorem extraAliases_subset (join : ResolvedJoin) : extraAliases join.extra ⊆ join.aliases := by
  rw [aliases]
  intro a ha
  simp only [List.mem_cons, List.mem_append]
  exact .inr (.inr ha)

end ResolvedJoin

namespace ResolvedQuery

/-- The aliases of a join of a query are aliases of the query. -/
theorem aliases_subset {r : ResolvedQuery} {join : ResolvedJoin} (hm : join ∈ r.joins) :
    join.aliases ⊆ r.joinAliases := by
  rw [joinAliases_eq]
  exact fun a ha => List.mem_flatMap.mpr ⟨join, hm, ha⟩

/-- The conditions of a query use its own alias and those of its joins. -/
theorem usesOnly_outline (r : ResolvedQuery) :
    ∀ tableAlias, (r.outline tableAlias).UsesOnly (tableAlias :: r.joinAliases) := by
  induction r using ResolvedQuery.induction with | step r within
  intro tableAlias
  refine outline_of_steps (fun raw _ => Outline.usesOnly_empty _) ?_ (fun o arm _ ho => ho) ?_ ?_
  · intro row hrow a ha
    obtain rfl := List.mem_singleton.mp hrow
    obtain ⟨test, hm, ha⟩ := mem_usedAliases.mp ha
    obtain ⟨c, -, rfl⟩ := ((r.start_writes tableAlias).atoms test).mp hm
    rw [c.aliases_test, List.mem_singleton] at ha
    exact ha ▸ List.mem_cons_self
  · intro o join hm ho
    have hjoin := List.Subset.trans (aliases_subset hm) (List.subset_cons_self tableAlias _)
    refine ho.addJoin ((within.joined join hm join.innerAlias).mono
      (List.Subset.trans join.query_aliases_subset hjoin)) ?_ tableAlias join
    unfold ResolvedJoin.required extraOutline
    split
    · exact Outline.usesOnly_empty none
    · next extra hextra =>
      refine (within.extra join hm extra hextra join.targetAlias).mono
        (List.cons_subset.mpr ⟨hjoin join.targetAlias_mem, fun a ha => hjoin ?_⟩)
      refine join.extraAliases_subset ?_
      rw [hextra]
      exact ha
  · intro o closure _ _ row hrow a ha
    obtain rfl := List.mem_singleton.mp hrow
    obtain ⟨test, hm, ha⟩ := mem_usedAliases.mp ha
    obtain rfl := Lexeme.atom.inj (List.mem_singleton.mp hm)
    exact List.mem_singleton.mp ha ▸ List.mem_cons_self

end ResolvedQuery

/-- Whether a joined query hands a condition to the outer one. -/
def ResolvedJoin.handsUp (join : ResolvedJoin) : Bool :=
  (join.joined.lifted join.kind).any fun row => !row.isEmpty

/-- Whether no joined query hands a condition to a query whose joins are written with it. -/
def ResolvedQuery.confined (r : ResolvedQuery) : Bool :=
  !r.keepsJoins || r.ownJoins.all fun join => !join.handsUp

/-- A query is handed no condition exactly when its condition uses no alias but its own. -/
theorem ResolvedQuery.confined_iff {r : ResolvedQuery} {tableAlias : String}
    (hfresh : tableAlias ∉ r.joinAliases) :
    r.confined = true ↔ ∀ a ∈ usedAliases (r.outline tableAlias).condition, a = tableAlias := by
  cases hk : r.keepsJoins with
  | false =>
    obtain ⟨closure, -, -, hcondition, -⟩ := outline_closure hk tableAlias
    simp [confined, hk, hcondition, usedAliases, Test.aliases]
  | true =>
    cases ht : r.text with
    | some raw => simp [confined, ownJoins, outline_text ht, ht, usedAliases]
    | none =>
      rw [confined, hk, Bool.not_true, Bool.false_or, List.all_eq_true]
      constructor
      · intro h a ha
        obtain ⟨test, hm, ha⟩ := mem_usedAliases.mp ha
        rcases (atom_mem_outline hk ht tableAlias).mp hm with ⟨c, -, rfl⟩ | ⟨join, hj, row, hrow, hm⟩
        · rw [c.aliases_test] at ha
          exact List.mem_singleton.mp ha
        · have hup := h join hj
          rw [ResolvedJoin.handsUp, Bool.not_eq_true', List.any_eq_false] at hup
          have hempty : row = [] := by simpa using hup row hrow
          exact absurd hm (hempty ▸ List.not_mem_nil)
      · intro h join hj
        rw [ResolvedJoin.handsUp, Bool.not_eq_true', List.any_eq_false]
        intro row hrow hn
        have hrows := Outline.mem_rows_of_lifted hrow
        obtain ⟨test, hm⟩ :=
          (join.query.plain_outline join.innerAlias row hrows).1.exists_atom (by simpa using hn)
        obtain ⟨a, ha⟩ := test.exists_alias
        have hown := h a (mem_usedAliases.mpr ⟨test, (atom_mem_outline hk ht tableAlias).mpr
          (.inr ⟨join, hj, row, hrow, hm⟩), ha⟩)
        have hnested := join.query.usesOnly_outline join.innerAlias row hrows a
          (mem_usedAliases.mpr ⟨test, hm, ha⟩)
        exact hfresh (hown ▸ aliases_subset (r.ownJoins_sublist.subset hj)
          (join.query_aliases_subset hnested))

/-- The clause of a join and those after it introduce the aliases of their joined rows, if those of
the joined query do. -/
theorem ResolvedJoin.introduced_eq (join : ResolvedJoin) (tableAlias : String)
    (h : join.joined.joins.map (·.tableAlias) = join.query.emitted.map targetAlias) :
    (join.clause tableAlias join.joined :: join.joined.liftedJoins).map (·.tableAlias) =
      (join :: join.nested).map targetAlias := by
  rw [List.map_cons, List.map_cons, join.liftedJoins_joined, nested]
  refine congrArg (join.targetAlias :: ·) ?_
  split
  · exact h
  · rfl

/-- The clauses written with a query introduce the aliases of their joined rows. -/
theorem ResolvedQuery.introduced_eq (r : ResolvedQuery) :
    ∀ tableAlias, (r.outline tableAlias).joins.map (·.tableAlias) =
      r.emitted.map ResolvedJoin.targetAlias := by
  induction r using ResolvedQuery.induction with | step r within
  intro tableAlias
  rw [joins_outline, emitted_eq, List.map_flatMap, List.map_flatMap]
  refine List.flatMap_congr fun join hm => ?_
  exact join.introduced_eq tableAlias
    (within.joined join (r.ownJoins_sublist.subset hm) join.innerAlias)

namespace ResolvedJoin

/-- The alias of the joined rows with the aliases of the condition on them. -/
def ownAliases (join : ResolvedJoin) : List String := join.targetAlias :: extraAliases join.extra

/-- A join and those whose clauses are written after its own have some of the aliases of the join.
-/
theorem ownAliases_subperm (join : ResolvedJoin)
    (h : (join.query.emitted.flatMap ownAliases).Subperm join.query.joinAliases) :
    ((join :: join.nested).flatMap ownAliases).Subperm join.aliases := by
  rw [List.flatMap_cons, ownAliases, aliases, nested]
  cases hi : join.inlined with
  | true =>
    rw [targetAlias_of_inlined hi, hasArms_of_inlined hi, if_pos rfl, if_neg Bool.false_ne_true,
      List.append_nil, List.cons_append, List.subperm_cons]
    exact List.perm_append_comm.subperm.trans (h.append (List.Subperm.refl _))
  | false =>
    rw [if_neg Bool.false_ne_true, List.flatMap_nil, List.append_nil, targetAlias]
    refine List.Sublist.subperm ?_
    split
    · rw [List.append_assoc]
      exact (List.sublist_append_right _ _).cons _
    · exact (List.sublist_append_right _ _).cons_cons _

end ResolvedJoin

namespace ResolvedQuery

/-- The joins whose clauses are written with a query have some of its aliases. -/
theorem emitted_subperm (r : ResolvedQuery) :
    (r.emitted.flatMap ResolvedJoin.ownAliases).Subperm r.joinAliases := by
  induction r using ResolvedQuery.induction with | step r within
  rw [emitted_eq, joinAliases_eq]
  refine List.Subperm.trans ?_ (r.ownJoins_sublist.flatMap _).subperm
  have hwithin := fun join hm => within.joined join (r.ownJoins_sublist.subset hm)
  generalize r.ownJoins = joins at hwithin
  induction joins with
  | nil => exact List.Subperm.refl _
  | cons join rest ih =>
    obtain ⟨hfirst, hrest⟩ := List.forall_mem_cons.mp hwithin
    rw [List.flatMap_cons, List.flatMap_cons, List.flatMap_append]
    exact (join.ownAliases_subperm hfirst).append (ih hrest)

/-- The aliases of a join whose clause is written with a query are among those of the query. -/
theorem ownAliases_subset {r : ResolvedQuery} {join : ResolvedJoin} (hm : join ∈ r.emitted) :
    join.ownAliases ⊆ r.joinAliases :=
  fun _ ha => r.emitted_subperm.subset (List.mem_flatMap.mpr ⟨join, hm, ha⟩)

/-- Joins whose clauses are written with a query share no alias. -/
theorem ownAliases_disjoint {r : ResolvedQuery} (hn : r.joinAliases.Nodup)
    {join other : ResolvedJoin} (hm : join ∈ r.emitted) (ho : other ∈ r.emitted)
    (hne : other ≠ join) : other.ownAliases.Disjoint join.ownAliases := by
  obtain ⟨l, hperm, hsub⟩ := r.emitted_subperm
  obtain ⟨-, hpairwise⟩ := List.nodup_flatMap.mp (hperm.nodup_iff.mp (hsub.nodup hn))
  have : Std.Symm (Function.onFun List.Disjoint ResolvedJoin.ownAliases) :=
    ⟨fun _ _ h _ ha hb => h hb ha⟩
  exact hpairwise.forall ho hm hne

/-- A clause that introduces the alias of a join is the clause of that join. -/
theorem targetAlias_injective {r : ResolvedQuery} (hn : r.joinAliases.Nodup)
    {join other : ResolvedJoin} (hm : join ∈ r.emitted) (ho : other ∈ r.emitted)
    (he : other.targetAlias = join.targetAlias) : other = join := by
  by_contra hne
  exact ownAliases_disjoint hn hm ho hne List.mem_cons_self (he ▸ List.mem_cons_self)

/-- No clause introduces an alias of a condition on joined rows. -/
theorem extraAliases_disjoint {r : ResolvedQuery} (hn : r.joinAliases.Nodup)
    {join other : ResolvedJoin} (hm : join ∈ r.emitted) (ho : other ∈ r.emitted) :
    other.targetAlias ∉ ResolvedJoin.extraAliases join.extra := by
  intro ha
  by_cases he : other = join
  · subst he
    obtain ⟨l, hperm, hsub⟩ := r.emitted_subperm
    obtain ⟨heach, -⟩ := List.nodup_flatMap.mp (hperm.nodup_iff.mp (hsub.nodup hn))
    exact (List.nodup_cons.mp (heach other hm)).1 ha
  · exact ownAliases_disjoint hn hm ho he List.mem_cons_self (List.mem_cons_of_mem _ ha)

end ResolvedQuery

/-- The aliases that a join and those after it introduce are among the aliases of the join. -/
theorem ResolvedJoin.targetAlias_mem_of_nested {join other : ResolvedJoin}
    (hm : other ∈ join :: join.nested) : other.targetAlias ∈ join.aliases :=
  (join.ownAliases_subperm join.query.emitted_subperm).subset
    (List.mem_flatMap.mpr ⟨other, hm, List.mem_cons_self⟩)

section

variable {join : ResolvedJoin} {tableAlias : String} {earlier : List String}

/-- The ON clause of a join uses only aliases that have been introduced, its own among them, exactly
when it does not test a condition that a query has been handed. -/
theorem ResolvedJoin.clause_refersBack_iff (hbase : tableAlias ∈ earlier)
    (hfresh : ∀ a ∈ join.aliases, a ∉ earlier) (hn : join.aliases.Nodup) :
    (∀ a ∈ usedAliases (join.clause tableAlias join.joined).on,
        a = join.targetAlias ∨ a ∈ earlier) ↔
      (join.inlined = true → join.kind ≠ .cross → join.query.confined = true) := by
  have hinner := (nodup_inner hn).1
  have hon : ∀ a, a ∈ usedAliases (join.clause tableAlias join.joined).on ↔
      (∃ test ∈ join.pairTests tableAlias, a ∈ test.aliases) ∨
        a ∈ usedAliases (join.joined.tested join.kind) := by
    intro a
    simp only [mem_usedAliases, clause, Lexeme.atom_mem_afterAtoms, or_and_right, exists_or]
  have hpairs : ∀ test ∈ join.pairTests tableAlias, ∀ a ∈ test.aliases,
      a = join.targetAlias ∨ a ∈ earlier := by
    intro test ht a ha
    obtain ⟨pair, -, rfl⟩ := List.mem_map.mp ht
    rcases List.mem_cons.mp ha with rfl | ha
    · exact .inr hbase
    · exact .inl (List.mem_singleton.mp ha)
  have htested := join.tested_joined
  by_cases hi : join.inlined = true ∧ join.kind ≠ .cross
  · obtain ⟨hi, hk⟩ := hi
    rw [hi, Bool.true_and, if_pos (by simpa using hk)] at htested
    rw [join.query.confined_iff hinner]
    constructor
    · intro h _ _ a ha
      rcases List.mem_cons.mp (join.query.usesOnly_outline join.innerAlias _ List.mem_cons_self a ha)
        with rfl | hnested
      · rfl
      · rcases h a ((hon a).mpr (.inr (htested ▸ ha))) with rfl | h
        · exact absurd hnested (targetAlias_of_inlined hi ▸ hinner)
        · exact absurd h (hfresh a (join.query_aliases_subset (List.mem_cons_of_mem _ hnested)))
    · intro h a ha
      rcases (hon a).mp ha with ⟨test, ht, ha⟩ | ha
      · exact hpairs test ht a ha
      · rw [htested] at ha
        exact .inl (targetAlias_of_inlined hi ▸ h hi hk a ha)
  · have hnone : join.joined.tested join.kind = [] := by
      rw [htested]
      refine if_neg fun h => hi ?_
      simpa using h
    refine ⟨fun _ hin hk => absurd ⟨hin, hk⟩ hi, fun _ a ha => ?_⟩
    rcases (hon a).mp ha with ⟨test, ht, ha⟩ | ha
    · exact hpairs test ht a ha
    · rw [hnone] at ha
      exact absurd ha List.not_mem_nil

end

/-- The ON clauses written with a query use only aliases that have been introduced exactly when none
of them tests a condition that a query has been handed. -/
theorem ResolvedQuery.refersBack_iff (r : ResolvedQuery) :
    ∀ {tableAlias : String} {earlier : List String}, tableAlias ∈ earlier →
      (∀ a ∈ r.joinAliases, a ∉ earlier) → r.joinAliases.Nodup →
      (RefersBack JoinClause.tableAlias (fun clause => usedAliases clause.on) earlier
          (r.outline tableAlias).joins ↔
        ∀ join ∈ r.emitted, join.inlined = true → join.kind ≠ .cross →
          join.query.confined = true) := by
  induction r using ResolvedQuery.induction with | step r within
  intro tableAlias earlier hbase hfresh hn
  rw [joins_outline, emitted_eq]
  rw [joinAliases_eq] at hfresh hn
  have hwithin := fun join hm => @within.joined join (r.ownJoins_sublist.subset hm)
  have hsub := r.ownJoins_sublist.flatMap ResolvedJoin.aliases
  replace hfresh := fun a ha => hfresh a (hsub.subset ha)
  replace hn := hsub.nodup hn
  clear hsub
  generalize r.ownJoins = joins at hwithin hfresh hn
  -- The clauses follow each other, so what the first join introduces is earlier for the rest.
  induction joins generalizing earlier with
  | nil => simp [RefersBack]
  | cons join rest ih =>
    obtain ⟨hown, hwithin⟩ := List.forall_mem_cons.mp hwithin
    rw [List.flatMap_cons] at hfresh hn
    obtain ⟨hj, hrest, hdisjoint⟩ := List.nodup_append.mp hn
    have hfirst := fun a ha => hfresh a (List.mem_append_left _ ha)
    have hlifted : RefersBack JoinClause.tableAlias (fun clause => usedAliases clause.on)
        (earlier ++ [join.targetAlias]) join.joined.liftedJoins ↔
          ∀ other ∈ join.nested, other.inlined = true → other.kind ≠ .cross →
            other.query.confined = true := by
      rw [join.liftedJoins_joined, ResolvedJoin.nested]
      cases hi : join.inlined with
      | false => simp [RefersBack]
      | true =>
        rw [if_pos rfl, if_pos rfl, ResolvedJoin.targetAlias_of_inlined hi]
        have hinner := ResolvedJoin.nodup_inner hj
        refine hown (List.mem_append_right _ (List.mem_singleton_self _)) (fun a ha hearlier => ?_)
          hinner.2
        rcases List.mem_append.mp hearlier with hearlier | hearlier
        · exact hfirst a (join.query_aliases_subset (List.mem_cons_of_mem _ ha)) hearlier
        · exact hinner.1 (List.mem_singleton.mp hearlier ▸ ha)
    have hnames := join.introduced_eq tableAlias (join.query.introduced_eq join.innerAlias)
    have hlater : ∀ a ∈ rest.flatMap ResolvedJoin.aliases,
        a ∉ earlier ++ (join :: join.nested).map ResolvedJoin.targetAlias := by
      intro a ha hearlier
      rcases List.mem_append.mp hearlier with hearlier | hearlier
      · exact hfresh a (List.mem_append_right _ ha) hearlier
      · obtain ⟨other, ho, rfl⟩ := List.mem_map.mp hearlier
        exact hdisjoint _ (ResolvedJoin.targetAlias_mem_of_nested ho) _ ha rfl
    rw [List.flatMap_cons, RefersBack.append_iff, RefersBack, ResolvedJoin.clause_tableAlias,
      join.clause_refersBack_iff hbase hfirst hj, hlifted, hnames]
    refine (and_congr Iff.rfl
      (ih (List.mem_append_left _ hbase) hwithin hlater hrest)).trans ?_
    simp only [List.flatMap_cons, List.mem_append, List.mem_cons, or_imp, forall_and, forall_eq]

/-- The tests of a query that do not come from conditions on joined rows use its alias and those of
joined queries without set operations. -/
theorem ResolvedQuery.aliases_tests (r : ResolvedQuery) : ∀ tableAlias,
    ∀ test ∈ r.tests tableAlias, ∀ a ∈ test.aliases, a = tableAlias ∨
      ∃ other ∈ r.emitted, other.query.hasArms = false ∧ other.targetAlias = a := by
  induction r using ResolvedQuery.induction with | step r within
  intro tableAlias test htest a ha
  cases ht : r.text with
  | some raw =>
    obtain ⟨table, columns, text, conditions, sorts, arms, joins, closure⟩ := r
    obtain rfl : text = some raw := ht
    rw [tests] at htest
    exact absurd htest List.not_mem_nil
  | none =>
    rw [tests_eq ht, List.mem_append] at htest
    rcases htest with htest | htest
    · obtain ⟨c, -, rfl⟩ := List.mem_map.mp htest
      rw [c.aliases_test] at ha
      exact .inl (List.mem_singleton.mp ha)
    · obtain ⟨join, hj, htest⟩ := List.mem_flatMap.mp htest
      have hwritten : ∀ other ∈ join :: join.nested, other ∈ r.emitted := fun other ho => by
        rw [emitted_eq]
        exact List.mem_flatMap.mpr ⟨join, hj, ho⟩
      refine .inr ?_
      unfold ResolvedJoin.handedTests at htest
      cases hi : join.inlined with
      | false =>
        rw [hi, if_neg Bool.false_ne_true] at htest
        unfold membership at htest
        split at htest
        · exact absurd htest List.not_mem_nil
        · split at htest
          · exact absurd htest List.not_mem_nil
          · next hm =>
            rw [List.mem_singleton.mp htest] at ha
            have htarget : join.targetAlias = join.innerAlias := if_neg hm
            obtain rfl := List.mem_singleton.mp ha
            exact ⟨join, hwritten join List.mem_cons_self, Bool.eq_false_of_not_eq_true hm, htarget⟩
      | true =>
        rw [hi, if_pos rfl] at htest
        split at htest
        · rcases within.joined join (r.ownJoins_sublist.subset hj) join.innerAlias test htest a ha
            with rfl | ⟨other, ho, harms, rfl⟩
          · exact ⟨join, hwritten join List.mem_cons_self, ResolvedJoin.hasArms_of_inlined hi,
              ResolvedJoin.targetAlias_of_inlined hi⟩
          · refine ⟨other, hwritten other (List.mem_cons_of_mem _ ?_), harms, rfl⟩
            rw [ResolvedJoin.nested, hi]
            exact ho
        · exact absurd htest List.not_mem_nil

/-- The condition of a statement uses only its alias and those that its clauses introduce exactly
when a closure has taken the joins, or no query has been handed a condition that is required of
joined rows. -/
theorem ResolvedQuery.usesIntroduced_iff (r : ResolvedQuery) {tableAlias : String}
    (hn : (tableAlias :: r.joinAliases).Nodup) :
    (∀ a ∈ usedAliases (r.outline tableAlias).mergeJoinExtras.condition,
        a = tableAlias ∨ a ∈ (r.outline tableAlias).writtenJoins.map (·.tableAlias)) ↔
      r.keepsJoins = false ∨
        ∀ join ∈ r.outward, ∀ extra, join.extra = some extra → extra.confined = true := by
  obtain ⟨hbase, hn⟩ := List.nodup_cons.mp hn
  cases hk : r.keepsJoins with
  | false =>
    obtain ⟨closure, -, -, hcondition, hextras⟩ := outline_closure hk tableAlias
    refine iff_of_true (fun a ha => .inl ?_) (.inl rfl)
    rw [Outline.mergeJoinExtras, hextras, Outline.requireAll, Lexeme.requireAll, hcondition] at ha
    exact List.mem_singleton.mp ha
  | true =>
    have hwritten : (r.outline tableAlias).writtenJoins.map (·.tableAlias) =
        r.emitted.map ResolvedJoin.targetAlias := by
      rw [Outline.writtenJoins, allowJoin_outline, hk, if_pos rfl, introduced_eq]
    have hused : ∀ a, a ∈ usedAliases (r.outline tableAlias).mergeJoinExtras.condition ↔
        ∃ test, (test ∈ r.tests tableAlias ∨ RequiredOf r.outward test) ∧ a ∈ test.aliases := by
      intro a
      rw [mem_usedAliases]
      refine exists_congr fun test => and_congr_left fun _ => ?_
      rw [← r.atom_mem_rows tableAlias hk]
      exact Lexeme.atom_mem_requireAll
    rw [hwritten, or_iff_right (by simp)]
    have hfresh : ∀ join ∈ r.outward, ∀ extra, join.extra = some extra →
        ∀ a ∈ extra.joinAliases, a ∈ r.joinAliases ∧ a ∉ r.emitted.map ResolvedJoin.targetAlias := by
      intro join hj extra hextra a ha
      have hm := r.outward_subset hj
      have hown : a ∈ ResolvedJoin.extraAliases join.extra := hextra ▸ ha
      refine ⟨ownAliases_subset hm (List.mem_cons_of_mem _ hown), fun hintroduced => ?_⟩
      obtain ⟨other, ho, rfl⟩ := List.mem_map.mp hintroduced
      exact extraAliases_disjoint hn hm ho hown
    have hconfined : ∀ join ∈ r.outward, ∀ extra, join.extra = some extra →
        (extra.confined = true ↔ ∀ a ∈ usedAliases (extra.outline join.targetAlias).condition,
          a = join.targetAlias) := by
      intro join hj extra hextra
      refine extra.confined_iff fun ha => (hfresh join hj extra hextra _ ha).2 ?_
      exact List.mem_map_of_mem (r.outward_subset hj)
    constructor
    · intro h join hj extra hextra
      rw [hconfined join hj extra hextra]
      intro a ha
      obtain ⟨test, ht, ha'⟩ := mem_usedAliases.mp ha
      have hintroduced := h a ((hused a).mpr ⟨test, .inr ⟨join, hj, extra, hextra, ht⟩, ha'⟩)
      rcases List.mem_cons.mp (extra.usesOnly_outline _ _ List.mem_cons_self a ha) with rfl | ha
      · rfl
      · obtain ⟨hmem, hnot⟩ := hfresh join hj extra hextra a ha
        exact hintroduced.elim (fun he => absurd hmem (he ▸ hbase)) fun hm => absurd hm hnot
    · intro h a ha
      obtain ⟨test, ht | ⟨join, hj, extra, hextra, ht⟩, ha⟩ := (hused a).mp ha
      · rcases r.aliases_tests tableAlias test ht a ha with he | ⟨other, ho, -, rfl⟩
        · exact .inl he
        · exact .inr (List.mem_map_of_mem ho)
      · have halias := (hconfined join hj extra hextra).mp (h join hj extra hextra) a
          (mem_usedAliases.mpr ⟨test, ht, ha⟩)
        exact .inr (halias ▸ List.mem_map_of_mem (r.outward_subset hj))

/-- The aliases of joins are different, and none of them is the alias of the query. -/
theorem ResolvedQuery.nodup_aliases {catalog : Catalog} {specs : List Recursion}
    {definitions : List ClosureRows} {r : ResolvedQuery} {w v : Workspace} {tableAlias : String}
    (h : Issued catalog specs definitions r.joinAliases w v)
    (hfresh : ∀ n, w.names.aliases ≤ n → tableAlias ≠ NameSupply.subqueryAlias n) :
    (tableAlias :: r.joinAliases).Nodup := by
  refine List.nodup_cons.mpr ⟨fun hm => ?_, h.aliases.nodup ?_⟩
  · obtain ⟨n, hn, he⟩ := List.mem_map.mp (h.aliases.subset hm)
    exact hfresh n (List.mem_range'_1.mp hn).1 he.symm
  · exact List.Pairwise.map _ (fun m n hmn he => hmn (NameSupply.numbered_injective _ he))
      List.nodup_range'

/-- Where aliases are introduced, for a query under an alias that is not issued again. Each ON
clause uses, outside of selects, only the alias of the query and those that clauses up to its own
introduce, exactly when no join other than a cross join tests the condition of a joined query that
has been handed a condition itself. The condition, with the conditions on joined rows, uses only the
alias of the query and those that written clauses introduce exactly when the joins are in a closure,
or none of the conditions on joined rows that are required has been handed a condition. -/
theorem Query.translateUnder_introduces_iff {catalog : Catalog} {useSort : Bool} {q : Query}
    {tableAlias : String} {w v : Workspace} {t : Translation}
    (hfresh : ∀ n, w.names.aliases ≤ n → tableAlias ≠ NameSupply.subqueryAlias n)
    (h : outcome (q.translateUnder catalog useSort tableAlias) w = (.ok t, v)) :
    ∃ r, outcome (q.resolve catalog useSort tableAlias) w = (.ok r, v) ∧
      let o := r.outline tableAlias
      t = o.toTranslation ∧ t.mergeJoinExtras = o.mergeJoinExtras.toTranslation ∧
      ((∀ before clause after, o.joins = before ++ clause :: after →
          ∀ a ∈ usedAliases clause.on,
            a = tableAlias ∨ a ∈ (before ++ [clause]).map (·.tableAlias)) ↔
        ∀ join ∈ r.emitted, join.inlined = true → join.kind ≠ .cross →
          join.query.confined = true) ∧
      ((∀ a ∈ usedAliases o.mergeJoinExtras.condition,
          a = tableAlias ∨ a ∈ o.writtenJoins.map (·.tableAlias)) ↔
        r.keepsJoins = false ∨
          ∀ join ∈ r.outward, ∀ extra ∈ join.extra, extra.confined = true) := by
  obtain ⟨r, hr, rfl⟩ := q.translateUnder_resolve h
  have hn := ResolvedQuery.nodup_aliases (q.resolve_issued hr) hfresh
  obtain ⟨hbase, hjoins⟩ := List.nodup_cons.mp hn
  refine ⟨r, hr, rfl, (Outline.toTranslation_mergeJoinExtras _).symm, ?_, r.usesIntroduced_iff hn⟩
  rw [← r.refersBack_iff (List.mem_singleton_self tableAlias)
    (fun a ha he => hbase (List.mem_singleton.mp he ▸ ha)) hjoins, RefersBack.iff_split]
  refine forall_congr' fun before => forall_congr' fun clause => forall_congr' fun after =>
    forall_congr' fun _ => forall_congr' fun a => forall_congr' fun _ => ?_
  rw [List.map_append, List.map_singleton, List.mem_append, List.mem_append, List.mem_singleton,
    List.mem_singleton]
  exact or_assoc.symm.trans or_comm

/-- A joined query with a condition that joins another one with a condition on its rows. -/
theorem Query.translateUnder_introduces_nested :
    let season : Join :=
      { kind := .inner, fields := [("season", "id")], query := Query.ofEntity "Season"
        extra := some ((Query.ofEntity "Season").equal "active" (.bool true)) }
    let team : Join :=
      { kind := .inner, fields := [("team", "id")]
        query := ((Query.ofEntity "Team").equal "open" (.bool true)).withJoin season }
    (∀ n, 0 ≤ n → NameSupply.mainAlias ≠ NameSupply.subqueryAlias n) ∧
    ∃ (t : Translation) (v : Workspace) (o : Outline),
      outcome (((Query.ofEntity "User").withJoin team).translateUnder {} true
        NameSupply.mainAlias) {} = (.ok t, v) ∧ t = o.toTranslation ∧
      t.joins = ["INNER JOIN `Team` AS S0 ON TB.`team` = S0.`id` AND S0.`open` = ?open1",
        "INNER JOIN `Season` AS S1 ON S0.`season` = S1.`id`"] ∧
      t.mergeJoinExtras.condition = "S1.`active` = ?active2" ∧
      (∀ before clause after, o.joins = before ++ clause :: after →
        ∀ a ∈ usedAliases clause.on, a = "TB" ∨ a ∈ (before ++ [clause]).map (·.tableAlias)) ∧
      o.writtenJoins.map (·.tableAlias) = ["S0", "S1"] ∧
      ∀ a ∈ usedAliases o.mergeJoinExtras.condition,
        a = "TB" ∨ a ∈ o.writtenJoins.map (·.tableAlias) := by
  intro season team
  have hfresh : ∀ n, 0 ≤ n → NameSupply.mainAlias ≠ NameSupply.subqueryAlias n :=
    fun n _ => NameSupply.mainAlias_ne_subqueryAlias n
  have hrun : ∃ t v, outcome (((Query.ofEntity "User").withJoin team).translateUnder {} true
      NameSupply.mainAlias) {} = (.ok t, v) := ⟨_, _, rfl⟩
  obtain ⟨t, v, hrun⟩ := hrun
  obtain ⟨r, hr, ht, hmerged, hon, hcondition⟩ := Query.translateUnder_introduces_iff hfresh hrun
  obtain ⟨hf, rfl⟩ := Prod.mk.inj hr
  obtain rfl := Except.ok.inj hf
  refine ⟨hfresh, t, _, _, hrun, ht, ?_, ?_, hon.mpr ?_, ?_, hcondition.mpr (.inr ?_)⟩
  · rw [ht]
    decide +kernel
  · rw [hmerged]
    decide +kernel
  · decide +kernel
  · decide +kernel
  · decide +kernel

/-- The condition of a cross-joined query is handed to the query that joins it. Where that one is
joined itself, the ON clause of its join uses the alias of a later clause. Where it is a condition
on joined rows, the outer condition uses an alias that no clause introduces. -/
theorem Query.translateUnder_uses_unintroduced :
    let season := (Query.ofEntity "Season").equal "active" (.bool true)
    let team := (Query.ofEntity "Team").joined .cross season
    let early := (Query.ofEntity "User").withJoin
      { kind := .inner, fields := [("team", "id")], query := team }
    let never := (Query.ofEntity "User").withJoin
      { kind := .inner, fields := [("team", "id")], query := Query.ofEntity "Team",
        extra := some team }
    (∃ t v r, outcome (early.translateUnder {} true "TB") {} = (.ok t, v) ∧
      outcome (early.resolve {} true "TB") {} = (.ok r, v) ∧ t = (r.outline "TB").toTranslation ∧
      t.joins = ["INNER JOIN `Team` AS S0 ON TB.`team` = S0.`id` AND S1.`active` = ?active1",
        "CROSS JOIN `Season` AS S1"] ∧
      (r.outline "TB").joins.map (·.tableAlias) = ["S0", "S1"] ∧
      (r.outline "TB").joins.map (fun clause => usedAliases clause.on) =
        [["TB", "S0", "S1"], []]) ∧
    ∃ t v r, outcome (never.translateUnder {} true "TB") {} = (.ok t, v) ∧
      outcome (never.resolve {} true "TB") {} = (.ok r, v) ∧ t = (r.outline "TB").toTranslation ∧
      t.joins = ["INNER JOIN `Team` AS S0 ON TB.`team` = S0.`id`"] ∧
      t.mergeJoinExtras.condition = "S1.`active` = ?active1" ∧
      (r.outline "TB").writtenJoins.map (·.tableAlias) = ["S0"] ∧
      usedAliases (r.outline "TB").mergeJoinExtras.condition = ["S1"] := by
  intro season team early never
  have hearly : ∃ t v, outcome (early.translateUnder {} true "TB") {} = (.ok t, v) := ⟨_, _, rfl⟩
  have hnever : ∃ t v, outcome (never.translateUnder {} true "TB") {} = (.ok t, v) := ⟨_, _, rfl⟩
  constructor
  · obtain ⟨t, v, hrun⟩ := hearly
    obtain ⟨r, hr, ht⟩ := early.translateUnder_resolve hrun
    refine ⟨t, v, r, hrun, hr, ht, ?_⟩
    obtain ⟨hf, rfl⟩ := Prod.mk.inj hr
    obtain rfl := Except.ok.inj hf
    rw [ht]
    exact ⟨by decide +kernel, by decide +kernel, by decide +kernel⟩
  · obtain ⟨t, v, hrun⟩ := hnever
    obtain ⟨r, hr, ht⟩ := never.translateUnder_resolve hrun
    refine ⟨t, v, r, hrun, hr, ht, ?_⟩
    obtain ⟨hf, rfl⟩ := Prod.mk.inj hr
    obtain rfl := Except.ok.inj hf
    rw [ht]
    exact ⟨by decide +kernel, by decide +kernel, by decide +kernel, by decide +kernel⟩

end AbstractSql
