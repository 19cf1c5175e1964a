import AbstractSql.Proofs.Outline.Aliases
import AbstractSql.Proofs.Predicate.Requiring
import Mathlib

/-!
# The outer condition

The joins of a query add to its condition: first what the joined queries hand on, then the
conditions on joined rows. What a join adds uses aliases of that join only, so where aliases are
different, each test of the outer condition that uses one of a join has been added by that join.
-/

namespace AbstractSql

namespace Outline

variable {o : Outline} {tableAlias : String} {joins : List ResolvedJoin}

/-- What joined queries hand on is required, one after the other. -/
theorem foldl_addTo_requireAll :
    (joins.foldl (ResolvedJoin.addTo tableAlias) o).condition =
        Lexeme.requireAll o.hasOr o.condition
          (joins.flatMap fun join => join.joined.lifted join.kind) ∧
      (joins.foldl (ResolvedJoin.addTo tableAlias) o).hasOr =
        (o.hasOr && (joins.flatMap fun join => join.joined.lifted join.kind).all List.isEmpty) := by
  induction joins generalizing o with
  | nil => simp [Lexeme.requireAll]
  | cons join rest ih =>
    obtain ⟨hcondition, hor⟩ := ih (o := join.addTo tableAlias o)
    rw [List.foldl_cons, hcondition, hor, List.flatMap_cons, Lexeme.requireAll_append,
      List.all_append, ← Bool.and_assoc]
    exact ⟨rfl, rfl⟩

end Outline

namespace ResolvedJoin

/-- The conditions that a join adds to the outer one: what the joined query hands on, and the
condition on joined rows. -/
def adds (join : ResolvedJoin) : List (List (Lexeme Test)) :=
  (join.joined.lifted join.kind ++ join.required.required).filter fun row => !row.isEmpty

/-- They are rows of terms that use only aliases of the join. -/
theorem adds_spec {join : ResolvedJoin} {row : List (Lexeme Test)}
    (h : row ∈ join.joined.lifted join.kind ++ join.required.required) :
    Lexeme.IsSum row ∧ usedAliases row ⊆ join.aliases := by
  rcases List.mem_append.mp h with h | h
  · have hrow := Outline.mem_rows_of_lifted h
    refine ⟨(join.query.plain_outline join.innerAlias row hrow).1, fun a ha => ?_⟩
    exact join.query_aliases_subset (join.query.usesOnly_outline join.innerAlias row hrow a ha)
  · unfold required extraOutline at h
    split at h
    · exact absurd h List.not_mem_nil
    · next extra hextra =>
      have hrow := Outline.mem_rows_of_required h
      refine ⟨(extra.plain_outline join.targetAlias row hrow).1, fun a ha => ?_⟩
      rcases List.mem_cons.mp (extra.usesOnly_outline join.targetAlias row hrow a ha) with rfl | ha
      · exact join.targetAlias_mem
      · refine join.extraAliases_subset ?_
        rw [hextra]
        exact ha

end ResolvedJoin

namespace ResolvedQuery

variable {r : ResolvedQuery} {tableAlias : String} {test : Test}

/-- The conditions of a query itself. -/
def own (r : ResolvedQuery) (tableAlias : String) : ConditionOutline :=
  clausesOutline tableAlias r.conditions {}

/-- All that the joins of a query add to its conditions: first what the joined queries hand on, then
the conditions on joined rows. -/
def added (r : ResolvedQuery) : List (List (Lexeme Test)) :=
  (r.joins.flatMap fun join => join.joined.lifted join.kind) ++
    r.joins.flatMap fun join => join.required.required

/-- The outer condition: the conditions of a query with all that its joins add. -/
def outer (r : ResolvedQuery) (tableAlias : String) : List (Lexeme Test) :=
  Lexeme.requireAll (r.own tableAlias).hasOr (r.own tableAlias).row r.added

/-- What is added is added by some join. -/
theorem mem_added {row : List (Lexeme Test)} : row ∈ r.added ↔
    ∃ join ∈ r.joins, row ∈ join.joined.lifted join.kind ++ join.required.required := by
  simp only [added, List.mem_append, List.mem_flatMap, ← exists_or, and_or_left]

/-- It is the condition of the clauses before a closure takes them. -/
theorem merged_gathered (r : ResolvedQuery) (tableAlias : String) :
    (r.gathered tableAlias).mergeJoinExtras.condition = r.outer tableAlias := by
  obtain ⟨hcondition, -, hextras, hor⟩ := Outline.foldl_addArm_clauses r.arms (r.start tableAlias)
  obtain ⟨hjoins, hjoinsOr⟩ := @Outline.foldl_addTo_requireAll
    (r.arms.foldl ResolvedArm.addTo (r.start tableAlias)) tableAlias r.joins
  rw [hcondition, hor] at hjoins
  rw [hor] at hjoinsOr
  have hrequired : (r.gathered tableAlias).joinExtras =
      r.joins.flatMap fun join => join.required.required := by
    rw [gathered, Outline.foldl_addTo_joinExtras, hextras]
    rfl
  change Lexeme.requireAll (r.gathered tableAlias).hasOr (r.gathered tableAlias).condition
    (r.gathered tableAlias).joinExtras = _
  rw [hrequired, gathered, hjoins, hjoinsOr, outer, added, Lexeme.requireAll_append]
  rfl

/-- Without a closure it is that of a statement, with one that of the first rows. -/
theorem outer_written (ht : r.text = none) (tableAlias : String) :
    (r.closure = none →
      (r.outline tableAlias).mergeJoinExtras.condition = r.outer tableAlias) ∧
    ∀ closure, r.closure = some closure → ∃ (earlier : List ClosureRows) (d : ClosureRows),
      (r.outline tableAlias).definitions = earlier ++ [d] ∧
        d.first.condition = r.outer tableAlias := by
  rw [outline_eq ht]
  refine ⟨fun hc => ?_, fun closure hc => ?_⟩
  · rw [hc]
    exact r.merged_gathered tableAlias
  · rw [hc]
    exact ⟨_, _, rfl, r.merged_gathered tableAlias⟩

/-- What becomes of the conditions and of what joins add to them. -/
theorem conjoins_outer (r : ResolvedQuery) (tableAlias : String) :
    Lexeme.Conjoins (r.own tableAlias).hasOr (r.own tableAlias).row r.added :=
  Lexeme.conjoins (r.start_writes tableAlias).sum (fun row hrow => by
    obtain ⟨join, -, hrow⟩ := mem_added.mp hrow
    exact (ResolvedJoin.adds_spec hrow).1) _

/-- The tests of the outer condition are comparisons of the query itself and tests that joins add.
-/
theorem atom_mem_outer : .atom test ∈ r.outer tableAlias ↔
    (∃ c ∈ r.criteria, c.test tableAlias = test) ∨
      ∃ join ∈ r.joins, ∃ row ∈ join.joined.lifted join.kind ++ join.required.required,
        .atom test ∈ row := by
  rw [outer, Lexeme.atom_mem_requireAll, own, (r.start_writes tableAlias).atoms]
  refine or_congr Iff.rfl ⟨?_, ?_⟩
  · rintro ⟨row, hrow, hm⟩
    obtain ⟨join, hj, hrow⟩ := mem_added.mp hrow
    exact ⟨join, hj, row, hrow, hm⟩
  · rintro ⟨join, hj, row, hrow, hm⟩
    exact ⟨row, mem_added.mpr ⟨join, hj, hrow⟩, hm⟩

/-- Where the aliases of a query are different, so are those of each join. -/
theorem nodup_join (hn : r.joinAliases.Nodup) {join : ResolvedJoin} (hj : join ∈ r.joins) :
    join.aliases.Nodup := by
  rw [joinAliases_eq] at hn
  exact (List.nodup_flatMap.mp hn).1 join hj

/-- A test for membership in a closure uses the alias that the closure is asked for under. -/
theorem alias_mem_of_membership (h : test ∈ r.membership tableAlias) :
    tableAlias ∈ test.aliases := by
  unfold membership at h
  split at h
  · exact absurd h List.not_mem_nil
  · split at h
    · exact absurd h List.not_mem_nil
    · exact List.mem_singleton.mp h ▸ List.mem_cons_self

/-- The tests of the outer condition that use an alias of a join are added by that join. -/
theorem added_by_join (hn : (tableAlias :: r.joinAliases).Nodup) {join : ResolvedJoin}
    (hj : join ∈ r.joins) {a : String} (ha : a ∈ join.aliases)
    (hm : .atom test ∈ r.outer tableAlias) (htest : a ∈ test.aliases) :
    ∃ row ∈ join.joined.lifted join.kind ++ join.required.required, .atom test ∈ row := by
  obtain ⟨hbase, hjoins⟩ := List.nodup_cons.mp hn
  rcases atom_mem_outer.mp hm with ⟨c, -, rfl⟩ | ⟨other, ho, row, hrow, hm⟩
  · rw [c.aliases_test, List.mem_singleton] at htest
    exact absurd (htest ▸ aliases_subset hj ha) hbase
  · have hother : a ∈ other.aliases :=
      (ResolvedJoin.adds_spec hrow).2 (mem_usedAliases.mpr ⟨test, hm, htest⟩)
    rw [joinAliases_eq] at hjoins
    have : Std.Symm (Function.onFun List.Disjoint ResolvedJoin.aliases) :=
      ⟨fun _ _ h _ ha hb => h hb ha⟩
    by_cases he : other = join
    · exact ⟨row, he ▸ hrow, hm⟩
    · exact absurd ha ((List.nodup_flatMap.mp hjoins).2.forall ho hj he hother)

end ResolvedQuery

end AbstractSql
