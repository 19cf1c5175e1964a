import AbstractSql.Proofs.Outline.Matching
import Mathlib.Logic.Relation

/-!
# What is written at every depth

The clauses of a query hold tests and joined tables, and these hold selects with clauses of their
own. A law for tests and for tables that are joined in one select is obeyed when it holds at every
depth. Whatever stands there comes from the query or from a query in it, so a law that the parts of
each of these obey is obeyed by all that is written.
-/

namespace AbstractSql

/-- A law for tests and for the tables that are joined in one select. -/
structure Law where
  /-- What holds of tests. -/
  test : Test → Prop
  /-- What holds of joined tables. -/
  tables : List JoinClause → Prop
  /-- It holds where nothing is joined. -/
  alone : tables []

mutual

/-- A test obeys a law, and so does the select that it compares with. -/
def Test.Obeys (law : Law) : Test → Prop
  | .missing tableAlias reference operator => law.test (.missing tableAlias reference operator)
  | .value tableAlias reference operator parameter =>
    law.test (.value tableAlias reference operator parameter)
  | .text tableAlias reference operator raw => law.test (.text tableAlias reference operator raw)
  | .rows tableAlias reference operator limit sorts column select =>
    law.test (.rows tableAlias reference operator limit sorts column select) ∧ select.Obeys law
  | .pair left operator right => law.test (.pair left operator right)
  | .member column table => law.test (.member column table)

/-- The tests of a condition obey a law. -/
def rowObeys (law : Law) : List (Lexeme Test) → Prop
  | [] => True
  | lexeme :: rest => lexemeObeys law lexeme ∧ rowObeys law rest

/-- A part of a condition obeys a law. -/
def lexemeObeys (law : Law) : Lexeme Test → Prop
  | .atom test => test.Obeys law
  | .connector _ => True
  | .opening => True
  | .closing => True

/-- The clauses of a select obey a law. -/
def Select.Obeys (law : Law) : Select → Prop
  | ⟨_, _, _, joins, condition, arms⟩ =>
    law.tables joins ∧ joinsObey law joins ∧ rowObeys law condition ∧ armsObey law arms

/-- Joined tables obey a law. -/
def joinsObey (law : Law) : List JoinClause → Prop
  | [] => True
  | join :: rest => join.Obeys law ∧ joinsObey law rest

/-- A joined table obeys a law, with its rows and what they are matched on. -/
def JoinClause.Obeys (law : Law) : JoinClause → Prop
  | ⟨_, source, _, on⟩ => source.Obeys law ∧ rowObeys law on

/-- The rows of a joined table obey a law. -/
def JoinSource.Obeys (law : Law) : JoinSource → Prop
  | .table _ => True
  | .derived select => select.Obeys law

/-- Set operations obey a law. -/
def armsObey (law : Law) : List Arm → Prop
  | [] => True
  | arm :: rest => arm.Obeys law ∧ armsObey law rest

/-- A set operation obeys a law. -/
def Arm.Obeys (law : Law) : Arm → Prop
  | .select _ select => select.Obeys law
  | .text .. => True

end

variable {law : Law}

/-- A condition obeys a law when its tests do. -/
theorem rowObeys_iff {row : List (Lexeme Test)} :
    rowObeys law row ↔ ∀ test, .atom test ∈ row → test.Obeys law := by
  induction row with
  | nil => simp [rowObeys]
  | cons lexeme rest ih =>
    rw [rowObeys, ih]
    cases lexeme with
    | atom test =>
      rw [lexemeObeys]
      simp only [List.mem_cons, Lexeme.atom.injEq, forall_eq_or_imp]
    | connector => simp [lexemeObeys]
    | opening => simp [lexemeObeys]
    | closing => simp [lexemeObeys]

/-- Joined tables obey a law when each of them does. -/
theorem joinsObey_iff {joins : List JoinClause} :
    joinsObey law joins ↔ ∀ join ∈ joins, join.Obeys law := by
  induction joins with
  | nil => simp [joinsObey]
  | cons join rest ih => rw [joinsObey, ih, List.forall_mem_cons]

/-- Set operations obey a law when each of them does. -/
theorem armsObey_iff {arms : List Arm} : armsObey law arms ↔ ∀ arm ∈ arms, arm.Obeys law := by
  induction arms with
  | nil => simp [armsObey]
  | cons arm rest ih => rw [armsObey, ih, List.forall_mem_cons]

namespace Outline

/-- The clauses of a query obey a law one by one. -/
structure ObeysEach (law : Law) (o : Outline) : Prop where
  /-- The conditions do. -/
  rows : ∀ row ∈ o.rows, ∀ test, .atom test ∈ row → test.Obeys law
  /-- The joined tables do. -/
  joins : ∀ join ∈ o.joins, join.Obeys law
  /-- The set operations do. -/
  arms : ∀ arm ∈ o.arms, arm.Obeys law
  /-- The first rows of closure tables do. -/
  definitions : ∀ definition ∈ o.definitions, definition.first.Obeys law

/-- All clauses of a query obey a law. -/
structure Obeys (law : Law) (o : Outline) : Prop extends ObeysEach law o where
  /-- The joined tables do so together. -/
  tables : law.tables o.joins

variable {o joined extra : Outline}

namespace Obeys

/-- Without clauses there is nothing to obey. -/
theorem empty (text : Option String) : Obeys law { text } :=
  ⟨⟨by simp [Outline.rows], by simp, by simp, by simp⟩, law.alone⟩

/-- Joins that are written obey the law. -/
theorem writtenJoins (ho : o.Obeys law) :
    law.tables o.writtenJoins ∧ ∀ join ∈ o.writtenJoins, join.Obeys law := by
  unfold Outline.writtenJoins
  split
  · exact ⟨ho.tables, ho.joins⟩
  · exact ⟨law.alone, by simp⟩

/-- The select of clauses that obey a law obeys it. -/
theorem select (ho : o.Obeys law) (columns : List String) (table tableAlias : String) :
    (o.select columns table tableAlias).Obeys law := by
  rw [Outline.select, Select.Obeys, joinsObey_iff, rowObeys_iff, armsObey_iff]
  exact ⟨ho.writtenJoins.1, ho.writtenJoins.2, ho.rows o.condition List.mem_cons_self, ho.arms⟩

/-- A set operation with clauses that obey a law obeys it. -/
theorem armClause (ho : o.Obeys law) (arm : ResolvedArm) : (armClause arm o).Obeys law := by
  unfold Outline.armClause
  split
  · rw [Arm.Obeys]
    trivial
  · rw [Arm.Obeys, Outline.select, Select.Obeys, joinsObey_iff, rowObeys_iff, armsObey]
    exact ⟨ho.writtenJoins.1, ho.writtenJoins.2, ho.rows o.condition List.mem_cons_self, trivial⟩

/-- The clause of a join obeys a law when the clauses of the joined query do, and the comparisons of
columns in it. -/
theorem clause (hj : joined.Obeys law) {tableAlias : String} {join : ResolvedJoin}
    (hpairs : ∀ test ∈ join.pairTests tableAlias, test.Obeys law) :
    (join.clause tableAlias joined).Obeys law := by
  rw [ResolvedJoin.clause, JoinClause.Obeys, rowObeys_iff]
  refine ⟨?_, fun test ht => ?_⟩
  · split
    · rw [JoinSource.Obeys]
      exact hj.select _ _ _
    · rw [JoinSource.Obeys]
      trivial
  · rcases Lexeme.atom_mem_afterAtoms.mp ht with ht | ht
    · exact hpairs test ht
    · unfold Outline.tested at ht
      split at ht
      · exact hj.rows joined.condition List.mem_cons_self test ht
      · exact absurd ht List.not_mem_nil

end Obeys

namespace ObeysEach

/-- Adding a set operation. -/
theorem addArm (ho : o.ObeysEach law) (hj : joined.Obeys law) (arm : ResolvedArm) :
    (o.addArm arm joined).ObeysEach law where
  rows := ho.rows
  joins := ho.joins
  arms := List.forall_mem_append.mpr ⟨ho.arms, List.forall_mem_singleton.mpr (hj.armClause arm)⟩
  definitions := List.forall_mem_append.mpr ⟨ho.definitions, hj.definitions⟩

/-- Adding a join. -/
theorem addJoin (ho : o.ObeysEach law) (hj : joined.Obeys law) (he : extra.Obeys law)
    {tableAlias : String} {join : ResolvedJoin}
    (hpairs : ∀ test ∈ join.pairTests tableAlias, test.Obeys law) :
    (o.addJoin tableAlias join joined extra).ObeysEach law where
  rows row hrow test ht := by
    rcases List.mem_cons.mp hrow with rfl | hrow
    · rcases Lexeme.atom_mem_requireAll.mp ht with ht | ⟨row, hrow, ht⟩
      · exact ho.rows o.condition List.mem_cons_self test ht
      · exact hj.rows row (mem_rows_of_lifted hrow) test ht
    · rcases List.mem_append.mp hrow with hrow | hrow
      · exact ho.rows row (List.mem_cons_of_mem _ hrow) test ht
      · exact he.rows row (mem_rows_of_required hrow) test ht
  joins := by
    refine List.forall_mem_append.mpr ⟨ho.joins, List.forall_mem_cons.mpr ⟨?_, ?_⟩⟩
    · exact hj.clause hpairs
    · unfold liftedJoins
      split
      · simp
      · exact hj.writtenJoins.2
  arms := ho.arms
  definitions := List.forall_mem_append.mpr
    ⟨List.forall_mem_append.mpr ⟨ho.definitions, he.definitions⟩, hj.definitions⟩

/-- Moving the conditions on joined rows into the condition. -/
theorem mergeJoinExtras (ho : o.ObeysEach law) : o.mergeJoinExtras.ObeysEach law where
  rows row hrow test ht := by
    obtain rfl := List.mem_singleton.mp hrow
    rcases Lexeme.atom_mem_requireAll.mp ht with ht | ⟨row, hrow, ht⟩
    · exact ho.rows o.condition List.mem_cons_self test ht
    · exact ho.rows row (List.mem_cons_of_mem _ hrow) test ht
  joins := ho.joins
  arms := ho.arms
  definitions := ho.definitions

/-- Closing the rows of tables that obey the law together. -/
theorem close (ho : o.ObeysEach law) (htables : law.tables o.joins) (table tableAlias : String)
    {closure : ResolvedClosure}
    (hmember : law.test (.member ⟨tableAlias, closure.data⟩ closure.table)) :
    (o.close table tableAlias closure).ObeysEach law where
  rows row hrow test ht := by
    obtain rfl := List.mem_singleton.mp hrow
    obtain rfl := Lexeme.atom.inj (List.mem_singleton.mp ht)
    rwa [Test.Obeys]
  joins := ho.joins
  arms := ho.arms
  definitions := by
    refine List.forall_mem_append.mpr ⟨ho.definitions, List.forall_mem_singleton.mpr ?_⟩
    rw [closureRows, Select.Obeys, joinsObey_iff, rowObeys_iff, armsObey]
    exact ⟨htables, ho.joins, ho.mergeJoinExtras.rows _ List.mem_cons_self, trivial⟩

end ObeysEach

/-- Moving the conditions on joined rows into the condition. -/
theorem Obeys.mergeJoinExtras (ho : o.Obeys law) : o.mergeJoinExtras.Obeys law :=
  ⟨ho.toObeysEach.mergeJoinExtras, ho.tables⟩

end Outline

namespace ResolvedQuery

/-- A query is directly in another one under an alias: compared, combined or joined with it, or as a
condition on joined rows. -/
inductive Direct (r : ResolvedQuery) : String → ResolvedQuery → Prop where
  /-- In a comparison. -/
  | compared {reference : Reference} {operator : Comparison} {limit : SubqueryLimit}
      {column tableAlias : String} {query : ResolvedQuery}
      (h : .rows reference operator limit column tableAlias query ∈ r.criteria) :
      Direct r tableAlias query
  /-- In a set operation. -/
  | combined {arm : ResolvedArm} (h : arm ∈ r.arms) : Direct r arm.tableAlias arm.query
  /-- In a join. -/
  | joined {join : ResolvedJoin} (h : join ∈ r.joins) : Direct r join.innerAlias join.query
  /-- As a condition on joined rows. -/
  | required {join : ResolvedJoin} {extra : ResolvedQuery} (h : join ∈ r.joins)
      (he : join.extra = some extra) : Direct r join.targetAlias extra

/-- A query under its alias is another one or in it, at any depth. -/
abbrev Part : String × ResolvedQuery → String × ResolvedQuery → Prop :=
  Relation.ReflTransGen fun r part => r.2.Direct part.1 part.2

/-- What a query itself is written with under an alias obeys a law. -/
structure Obeys (law : Law) (r : ResolvedQuery) (tableAlias : String) : Prop where
  /-- The tests of its comparisons. -/
  criterion : ∀ c ∈ r.criteria, law.test (c.test tableAlias)
  /-- The comparisons of columns in its joins. -/
  pair : ∀ join ∈ r.joins, ∀ test ∈ join.pairTests tableAlias, law.test test
  /-- The test for membership in its closure. -/
  member : ∀ closure, r.closure = some closure →
    law.test (.member ⟨tableAlias, closure.data⟩ closure.table)
  /-- The tables that are joined to it. -/
  tables : law.tables (r.outline tableAlias).joins

/-- Before a closure takes the clauses the same tables are joined. -/
theorem joins_gathered {r : ResolvedQuery} (ht : r.text = none) (tableAlias : String) :
    (r.gathered tableAlias).joins = (r.outline tableAlias).joins := by
  rw [outline_eq ht]
  cases r.closure <;> rfl

/-- A law that every query in a query obeys by itself is obeyed at every depth. -/
theorem obeys_outline (r : ResolvedQuery) : ∀ tableAlias,
    (∀ part, Part (tableAlias, r) part → part.2.Obeys law part.1) →
    (r.outline tableAlias).Obeys law := by
  induction r using ResolvedQuery.induction with | step r within
  intro tableAlias hparts
  have hown : r.Obeys law tableAlias := hparts (tableAlias, r) .refl
  have hdirect : ∀ {innerAlias query}, r.Direct innerAlias query →
      ∀ part, Part (innerAlias, query) part → part.2.Obeys law part.1 :=
    fun hd part hp => hparts part (.head hd hp)
  have hrequired : ∀ join ∈ r.joins, join.required.Obeys law := by
    intro join hm
    unfold ResolvedJoin.required extraOutline
    split
    · exact .empty none
    · next extra he => exact within.extra join hm extra he _ (hdirect (.required hm he))
  have hstart := r.start_writes tableAlias
  have hcompared : ∀ c ∈ r.criteria, (c.test tableAlias).Obeys law ∧
      ∀ d ∈ c.definitions, d.first.Obeys law := by
    intro c hc
    have hlaw := hown.criterion c hc
    match c, hc with
    | .missing .., _ => exact ⟨by rwa [ResolvedCriterion.test, Test.Obeys], by
        simp [ResolvedCriterion.definitions]⟩
    | .value .., _ => exact ⟨by rwa [ResolvedCriterion.test, Test.Obeys], by
        simp [ResolvedCriterion.definitions]⟩
    | .text .., _ => exact ⟨by rwa [ResolvedCriterion.test, Test.Obeys], by
        simp [ResolvedCriterion.definitions]⟩
    | .rows _ _ _ _ innerAlias query, hc =>
      have hquery := within.compared hc innerAlias (hdirect (.compared hc))
      refine ⟨?_, hquery.definitions⟩
      rw [ResolvedCriterion.test] at hlaw ⊢
      rw [Test.Obeys]
      exact ⟨hlaw, hquery.select _ _ _⟩
  cases ht : r.text with
  | some raw =>
    rw [outline_text ht]
    exact .empty _
  | none =>
    have hgathered : (r.gathered tableAlias).ObeysEach law := by
      refine gathered_of_steps ?_ ?_ ?_
      · refine ⟨fun row hrow test ht => ?_, by simp [start, Outline.ofConditions],
          by simp [start, Outline.ofConditions], fun d hd => ?_⟩
        · obtain rfl := List.mem_singleton.mp hrow
          obtain ⟨c, hc, rfl⟩ := (hstart.atoms test).mp ht
          exact (hcompared c hc).1
        · have hdefinitions : (r.start tableAlias).definitions =
              r.criteria.flatMap ResolvedCriterion.definitions := hstart.definitions
          rw [hdefinitions] at hd
          obtain ⟨c, hc, hd⟩ := List.mem_flatMap.mp hd
          exact (hcompared c hc).2 d hd
      · intro o arm ha ho
        exact ho.addArm (within.arm arm ha arm.tableAlias (hdirect (.combined ha))) arm
      · intro o join hm ho
        have hjoined := within.joined join hm join.innerAlias (hdirect (.joined hm))
        refine ho.addJoin hjoined (hrequired join hm) fun test ht => ?_
        have hlaw := hown.pair join hm test ht
        obtain ⟨pair, -, rfl⟩ := List.mem_map.mp ht
        rwa [Test.Obeys]
    have htables := hown.tables
    refine ⟨?_, htables⟩
    rw [← joins_gathered ht] at htables
    rw [outline_eq ht]
    cases hc : r.closure with
    | none => exact hgathered
    | some closure => exact hgathered.close htables r.table tableAlias (hown.member closure hc)

end ResolvedQuery

end AbstractSql
