import AbstractSql.Proofs.Outline.Induction

/-!
# Joined queries that are written into the query that joins them

A joined query without set operations and without a closure is not a select of its own. Its joins
are written behind its own clause, its condition goes to the ON clause or to the outer condition,
and the conditions on the rows that it joins itself go to the outer condition.
-/

namespace AbstractSql

/-- Whether a joined query is written into the query that joins it. -/
def ResolvedJoin.inlined (join : ResolvedJoin) : Bool :=
  !join.query.hasArms && join.query.keepsJoins

/-- The joins of a query. A statement text has none. -/
def ResolvedQuery.ownJoins (r : ResolvedQuery) : List ResolvedJoin :=
  if r.text.isSome then [] else r.joins

/-- The test for membership in the closure of a query that is joined under an alias. -/
def ResolvedQuery.membership (r : ResolvedQuery) (tableAlias : String) : List Test :=
  match r.closure with
  | none => []
  | some closure => if r.hasArms then [] else [.member ⟨tableAlias, closure.data⟩ closure.table]

mutual

/-- The joins whose clauses are written with a query, in order. -/
def ResolvedQuery.emitted : ResolvedQuery → List ResolvedJoin
  | { text := some _, .. } => []
  | { text := none, joins, .. } => emittedJoins joins

/-- The joins whose clauses are written with these joins. -/
def emittedJoins : List ResolvedJoin → List ResolvedJoin
  | [] => []
  | { kind, operator, pairs, innerAlias, query, outerAlias, extra } :: rest =>
    { kind, operator, pairs, innerAlias, query, outerAlias, extra }
      :: (if !query.hasArms && query.keepsJoins then query.emitted else [])
      ++ emittedJoins rest

end

mutual

/-- The joins whose conditions on joined rows are required of a query: its own, those of joined
queries that are written into it, and of these, where the join is a cross join, all that they
require themselves. -/
def ResolvedQuery.outward : ResolvedQuery → List ResolvedJoin
  | { text := some _, .. } => []
  | { text := none, joins, .. } => outwardJoins joins

/-- The joins whose conditions on joined rows these joins ask for. -/
def outwardJoins : List ResolvedJoin → List ResolvedJoin
  | [] => []
  | { kind, operator, pairs, innerAlias, query, outerAlias, extra } :: rest =>
    { kind, operator, pairs, innerAlias, query, outerAlias, extra }
      :: (if !query.hasArms && query.keepsJoins then
          if kind = .cross then query.outward else query.ownJoins
        else [])
      ++ outwardJoins rest

end

mutual

/-- The tests of an outer condition that do not come from conditions on joined rows: comparisons of
the query and of queries that are cross-joined to it, and membership in closures of joined queries.
-/
def ResolvedQuery.tests : ResolvedQuery → String → List Test
  | { text := some _, .. }, _ => []
  | { text := none, conditions, joins, .. }, tableAlias =>
    (clauseCriteria conditions).map (ResolvedCriterion.test tableAlias) ++ testsOfJoins joins

/-- The tests that joins hand to the outer condition. -/
def testsOfJoins : List ResolvedJoin → List Test
  | [] => []
  | { kind, innerAlias, query, .. } :: rest =>
    (if !query.hasArms && query.keepsJoins then
      if kind = .cross then query.tests innerAlias else []
    else query.membership innerAlias) ++ testsOfJoins rest

end

namespace ResolvedJoin

/-- The joins of a joined query whose clauses are written after its own. -/
def nested (join : ResolvedJoin) : List ResolvedJoin :=
  if join.inlined then join.query.emitted else []

/-- The joins of a joined query whose conditions on joined rows are handed to the outer condition.
-/
def handedOn (join : ResolvedJoin) : List ResolvedJoin :=
  if join.inlined then if join.kind = .cross then join.query.outward else join.query.ownJoins else []

/-- The tests of a joined query that are handed to the outer condition. -/
def handedTests (join : ResolvedJoin) : List Test :=
  if join.inlined then if join.kind = .cross then join.query.tests join.innerAlias else []
  else join.query.membership join.innerAlias

end ResolvedJoin

namespace Outline

variable {o : Outline} {tableAlias : String} {joins : List ResolvedJoin} {test : Test}

/-- The clauses of joins follow each other. -/
theorem foldl_addTo_joins : (joins.foldl (ResolvedJoin.addTo tableAlias) o).joins =
    o.joins ++ joins.flatMap fun join =>
      join.clause tableAlias join.joined :: join.joined.liftedJoins := by
  induction joins generalizing o with
  | nil => simp
  | cons join rest ih =>
    rw [List.foldl_cons, ih, List.flatMap_cons, ← List.append_assoc]
    rfl

/-- The conditions on joined rows are collected. -/
theorem foldl_addTo_joinExtras : (joins.foldl (ResolvedJoin.addTo tableAlias) o).joinExtras =
    o.joinExtras ++ joins.flatMap fun join => join.required.required := by
  induction joins generalizing o with
  | nil => simp
  | cons join rest ih =>
    rw [List.foldl_cons, ih, List.flatMap_cons, ← List.append_assoc]
    rfl

/-- The condition consists of what was there and what the joined queries hand to it. -/
theorem atom_mem_foldl_addTo :
    .atom test ∈ (joins.foldl (ResolvedJoin.addTo tableAlias) o).condition ↔
      .atom test ∈ o.condition ∨
        ∃ join ∈ joins, ∃ row ∈ join.joined.lifted join.kind, .atom test ∈ row := by
  induction joins generalizing o with
  | nil => simp
  | cons join rest ih =>
    have hstep : .atom test ∈ (join.addTo tableAlias o).condition ↔ .atom test ∈ o.condition ∨
        ∃ row ∈ join.joined.lifted join.kind, .atom test ∈ row := Lexeme.atom_mem_requireAll
    rw [List.foldl_cons, ih, hstep]
    simp only [List.mem_cons, or_and_right, exists_or, exists_eq_left, or_assoc]

/-- Set operations change neither the condition nor the joins. -/
theorem foldl_addArm_clauses (arms : List ResolvedArm) (o : Outline) :
    (arms.foldl ResolvedArm.addTo o).condition = o.condition ∧
      (arms.foldl ResolvedArm.addTo o).joins = o.joins ∧
      (arms.foldl ResolvedArm.addTo o).joinExtras = o.joinExtras ∧
      (arms.foldl ResolvedArm.addTo o).hasOr = o.hasOr := by
  induction arms generalizing o with
  | nil => exact ⟨rfl, rfl, rfl, rfl⟩
  | cons arm rest ih => exact ih _

end Outline

/-- The joins whose clauses are written with these joins: each, and those after it. -/
theorem emittedJoins_eq (joins : List ResolvedJoin) :
    emittedJoins joins = joins.flatMap fun join => join :: join.nested := by
  induction joins with
  | nil => rw [emittedJoins, List.flatMap_nil]
  | cons join rest ih =>
    obtain ⟨kind, operator, pairs, innerAlias, query, outerAlias, extra⟩ := join
    rw [emittedJoins, ih]
    rfl

namespace ResolvedQuery

variable {r : ResolvedQuery} {test : Test}

/-- The joins of a query that is no statement text. -/
theorem ownJoins_eq (h : r.text = none) : r.ownJoins = r.joins := by
  rw [ownJoins, h]
  rfl

/-- A query that is no statement text and keeps its joins has no closure. -/
theorem closure_eq_none (hk : r.keepsJoins = true) (ht : r.text = none) : r.closure = none := by
  simpa [keepsJoins, ht] using hk

/-- The joins of a query are among all its joins. -/
theorem ownJoins_sublist (r : ResolvedQuery) : r.ownJoins.Sublist r.joins := by
  unfold ownJoins
  split
  · exact List.nil_sublist _
  · exact List.Sublist.refl _

/-- The joins whose conditions on joined rows are handed to the condition of a query itself. -/
def handed (r : ResolvedQuery) : List ResolvedJoin := r.ownJoins.flatMap ResolvedJoin.handedOn

/-- The joins whose clauses are written: each own join, and those after it. -/
theorem emitted_eq (r : ResolvedQuery) :
    r.emitted = r.ownJoins.flatMap fun join => join :: join.nested := by
  obtain ⟨table, columns, text, conditions, sorts, arms, joins, closure⟩ := r
  cases text with
  | some raw => rw [emitted]; rfl
  | none => rw [emitted, emittedJoins_eq]; rfl

/-- The joins whose conditions are required: each own join, and those that it hands on. -/
theorem outward_eq (r : ResolvedQuery) :
    r.outward = r.ownJoins.flatMap fun join => join :: join.handedOn := by
  obtain ⟨table, columns, text, conditions, sorts, arms, joins, closure⟩ := r
  cases text with
  | some raw => rw [outward]; rfl
  | none =>
    have hjoins : outwardJoins joins = joins.flatMap fun join => join :: join.handedOn := by
      induction joins with
      | nil => rw [outwardJoins, List.flatMap_nil]
      | cons join rest ih =>
        obtain ⟨kind, operator, pairs, innerAlias, query, outerAlias, extra⟩ := join
        rw [outwardJoins, ih]
        rfl
    rw [outward, hjoins]
    rfl

/-- The tests of a query that is no statement text: its comparisons and what its joins hand on. -/
theorem tests_eq (h : r.text = none) (tableAlias : String) :
    r.tests tableAlias = r.criteria.map (ResolvedCriterion.test tableAlias)
      ++ r.ownJoins.flatMap ResolvedJoin.handedTests := by
  obtain ⟨table, columns, text, conditions, sorts, arms, joins, closure⟩ := r
  obtain rfl : text = none := h
  have hjoins : testsOfJoins joins = joins.flatMap ResolvedJoin.handedTests := by
    induction joins with
    | nil => rw [testsOfJoins, List.flatMap_nil]
    | cons join rest ih =>
      obtain ⟨kind, operator, pairs, innerAlias, query, outerAlias, extra⟩ := join
      rw [testsOfJoins, ih]
      rfl
  rw [tests, hjoins]
  rfl

/-- The clauses of the joins of a query. -/
theorem joins_outline (r : ResolvedQuery) (tableAlias : String) :
    (r.outline tableAlias).joins = r.ownJoins.flatMap fun join =>
      join.clause tableAlias join.joined :: join.joined.liftedJoins := by
  cases ht : r.text with
  | some raw => rw [outline_text ht, ownJoins, ht]; rfl
  | none =>
    have hgathered : (r.gathered tableAlias).joins = r.joins.flatMap fun join =>
        join.clause tableAlias join.joined :: join.joined.liftedJoins := by
      rw [gathered, Outline.foldl_addTo_joins, (Outline.foldl_addArm_clauses ..).2.1]
      rfl
    rw [outline_eq ht, ownJoins_eq ht, ← hgathered]
    cases r.closure <;> rfl

/-- The conditions on joined rows of a query whose joins are written with it. -/
theorem joinExtras_outline (hk : r.keepsJoins = true) (tableAlias : String) :
    (r.outline tableAlias).joinExtras = r.ownJoins.flatMap fun join => join.required.required := by
  cases ht : r.text with
  | some raw => rw [outline_text ht, ownJoins, ht]; rfl
  | none =>
    rw [outline_eq ht, ownJoins_eq ht, closure_eq_none hk ht, Outline.close?, gathered,
      Outline.foldl_addTo_joinExtras, (Outline.foldl_addArm_clauses ..).2.2.1]
    rfl

/-- The condition of such a query tests its comparisons and what joined queries hand to it. -/
theorem atom_mem_outline (hk : r.keepsJoins = true) (ht : r.text = none) (tableAlias : String) :
    .atom test ∈ (r.outline tableAlias).condition ↔ (∃ c ∈ r.criteria, c.test tableAlias = test) ∨
      ∃ join ∈ r.ownJoins, ∃ row ∈ join.joined.lifted join.kind, .atom test ∈ row := by
  rw [outline_eq ht, ownJoins_eq ht, closure_eq_none hk ht, Outline.close?, gathered,
    Outline.atom_mem_foldl_addTo, (Outline.foldl_addArm_clauses ..).1, start, Outline.ofConditions,
    (r.start_writes tableAlias).atoms]

/-- If a closure takes the joins, the condition is membership in its table, and no condition on
joined rows is left. -/
theorem outline_closure (hk : r.keepsJoins = false) (tableAlias : String) :
    ∃ closure : ResolvedClosure, r.text = none ∧ r.closure = some closure ∧
      (r.outline tableAlias).condition = [.atom (.member ⟨tableAlias, closure.data⟩ closure.table)] ∧
      (r.outline tableAlias).joinExtras = [] := by
  obtain ⟨ht, hc⟩ := Bool.or_eq_false_iff.mp hk
  have ht : r.text = none := by simpa using ht
  cases hclosure : r.closure with
  | none => simp [hclosure] at hc
  | some closure =>
    refine ⟨closure, ht, rfl, ?_⟩
    rw [outline_eq ht, hclosure]
    exact ⟨rfl, rfl⟩

end ResolvedQuery

namespace ResolvedJoin

variable {join : ResolvedJoin} {test : Test}

/-- A joined query that is written into the other one has no set operations. -/
theorem hasArms_of_inlined (h : join.inlined = true) : join.query.hasArms = false := by
  simpa using (Bool.and_eq_true_iff.mp h).1

/-- Its joins are written with it. -/
theorem keepsJoins_of_inlined (h : join.inlined = true) : join.query.keepsJoins = true :=
  (Bool.and_eq_true_iff.mp h).2

/-- The joined rows keep the alias of the joined query. -/
theorem targetAlias_of_inlined (h : join.inlined = true) : join.targetAlias = join.innerAlias := by
  rw [targetAlias, hasArms_of_inlined h, if_neg Bool.false_ne_true]

/-- The joins of a joined query are written after its clause where it is written into the other
query. -/
theorem liftedJoins_joined (join : ResolvedJoin) :
    join.joined.liftedJoins = if join.inlined then join.joined.joins else [] := by
  unfold Outline.liftedJoins Outline.writtenJoins joined inlined
  rw [ResolvedQuery.hasArms_outline, ResolvedQuery.allowJoin_outline]
  cases join.query.hasArms <;> rfl

/-- The ON clause of a join other than a cross join tests the condition of a joined query that is
written into the other one, and no other condition. -/
theorem tested_joined (join : ResolvedJoin) : join.joined.tested join.kind =
    if join.inlined && join.kind != .cross then join.joined.condition else [] := by
  unfold Outline.tested Outline.testsInJoin joined inlined
  rw [ResolvedQuery.hasArms_outline, ResolvedQuery.allowJoin_outline]
  cases (join.query.outline join.innerAlias).condition <;> simp

/-- A joined query that is written into the other one hands on its condition, if the join is a cross
join, and the conditions on the rows that it joins itself. -/
theorem atom_mem_lifted (h : join.inlined = true) :
    (∃ row ∈ join.joined.lifted join.kind, .atom test ∈ row) ↔
      (join.kind = .cross ∧ .atom test ∈ join.joined.condition) ∨
        ∃ row ∈ join.joined.joinExtras, .atom test ∈ row := by
  unfold Outline.lifted Outline.testsInJoin joined
  rw [ResolvedQuery.hasArms_outline, ResolvedQuery.allowJoin_outline, hasArms_of_inlined h,
    keepsJoins_of_inlined h]
  cases (join.query.outline join.innerAlias).condition with
  | nil => simp
  | cons lexeme rest => by_cases hk : join.kind = .cross <;> simp [hk, or_and_right, exists_or]

/-- Of a joined query that is not written into the other one, only membership in its closure is
handed on. -/
theorem atom_mem_lifted_of_not_inlined (h : join.inlined = false) :
    (∃ row ∈ join.joined.lifted join.kind, .atom test ∈ row) ↔
      test ∈ join.query.membership join.innerAlias := by
  unfold Outline.lifted joined ResolvedQuery.membership
  rw [ResolvedQuery.hasArms_outline]
  unfold inlined at h
  cases hm : join.query.hasArms with
  | true => cases join.query.closure <;> simp
  | false =>
    rw [hm, Bool.not_false, Bool.true_and] at h
    obtain ⟨closure, -, hclosure, hcondition, hextras⟩ :=
      ResolvedQuery.outline_closure h join.innerAlias
    simp [Outline.testsInJoin, h, hextras, hcondition, hclosure]

end ResolvedJoin

/-- The rows of a condition on joined rows are required where they are anything. -/
theorem atom_mem_required {join : ResolvedJoin} {test : Test} :
    (∃ row ∈ join.required.required, .atom test ∈ row) ↔
      ∃ extra, join.extra = some extra ∧
        .atom test ∈ (extra.outline join.targetAlias).condition := by
  unfold ResolvedJoin.required extraOutline Outline.required
  cases join.extra with
  | none => simp
  | some extra =>
    cases hc : (extra.outline join.targetAlias).condition <;> simp [hc]

/-- Whether a test is one of a condition on the joined rows of one of these joins. -/
def RequiredOf (joins : List ResolvedJoin) (test : Test) : Prop :=
  ∃ join ∈ joins, ∃ extra, join.extra = some extra ∧
    .atom test ∈ (extra.outline join.targetAlias).condition

/-- Of joins of several parts, it is one of a condition of some part. -/
theorem requiredOf_flatMap {joins : List ResolvedJoin} {parts : ResolvedJoin → List ResolvedJoin}
    {test : Test} : RequiredOf (joins.flatMap parts) test ↔
      ∃ join ∈ joins, RequiredOf (parts join) test := by
  simp only [RequiredOf, List.mem_flatMap]
  constructor
  · rintro ⟨other, ⟨join, hj, ho⟩, hrest⟩
    exact ⟨join, hj, other, ho, hrest⟩
  · rintro ⟨join, hj, other, ho, hrest⟩
    exact ⟨other, ⟨join, hj, ho⟩, hrest⟩

namespace ResolvedQuery

variable {r : ResolvedQuery} {test : Test}

/-- The conditions on joined rows of a query require the tests of its own joins. -/
theorem atom_mem_joinExtras (hk : r.keepsJoins = true) (tableAlias : String) :
    (∃ row ∈ (r.outline tableAlias).joinExtras, .atom test ∈ row) ↔ RequiredOf r.ownJoins test := by
  simp only [joinExtras_outline hk, RequiredOf, ← atom_mem_required, List.mem_flatMap]
  constructor
  · rintro ⟨row, ⟨join, hj, hrow⟩, ha⟩
    exact ⟨join, hj, row, hrow, ha⟩
  · rintro ⟨join, hj, row, hrow, ha⟩
    exact ⟨row, ⟨join, hj, hrow⟩, ha⟩

end ResolvedQuery

/-- What a join hands to the outer condition, if what is required of its query is known. -/
theorem ResolvedJoin.atom_mem_handed {join : ResolvedJoin} {test : Test}
    (h : join.inlined = true → (.atom test ∈ join.joined.condition ∨
        (∃ row ∈ join.joined.joinExtras, .atom test ∈ row) ↔
      test ∈ join.query.tests join.innerAlias ∨ RequiredOf join.query.outward test)) :
    (∃ row ∈ join.joined.lifted join.kind, .atom test ∈ row) ↔
      test ∈ join.handedTests ∨ RequiredOf join.handedOn test := by
  unfold handedTests handedOn
  cases hi : join.inlined with
  | false =>
    rw [atom_mem_lifted_of_not_inlined hi]
    simp [RequiredOf]
  | true =>
    rw [atom_mem_lifted hi]
    have hextras : (∃ row ∈ join.joined.joinExtras, .atom test ∈ row) ↔
        RequiredOf join.query.ownJoins test :=
      join.query.atom_mem_joinExtras (keepsJoins_of_inlined hi) join.innerAlias
    by_cases hk : join.kind = .cross
    · simpa [hk] using h hi
    · simpa [hk] using hextras

namespace ResolvedQuery

variable {r : ResolvedQuery} {test : Test}

/-- The condition of a query, if what each of its joins hands to it is known. -/
theorem atom_mem_condition_of (hk : r.keepsJoins = true) (tableAlias : String)
    (h : ∀ join ∈ r.ownJoins, (∃ row ∈ join.joined.lifted join.kind, .atom test ∈ row) ↔
      test ∈ join.handedTests ∨ RequiredOf join.handedOn test) :
    .atom test ∈ (r.outline tableAlias).condition ↔
      test ∈ r.tests tableAlias ∨ RequiredOf r.handed test := by
  cases ht : r.text with
  | some raw =>
    obtain ⟨table, columns, text, conditions, sorts, arms, joins, closure⟩ := r
    obtain rfl : text = some raw := ht
    rw [outline, tests, handed, ownJoins]
    simp [RequiredOf]
  | none =>
    rw [atom_mem_outline hk ht, tests_eq ht, List.mem_append, List.mem_map, handed,
      requiredOf_flatMap, or_assoc, List.mem_flatMap, ← exists_or]
    refine or_congr Iff.rfl (exists_congr fun join => ?_)
    rw [← and_or_left]
    exact and_congr_right fun hj => h join hj

/-- The condition of a query and its conditions on joined rows consist of its tests and of those
required of joined rows. -/
theorem atom_mem_rows (r : ResolvedQuery) : ∀ tableAlias, r.keepsJoins = true →
    (.atom test ∈ (r.outline tableAlias).condition ∨
        (∃ row ∈ (r.outline tableAlias).joinExtras, .atom test ∈ row) ↔
      test ∈ r.tests tableAlias ∨ RequiredOf r.outward test) := by
  induction r using ResolvedQuery.induction with | step r within
  intro tableAlias hk
  have hhanded : ∀ join ∈ r.ownJoins, (∃ row ∈ join.joined.lifted join.kind, .atom test ∈ row) ↔
      test ∈ join.handedTests ∨ RequiredOf join.handedOn test := fun join hj =>
    join.atom_mem_handed fun hi => within.joined join (r.ownJoins_sublist.subset hj)
      join.innerAlias (ResolvedJoin.keepsJoins_of_inlined hi)
  have hown : RequiredOf r.outward test ↔
      RequiredOf r.ownJoins test ∨ RequiredOf r.handed test := by
    rw [outward_eq, handed, requiredOf_flatMap, requiredOf_flatMap]
    simp [RequiredOf, and_or_left, exists_or]
  rw [atom_mem_condition_of hk tableAlias hhanded, atom_mem_joinExtras hk, hown, or_assoc,
    or_comm (a := RequiredOf r.handed test)]

/-- The condition of a query consists of its tests and of those required of joined rows that are
handed to it. -/
theorem atom_mem_condition (hk : r.keepsJoins = true) (tableAlias : String) :
    .atom test ∈ (r.outline tableAlias).condition ↔
      test ∈ r.tests tableAlias ∨ RequiredOf r.handed test :=
  atom_mem_condition_of hk tableAlias fun join _ =>
    join.atom_mem_handed fun hi =>
      join.query.atom_mem_rows join.innerAlias (ResolvedJoin.keepsJoins_of_inlined hi)

/-- The joins whose conditions on joined rows are required are written with the query. -/
theorem outward_subset (r : ResolvedQuery) : r.outward ⊆ r.emitted := by
  induction r using ResolvedQuery.induction with | step r within
  intro other ho
  rw [outward_eq] at ho
  rw [emitted_eq]
  obtain ⟨join, hj, ho⟩ := List.mem_flatMap.mp ho
  refine List.mem_flatMap.mpr ⟨join, hj, ?_⟩
  rcases List.mem_cons.mp ho with rfl | ho
  · exact List.mem_cons_self
  · refine List.mem_cons_of_mem _ ?_
    unfold ResolvedJoin.handedOn at ho
    unfold ResolvedJoin.nested
    split at ho
    · next hi =>
      rw [if_pos hi]
      split at ho
      · exact within.joined join (r.ownJoins_sublist.subset hj) ho
      · rw [emitted_eq]
        exact List.mem_flatMap.mpr ⟨other, ho, List.mem_cons_self⟩
    · exact absurd ho List.not_mem_nil

end ResolvedQuery

end AbstractSql
