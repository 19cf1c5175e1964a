import AbstractSql.Proofs.Outcome
import AbstractSql.Proofs.Outline.Texts
import AbstractSql.Proofs.Translation.Whole

/-!
# Translations are written outlines

A translation that succeeds has issued the names of a resolved query, and its clauses are what the
outline of that query writes. So a property of the clauses can be shown of the outline, by recursion
on a tree that knows its names already.
-/

namespace AbstractSql

open Identifier (quote qualify under)

namespace Translating

variable {catalog : Catalog} {w v : Workspace}

/-- The left-hand side of a test is written as the reference to its property. -/
theorem reference_eq (catalog : Catalog) (entity tableAlias property : String)
    (conversion : Option Conversion) :
    catalog.reference entity tableAlias property conversion =
      (resolveReference catalog entity property conversion).map (Reference.sql tableAlias) := by
  unfold Catalog.reference resolveReference
  cases conversion with
  | none => rfl
  | some conversion =>
    simp only [Conversion.render]
    split <;> rfl

/-- A lifted result is returned as it is. -/
theorem lift_reference {entity tableAlias property reference : String}
    {conversion : Option Conversion}
    (h : outcome (lift (catalog.reference entity tableAlias property conversion)) w =
      (.ok reference, v)) :
    ∃ r, outcome (lift (resolveReference catalog entity property conversion)) w = (.ok r, v) ∧
      reference = Reference.sql tableAlias r := by
  rw [outcome_lift_eq_ok, reference_eq] at h
  obtain ⟨hmapped, rfl⟩ := h
  obtain ⟨r, hr, rfl⟩ := map_eq_ok.mp hmapped
  exact ⟨r, outcome_lift_eq_ok.mpr ⟨hr, rfl⟩, rfl⟩

/-- What a resolved query knows of the query itself. -/
structure Resolves (catalog : Catalog) (q : Query) (r : ResolvedQuery) : Prop where
  /-- The table. -/
  table : r.table = catalog.table q.entity
  /-- The columns that its select lists. -/
  columns : r.columns = resolveColumns catalog q.entity q.fields
  /-- Whether it is a statement text. -/
  text : r.text.isSome = q.isText

end Translating

open Translating

variable {catalog : Catalog} {w v : Workspace}

/-- How a query that is no statement text is resolved, one clause after the other. Looking things up
issues no names. -/
structure Query.ResolveSteps (catalog : Catalog) (useSort : Bool) (q : Query) (tableAlias : String)
    (w v : Workspace) (r : ResolvedQuery) (own others : List ResolvedJoin)
    (w₁ w₂ w₃ w₄ : Workspace) : Prop where
  /-- It is no statement text either. -/
  text : r.text = none
  /-- The table is looked up. -/
  table : r.table = catalog.table q.entity
  /-- The columns are looked up. -/
  columns : r.columns = resolveColumns catalog q.entity q.fields
  /-- The sort entries are looked up. -/
  sorts : requestedSorts catalog useSort q.entity tableAlias q.sorts = .ok r.sorts
  /-- The joins are those of the query and those that stand for set operations. -/
  joins : r.joins = own ++ others
  /-- The conditions come first. -/
  conditions : outcome (resolveClauses catalog q.entity q.conditions) w = (.ok r.conditions, w₁)
  /-- Then the set operations that the server has. -/
  arms : outcome (resolveArms catalog q q.combines) w₁ = (.ok r.arms, w₂)
  /-- Then the joins of the query. -/
  own : outcome (resolveJoins catalog q.entity q.joins) w₂ = (.ok own, w₃)
  /-- Then the joins that stand for set operations. -/
  others : outcome (resolveMatches catalog q.entity q.combines) w₃ = (.ok others, w₄)
  /-- The closure comes last. -/
  closure : outcome (resolveClosure catalog q.entity q.recurve) w₄ = (.ok r.closure, v)

/-- A query that is no statement text is resolved in these steps. -/
theorem Query.resolve_steps {q : Query} {useSort : Bool} {tableAlias : String} {r : ResolvedQuery}
    (ht : q.text = none) (h : outcome (q.resolve catalog useSort tableAlias) w = (.ok r, v)) :
    ∃ own others w₁ w₂ w₃ w₄,
      q.ResolveSteps catalog useSort tableAlias w v r own others w₁ w₂ w₃ w₄ := by
  obtain ⟨entity, text, conditions, sorts, joins, combines, recurve, paging, size, fields,
    isolation⟩ := q
  obtain rfl : text = none := ht
  simp only [Query.resolve, outcome_bind_eq_ok, outcome_pure_eq_ok] at h
  obtain ⟨_, _, hl, clauses, w₁, hclauses, sorted, _, hr, arms, w₂, harms, own, w₃, hown, others,
    w₄, hothers, closure, _, hclosure, rfl, rfl⟩ := h
  obtain ⟨-, rfl⟩ := outcome_lift_eq_ok.mp hl
  obtain ⟨hsorts, rfl⟩ := outcome_lift_eq_ok.mp hr
  exact ⟨own, others, w₁, w₂, w₃, w₄, rfl, rfl, rfl, hsorts, rfl, hclauses, harms, hown, hothers,
    hclosure⟩

/-- A statement text is resolved to a query without clauses. -/
theorem Query.resolve_text {q : Query} {useSort : Bool} {tableAlias : String} {r : ResolvedQuery}
    {raw : RawText} (ht : q.text = some raw)
    (h : outcome (q.resolve catalog useSort tableAlias) w = (.ok r, v)) :
    r = { table := catalog.table q.entity, columns := resolveColumns catalog q.entity q.fields,
          text := some raw.text } := by
  obtain ⟨entity, text, conditions, sorts, joins, combines, recurve, paging, size, fields,
    isolation⟩ := q
  obtain rfl : text = some raw := ht
  simp only [Query.resolve, outcome_bind_eq_ok, outcome_pure_eq_ok] at h
  obtain ⟨_, x, -, rfl, -⟩ := h
  rfl

/-- Issuing names looks up the table and the columns. -/
theorem Query.resolve_resolves {q : Query} {useSort : Bool} {tableAlias : String}
    {r : ResolvedQuery}
    (h : outcome (q.resolve catalog useSort tableAlias) w = (.ok r, v)) :
    Resolves catalog q r := by
  cases ht : q.text with
  | some raw =>
    obtain rfl := Query.resolve_text ht h
    exact ⟨rfl, rfl, by rw [Query.isText, ht]; rfl⟩
  | none =>
    obtain ⟨_, _, _, _, _, _, hs⟩ := Query.resolve_steps ht h
    exact ⟨hs.table, hs.columns, by rw [Query.isText, ht, hs.text]; rfl⟩

namespace Translating

/-- The compared rows of a query. -/
theorem comparedRows_eq (catalog : Catalog) (q : Query) (tableAlias : String) (o : Outline) :
    comparedRows catalog q tableAlias o.toTranslation =
      selectRows (resolveColumns catalog q.entity q.fields) (catalog.table q.entity) tableAlias
        (joinTexts o.writtenJoins) (conditionText o.condition) (armTexts o.arms) := by
  unfold comparedRows selectRows
  rw [Outline.hasCombine_toTranslation, Outline.hasArms, armTexts_isEmpty,
    combinedSource_toTranslation, Outline.joinClause_toTranslation]
  cases o.arms.isEmpty <;> rfl

/-- A comparison with the rows of a query is a test of its select. -/
theorem subqueryComparison_eq (catalog : Catalog) (tableAlias : String) (reference : Reference)
    (operator : Comparison) {q : Query} (property innerAlias : String) {r : ResolvedQuery}
    (hr : Resolves catalog q r) :
    subqueryComparison catalog (reference.sql tableAlias) operator q property innerAlias
        (r.outline innerAlias).toTranslation =
      ((ResolvedCriterion.rows reference operator (SubqueryLimit.of operator q.size)
        (catalog.column q.entity property) innerAlias r).outline tableAlias).toFragment := by
  rw [ResolvedCriterion.outline]
  unfold subqueryComparison comparedSelect ConditionOutline.toFragment
  rw [comparedRows_eq, conditionText_atom, hr.columns, hr.table]
  rfl

/-- A comparison with another query. -/
theorem queryComparison_resolve {tableAlias : String} {reference : Reference}
    {operator : Comparison} {q : Query} {translate : Bool → String → Translating Translation}
    {resolve : Bool → String → Translating ResolvedQuery} {fragment : ConditionFragment}
    (hq : ∀ {useSort innerAlias w t v}, outcome (translate useSort innerAlias) w = (.ok t, v) →
      ∃ r, outcome (resolve useSort innerAlias) w = (.ok r, v) ∧ Resolves catalog q r ∧
        t = (r.outline innerAlias).toTranslation)
    (h : outcome (queryComparison catalog (reference.sql tableAlias) operator q translate) w =
      (.ok fragment, v)) :
    ∃ c, outcome (resolveCompared catalog reference operator q resolve) w = (.ok c, v) ∧
      fragment = (c.outline tableAlias).toFragment := by
  unfold queryComparison at h
  unfold resolveCompared
  split at h
  · next htext =>
    simp only [outcome_bind_eq_ok, outcome_pure_eq_ok] at h
    obtain ⟨t, x, ht, rfl, rfl⟩ := h
    obtain ⟨r, hres, hr, rfl⟩ := hq ht
    refine ⟨.text reference operator (r.text.getD ""), ?_, ?_⟩
    · rw [if_pos htext]
      simp only [outcome_bind_eq_ok, outcome_pure]
      exact ⟨r, x, hres, rfl⟩
    · rw [ResolvedCriterion.outline, ConditionOutline.toFragment_ofTest, ← r.text_outline ""]
      rfl
  · next htext =>
    rw [if_neg htext]
    cases hfields : q.fields with
    | nil =>
      rw [hfields] at h
      exact absurd h (by simp)
    | cons property rest =>
      simp only [hfields, outcome_bind_eq_ok, outcome_pure_eq_ok] at h
      obtain ⟨innerAlias, x, ha, t, y, ht, rfl, rfl⟩ := h
      obtain ⟨r, hres, hr, rfl⟩ := hq ht
      refine ⟨_, ?_,
        subqueryComparison_eq catalog tableAlias reference operator property innerAlias hr⟩
      simp only [outcome_bind_eq_ok, outcome_pure]
      exact ⟨innerAlias, x, ha, r, y, hres, rfl⟩

/-- A comparison with a value. -/
theorem valueComparison_resolve {tableAlias : String} {reference : Reference}
    {criterion : Criterion} {value : Value} {fragment : ConditionFragment} {w v : Workspace}
    (h : outcome (valueComparison (reference.sql tableAlias) criterion value) w =
      (.ok fragment, v)) :
    ∃ c, outcome (do
        let parameter ← bindFresh criterion.field (criterion.operator.shapeValue value)
        return ResolvedCondition.criterion (.value reference criterion.operator parameter)) w =
      (.ok c, v) ∧ fragment = (c.outline tableAlias).toFragment := by
  simp only [valueComparison, outcome_bind_eq_ok, outcome_pure_eq_ok] at h
  obtain ⟨parameter, x, hb, rfl, rfl⟩ := h
  refine ⟨.criterion (.value reference criterion.operator parameter), ?_, ?_⟩
  · rw [outcome_bind_eq_ok]
    exact ⟨parameter, x, hb, rfl⟩
  · rw [ResolvedCondition.outline, ResolvedCriterion.outline, ConditionOutline.toFragment_ofTest,
      Test.sql]

/-- A criterion is resolved to a comparison where its operator needs a value, and to a test of the
column alone where it needs none. -/
theorem criterion_resolved {entity field : String} {conversion : Option Conversion}
    {operator : Comparison} {resolve : Reference → Translating ResolvedCondition}
    {c : ResolvedCondition}
    (h : outcome (do
        let reference ← lift (resolveReference catalog entity field conversion)
        if operator.needsParameter then resolve reference
        else return .criterion (.missing reference operator)) w = (.ok c, v)) :
    ∃ reference, operator.needsParameter = true ∧ outcome (resolve reference) w = (.ok c, v) ∨
      operator.needsParameter = false ∧ c = .criterion (.missing reference operator) ∧ w = v := by
  obtain ⟨reference, x, hl, h⟩ := outcome_bind_eq_ok.mp h
  obtain ⟨-, rfl⟩ := outcome_lift_eq_ok.mp hl
  refine ⟨reference, ?_⟩
  split at h
  · next hp => exact .inl ⟨hp, h⟩
  · next hp =>
    obtain ⟨rfl, rfl⟩ := outcome_pure_eq_ok.mp h
    exact .inr ⟨Bool.eq_false_of_not_eq_true hp, rfl, rfl⟩

/-- A criterion: a test of the column alone, or a comparison of it. -/
theorem criterion_resolve {entity tableAlias field : String} {conversion : Option Conversion}
    {operator : Comparison} {compare : String → Translating ConditionFragment}
    {resolve : Reference → Translating ResolvedCondition} {fragment : ConditionFragment}
    (hcompare : ∀ {reference w fragment v},
      outcome (compare (Reference.sql tableAlias reference)) w = (.ok fragment, v) →
      ∃ c, outcome (resolve reference) w = (.ok c, v) ∧
        fragment = (c.outline tableAlias).toFragment)
    (h : outcome (do
        let reference ← lift (catalog.reference entity tableAlias field conversion)
        if operator.needsParameter then compare reference
        else return { text := reference ++ " " ++ operator.sql }) w = (.ok fragment, v)) :
    ∃ c, outcome (do
        let reference ← lift (resolveReference catalog entity field conversion)
        if operator.needsParameter then resolve reference
        else return .criterion (.missing reference operator)) w = (.ok c, v) ∧
      fragment = (c.outline tableAlias).toFragment := by
  simp only [outcome_bind_eq_ok] at h ⊢
  obtain ⟨_, x, hl, h⟩ := h
  obtain ⟨reference, hr, rfl⟩ := lift_reference hl
  split at h
  · next hp =>
    obtain ⟨c, hresolved, rfl⟩ := hcompare h
    exact ⟨c, ⟨reference, x, hr, by rwa [if_pos hp]⟩, rfl⟩
  · next hp =>
    obtain ⟨rfl, rfl⟩ := outcome_pure_eq_ok.mp h
    refine ⟨.criterion (.missing reference operator), ⟨reference, x, hr, ?_⟩, ?_⟩
    · rw [if_neg hp, outcome_pure]
    · rw [ResolvedCondition.outline, ResolvedCriterion.outline, ConditionOutline.toFragment_ofTest,
        Test.sql]

/-- A set operation as it is written. -/
theorem combineSelect_eq (catalog : Catalog) (source : Query) (entry : Combine)
    (tableAlias : String) {r : ResolvedQuery} (hr : Resolves catalog entry.query r) :
    entry.kind.sql ++ " " ++ combineSelect catalog source entry.query tableAlias
        (r.outline tableAlias).toTranslation =
      (Outline.armClause
        ⟨entry.kind, resolveColumns catalog source.entity source.fields, tableAlias, r⟩
        (r.outline tableAlias)).sql := by
  unfold combineSelect Outline.armClause
  rw [show (r.outline tableAlias).toTranslation.text = (r.outline tableAlias).text from rfl]
  cases (r.outline tableAlias).text with
  | some raw => rfl
  | none =>
    rw [Option.getD_none, Arm.sql, Outline.select_withoutArms_sql, selectColumns_resolveColumns,
      hr.table]

/-- A set operation that the server has. -/
theorem addNative_resolve {source : Query} {entry : Combine}
    {translate : String → Translating Translation} {resolve : String → Translating ResolvedQuery}
    {o : Outline} {t : Translation}
    (hq : ∀ {tableAlias w t v}, outcome (translate tableAlias) w = (.ok t, v) →
      ∃ r, outcome (resolve tableAlias) w = (.ok r, v) ∧ Resolves catalog entry.query r ∧
        t = (r.outline tableAlias).toTranslation)
    (h : outcome (addNative catalog source entry translate o.toTranslation) w = (.ok t, v)) :
    ∃ arms, outcome (resolveArm catalog source entry resolve) w = (.ok arms, v) ∧
      t = (armsOutline arms o).toTranslation := by
  unfold addNative at h
  unfold resolveArm
  split at h
  · next hk =>
    simp only [addCombine, outcome_bind_eq_ok, outcome_pure_eq_ok] at h
    obtain ⟨_, x, hn, operator, y, hl, tableAlias, z, ha, translated, u, ht, rfl, rfl⟩ := h
    obtain ⟨r, hres, hr, rfl⟩ := hq ht
    refine ⟨[⟨entry.kind, resolveColumns catalog source.entity source.fields, tableAlias, r⟩],
      ?_, ?_⟩
    · rw [if_pos hk]
      simp only [outcome_bind_eq_ok, outcome_pure]
      exact ⟨_, x, hn, operator, y, hl, tableAlias, z, ha, r, u, hres, rfl⟩
    · obtain rfl : entry.kind.sql = operator := by
        rw [outcome_lift_eq_ok, SetOperator.native, if_pos hk] at hl
        exact Except.ok.inj hl.1
      rw [combineSelect_eq catalog source entry tableAlias hr, armsOutline_eq, List.foldl_cons,
        List.foldl_nil, ResolvedArm.addTo, Outline.toTranslation_addArm]
      rfl
  · next hk =>
    obtain ⟨rfl, rfl⟩ := outcome_pure_eq_ok.mp h
    rw [if_neg hk, outcome_pure]
    exact ⟨[], rfl, by rw [armsOutline]⟩

/-- The comparisons of columns that a join makes. -/
def joinTests (catalog : Catalog) (source : String) (join : Join) (sourceAlias targetAlias : String) :
    List Test :=
  (resolvePairs catalog source join).map fun pair =>
    .pair ⟨sourceAlias, pair.1⟩ join.operator ⟨targetAlias, pair.2⟩

/-- Comparisons of columns are written as those of properties. -/
theorem joinConditions_eq (catalog : Catalog) (source : String) (join : Join)
    (sourceAlias targetAlias : String) :
    joinConditions catalog source join sourceAlias targetAlias =
      (joinTests catalog source join sourceAlias targetAlias).map Test.sql := by
  unfold joinConditions joinTests resolvePairs
  split
  · rfl
  · simp only [List.map_map]
    rfl

/-- Whether the condition of a joined query is tested in its ON clause. -/
theorem testsInJoin_eq (join : Join) (o : Outline) :
    testsInJoin join o.toTranslation = o.testsInJoin join.kind := by
  unfold testsInJoin Outline.testsInJoin
  rw [Outline.hasCombine_toTranslation]
  have hc : (o.toTranslation.condition != "") = !o.condition.isEmpty := by
    rw [Bool.eq_iff_iff]
    simp [Outline.toTranslation, conditionText_eq_empty]
  rw [hc]
  rfl

/-- Lifting conditions out of a join. -/
theorem liftConditions_eq (join : Join) (joined o : Outline) :
    liftConditions join joined.toTranslation o.toTranslation =
      (o.requireAll (joined.lifted join.kind)).toTranslation := by
  unfold liftConditions
  rw [Outline.hasCombine_toTranslation, testsInJoin_eq, Outline.toTranslation_requireAll,
    Outline.lifted]
  have hc : joined.toTranslation.condition = conditionText joined.condition := rfl
  have hx : joined.toTranslation.joinExtras = joined.joinExtras.map conditionText := rfl
  rw [hc, hx]
  cases joined.hasArms with
  | true => rfl
  | false =>
    cases joined.testsInJoin join.kind with
    | true => simp
    | false =>
      by_cases he : conditionText joined.condition = ""
      · simp [he, Translation.andCondition]
      · simp [he]

/-- What a resolved join knows of the join itself. -/
structure ResolvesJoin (catalog : Catalog) (source : String) (join : Join) (j : ResolvedJoin) :
    Prop where
  /-- How rows are matched. -/
  kind : j.kind = join.kind
  /-- How matched columns are compared. -/
  operator : j.operator = join.operator
  /-- The compared columns. -/
  pairs : j.pairs = resolvePairs catalog source join
  /-- The joined query. -/
  query : Resolves catalog join.query j.query

/-- A resolved join makes the comparisons of the join. -/
theorem ResolvesJoin.pairTests {source : String} {join : Join} {j : ResolvedJoin}
    (hj : ResolvesJoin catalog source join j) (tableAlias : String) :
    j.pairTests tableAlias = joinTests catalog source join tableAlias j.targetAlias := by
  rw [ResolvedJoin.pairTests, joinTests, hj.pairs, hj.operator]

/-- The rows that are joined. -/
theorem joinTarget_eq {source : String} {join : Join} {j : ResolvedJoin}
    (hj : ResolvesJoin catalog source join j) :
    joinTarget catalog join j.joined.toTranslation j.innerAlias j.targetAlias =
      (if j.joined.hasArms then
          JoinSource.derived (j.joined.select j.query.columns j.query.table j.innerAlias)
        else .table j.query.table).sql ++ " AS " ++ j.targetAlias := by
  have harms : j.joined.hasArms = j.query.hasArms := j.query.hasArms_outline j.innerAlias
  unfold joinTarget ResolvedJoin.targetAlias
  rw [Outline.hasCombine_toTranslation, harms]
  cases j.query.hasArms with
  | true =>
    rw [if_pos rfl, if_pos rfl, if_pos rfl, combinedSource_toTranslation, JoinSource.sql,
      hj.query.columns, hj.query.table]
    simp only [String.append_assoc]
    rfl
  | false =>
    rw [if_neg Bool.false_ne_true, if_neg Bool.false_ne_true, if_neg Bool.false_ne_true,
      JoinSource.sql, hj.query.table]

/-- What is tested in a join as it is written. -/
theorem joinConditions_tested {source tableAlias : String} {join : Join} {j : ResolvedJoin}
    (hj : ResolvesJoin catalog source join j) (joined : Outline) :
    (joinConditions catalog source join tableAlias j.targetAlias ++
        if testsInJoin join joined.toTranslation then [joined.toTranslation.condition] else []) =
      ((j.pairTests tableAlias).map (fun test => [Lexeme.atom test]) ++
        if (joined.tested j.kind).isEmpty then [] else [joined.tested j.kind]).map conditionText := by
  rw [joinConditions_eq, ← hj.pairTests, testsInJoin_eq, ← hj.kind, List.map_append, List.map_map,
    Outline.tested]
  congr 1
  · exact List.map_congr_left fun test _ => (conditionText_atom test).symm
  · split
    · next ht =>
      have hc : joined.condition ≠ [] := by
        intro hn
        simp [Outline.testsInJoin, hn] at ht
      rw [if_neg (by simpa using hc)]
      rfl
    · rfl

/-- A joined table around the rows of its condition. -/
theorem joinText_connect (join : Join) (target : String) {rows : List (List (Lexeme Test))}
    (h : ∀ row ∈ rows, row ≠ []) :
    joinText join target (rows.map conditionText) =
      joinedText join.kind target (conditionText (Lexeme.connect .and rows)) := by
  have hempty := conditionText_eq_empty.trans (Lexeme.connect_eq_nil (c := .and) h)
  unfold joinedText
  cases rows with
  | nil => rfl
  | cons row rest =>
    rw [if_neg fun he => List.cons_ne_nil row rest (hempty.mp he), conditionText_connect]
    rfl

/-- The clause of a join as it is written. -/
theorem joinText_eq {source : String} (tableAlias : String) {join : Join} {j : ResolvedJoin}
    (hj : ResolvesJoin catalog source join j) :
    joinText join (joinTarget catalog join j.joined.toTranslation j.innerAlias j.targetAlias)
        (joinConditions catalog source join tableAlias j.targetAlias ++
          if testsInJoin join j.joined.toTranslation then [j.joined.toTranslation.condition]
          else []) =
      (j.clause tableAlias j.joined).sql := by
  rw [joinConditions_tested hj, joinText_connect join _ fun row hrow => ?_, joinTarget_eq hj,
    ResolvedJoin.clause, JoinClause.sql, ← hj.kind]
  · rfl
  · rcases List.mem_append.mp hrow with hrow | hrow
    · obtain ⟨test, -, rfl⟩ := List.mem_map.mp hrow
      exact List.cons_ne_nil _ _
    · split at hrow
      · exact absurd hrow List.not_mem_nil
      · next hn => simpa [List.mem_singleton.mp hrow] using hn

/-- The clauses with a join, before those of the condition on joined rows and of nested joins. -/
theorem writeJoin_eq {source : String} (tableAlias : String) {join : Join} {j : ResolvedJoin}
    (hj : ResolvesJoin catalog source join j) (o : Outline) :
    writeJoin catalog source tableAlias join j.innerAlias j.targetAlias j.joined.toTranslation
        o.toTranslation =
      ({ o.requireAll (j.joined.lifted j.kind) with
        joins := o.joins ++ [j.clause tableAlias j.joined] } : Outline).toTranslation := by
  have hclause := joinText_eq tableAlias hj
  unfold writeJoin
  dsimp only
  rw [liftConditions_eq, hclause, ← hj.kind]
  simp [Outline.toTranslation, Outline.requireAll, joinTexts]

/-- The condition on joined rows. -/
theorem addExtra_eq (extra o : Outline) :
    addExtra extra.toTranslation o.toTranslation =
      ({ o with
          joinExtras := o.joinExtras ++ extra.required
          definitions := o.definitions ++ extra.definitions
          closure := extra.closure.or o.closure } : Outline).toTranslation := by
  unfold addExtra Outline.required
  have hc : extra.toTranslation.condition = conditionText extra.condition := rfl
  rw [hc]
  by_cases he : extra.condition = []
  · simp [he, Outline.toTranslation, Translation.absorb]
  · have ht : conditionText extra.condition ≠ "" := fun h => he (conditionText_eq_empty.mp h)
    simp [he, ht, Outline.toTranslation, Translation.absorb]

/-- The joins of a joined query. -/
theorem liftJoins_eq (joined o : Outline) :
    liftJoins joined.toTranslation o.toTranslation =
      ({ o with joins := o.joins ++ joined.liftedJoins } : Outline).toTranslation := by
  unfold liftJoins Outline.liftedJoins Outline.writtenJoins
  rw [Outline.hasCombine_toTranslation, show joined.toTranslation.allowJoin = joined.allowJoin
    from rfl]
  cases joined.hasArms <;> cases joined.allowJoin <;> simp [Outline.toTranslation]

/-- The alias of joined rows is the one that is returned. -/
theorem target_of_resolveAlias {innerAlias outerAlias : String} {r : ResolvedQuery}
    (h : outcome (resolveAlias r innerAlias) w = (.ok outerAlias, v)) :
    (if r.hasArms then outerAlias else innerAlias) = outerAlias := by
  unfold resolveAlias at h
  split at h
  · next harms => rw [if_pos harms]
  · next harms =>
    rw [if_neg harms]
    exact (outcome_pure_eq_ok.mp h).1

/-- The alias of joined rows. -/
theorem joinedAlias_eq {innerAlias outerAlias : String} {r : ResolvedQuery}
    (h : outcome (joinedAlias (r.outline innerAlias).toTranslation innerAlias) w =
      (.ok outerAlias, v)) : outcome (resolveAlias r innerAlias) w = (.ok outerAlias, v) := by
  unfold joinedAlias at h
  rwa [Outline.hasCombine_toTranslation, r.hasArms_outline] at h

/-- How a condition on joined rows is resolved, when there is one. -/
def ExtraResolves (translate : Option (String → Translating Translation))
    (resolve : Option (String → Translating ResolvedQuery)) : Prop :=
  match translate, resolve with
  | none, none => True
  | some translate, some resolve =>
    ∀ tableAlias w t v, outcome (translate tableAlias) w = (.ok t, v) →
      ∃ r, outcome (resolve tableAlias) w = (.ok r, v) ∧ t = (r.outline tableAlias).toTranslation
  | _, _ => False

/-- Requiring a condition on joined rows. -/
theorem requireExtra_resolve {translate : Option (String → Translating Translation)}
    {resolve : Option (String → Translating ResolvedQuery)} {targetAlias : String}
    {out t : Translation} (he : ExtraResolves translate resolve)
    (h : outcome (requireExtra translate targetAlias out) w = (.ok t, v)) :
    ∃ r, outcome (resolveExtra resolve targetAlias) w = (.ok r, v) ∧
      t = addExtra (extraOutline r targetAlias).toTranslation out := by
  unfold requireExtra at h
  unfold resolveExtra
  cases translate with
  | none =>
    cases resolve with
    | some resolve => exact he.elim
    | none =>
      obtain ⟨rfl, rfl⟩ := outcome_pure_eq_ok.mp h
      refine ⟨none, rfl, ?_⟩
      simp [extraOutline, addExtra, Outline.toTranslation, Translation.absorb]
  | some translate =>
    cases resolve with
    | none => exact he.elim
    | some resolve =>
      simp only [outcome_bind_eq_ok, outcome_pure_eq_ok] at h
      obtain ⟨extra, x, hx, rfl, rfl⟩ := h
      obtain ⟨r, hres, rfl⟩ := he _ _ _ _ hx
      refine ⟨some r, ?_, rfl⟩
      simp only [outcome_bind_eq_ok, outcome_pure]
      exact ⟨r, x, hres, rfl⟩

/-- Adding a join, with the clauses of the joined query and of the condition on joined rows. -/
theorem addJoin_eq {source : String} (tableAlias : String) {join : Join} {j : ResolvedJoin}
    (hj : ResolvesJoin catalog source join j) (o : Outline) :
    (liftJoins j.joined.toTranslation (addExtra j.required.toTranslation
        (writeJoin catalog source tableAlias join j.innerAlias j.targetAlias j.joined.toTranslation
          o.toTranslation))).absorb j.joined.toTranslation =
      (j.addTo tableAlias o).toTranslation := by
  rw [writeJoin_eq tableAlias hj, addExtra_eq, liftJoins_eq]
  simp [ResolvedJoin.addTo, Outline.addJoin, Outline.toTranslation, Translation.absorb,
    Outline.requireAll]

/-- A join. -/
theorem addJoin_resolve {source tableAlias : String} {join : Join}
    {translate : String → Translating Translation} {resolve : String → Translating ResolvedQuery}
    {translateExtra : Option (String → Translating Translation)}
    {extra : Option (String → Translating ResolvedQuery)} {o : Outline} {t : Translation}
    (hq : ∀ {innerAlias w t v}, outcome (translate innerAlias) w = (.ok t, v) →
      ∃ r, outcome (resolve innerAlias) w = (.ok r, v) ∧ Resolves catalog join.query r ∧
        t = (r.outline innerAlias).toTranslation)
    (he : ExtraResolves translateExtra extra)
    (h : outcome (addJoin catalog source tableAlias join translate translateExtra o.toTranslation)
      w = (.ok t, v)) :
    ∃ j, outcome (resolveJoin catalog source join resolve extra) w = (.ok j, v) ∧
      ResolvesJoin catalog source join j ∧ t = (j.addTo tableAlias o).toTranslation := by
  simp only [addJoin, outcome_bind_eq_ok, outcome_pure_eq_ok] at h
  obtain ⟨_, x, hn, innerAlias, y, ha, translated, z, ht, outerAlias, s, hd, extended, u, hx, rfl, rfl⟩ := h
  obtain ⟨r, hres, hr, rfl⟩ := hq ht
  have hd := joinedAlias_eq hd
  let j : Option ResolvedQuery → ResolvedJoin := fun extra =>
    { kind := join.kind, operator := join.operator, pairs := resolvePairs catalog source join,
      innerAlias, query := r, outerAlias, extra }
  have hj : ∀ extra, ResolvesJoin catalog source join (j extra) := fun _ => ⟨rfl, rfl, rfl, hr⟩
  have htarget : ∀ extra, (j extra).targetAlias = outerAlias := fun _ => target_of_resolveAlias hd
  obtain ⟨required, hrequired, rfl⟩ := requireExtra_resolve he hx
  refine ⟨j required, ?_, hj required, ?_⟩
  · simp only [resolveJoin, outcome_bind_eq_ok, outcome_pure]
    exact ⟨_, x, hn, innerAlias, y, ha, r, z, hres, outerAlias, s, hd, required, u, hrequired, rfl⟩
  · have hadded := addJoin_eq tableAlias (hj required) o
    rw [ResolvedJoin.required, htarget] at hadded
    exact hadded

/-- A test for a missing value. -/
theorem missingTest_eq (catalog : Catalog) (entity property tableAlias : String) :
    missingTest catalog entity property tableAlias =
      ((resolveMissing catalog entity property).outline tableAlias).toTranslation := by
  rw [resolveMissing, ResolvedQuery.outline, clausesOutline, clausesOutline, armsOutline,
    joinsOutline, ResolvedCondition.outline, ResolvedCriterion.outline]
  simp [Outline.close?, Outline.ofConditions, ConditionOutline.push, ConditionOutline.ofTest,
    Lexeme.push, Outline.toTranslation, Test.sql, missingTest, joinTexts, armTexts, Reference.sql]

/-- The join that stands for a set operation, if the server does not have the operation. -/
theorem addMatch_resolve {source tableAlias : String} {entry : Combine}
    {translate : String → Translating Translation} {resolve : String → Translating ResolvedQuery}
    {o : Outline} {t : Translation}
    (hq : ∀ {tableAlias w t v}, outcome (translate tableAlias) w = (.ok t, v) →
      ∃ r, outcome (resolve tableAlias) w = (.ok r, v) ∧ Resolves catalog entry.query r ∧
        t = (r.outline tableAlias).toTranslation)
    (h : outcome (addMatch catalog source tableAlias entry translate o.toTranslation) w =
      (.ok t, v)) :
    ∃ joins, outcome (resolveMatch catalog source entry resolve) w = (.ok joins, v) ∧
      t = (joinsOutline tableAlias joins o).toTranslation := by
  simp only [addMatch, outcome_bind_eq_ok] at h
  obtain ⟨matched, x, hl, hm⟩ := h
  simp only [resolveMatch, outcome_bind_eq_ok]
  cases matched with
  | none =>
    obtain ⟨rfl, rfl⟩ := outcome_pure_eq_ok.mp hm
    exact ⟨[], ⟨none, x, hl, rfl⟩, by rw [joinsOutline]⟩
  | some join =>
    have hjoin : join.query = entry.query :=
      (Combine.becomes_of_asJoin (outcome_lift_eq_ok.mp hl).1).query_eq
    have hextra : ExtraResolves
        (join.extra.map fun _ tableAlias => pure (missingTest catalog entry.query.entity
          ((join.fields.head?.map (·.1)).getD "") tableAlias))
        (join.extra.map fun _ _ => pure (resolveMissing catalog entry.query.entity
          ((join.fields.head?.map (·.1)).getD ""))) := by
      cases join.extra with
      | none => exact trivial
      | some extra =>
        intro tableAlias w t v h
        obtain ⟨rfl, rfl⟩ := outcome_pure_eq_ok.mp h
        exact ⟨_, rfl, missingTest_eq _ _ _ _⟩
    obtain ⟨j, hres, -, rfl⟩ := addJoin_resolve (hjoin ▸ hq) hextra hm
    refine ⟨[j], ⟨some join, x, hl, ?_⟩, ?_⟩
    · simp only [outcome_bind_eq_ok, outcome_pure]
      exact ⟨j, v, hres, rfl⟩
    · rw [joinsOutline_eq, List.foldl_cons, List.foldl_nil]

/-- The definition of a closure table as it is written. -/
theorem closureDefinition_eq (catalog : Catalog) (entity tableAlias : String) (closure : Closure)
    (table : ClosureTable) (joins : List JoinClause) (condition : List (Lexeme Test)) :
    closureDefinition catalog entity tableAlias closure table (joinTexts joins)
        (Translation.whereClause { condition := conditionText condition }) =
      ClosureRows.sql
        { table, direction := closure.direction, data := catalog.column entity closure.dataField,
          relation := catalog.column entity closure.relationField,
          first :=
            { columns := [catalog.column entity closure.dataField,
                catalog.column entity closure.relationField],
              table := catalog.table entity, tableAlias, joins, condition, arms := [] } } := by
  have hselect : closureSelect catalog entity tableAlias closure =
      "SELECT " ++ String.intercalate "," (List.map (under tableAlias)
        [catalog.column entity closure.dataField, catalog.column entity closure.relationField])
        ++ " FROM " ++ quote (catalog.table entity) ++ " AS " ++ tableAlias := by
    simp only [closureSelect, List.map_cons, List.map_nil, String.intercalate_cons_cons,
      String.intercalate_singleton, String.append_assoc]
  have hstep : closureStep catalog entity tableAlias closure table =
      ClosureRows.step
        { table, direction := closure.direction, data := catalog.column entity closure.dataField,
          relation := catalog.column entity closure.relationField,
          first :=
            { columns := [catalog.column entity closure.dataField,
                catalog.column entity closure.relationField],
              table := catalog.table entity, tableAlias, joins, condition, arms := [] } } := by
    unfold closureStep ClosureRows.step
    cases closure.direction <;> rfl
  have hparts : ∀ first second third : String,
      Text.joinParts [first, second, third, ""] = Text.joinParts [first, second, third] :=
    fun first second third => Text.joinParts_append_empty [first, second, third]
  unfold closureDefinition ClosureRows.sql ClosureRows.projection
  rw [hselect, hstep, armTexts, show String.intercalate " " [] = "" from rfl, hparts]
  simp only [String.append_assoc]

/-- Closing the rows. -/
theorem closeRows_eq (catalog : Catalog) (entity tableAlias : String) (closure : Closure)
    (table : ClosureTable) (o : Outline) :
    closeRows catalog entity tableAlias closure table o.toTranslation =
      (o.close (catalog.table entity) tableAlias
        { table, direction := closure.direction, data := catalog.column entity closure.dataField,
          relation := catalog.column entity closure.relationField }).toTranslation := by
  have hmerged := ({ o with allowJoin := false } : Outline).toTranslation_mergeJoinExtras
  have hdefinition := closureDefinition_eq catalog entity tableAlias closure table o.joins
    o.mergeJoinExtras.condition
  unfold closeRows Outline.close
  dsimp only
  rw [show ({ o.toTranslation with allowJoin := false } : Translation) =
    ({ o with allowJoin := false } : Outline).toTranslation from rfl, ← hmerged]
  simp only [Outline.toTranslation, Outline.mergeJoinExtras, Outline.requireAll, List.map_append,
    List.map_cons, List.map_nil, conditionText_atom] at hdefinition ⊢
  rw [show ∀ t : Translation, t.whereClause = Translation.whereClause { condition := t.condition }
    from fun _ => rfl, hdefinition]
  rfl

/-- Closing the rows, if a closure is asked for. -/
theorem addClosure_resolve {entity tableAlias : String} {closure : Closure} {o : Outline}
    {t : Translation}
    (h : outcome (addClosure catalog entity tableAlias closure o.toTranslation) w = (.ok t, v)) :
    ∃ c, outcome (resolveClosure catalog entity (some closure)) w = (.ok c, v) ∧
      t = (o.close? (catalog.table entity) tableAlias c).toTranslation := by
  simp only [addClosure, outcome_bind_eq_ok, outcome_pure_eq_ok] at h
  obtain ⟨table, x, hn, rfl, rfl⟩ := h
  refine ⟨some { table, direction := closure.direction,
                 data := catalog.column entity closure.dataField,
                 relation := catalog.column entity closure.relationField }, ?_,
    closeRows_eq catalog entity tableAlias closure table o⟩
  simp only [resolveClosure, outcome_bind_eq_ok, outcome_pure]
  exact ⟨table, x, hn, rfl⟩

end Translating

/-- There are as many resolved conditions as conditions. -/
theorem length_resolveClauses {entity : String} {clauses : List Clause}
    {resolved : List ResolvedClause}
    (h : outcome (resolveClauses catalog entity clauses) w = (.ok resolved, v)) :
    resolved.length = clauses.length := by
  induction clauses generalizing resolved w v with
  | nil =>
    rw [resolveClauses, outcome_pure_eq_ok] at h
    obtain ⟨rfl, -⟩ := h
    rfl
  | cons clause rest ih =>
    obtain ⟨connector, condition⟩ := clause
    simp only [resolveClauses, outcome_bind_eq_ok, outcome_pure_eq_ok] at h
    obtain ⟨c, x, -, others, y, hothers, rfl, -⟩ := h
    rw [List.length_cons, List.length_cons, ih hothers]

mutual

/-- A query is translated to what the outline of the query with its names writes. -/
theorem Query.translateUnder_resolve :
    ∀ (q : Query) {useSort : Bool} {tableAlias : String} {w : Workspace} {t : Translation}
      {v : Workspace}, outcome (q.translateUnder catalog useSort tableAlias) w = (.ok t, v) →
      ∃ r, outcome (q.resolve catalog useSort tableAlias) w = (.ok r, v) ∧
        t = (r.outline tableAlias).toTranslation
  | { text := some raw, .. }, useSort, tableAlias, w, t, v, h => by
    simp only [Query.translateUnder, outcome_bind_eq_ok, outcome_pure_eq_ok] at h
    obtain ⟨_, x, hb, rfl, rfl⟩ := h
    simp only [Query.resolve, outcome_bind_eq_ok, outcome_pure]
    exact ⟨_, ⟨_, x, hb, rfl⟩, by rw [ResolvedQuery.outline]; rfl⟩
  | { entity, text := none, conditions, sorts, joins, combines, recurve, paging, size, fields,
      isolation }, useSort, tableAlias, w, t, v, h => by
    simp only [Query.translateUnder, outcome_bind_eq_ok] at h
    obtain ⟨_, w₁, hs, list, w₂, hc, sorted, w₃, ho, combined, w₄, ha, joined, w₅, hj, matched, w₆,
      hm, hr⟩ := h
    obtain ⟨clauses, hclauses, rfl⟩ := translateClauses_resolve conditions {} hc
    obtain ⟨arms, harms, rfl⟩ :=
      translateCombines_resolve (o := .ofConditions (clausesOutline tableAlias clauses {}) sorted)
        combines ha
    obtain ⟨own, hown, rfl⟩ := translateJoins_resolve joins hj
    obtain ⟨others, hothers, rfl⟩ := translateMatches_resolve combines hm
    have hclosed : ∃ c, outcome (resolveClosure catalog entity recurve) w₆ = (.ok c, v) ∧
        t = ((joinsOutline tableAlias others (joinsOutline tableAlias own (armsOutline arms
          (.ofConditions (clausesOutline tableAlias clauses {}) sorted)))).close? (catalog.table entity)
          tableAlias c).toTranslation := by
      cases recurve with
      | none =>
        obtain ⟨rfl, rfl⟩ := outcome_pure_eq_ok.mp hr
        exact ⟨none, rfl, rfl⟩
      | some closure => exact addClosure_resolve hr
    obtain ⟨closure, hclosure, rfl⟩ := hclosed
    refine ⟨{ table := catalog.table entity, columns := resolveColumns catalog entity fields,
              conditions := clauses, sorts := sorted, arms, joins := own ++ others, closure },
      ?_, ?_⟩
    · simp only [Query.resolve, outcome_bind_eq_ok, outcome_pure]
      exact ⟨_, w₁, hs, clauses, w₂, hclauses, sorted, w₃, ho, arms, w₄, harms, own, w₅, hown,
        others, w₆, hothers, closure, v, hclosure, rfl⟩
    · rw [ResolvedQuery.outline]
      simp only [joinsOutline_eq, List.foldl_append]

/-- Conditions are translated to what their outlines write. -/
theorem translateClauses_resolve :
    ∀ (clauses : List Clause) (list : ConditionOutline) {entity tableAlias : String}
      {result : ConditionList} {w v : Workspace},
      outcome (translateClauses catalog entity tableAlias clauses list.toList) w =
        (.ok result, v) →
      ∃ resolved, outcome (resolveClauses catalog entity clauses) w =
        (.ok resolved, v) ∧ result = (clausesOutline tableAlias resolved list).toList
  | [], list, entity, tableAlias, result, w, v, h => by
    rw [translateClauses, outcome_pure_eq_ok] at h
    obtain ⟨rfl, rfl⟩ := h
    rw [resolveClauses, outcome_pure]
    exact ⟨[], rfl, by rw [clausesOutline]⟩
  | ⟨connector, condition⟩ :: rest, list, entity, tableAlias, result, w, v, h => by
    simp only [translateClauses, outcome_bind_eq_ok] at h
    obtain ⟨fragment, x, hc, hr⟩ := h
    obtain ⟨c, hresolved, rfl⟩ := condition.translate_resolve hc
    rw [← ConditionOutline.toList_push] at hr
    obtain ⟨others, hothers, rfl⟩ := translateClauses_resolve rest _ hr
    refine ⟨⟨connector, c⟩ :: others, ?_, by rw [clausesOutline]⟩
    simp only [resolveClauses, outcome_bind_eq_ok, outcome_pure]
    exact ⟨c, x, hresolved, others, v, hothers, rfl⟩

/-- A condition is translated to what its outline writes. -/
theorem Condition.translate_resolve :
    ∀ (condition : Condition) {entity tableAlias : String} {fragment : ConditionFragment}
      {w v : Workspace},
      outcome (condition.translate catalog entity tableAlias) w = (.ok fragment, v) →
      ∃ c, outcome (condition.resolve catalog entity) w = (.ok c, v) ∧
        fragment = (c.outline tableAlias).toFragment
  | .group { conditions := [], .. }, _, _, fragment, w, v, h => by
    rw [Condition.translate, outcome_pure_eq_ok] at h
    obtain ⟨rfl, rfl⟩ := h
    refine ⟨.group [], ?_, by rw [ResolvedCondition.outline]; rfl⟩
    simp only [Condition.resolve, resolveClauses, outcome_bind_eq_ok, outcome_pure]
    exact ⟨[], w, rfl, rfl⟩
  | .group { conditions := [⟨connector, only⟩], .. }, _, _, fragment, w, v, h => by
    rw [Condition.translate] at h
    obtain ⟨c, hresolved, rfl⟩ := only.translate_resolve h
    refine ⟨.group [⟨connector, c⟩], ?_, by rw [ResolvedCondition.outline]⟩
    simp only [Condition.resolve, resolveClauses, outcome_bind_eq_ok, outcome_pure]
    exact ⟨_, v, ⟨c, v, hresolved, [], v, rfl, rfl⟩, rfl⟩
  | .group { conditions := first :: second :: rest, .. }, _, _, fragment, w, v, h => by
    simp only [Condition.translate, outcome_bind_eq_ok, outcome_pure_eq_ok] at h
    obtain ⟨list, x, hc, rfl, rfl⟩ := h
    obtain ⟨clauses, hclauses, rfl⟩ :=
      translateClauses_resolve (first :: second :: rest) {} hc
    refine ⟨.group clauses, ?_, ?_⟩
    · simp only [Condition.resolve, outcome_bind_eq_ok, outcome_pure]
      exact ⟨clauses, x, hclauses, rfl⟩
    · -- Whether a group is put in parentheses depends on the number of its conditions.
      have hlength := length_resolveClauses hclauses
      match clauses, hlength with
      | one :: two :: others, _ =>
        rw [ResolvedCondition.outline, ConditionOutline.toFragment_grouped]
  | .criterion { field, operator, value := .value value, conversion }, _, _, fragment, w, v, h => by
    rw [Condition.translate] at h
    rw [Condition.resolve]
    exact criterion_resolve valueComparison_resolve h
  | .criterion { field, operator, value := .query query, conversion }, _, _, fragment, w, v, h => by
    rw [Condition.translate] at h
    rw [Condition.resolve]
    refine criterion_resolve (fun h => ?_) h
    obtain ⟨c, hresolved, rfl⟩ := queryComparison_resolve (fun h => by
      obtain ⟨r, hres, rfl⟩ := query.translateUnder_resolve h
      exact ⟨r, hres, Query.resolve_resolves hres, rfl⟩) h
    refine ⟨.criterion c, ?_, by rw [ResolvedCondition.outline]⟩
    rw [outcome_bind_eq_ok]
    exact ⟨c, _, hresolved, rfl⟩

/-- Set operations that the server has are translated to what their outlines write. -/
theorem translateCombines_resolve :
    ∀ (combines : List Combine) {source : Query} {o : Outline} {t : Translation}
      {w v : Workspace},
      outcome (translateCombines catalog source combines o.toTranslation) w = (.ok t, v) →
      ∃ arms, outcome (resolveArms catalog source combines) w = (.ok arms, v) ∧
        t = (armsOutline arms o).toTranslation
  | [], source, o, t, w, v, h => by
    rw [translateCombines, outcome_pure_eq_ok] at h
    obtain ⟨rfl, rfl⟩ := h
    rw [resolveArms, outcome_pure]
    exact ⟨[], rfl, by rw [armsOutline]⟩
  | ⟨kind, query⟩ :: rest, source, o, t, w, v, h => by
    simp only [translateCombines, outcome_bind_eq_ok] at h
    obtain ⟨next, x, hn, hr⟩ := h
    obtain ⟨arm, harm, rfl⟩ := addNative_resolve (fun h => by
      obtain ⟨r, hres, rfl⟩ := query.translateUnder_resolve h
      exact ⟨r, hres, Query.resolve_resolves hres, rfl⟩) hn
    obtain ⟨others, hothers, rfl⟩ := translateCombines_resolve rest hr
    refine ⟨arm ++ others, ?_, by simp only [armsOutline_eq, List.foldl_append]⟩
    simp only [resolveArms, outcome_bind_eq_ok, outcome_pure]
    exact ⟨arm, x, harm, others, v, hothers, rfl⟩

/-- Joins are translated to what their outlines write. -/
theorem translateJoins_resolve :
    ∀ (joins : List Join) {source tableAlias : String} {o : Outline} {t : Translation}
      {w v : Workspace},
      outcome (translateJoins catalog source tableAlias joins o.toTranslation) w = (.ok t, v) →
      ∃ resolved, outcome (resolveJoins catalog source joins) w = (.ok resolved, v) ∧
        t = (joinsOutline tableAlias resolved o).toTranslation
  | [], _, _, o, t, w, v, h => by
    rw [translateJoins, outcome_pure_eq_ok] at h
    obtain ⟨rfl, rfl⟩ := h
    rw [resolveJoins, outcome_pure]
    exact ⟨[], rfl, by rw [joinsOutline]⟩
  | { kind, operator, fields, query, extra := none } :: rest, _, _, o, t, w, v, h => by
    simp only [translateJoins, outcome_bind_eq_ok] at h
    obtain ⟨next, x, hn, hr⟩ := h
    have hextra : ExtraResolves none none := trivial
    obtain ⟨j, hresolved, -, rfl⟩ := addJoin_resolve (fun h => by
      obtain ⟨r, hres, rfl⟩ := query.translateUnder_resolve h
      exact ⟨r, hres, Query.resolve_resolves hres, rfl⟩) hextra hn
    obtain ⟨others, hothers, rfl⟩ := translateJoins_resolve rest hr
    refine ⟨j :: others, ?_, by simp only [joinsOutline_eq, List.foldl_cons]⟩
    simp only [resolveJoins, outcome_bind_eq_ok, outcome_pure]
    exact ⟨j, x, hresolved, others, v, hothers, rfl⟩
  | { kind, operator, fields, query, extra := some extra } :: rest, _, _, o, t, w, v, h => by
    simp only [translateJoins, outcome_bind_eq_ok] at h
    obtain ⟨next, x, hn, hr⟩ := h
    have hextra : ExtraResolves (some (extra.translateUnder catalog false))
        (some (extra.resolve catalog false)) :=
      fun _ _ _ _ h => extra.translateUnder_resolve h
    obtain ⟨j, hresolved, -, rfl⟩ := addJoin_resolve (fun h => by
      obtain ⟨r, hres, rfl⟩ := query.translateUnder_resolve h
      exact ⟨r, hres, Query.resolve_resolves hres, rfl⟩) hextra hn
    obtain ⟨others, hothers, rfl⟩ := translateJoins_resolve rest hr
    refine ⟨j :: others, ?_, by simp only [joinsOutline_eq, List.foldl_cons]⟩
    simp only [resolveJoins, outcome_bind_eq_ok, outcome_pure]
    exact ⟨j, x, hresolved, others, v, hothers, rfl⟩

/-- Set operations that stand for joins are translated to what their outlines write. -/
theorem translateMatches_resolve :
    ∀ (combines : List Combine) {source tableAlias : String} {o : Outline} {t : Translation}
      {w v : Workspace},
      outcome (translateMatches catalog source tableAlias combines o.toTranslation) w =
        (.ok t, v) →
      ∃ resolved, outcome (resolveMatches catalog source combines) w = (.ok resolved, v) ∧
        t = (joinsOutline tableAlias resolved o).toTranslation
  | [], _, _, o, t, w, v, h => by
    rw [translateMatches, outcome_pure_eq_ok] at h
    obtain ⟨rfl, rfl⟩ := h
    rw [resolveMatches, outcome_pure]
    exact ⟨[], rfl, by rw [joinsOutline]⟩
  | ⟨kind, query⟩ :: rest, _, _, o, t, w, v, h => by
    simp only [translateMatches, outcome_bind_eq_ok] at h
    obtain ⟨next, x, hn, hr⟩ := h
    obtain ⟨joins, hresolved, rfl⟩ := addMatch_resolve (fun h => by
      obtain ⟨r, hres, rfl⟩ := query.translateUnder_resolve h
      exact ⟨r, hres, Query.resolve_resolves hres, rfl⟩) hn
    obtain ⟨others, hothers, rfl⟩ := translateMatches_resolve rest hr
    refine ⟨joins ++ others, ?_, by simp only [joinsOutline_eq, List.foldl_append]⟩
    simp only [resolveMatches, outcome_bind_eq_ok, outcome_pure]
    exact ⟨joins, x, hresolved, others, v, hothers, rfl⟩

end

/-- A translated query is written from an outline, in which the conditions on joined rows have
become part of the condition. -/
theorem Query.translate_resolve {q : Query} {names names' : NameSupply} {t : Translation}
    (h : q.translate catalog names = (.ok t, names')) :
    ∃ r w, outcome (q.resolve catalog true NameSupply.mainAlias) { names := names.resetAliases } =
        (.ok r, w) ∧ names' = w.names ∧
      t = { (r.outline NameSupply.mainAlias).mergeJoinExtras.toTranslation with
        parameters := w.parameters } := by
  obtain ⟨u, w, hu, rfl, rfl⟩ := translate_eq_ok.mp h
  obtain ⟨r, hr, rfl⟩ := q.translateUnder_resolve hu
  exact ⟨r, w, hr, rfl, by rw [Outline.toTranslation_mergeJoinExtras]⟩

end AbstractSql
