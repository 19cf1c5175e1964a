import AbstractSql.Proofs.Outline.Lowering

/-!
# Induction on resolved queries

A resolved query holds other queries in its comparisons, its set operations and its joins. What
holds of a query when it holds of all these holds of every query. And what holds of the start of its
clauses and is kept by each step that adds to them holds of the clauses.
-/

namespace AbstractSql

mutual

/-- The comparisons in a condition, in order. -/
def ResolvedCondition.criteria : ResolvedCondition → List ResolvedCriterion
  | .criterion criterion => [criterion]
  | .group clauses => clauseCriteria clauses

/-- The comparisons in conditions, in order. -/
def clauseCriteria : List ResolvedClause → List ResolvedCriterion
  | [] => []
  | ⟨_, condition⟩ :: rest => condition.criteria ++ clauseCriteria rest

end

namespace ResolvedCriterion

/-- The test that a comparison is written as. -/
def test (tableAlias : String) : ResolvedCriterion → Test
  | .missing reference operator => .missing tableAlias reference operator
  | .value reference operator parameter => .value tableAlias reference operator parameter
  | .text reference operator raw => .text tableAlias reference operator raw
  | .rows reference operator limit column innerAlias query =>
    .rows tableAlias reference operator limit (query.outline innerAlias).sorts column
      ((query.outline innerAlias).select query.columns query.table innerAlias)

/-- The definitions that a comparison pulls up. -/
def definitions : ResolvedCriterion → List ClosureRows
  | .rows _ _ _ _ innerAlias query => (query.outline innerAlias).definitions
  | _ => []

/-- A comparison is written as one test. -/
theorem outline_row (c : ResolvedCriterion) (tableAlias : String) :
    (c.outline tableAlias).row = [.atom (c.test tableAlias)] := by
  cases c <;> rw [outline] <;> rfl

/-- A comparison pulls up the definitions of its query. -/
theorem outline_definitions (c : ResolvedCriterion) (tableAlias : String) :
    (c.outline tableAlias).definitions = c.definitions := by
  cases c <;> rw [outline] <;> rfl

end ResolvedCriterion

namespace ResolvedQuery

/-- The comparisons in the conditions of a query. -/
def criteria (r : ResolvedQuery) : List ResolvedCriterion := clauseCriteria r.conditions

end ResolvedQuery

/-- What conditions under an alias are written as: a row of terms whose atoms are the tests of these
comparisons, with the definitions that these pull up. -/
structure ConditionOutline.Writes (o : ConditionOutline) (tableAlias : String)
    (criteria : List ResolvedCriterion) : Prop where
  /-- The row consists of terms. -/
  sum : Lexeme.IsSum o.row
  /-- Whether it has an alternative outside all parentheses is known. -/
  alternates : o.hasOr = Lexeme.alternates 0 o.row
  /-- Its atoms are the tests. -/
  atoms : ∀ test, .atom test ∈ o.row ↔ ∃ c ∈ criteria, c.test tableAlias = test
  /-- The definitions are theirs. -/
  definitions : o.definitions = criteria.flatMap ResolvedCriterion.definitions

namespace ConditionOutline.Writes

variable {tableAlias : String} {list fragment : ConditionOutline}
  {written criteria : List ResolvedCriterion}

/-- No conditions. -/
theorem nil : ConditionOutline.Writes {} tableAlias [] := ⟨.nil, rfl, by simp, rfl⟩

/-- A condition after others. -/
theorem push (h : list.Writes tableAlias written) (hf : fragment.Writes tableAlias criteria)
    (ht : fragment.row = [] ∨ Lexeme.IsTerm fragment.row) (c : Connector) :
    (list.push c fragment).Writes tableAlias (written ++ criteria) where
  sum := h.sum.push ht c
  alternates := by
    unfold ConditionOutline.push Lexeme.push
    rcases ht with ht | ht
    · simp [ht, h.alternates]
    · have hf : fragment.row.isEmpty = false := by simpa using ht.ne_nil
      cases hn : list.row.isEmpty with
      | true =>
        have halternates := h.alternates
        rw [List.isEmpty_iff.mp hn] at halternates
        simp [hf, halternates, ht.flat.alternates_eq_false, Lexeme.alternates]
      | false => simp [hf, h.alternates, h.sum.balanced.alternates_connector ht.flat]
  atoms test := by simp [ConditionOutline.push, h.atoms, hf.atoms, or_and_right, exists_or]
  definitions := by
    rw [List.flatMap_append, ← h.definitions, ← hf.definitions]
    rfl

/-- Conditions that are taken together. -/
theorem grouped (h : list.Writes tableAlias written) :
    list.grouped.Writes tableAlias written ∧
      (list.grouped.row = [] ∨ Lexeme.IsTerm list.grouped.row) := by
  by_cases hn : list.row = []
  · have hrow : list.grouped.row = [] := by simp [ConditionOutline.grouped, Lexeme.enclose, hn]
    refine ⟨⟨hrow ▸ .nil, hrow ▸ rfl, fun test => ?_, h.definitions⟩, .inl hrow⟩
    rw [hrow, ← h.atoms, hn]
  · have hterm : Lexeme.IsTerm list.grouped.row := (h.sum.enclose hn).1
    exact ⟨⟨.of_term hterm, hterm.flat.alternates_eq_false.symm,
      fun test => Lexeme.atom_mem_enclose.trans (h.atoms test),
      h.definitions⟩, .inr hterm⟩

end ConditionOutline.Writes

/-- A comparison is written as its test. -/
theorem ResolvedCriterion.writes (c : ResolvedCriterion) (tableAlias : String) :
    (c.outline tableAlias).Writes tableAlias [c] where
  sum := c.outline_row tableAlias ▸ .of_term (.atom _)
  alternates := by cases c <;> rw [outline] <;> rfl
  atoms test := by simp [c.outline_row, eq_comm]
  definitions := by simp [c.outline_definitions]

mutual

/-- A condition is written as its comparisons, and as one term if it is anything. -/
theorem ResolvedCondition.writes (tableAlias : String) :
    ∀ c : ResolvedCondition, (c.outline tableAlias).Writes tableAlias c.criteria ∧
      ((c.outline tableAlias).row = [] ∨ Lexeme.IsTerm (c.outline tableAlias).row)
  | .criterion c => by
    rw [ResolvedCondition.outline, ResolvedCondition.criteria]
    exact ⟨c.writes tableAlias, .inr (c.outline_row tableAlias ▸ .atom _)⟩
  | .group [] => by
    rw [ResolvedCondition.outline, ResolvedCondition.criteria, clauseCriteria]
    exact ⟨.nil, .inl rfl⟩
  | .group [⟨_, only⟩] => by
    rw [ResolvedCondition.outline, ResolvedCondition.criteria, clauseCriteria, clauseCriteria,
      List.append_nil]
    exact only.writes tableAlias
  | .group (first :: second :: rest) => by
    rw [ResolvedCondition.outline, ResolvedCondition.criteria]
    exact (clausesOutline_writes tableAlias (first :: second :: rest) .nil).grouped

/-- Conditions are written after others. -/
theorem clausesOutline_writes (tableAlias : String) :
    ∀ (clauses : List ResolvedClause) {list : ConditionOutline}
      {written : List ResolvedCriterion}, list.Writes tableAlias written →
      (clausesOutline tableAlias clauses list).Writes tableAlias (written ++ clauseCriteria clauses)
  | [], _, _, h => by
    rw [clausesOutline, clauseCriteria, List.append_nil]
    exact h
  | ⟨connector, condition⟩ :: rest, _, _, h => by
    obtain ⟨hc, ht⟩ := condition.writes tableAlias
    rw [clausesOutline, clauseCriteria, ← List.append_assoc]
    exact clausesOutline_writes tableAlias rest (h.push hc ht connector)

end

/-- The conditions of a query are written as its comparisons. -/
theorem ResolvedQuery.start_writes (r : ResolvedQuery) (tableAlias : String) :
    (clausesOutline tableAlias r.conditions {}).Writes tableAlias r.criteria :=
  clausesOutline_writes tableAlias r.conditions .nil

section

variable {motive : ResolvedQuery → Prop}

/-- What a query needs so that something holds of it: it holds of all queries in it. -/
structure ResolvedQuery.Within (motive : ResolvedQuery → Prop) (r : ResolvedQuery) : Prop where
  /-- Of the compared queries. -/
  compared : ∀ {reference operator limit column tableAlias query},
    .rows reference operator limit column tableAlias query ∈ r.criteria → motive query
  /-- Of the queries of set operations. -/
  arm : ∀ arm ∈ r.arms, motive arm.query
  /-- Of the joined queries. -/
  joined : ∀ join ∈ r.joins, motive join.query
  /-- Of the conditions on joined rows. -/
  extra : ∀ join ∈ r.joins, ∀ extra, join.extra = some extra → motive extra

mutual

/-- What holds of a query when it holds of all queries in it holds of every query. -/
@[elab_as_elim]
theorem ResolvedQuery.induction (step : ∀ r : ResolvedQuery, r.Within motive → motive r) :
    ∀ r : ResolvedQuery, motive r
  | { table, columns, text, conditions, sorts, arms, joins, closure } =>
    step _ ⟨induction_clauses step conditions, induction_arms step arms,
      fun join h => (induction_joins step joins join h).1,
      fun join h => (induction_joins step joins join h).2⟩

/-- It holds of the queries compared in conditions. -/
theorem induction_clauses (step : ∀ r : ResolvedQuery, r.Within motive → motive r) :
    ∀ (clauses : List ResolvedClause) {reference operator limit column tableAlias query},
      .rows reference operator limit column tableAlias query ∈ clauseCriteria clauses →
        motive query
  | [], _, _, _, _, _, _, h => by simp [clauseCriteria] at h
  | ⟨_, condition⟩ :: rest, _, _, _, _, _, _, h => by
    rw [clauseCriteria] at h
    rcases List.mem_append.mp h with h | h
    · exact induction_condition step condition h
    · exact induction_clauses step rest h

/-- It holds of the queries compared in a condition. -/
theorem induction_condition (step : ∀ r : ResolvedQuery, r.Within motive → motive r) :
    ∀ (condition : ResolvedCondition) {reference operator limit column tableAlias query},
      .rows reference operator limit column tableAlias query ∈ condition.criteria → motive query
  | .criterion (.rows _ _ _ _ _ query), _, _, _, _, _, _, h => by
    rw [ResolvedCondition.criteria, List.mem_singleton] at h
    injection h with _ _ _ _ _ hq
    exact hq ▸ query.induction step
  | .criterion (.missing ..), _, _, _, _, _, _, h => by simp [ResolvedCondition.criteria] at h
  | .criterion (.value ..), _, _, _, _, _, _, h => by simp [ResolvedCondition.criteria] at h
  | .criterion (.text ..), _, _, _, _, _, _, h => by simp [ResolvedCondition.criteria] at h
  | .group clauses, _, _, _, _, _, _, h => by
    rw [ResolvedCondition.criteria] at h
    exact induction_clauses step clauses h

/-- It holds of the queries of set operations. -/
theorem induction_arms (step : ∀ r : ResolvedQuery, r.Within motive → motive r) :
    ∀ (arms : List ResolvedArm), ∀ arm ∈ arms, motive arm.query
  | [], _, h => absurd h List.not_mem_nil
  | ⟨_, _, _, query⟩ :: rest, arm, h => by
    rcases List.mem_cons.mp h with rfl | h
    · exact query.induction step
    · exact induction_arms step rest arm h

/-- It holds of joined queries and of the conditions on joined rows. -/
theorem induction_joins (step : ∀ r : ResolvedQuery, r.Within motive → motive r) :
    ∀ (joins : List ResolvedJoin), ∀ join ∈ joins,
      motive join.query ∧ ∀ extra, join.extra = some extra → motive extra
  | [], _, h => absurd h List.not_mem_nil
  | { query, extra := none, .. } :: rest, join, h => by
    rcases List.mem_cons.mp h with rfl | h
    · exact ⟨query.induction step, fun _ he => nomatch he⟩
    · exact induction_joins step rest join h
  | { query, extra := some required, .. } :: rest, join, h => by
    rcases List.mem_cons.mp h with rfl | h
    · refine ⟨query.induction step, fun extra he => ?_⟩
      obtain rfl := Option.some.inj he
      exact required.induction step
    · exact induction_joins step rest join h

end

end

/-- What holds of the clauses of all queries in a query, and where there are no clauses, holds of
what it requires of joined rows. -/
theorem ResolvedQuery.Within.required {inv : Outline → Prop} {r : ResolvedQuery}
    (within : r.Within fun query => ∀ tableAlias, inv (query.outline tableAlias)) (empty : inv {})
    {join : ResolvedJoin} (hm : join ∈ r.joins) : inv join.required := by
  unfold ResolvedJoin.required extraOutline
  split
  · exact empty
  · next extra hextra => exact within.extra join hm extra hextra join.targetAlias

/-- What holds of the clauses of the conditions and is kept by arms and joins holds before a closure
takes the clauses. -/
theorem ResolvedQuery.gathered_of_steps {inv : Outline → Prop} {r : ResolvedQuery}
    {tableAlias : String} (start : inv (r.start tableAlias))
    (arm : ∀ o, ∀ arm ∈ r.arms, inv o → inv (arm.addTo o))
    (join : ∀ o, ∀ join ∈ r.joins, inv o → inv (join.addTo tableAlias o)) :
    inv (r.gathered tableAlias) := by
  have harms : inv (r.arms.foldl ResolvedArm.addTo (r.start tableAlias)) :=
    List.foldlRecOn r.arms _ start fun o ho a ha => arm o a ha ho
  exact List.foldlRecOn r.joins _ harms fun o ho j hj => join o j hj ho

/-- What holds of the clauses of the conditions and is kept by arms, joins and a closure holds of
the clauses of a query. -/
theorem ResolvedQuery.outline_of_steps {inv : Outline → Prop} {r : ResolvedQuery}
    {tableAlias : String} (text : ∀ raw, r.text = some raw → inv { text := some raw })
    (start : inv (r.start tableAlias))
    (arm : ∀ o, ∀ arm ∈ r.arms, inv o → inv (arm.addTo o))
    (join : ∀ o, ∀ join ∈ r.joins, inv o → inv (join.addTo tableAlias o))
    (close : ∀ o closure, r.closure = some closure → inv o → inv (o.close r.table tableAlias closure)) :
    inv (r.outline tableAlias) := by
  cases ht : r.text with
  | some raw => exact outline_text ht tableAlias ▸ text raw ht
  | none =>
    have hgathered := gathered_of_steps start arm join
    rw [outline_eq ht]
    cases hc : r.closure with
    | none => exact hgathered
    | some closure => exact close _ closure hc hgathered

end AbstractSql
