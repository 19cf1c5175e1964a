import AbstractSql.Command
import Mathlib.Data.List.Basic

/-!
# The values inside queries and commands

Values stand in comparisons, in the parameters of statement texts and in payloads, and queries hold
queries again. All of them are put through a function here, and what this leaves as it was is told
from the values alone.
-/

namespace AbstractSql

variable {f : Value → Value}

/-! ## Functions on values -/

/-- A parameter with its value put through a function. -/
def Parameter.mapValues (f : Value → Value) (p : Parameter) : Parameter :=
  { p with value := f p.value }

/-- Parameters with their values put through a function. -/
def ParameterSet.mapValues (f : Value → Value) (set : ParameterSet) : ParameterSet :=
  ⟨set.items.map (.mapValues f)⟩

/-- A statement text with the values of its parameters put through a function. -/
def RawText.mapValues (f : Value → Value) (raw : RawText) : RawText :=
  { raw with parameters := raw.parameters.mapValues f }

mutual

/-- A query with all values in it put through a function. -/
def Query.mapValues (f : Value → Value) : Query → Query
  | { entity, text, conditions, sorts, joins, combines, recurve, paging, size, fields,
      isolation } =>
    { entity
      text := text.map (.mapValues f)
      conditions := Clause.mapValuesItems f conditions
      sorts
      joins := Join.mapValuesItems f joins
      combines := Combine.mapValuesItems f combines
      recurve
      paging
      size
      fields
      isolation }

/-- Conditions with their connectors and with all values put through a function. -/
def Clause.mapValuesItems (f : Value → Value) : List Clause → List Clause
  | [] => []
  | ⟨connector, condition⟩ :: rest =>
    ⟨connector, condition.mapValues f⟩ :: Clause.mapValuesItems f rest

/-- A condition with all values in it put through a function. -/
def Condition.mapValues (f : Value → Value) : Condition → Condition
  | .criterion { field, operator, value, conversion } =>
    .criterion { field, operator, value := value.mapValues f, conversion }
  | .group group => .group (group.mapValues f)

/-- A right-hand side with all values in it put through a function. -/
def Operand.mapValues (f : Value → Value) : Operand → Operand
  | .value value => .value (f value)
  | .query query => .query (query.mapValues f)

/-- Joins with all values put through a function. -/
def Join.mapValuesItems (f : Value → Value) : List Join → List Join
  | [] => []
  | { kind, operator, fields, query, extra } :: rest =>
    { kind, operator, fields, query := query.mapValues f
      extra :=
        match extra with
        | none => none
        | some extra => some (extra.mapValues f) } :: Join.mapValuesItems f rest

/-- Set operations with all values put through a function. -/
def Combine.mapValuesItems (f : Value → Value) : List Combine → List Combine
  | [] => []
  | ⟨kind, query⟩ :: rest => ⟨kind, query.mapValues f⟩ :: Combine.mapValuesItems f rest

end

/-- A condition with its connector and with all values put through a function. -/
def Clause.mapValues (f : Value → Value) (c : Clause) : Clause :=
  { c with condition := c.condition.mapValues f }

/-- A join with all values put through a function. -/
def Join.mapValues (f : Value → Value) (j : Join) : Join :=
  { j with query := j.query.mapValues f, extra := j.extra.map (.mapValues f) }

/-- A set operation with all values put through a function. -/
def Combine.mapValues (f : Value → Value) (c : Combine) : Combine :=
  { c with query := c.query.mapValues f }

/-- A command with all values in it put through a function. -/
def Command.mapValues (f : Value → Value) (c : Command) : Command :=
  { c with query := c.query.map (.mapValues f), values := c.values.mapValues f }

theorem Clause.mapValuesItems_eq_map (clauses : List Clause) :
    Clause.mapValuesItems f clauses = clauses.map (.mapValues f) := by
  induction clauses with
  | nil => rfl
  | cons c rest ih =>
    obtain ⟨connector, condition⟩ := c
    exact congrArg (List.cons _) ih

theorem Join.mapValuesItems_eq_map (joins : List Join) :
    Join.mapValuesItems f joins = joins.map (.mapValues f) := by
  induction joins with
  | nil => rfl
  | cons j rest ih =>
    obtain ⟨kind, operator, fields, query, extra⟩ := j
    cases extra <;> exact congrArg (List.cons _) ih

theorem Combine.mapValuesItems_eq_map (combines : List Combine) :
    Combine.mapValuesItems f combines = combines.map (.mapValues f) := by
  induction combines with
  | nil => rfl
  | cons c rest ih =>
    obtain ⟨kind, query⟩ := c
    exact congrArg (List.cons _) ih

/-- The lists of a query are put through the function one by one. -/
theorem Query.mapValues_eq (q : Query) :
    q.mapValues f =
      { q with
        text := q.text.map (.mapValues f)
        conditions := q.conditions.map (.mapValues f)
        joins := q.joins.map (.mapValues f)
        combines := q.combines.map (.mapValues f) } := by
  obtain ⟨entity, text, conditions, sorts, joins, combines, _⟩ := q
  rw [Query.mapValues, Clause.mapValuesItems_eq_map, Join.mapValuesItems_eq_map,
    Combine.mapValuesItems_eq_map]

/-! ## All values -/

/-- The values of parameters. -/
def ParameterSet.allValues (set : ParameterSet) : List Value := set.items.map (·.value)

/-- The values of the parameters of a statement text. -/
def RawText.allValues (raw : RawText) : List Value := raw.parameters.allValues

mutual

/-- All values in a query. -/
def Query.allValues : Query → List Value
  | { text, conditions, joins, combines, .. } =>
    text.toList.flatMap RawText.allValues ++ Clause.allValuesItems conditions
      ++ Join.allValuesItems joins ++ Combine.allValuesItems combines

/-- All values in conditions. -/
def Clause.allValuesItems : List Clause → List Value
  | [] => []
  | ⟨_, condition⟩ :: rest => condition.allValues ++ Clause.allValuesItems rest

/-- All values in a condition. -/
def Condition.allValues : Condition → List Value
  | .criterion { value, .. } => value.allValues
  | .group group => group.allValues

/-- All values in a right-hand side. -/
def Operand.allValues : Operand → List Value
  | .value value => [value]
  | .query query => query.allValues

/-- All values in joins. -/
def Join.allValuesItems : List Join → List Value
  | [] => []
  | { query, extra, .. } :: rest =>
    query.allValues
      ++ (match extra with
        | none => []
        | some extra => extra.allValues)
      ++ Join.allValuesItems rest

/-- All values in set operations. -/
def Combine.allValuesItems : List Combine → List Value
  | [] => []
  | ⟨_, query⟩ :: rest => query.allValues ++ Combine.allValuesItems rest

end

/-- All values in a condition with its connector. -/
def Clause.allValues (c : Clause) : List Value := c.condition.allValues

/-- All values in a join. -/
def Join.allValues (j : Join) : List Value :=
  j.query.allValues ++ j.extra.toList.flatMap Query.allValues

/-- All values in a set operation. -/
def Combine.allValues (c : Combine) : List Value := c.query.allValues

/-- All values in a command. -/
def Command.allValues (c : Command) : List Value :=
  c.query.toList.flatMap Query.allValues ++ c.values.allValues

theorem Clause.allValuesItems_eq_flatMap (clauses : List Clause) :
    Clause.allValuesItems clauses = clauses.flatMap Clause.allValues := by
  induction clauses with
  | nil => rfl
  | cons c rest ih =>
    obtain ⟨connector, condition⟩ := c
    rw [Clause.allValuesItems, ih, List.flatMap_cons, Clause.allValues]

theorem Join.allValuesItems_eq_flatMap (joins : List Join) :
    Join.allValuesItems joins = joins.flatMap Join.allValues := by
  induction joins with
  | nil => rfl
  | cons j rest ih =>
    obtain ⟨kind, operator, fields, query, extra⟩ := j
    cases extra <;> simp [Join.allValuesItems, Join.allValues, ih]

theorem Combine.allValuesItems_eq_flatMap (combines : List Combine) :
    Combine.allValuesItems combines = combines.flatMap Combine.allValues := by
  induction combines with
  | nil => rfl
  | cons c rest ih =>
    obtain ⟨kind, query⟩ := c
    rw [Combine.allValuesItems, ih, List.flatMap_cons, Combine.allValues]

/-- The values of a query stand in its statement text, its conditions, its joins and its set
operations. -/
theorem Query.allValues_eq (q : Query) :
    q.allValues =
      q.text.toList.flatMap RawText.allValues ++ q.conditions.flatMap Clause.allValues
        ++ q.joins.flatMap Join.allValues ++ q.combines.flatMap Combine.allValues := by
  obtain ⟨entity, text, conditions, sorts, joins, combines, _⟩ := q
  rw [Query.allValues, Clause.allValuesItems_eq_flatMap, Join.allValuesItems_eq_flatMap,
    Combine.allValuesItems_eq_flatMap]

/-! ## Queries inside queries -/

/-- The queries that stand in a right-hand side. -/
def Operand.inner : Operand → List Query
  | .value _ => []
  | .query q => [q]

/-- The queries that stand in a condition. -/
def Condition.inner : Condition → List Query
  | .criterion c => c.value.inner
  | .group q => [q]

/-- The queries that stand in a join. -/
def Join.inner (j : Join) : List Query := j.query :: j.extra.toList

/-- A query that stands in a condition is smaller. -/
theorem Condition.sizeOf_lt_of_mem_inner {c : Condition} {r : Query} (h : r ∈ c.inner) :
    sizeOf r < sizeOf c := by
  cases c with
  | criterion c =>
    obtain ⟨field, operator, value, conversion⟩ := c
    cases value with
    | value v => exact absurd h List.not_mem_nil
    | query q =>
      obtain rfl : r = q := List.mem_singleton.mp h
      simp only [criterion.sizeOf_spec, Criterion.mk.sizeOf_spec, Operand.query.sizeOf_spec]
      omega
  | group q =>
    obtain rfl : r = q := List.mem_singleton.mp h
    rw [group.sizeOf_spec]
    omega

/-- A query that stands in a join is smaller. -/
theorem Join.sizeOf_lt_of_mem_inner {j : Join} {r : Query} (h : r ∈ j.inner) :
    sizeOf r < sizeOf j := by
  obtain ⟨kind, operator, fields, query, extra⟩ := j
  rw [Join.mk.sizeOf_spec]
  rcases List.mem_cons.mp h with rfl | h
  · omega
  · obtain rfl : extra = some r := Option.mem_toList.mp h
    rw [Option.some.sizeOf_spec]
    omega

/-- The queries that stand in a query, without those that stand in them. -/
def Query.inner (q : Query) : List Query :=
  q.conditions.flatMap (·.condition.inner) ++ q.joins.flatMap (·.inner) ++ q.combines.map (·.query)

namespace Query

theorem mem_inner_of_clause {q r : Query} {c : Clause} (hc : c ∈ q.conditions)
    (hr : r ∈ c.condition.inner) : r ∈ q.inner :=
  List.mem_append_left _ (List.mem_append_left _ (List.mem_flatMap_of_mem hc hr))

theorem mem_inner_of_join {q r : Query} {j : Join} (hj : j ∈ q.joins) (hr : r ∈ j.inner) :
    r ∈ q.inner :=
  List.mem_append_left _ (List.mem_append_right _ (List.mem_flatMap_of_mem hj hr))

theorem mem_inner_of_combine {q : Query} {c : Combine} (hc : c ∈ q.combines) : c.query ∈ q.inner :=
  List.mem_append_right _ (List.mem_map_of_mem hc)

/-- A query stands in a condition, in a join or in a set operation. -/
theorem mem_inner {q r : Query} :
    r ∈ q.inner ↔
      (∃ c ∈ q.conditions, r ∈ c.condition.inner) ∨ (∃ j ∈ q.joins, r ∈ j.inner) ∨
        ∃ c ∈ q.combines, c.query = r := by
  simp only [inner, List.mem_append, List.mem_flatMap, List.mem_map, or_assoc]

/-- A query that stands in another is smaller. -/
theorem sizeOf_lt_of_mem_inner {q r : Query} (h : r ∈ q.inner) : sizeOf r < sizeOf q := by
  obtain ⟨entity, text, conditions, sorts, joins, combines, _⟩ := q
  rcases mem_inner.mp h with ⟨c, hc, hr⟩ | ⟨j, hj, hr⟩ | ⟨c, hc, rfl⟩
  · have hclause := List.sizeOf_lt_of_mem hc
    have hcondition := Condition.sizeOf_lt_of_mem_inner hr
    obtain ⟨connector, condition⟩ := c
    simp only [Clause.mk.sizeOf_spec, Query.mk.sizeOf_spec] at hclause hcondition ⊢
    omega
  · have hlist := List.sizeOf_lt_of_mem hj
    have hjoin := Join.sizeOf_lt_of_mem_inner hr
    simp only [Query.mk.sizeOf_spec] at hlist ⊢
    omega
  · have hlist := List.sizeOf_lt_of_mem hc
    obtain ⟨kind, query⟩ := c
    simp only [Combine.mk.sizeOf_spec, Query.mk.sizeOf_spec] at hlist ⊢
    omega

/-- What holds of a query when it holds of the queries in it holds of every query. -/
@[elab_as_elim]
theorem induction {motive : Query → Prop}
    (step : ∀ q : Query, (∀ r ∈ q.inner, motive r) → motive q) (q : Query) : motive q :=
  step q fun r _ => induction step r
termination_by sizeOf q
decreasing_by exact sizeOf_lt_of_mem_inner ‹_›

end Query

/-! ## The values afterwards -/

/-- The function has been applied to the values of parameters. -/
theorem ParameterSet.allValues_mapValues (set : ParameterSet) :
    (set.mapValues f).allValues = set.allValues.map f := by
  simp only [mapValues, allValues, List.map_map]
  rfl

/-- The function has been applied to the values of a condition if it has been applied to those of
the queries in it. -/
theorem Condition.allValues_mapValues {c : Condition}
    (h : ∀ r ∈ c.inner, (r.mapValues f).allValues = r.allValues.map f) :
    (c.mapValues f).allValues = c.allValues.map f := by
  cases c with
  | criterion c =>
    obtain ⟨field, operator, value, conversion⟩ := c
    cases value with
    | value v => rfl
    | query inner => exact h inner List.mem_cons_self
  | group inner => exact h inner List.mem_cons_self

/-- The function has been applied to the values of a join if it has been applied to those of its
queries. -/
theorem Join.allValues_mapValues {j : Join}
    (h : ∀ r ∈ j.inner, (r.mapValues f).allValues = r.allValues.map f) :
    (j.mapValues f).allValues = j.allValues.map f := by
  have hquery := h j.query List.mem_cons_self
  cases hextra : j.extra with
  | none => simp [allValues, mapValues, hextra, hquery]
  | some extra =>
    have hmem : extra ∈ j.inner := by simp [inner, hextra]
    simp [allValues, mapValues, hextra, hquery, h extra hmem]

/-- The values of a query with its values put through a function are the results. -/
theorem Query.allValues_mapValues (q : Query) : (q.mapValues f).allValues = q.allValues.map f := by
  induction q using Query.induction with
  | step q ih =>
    have htext : (q.text.map (RawText.mapValues f)).toList.flatMap RawText.allValues =
        (q.text.toList.flatMap RawText.allValues).map f := by
      cases q.text with
      | none => rfl
      | some raw => simp [RawText.mapValues, RawText.allValues, ParameterSet.allValues_mapValues]
    have hconditions : ∀ c ∈ q.conditions, (c.mapValues f).allValues = c.allValues.map f :=
      fun c hc => Condition.allValues_mapValues fun r hr => ih r (mem_inner_of_clause hc hr)
    have hjoins : ∀ j ∈ q.joins, (j.mapValues f).allValues = j.allValues.map f :=
      fun j hj => Join.allValues_mapValues fun r hr => ih r (mem_inner_of_join hj hr)
    have hcombines : ∀ c ∈ q.combines, (c.mapValues f).allValues = c.allValues.map f :=
      fun c hc => ih c.query (mem_inner_of_combine hc)
    rw [allValues_eq, allValues_eq, mapValues_eq]
    simp only [List.map_append, List.flatMap_map]
    rw [htext, List.flatMap_congr hconditions, List.flatMap_congr hjoins,
      List.flatMap_congr hcombines]
    simp only [List.map_flatMap]

/-- The values of a command with its values put through a function are the results. -/
theorem Command.allValues_mapValues (c : Command) :
    (c.mapValues f).allValues = c.allValues.map f := by
  have hquery : (c.query.map (Query.mapValues f)).toList.flatMap Query.allValues =
      (c.query.toList.flatMap Query.allValues).map f := by
    cases c.query with
    | none => rfl
    | some q => simp [Query.allValues_mapValues]
  simp only [mapValues, allValues, List.map_append, hquery, ParameterSet.allValues_mapValues]

/-! ## What stays as it is -/

/-- A list stays as it is when its members do. -/
theorem map_eq_self_iff {α : Type} {g : α → α} {items : List α} :
    items.map g = items ↔ ∀ a ∈ items, g a = a := by
  have h : items.map g = items.map id ↔ ∀ a ∈ items, g a = id a := List.map_inj_left
  rwa [List.map_id] at h

/-- A list stays as it is when its members do, and these do when the values in them do. -/
theorem map_eq_self_iff_values {α : Type} {g : α → α} {values : α → List Value} {items : List α}
    (h : ∀ a ∈ items, (g a = a ↔ ∀ v ∈ values a, f v = v)) :
    items.map g = items ↔ ∀ v ∈ items.flatMap values, f v = v := by
  rw [map_eq_self_iff, List.forall_mem_flatMap]
  exact forall₂_congr h

/-- Parameters stay as they are when their values do. -/
theorem ParameterSet.mapValues_eq_self_iff {set : ParameterSet} :
    set.mapValues f = set ↔ ∀ v ∈ set.allValues, f v = v := by
  have hp : ∀ p : Parameter, p.mapValues f = p ↔ f p.value = p.value := by
    intro p
    obtain ⟨name, value, _⟩ := p
    simp [Parameter.mapValues]
  obtain ⟨items⟩ := set
  simp [mapValues, allValues, map_eq_self_iff, hp]

/-- A condition stays as it is when its values do, if this holds of the queries in it. -/
theorem Condition.mapValues_eq_self_iff {c : Condition}
    (h : ∀ r ∈ c.inner, (r.mapValues f = r ↔ ∀ v ∈ r.allValues, f v = v)) :
    c.mapValues f = c ↔ ∀ v ∈ c.allValues, f v = v := by
  cases c with
  | criterion c =>
    obtain ⟨field, operator, value, conversion⟩ := c
    cases value with
    | value v => simp [mapValues, Operand.mapValues, allValues, Operand.allValues]
    | query inner =>
      have hinner := h inner List.mem_cons_self
      simpa [mapValues, Operand.mapValues, allValues, Operand.allValues] using hinner
  | group inner =>
    have hinner := h inner List.mem_cons_self
    simpa [mapValues, allValues] using hinner

/-- A condition with its connector stays as it is when its values do. -/
theorem Clause.mapValues_eq_self_iff {c : Clause}
    (h : ∀ r ∈ c.condition.inner, (r.mapValues f = r ↔ ∀ v ∈ r.allValues, f v = v)) :
    c.mapValues f = c ↔ ∀ v ∈ c.allValues, f v = v := by
  have hcondition := Condition.mapValues_eq_self_iff h
  obtain ⟨connector, condition⟩ := c
  simpa [mapValues, allValues] using hcondition

/-- A join stays as it is when its values do, if this holds of its queries. -/
theorem Join.mapValues_eq_self_iff {j : Join}
    (h : ∀ r ∈ j.inner, (r.mapValues f = r ↔ ∀ v ∈ r.allValues, f v = v)) :
    j.mapValues f = j ↔ ∀ v ∈ j.allValues, f v = v := by
  obtain ⟨kind, operator, fields, query, extra⟩ := j
  have hquery := h query List.mem_cons_self
  cases extra with
  | none => simpa [mapValues, allValues] using hquery
  | some extra =>
    have hextra := h extra (List.mem_cons_of_mem _ List.mem_cons_self)
    simp [mapValues, allValues, hquery, hextra, or_imp, forall_and]

/-- A set operation stays as it is when its values do, if this holds of its query. -/
theorem Combine.mapValues_eq_self_iff {c : Combine}
    (h : c.query.mapValues f = c.query ↔ ∀ v ∈ c.query.allValues, f v = v) :
    c.mapValues f = c ↔ ∀ v ∈ c.allValues, f v = v := by
  obtain ⟨kind, query⟩ := c
  simpa [mapValues, allValues] using h

/-- A query stays as it is exactly when its values do. -/
theorem Query.mapValues_eq_self_iff (q : Query) :
    q.mapValues f = q ↔ ∀ v ∈ q.allValues, f v = v := by
  induction q using Query.induction with
  | step q ih =>
    have htext : q.text.map (RawText.mapValues f) = q.text ↔
        ∀ v ∈ q.text.toList.flatMap RawText.allValues, f v = v := by
      cases q.text with
      | none => simp
      | some raw =>
        obtain ⟨text, parameters⟩ := raw
        simp [RawText.mapValues, RawText.allValues, ParameterSet.mapValues_eq_self_iff]
    have hconditions : q.conditions.map (Clause.mapValues f) = q.conditions ↔
        ∀ v ∈ q.conditions.flatMap Clause.allValues, f v = v := map_eq_self_iff_values fun c hc =>
      Clause.mapValues_eq_self_iff fun r hr => ih r (mem_inner_of_clause hc hr)
    have hjoins : q.joins.map (Join.mapValues f) = q.joins ↔
        ∀ v ∈ q.joins.flatMap Join.allValues, f v = v := map_eq_self_iff_values fun j hj =>
      Join.mapValues_eq_self_iff fun r hr => ih r (mem_inner_of_join hj hr)
    have hcombines : q.combines.map (Combine.mapValues f) = q.combines ↔
        ∀ v ∈ q.combines.flatMap Combine.allValues, f v = v := map_eq_self_iff_values fun c hc =>
      Combine.mapValues_eq_self_iff (ih c.query (mem_inner_of_combine hc))
    rw [allValues_eq]
    simp only [List.forall_mem_append]
    rw [← htext, ← hconditions, ← hjoins, ← hcombines, mapValues_eq]
    obtain ⟨entity, text, conditions, sorts, joins, combines, _⟩ := q
    simp only [Query.mk.injEq, true_and, and_true, and_assoc]

/-- A command stays as it is exactly when its values do. -/
theorem Command.mapValues_eq_self_iff (c : Command) :
    c.mapValues f = c ↔ ∀ v ∈ c.allValues, f v = v := by
  have hquery : c.query.map (Query.mapValues f) = c.query ↔
      ∀ v ∈ c.query.toList.flatMap Query.allValues, f v = v := by
    cases c.query with
    | none => simp
    | some q => simp [Query.mapValues_eq_self_iff]
  rw [allValues, List.forall_mem_append, ← hquery, ← ParameterSet.mapValues_eq_self_iff]
  obtain ⟨kind, entity, objectName, fields, query, values, _⟩ := c
  simp only [mapValues, Command.mk.injEq, true_and, and_true]

end AbstractSql
