import AbstractSql.Proofs.Outline.Origins

/-!
# Where limits stand

A membership test looks at all rows of a select, so no limit stands at that select. Where its rows
are capped, the cap stands in a derived table, behind the order that decides which rows are left.
Every other comparison looks at the first row only. This holds of each comparison with a query, at
every depth.
-/

namespace AbstractSql

open Identifier (quote qualify under)
open Translating

/-- The rows that a select in a comparison selects from. -/
def Select.rows : Select → String
  | ⟨columns, table, tableAlias, joins, condition, arms⟩ =>
    selectRows columns table tableAlias (joinTexts joins) (conditionText condition) (armTexts arms)

/-- A select of one column, with what stands at its own level. -/
structure ComparedSelect where
  /-- The column. -/
  column : ColumnUse
  /-- The rows that it is selected from. -/
  rows : String
  /-- Sort entries. -/
  sorts : List String := []
  /-- How many rows are left at most. -/
  limit : Option Nat := none

namespace ComparedSelect

/-- The select up to its limit. -/
def unlimited (l : ComparedSelect) : String :=
  Text.joinParts
    ["SELECT " ++ l.column.sql ++ " FROM " ++ l.rows, Translation.orderClause { sorts := l.sorts }]

/-- The select, which ends with its limit if it has one. -/
def sql (l : ComparedSelect) : String :=
  match l.limit with
  | none => l.unlimited
  | some n => l.unlimited ++ " LIMIT 0," ++ toString n

/-- A select of the column from a derived table that holds the select. -/
def derived (l : ComparedSelect) : String :=
  "SELECT " ++ quote l.column.column ++ " FROM (" ++ l.sql ++ ") AS S" ++ l.column.tableAlias

/-- A limit is the last of the parts that a select is put together from. -/
theorem sql_limited {l : ComparedSelect} {n : Nat} (h : l.limit = some n) :
    l.sql = Text.joinParts
      ["SELECT " ++ l.column.sql ++ " FROM " ++ l.rows,
        Translation.orderClause { sorts := l.sorts }, "LIMIT 0," ++ toString n] := by
  have hfirst : Text.trim ("SELECT " ++ l.column.sql ++ " FROM " ++ l.rows) ≠ "" :=
    Text.trim_ne_empty (c := 'S') (by decide) (by simp)
  have hlast : Text.trim ("LIMIT 0," ++ toString n) = "LIMIT 0," ++ toString n := by
    obtain ⟨d, hd, hblank⟩ := Text.getLast?_number n
    exact Text.trim_around "LIMIT 0" "," (toString n) rfl hd (by decide) hblank
  have hfilled : "LIMIT 0," ++ toString n ≠ "" := by simp
  calc l.sql = l.unlimited ++ " LIMIT 0," ++ toString n := by rw [sql, h]
    _ = l.unlimited ++ " " ++ ("LIMIT 0," ++ toString n) := by
      simp only [String.append_assoc]
      rfl
    _ = _ := (Text.joinParts_concat hfirst hlast hfilled _).symm

end ComparedSelect

variable {sorts : List String} {column tableAlias rows : String}

/-- Nothing follows a compared select that is not limited. -/
theorem comparedText_none : comparedText .none sorts column tableAlias rows =
    ComparedSelect.sql { column := ⟨tableAlias, column⟩, rows, sorts } :=
  Text.joinParts_append_empty [_, _]

/-- A select that is compared with for its first row. -/
theorem comparedText_firstRow : comparedText .firstRow sorts column tableAlias rows =
    ComparedSelect.sql { column := ⟨tableAlias, column⟩, rows, sorts, limit := some 1 } := by
  have hclause : SubqueryLimit.firstRow.clause = "LIMIT 0," ++ toString 1 := by decide
  rw [ComparedSelect.sql_limited rfl, ← hclause]
  rfl

/-- A select that is compared with for some of its rows. -/
theorem comparedText_derived (size : UInt64) :
    comparedText (.derived size) sorts column tableAlias rows =
      ComparedSelect.derived
        { column := ⟨tableAlias, column⟩, rows, sorts, limit := some size.toNat } := by
  rw [ComparedSelect.derived, ComparedSelect.sql_limited rfl]
  rfl

/-- The select in a comparison with a query, with the place of its order and of its limit. -/
inductive PlacesLimit (catalog : Catalog) (operator : Comparison) (sub : Query)
    (tableAlias column rows : String) : String → Prop where
  /-- Membership among all rows: the select is neither sorted nor limited. -/
  | all (member : operator.isMembership = true) (uncapped : sub.size = 0) :
      PlacesLimit catalog operator sub tableAlias column rows
        (ComparedSelect.sql { column := ⟨tableAlias, column⟩, rows })
  /-- Membership among some rows: they are sorted and limited in a derived table. -/
  | capped {sorts : List String} (member : operator.isMembership = true) (cap : sub.size ≠ 0)
      (order : sortEntries catalog sub.entity tableAlias sub.sorts = .ok sorts) :
      PlacesLimit catalog operator sub tableAlias column rows
        (ComparedSelect.derived
          { column := ⟨tableAlias, column⟩, rows, sorts, limit := some sub.size.toNat })
  /-- Any other comparison: the select is sorted and limited to one row. -/
  | first {sorts : List String} (other : operator.isMembership = false)
      (order : sortEntries catalog sub.entity tableAlias sub.sorts = .ok sorts) :
      PlacesLimit catalog operator sub tableAlias column rows
        (ComparedSelect.sql { column := ⟨tableAlias, column⟩, rows, sorts, limit := some 1 })

/-- A query or one in it compares with the first selected property of another query. -/
def Query.Compares (catalog : Catalog) (q : Query) (operator : Comparison) (column : String)
    (sub : Query) : Prop :=
  ∃ part, q.Part part ∧ ∃ criterion ∈ part.comparisons,
    criterion.operator = operator ∧ criterion.value = .query sub ∧
      ∃ property rest, sub.fields = property :: rest ∧ column = catalog.column sub.entity property

/-- The limits in a test are in place: a select that it compares with is that of a query in the
given one, and the select from a closure table has no limit. -/
def Test.Limited (catalog : Catalog) (q : Query) : Test → Prop
  | .rows tableAlias reference operator limit sorts column select =>
    ∃ sub text, q.Compares catalog operator column sub ∧
      PlacesLimit catalog operator sub select.tableAlias column select.rows text ∧
      (Test.rows tableAlias reference operator limit sorts column select).sql =
        reference.sql tableAlias ++ " " ++ operator.sql ++ " (" ++ text ++ ")"
  | .member column table =>
    (Test.member column table).sql = under column.tableAlias column.column ++ " IN (SELECT "
      ++ under table.shortName column.column ++ " FROM " ++ quote table.name ++ " AS "
      ++ table.shortName ++ ")"
  | .text .. => False
  | .missing .. => True
  | .value .. => True
  | .pair .. => True

/-- The law that limits in comparisons are in place. -/
def limitLaw (catalog : Catalog) (q : Query) : Law where
  test := Test.Limited catalog q
  tables _ := True
  alone := trivial

section

variable {catalog : Catalog} {q : Query}

/-- The select that a comparison is written with is the one of its rows. -/
theorem Test.sql_rows (reference : Reference) (operator : Comparison) (limit : SubqueryLimit)
    (select : Select) :
    (Test.rows tableAlias reference operator limit sorts column select).sql =
      reference.sql tableAlias ++ " " ++ operator.sql ++ " ("
        ++ comparedText limit sorts column select.tableAlias select.rows ++ ")" := by
  obtain ⟨columns, table, innerAlias, joins, condition, arms⟩ := select
  rw [Test.sql, Select.rows]

/-- A comparison is limited as its operator asks for it. -/
theorem placesLimit_comparedText {operator : Comparison} {sub : Query} {sorts : List String}
    {tableAlias : String}
    (hs : requestedSorts catalog (SubqueryLimit.of operator sub.size != .none) sub.entity
      tableAlias sub.sorts = .ok sorts) :
    PlacesLimit catalog operator sub tableAlias column rows
      (comparedText (SubqueryLimit.of operator sub.size) sorts column tableAlias rows) := by
  cases hm : operator.isMembership with
  | false =>
    have hlimit : SubqueryLimit.of operator sub.size = .firstRow := by simp [SubqueryLimit.of, hm]
    rw [hlimit] at hs ⊢
    rw [comparedText_firstRow]
    exact .first hm hs
  | true =>
    by_cases hsize : sub.size = 0
    · have hlimit : SubqueryLimit.of operator sub.size = .none := by
        simp [SubqueryLimit.of, hm, hsize]
      rw [hlimit] at hs ⊢
      obtain rfl : [] = sorts := Except.ok.inj hs
      rw [comparedText_none]
      exact .all hm hsize
    · have hlimit : SubqueryLimit.of operator sub.size = .derived sub.size := by
        simp [SubqueryLimit.of, hm, hsize]
      rw [hlimit] at hs ⊢
      rw [comparedText_derived]
      exact .capped hm hsize hs

/-- What is written of the comparisons of a query in another one has its limits in place. -/
theorem limited_test {part : Query} {criterion : Criterion} {c : ResolvedCriterion}
    (hf : TextFree q.sites) (hp : q.Part part) (hm : criterion ∈ part.comparisons)
    (ho : CriterionOrigin catalog part.entity criterion c) (tableAlias : String) :
    (c.test tableAlias).Limited catalog q := by
  have hpart := hf.part hp
  have htext := Query.text_of_textFree hpart
  cases ho with
  | missing hn => exact trivial
  | value hn hv => exact trivial
  | text hn hv ht =>
    have hsub := Query.isText_of_textFree (hpart.direct (.compared htext hm hn hv))
    exact absurd ht (by simp [hsub])
  | @rows reference sub property rest innerAlias r x y _ hn hv ht hfields hr =>
    have hsub : sub.text = none := Query.isText_eq_false.mp ht
    have horigins := Query.resolve_origins hsub hr
    rw [ResolvedCriterion.test, ResolvedQuery.sorts_outline horigins.text]
    exact ⟨sub, _, ⟨part, hp, criterion, hm, rfl, hv, property, rest, hfields, rfl⟩,
      placesLimit_comparedText horigins.sorts, Test.sql_rows ..⟩

/-- Every query in a translated one is written with the limits of its comparisons in place. -/
theorem Query.limited_part {useSort : Bool} {tableAlias : String} {w v : Workspace}
    {r : ResolvedQuery} {part : String × ResolvedQuery} (hf : TextFree q.sites)
    (h : outcome (q.resolve catalog useSort tableAlias) w = (.ok r, v))
    (hp : ResolvedQuery.Part (tableAlias, r) part) : part.2.Obeys (limitLaw catalog q) part.1 where
  criterion c hc := by
    rcases Query.resolve_criteria hf h hp hc with ⟨sub, criterion, hsub, hm, ho⟩ | ⟨_, _, rfl⟩
    · exact limited_test hf hsub hm ho part.1
    · exact trivial
  pair join _ test ht := by
    obtain ⟨pair, -, rfl⟩ := List.mem_map.mp ht
    exact trivial
  member closure _ := rfl
  tables := trivial

/-- Limits are in place wherever a query is translated, on its own or for a statement: no select
that stands in a membership test is limited at its own level, one with a cap is sorted and limited
in a derived table, and every other compared select is sorted and limited to one row. -/
theorem Query.translations_limited (hf : TextFree q.sites) :
    (∀ {useSort tableAlias w t v},
      outcome (q.translateUnder catalog useSort tableAlias) w = (.ok t, v) →
      ∃ r, outcome (q.resolve catalog useSort tableAlias) w = (.ok r, v) ∧
        t = (r.outline tableAlias).toTranslation ∧
        (r.outline tableAlias).Obeys (limitLaw catalog q)) ∧
    ∀ {names t names'}, q.translate catalog names = (.ok t, names') →
      ∃ r w, outcome (q.resolve catalog true NameSupply.mainAlias)
            { names := names.resetAliases } = (.ok r, w) ∧
        t = { (r.outline NameSupply.mainAlias).mergeJoinExtras.toTranslation with
          parameters := w.parameters } ∧
        (r.outline NameSupply.mainAlias).mergeJoinExtras.Obeys (limitLaw catalog q) := by
  have hobeys : ∀ {useSort tableAlias w r v},
      outcome (q.resolve catalog useSort tableAlias) w = (.ok r, v) →
      (r.outline tableAlias).Obeys (limitLaw catalog q) := by
    intro useSort tableAlias w r v hr
    exact r.obeys_outline tableAlias fun part hp => Query.limited_part hf hr hp
  refine ⟨fun h => ?_, fun h => ?_⟩
  · obtain ⟨r, hr, rfl⟩ := q.translateUnder_resolve h
    exact ⟨r, hr, rfl, hobeys hr⟩
  · obtain ⟨r, w, hr, -, rfl⟩ := Query.translate_resolve h
    exact ⟨r, w, hr, rfl, (hobeys hr).mergeJoinExtras⟩

/-- A capped membership with a comparison with a first row inside. -/
theorem Query.translations_limited_nested :
    let newest := ((Query.ofEntity "Team").orderByDesc "founded").select ["id"]
    let members := (((Query.ofEntity "Member").filterSubquery "team" .equal newest).orderBy
      "joined").select ["user"]
    let q := (Query.ofEntity "User").filterSubquery "id" .isIn (members.limit 5)
    TextFree q.sites ∧ ∃ t v,
      outcome (q.translateUnder {} true NameSupply.mainAlias) {} = (.ok t, v) ∧
      t.condition = "TB.`id` IN (SELECT `user` FROM (SELECT S0.`user` FROM `Member` AS S0 "
        ++ "WHERE S0.`team` = (SELECT S1.`id` FROM `Team` AS S1 ORDER BY S1.`founded` DESC "
        ++ "LIMIT 0,1) ORDER BY S0.`joined` ASC LIMIT 0,5) AS SS0)" ∧
      ∃ r, outcome (q.resolve {} true NameSupply.mainAlias) {} = (.ok r, v) ∧
        t = (r.outline NameSupply.mainAlias).toTranslation ∧
        (r.outline NameSupply.mainAlias).Obeys (limitLaw {} q) := by
  intro newest members q
  have hf : TextFree q.sites := by decide +kernel
  obtain ⟨t, v, hrun, hcondition⟩ : ∃ t v,
      outcome (q.translateUnder {} true NameSupply.mainAlias) {} = (.ok t, v) ∧
        t.condition = "TB.`id` IN (SELECT `user` FROM (SELECT S0.`user` FROM `Member` AS S0 "
          ++ "WHERE S0.`team` = (SELECT S1.`id` FROM `Team` AS S1 ORDER BY S1.`founded` DESC "
          ++ "LIMIT 0,1) ORDER BY S0.`joined` ASC LIMIT 0,5) AS SS0)" :=
    ⟨_, _, rfl, by decide +kernel⟩
  exact ⟨hf, t, v, hrun, hcondition, (Query.translations_limited hf).1 hrun⟩

end

end AbstractSql
