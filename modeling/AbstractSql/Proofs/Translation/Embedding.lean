import AbstractSql.Proofs.Translation.Clauses

/-!
# Queries inside queries

How the clauses of a nested query are written into the one around it, as the right-hand side of a
comparison, as a set operation, as a join or as the first rows of a closure. Each way moves the twins
of the nested query to the clauses they are then found in.
-/

namespace AbstractSql

open Segment Identifier Translating

variable {ts us : List Twin} {n n' out out' : Translation} (catalog : Catalog)

/-- The limit of a subquery is literal. -/
theorem literal_limit (limit : SubqueryLimit) : Literal limit.clause := by
  cases limit with
  | none => exact .empty
  | firstRow => exact .plain (by decide)
  | derived size => exact .plain (plain_append (by decide) (plain_number _))

/-- The derived table of two alike queries with set operations. -/
theorem combinedSource_alike {innerAlias outerAlias : String} (hi : Plain innerAlias)
    (ho : Plain outerAlias) (query : Query) (h : n.Twins us n') :
    Alike (marksAt .joins us ∪ marksAt .condition us ∪ marksAt .combines us)
      (catalog.combinedSource query n innerAlias outerAlias)
      (catalog.combinedSource query n' innerAlias outerAlias) := by
  have hs : Literal ("SELECT " ++ catalog.selectList innerAlias query.entity query.fields false
      ++ " FROM " ++ quote (catalog.table query.entity) ++ " AS " ++ innerAlias) := by
    simp only [String.append_assoc]
    refine .plain_append (by decide) (.literal_append (literal_selectList hi catalog _ _) ?_
      (delimits_append (by decide) _))
    have ha := literal_aliased hi (catalog.table query.entity)
    rw [String.append_assoc] at ha
    exact .plain_append (by decide) ha
  have hj := (AlikeAll.cons hs (.cons h.joinClause (.cons h.whereClause
    (.single h.combineClause)))).joinParts
  unfold Catalog.combinedSource
  simp only [String.append_assoc] at hj ⊢
  refine (Alike.plain_append (by decide) (hj.append (.plain_append (by decide) (.plain ho))
    (delimits_append (by decide) _))).congr ?_
  simp only [Set.empty_union, Set.union_empty, Set.union_assoc]

/-- A comparison with the text of alike queries. -/
theorem textComparison_twins {field : String} (hf : Literal field) (operator : Comparison)
    (h : n.Twins us n') (hd : ∀ place, place ≠ .statement → place ≠ .lost → marksAt place us = ∅) :
    (textComparison field operator n).Twins (us.map (.move .compared))
      (textComparison field operator n') := by
  have ho : Plain operator.sql := by cases operator <;> decide
  have hs := h.statement
  refine ⟨?_, ?_, rfl⟩
  · unfold textComparison
    dsimp only
    rw [← h.text]
    simp only [String.append_assoc]
    refine (Alike.literal_append hf (.plain_append (by decide) (.plain_append ho
      (.plain_append (by decide) (hs.append_plain (by decide) (by decide)))))
      (delimits_append (by decide) _)).congr ?_
    simp [marksAt_move, Place.compared, hd]
  · refine AlikeAll.nil.congr ?_
    simp [marksAt_move, Place.compared, hd]

/-- The rows of alike queries. -/
theorem comparedRows_alike {tableAlias : String} (ha : Plain tableAlias) (subquery : Query)
    (h : n.Twins us n') :
    Alike (marksAt .joins us ∪ marksAt .condition us ∪ marksAt .combines us)
      (comparedRows catalog subquery tableAlias n) (comparedRows catalog subquery tableAlias n') := by
  unfold comparedRows
  rw [← h.hasCombine]
  by_cases hc : n.hasCombine = true
  · rw [if_pos hc, if_pos hc]
    exact combinedSource_alike catalog ha ha subquery h
  · rw [if_neg hc, if_neg hc]
    refine (AlikeAll.cons (literal_aliased ha _) (.cons h.joinClause
      (.single h.whereClause))).joinParts.congr ?_
    rw [h.combines_eq_empty (Bool.not_eq_true _ ▸ hc)]
    simp only [Set.empty_union, Set.union_empty]

/-- The selects of alike queries. -/
theorem comparedSelect_alike {tableAlias : String} (ha : Plain tableAlias) (limit : SubqueryLimit)
    (subquery : Query) (property : String) (h : n.Twins us n') :
    Alike (marksAt .joins us ∪ marksAt .condition us ∪ marksAt .combines us)
      (comparedSelect catalog limit subquery property tableAlias n)
      (comparedSelect catalog limit subquery property tableAlias n') := by
  obtain ⟨horder, hsorts⟩ := h.orderClause
  have hrows : Alike (marksAt .joins us ∪ marksAt .condition us ∪ marksAt .combines us)
      ("SELECT " ++ qualify tableAlias (catalog.column subquery.entity property) ++ " FROM "
        ++ comparedRows catalog subquery tableAlias n)
      ("SELECT " ++ qualify tableAlias (catalog.column subquery.entity property) ++ " FROM "
        ++ comparedRows catalog subquery tableAlias n') := by
    simp only [String.append_assoc]
    exact .plain_append (by decide) (.literal_append (literal_qualify ha _)
      (.plain_append (by decide) (comparedRows_alike catalog ha subquery h)) (delimits_append (by decide) _))
  have hselect := (AlikeAll.cons hrows (.cons hsorts (.single (literal_limit limit)))).joinParts
  simp only [Set.union_empty] at hselect
  unfold comparedSelect
  dsimp only
  rw [← horder]
  cases limit with
  | none => exact hselect
  | firstRow => exact hselect
  | derived size =>
    simp only [String.append_assoc] at hselect ⊢
    refine .plain_append (by decide) (.literal_append (.quote _) (.plain_append (by decide) ?_)
      (delimits_append (by decide) _))
    exact hselect.append_literal (.plain_append (by decide) (.plain ha))
      (delimits_append (by decide) _)

/-- A comparison with the rows of alike queries. -/
theorem subqueryComparison_twins {field tableAlias : String} (hf : Literal field)
    (ha : Plain tableAlias) (operator : Comparison) (subquery : Query) (property : String)
    (h : n.Twins us n') (hs : marksAt .statement us = ∅) :
    (subqueryComparison catalog field operator subquery property tableAlias n).Twins
      (us.map (.move .compared))
      (subqueryComparison catalog field operator subquery property tableAlias n') := by
  have ho : Plain operator.sql := by cases operator <;> decide
  have hselect := comparedSelect_alike catalog ha
    (SubqueryLimit.of operator subquery.size) subquery property h
  refine ⟨?_, ?_, h.closure⟩
  · unfold subqueryComparison
    dsimp only
    simp only [String.append_assoc]
    refine (Alike.literal_append hf (.plain_append (by decide) (.plain_append ho
      (.plain_append (by decide) (hselect.append_plain (by decide) (by decide)))))
      (delimits_append (by decide) _)).congr ?_
    simp [marksAt_move, Place.compared, hs, Set.union_comm]
  · refine h.definitions.congr ?_
    simp [marksAt_move, Place.compared]

/-- Two translations of one query, with what its description says about them. -/
structure Nested (q : Query) (us : List Twin) (n n' : Translation) : Prop where
  /-- Their clauses are alike. -/
  twins : n.Twins us n'
  /-- The shape is that of the query. -/
  shape : n.shape = q.shape
  /-- Only a statement text takes the place of the whole statement. -/
  clauses : q.isText = false → marksAt .statement us = ∅
  /-- A statement text has no clauses. -/
  statement : q.isText = true → ∀ place, place ≠ .statement → marksAt place us = ∅

namespace Nested

variable {q : Query}

/-- Set operations are known beforehand. -/
theorem hasCombine (h : Nested q us n n') : n.hasCombine = q.hasArms :=
  congrArg Shape.hasCombine h.shape

/-- Whether joins are still to be written is known beforehand. -/
theorem allowJoin (h : Nested q us n n') : n.allowJoin = q.keepsJoins :=
  congrArg Shape.allowJoin h.shape

/-- Whether a text stands in for the clauses is known beforehand. -/
theorem isText (h : Nested q us n n') : n.isText = q.isText := congrArg Shape.isText h.shape

/-- A set operation with alike queries. -/
theorem combineSelect_alike {tableAlias : String} (ha : Plain tableAlias) (source target : Query)
    (h : Nested q us n n') :
    Alike (marksAt .statement us ∪ marksAt .condition us ∪ marksAt .joins us)
      (combineSelect catalog source target tableAlias n)
      (combineSelect catalog source target tableAlias n') := by
  have htext := h.isText
  have hstatement := h.twins.statement
  unfold combineSelect
  rw [← h.twins.text]
  unfold Translation.isText at htext
  cases hn : n.text with
  | some raw =>
    rw [hn, Option.isSome_some] at htext
    have hnone := h.statement htext.symm
    rw [hn, Option.getD_some] at hstatement
    rw [hnone .condition (by decide), hnone .joins (by decide), Set.union_empty, Set.union_empty,
      Option.getD_some, Option.getD_some]
    exact hstatement
  | none =>
    rw [hn, Option.isSome_none] at htext
    rw [h.clauses htext.symm, Set.empty_union, Option.getD_none, Option.getD_none]
    have hselect : Literal ("SELECT " ++ catalog.selectList tableAlias source.entity source.fields
        false ++ " FROM " ++ quote (catalog.table target.entity) ++ " AS " ++ tableAlias) := by
      have hq := literal_aliased ha (catalog.table target.entity)
      simp only [String.append_assoc] at hq ⊢
      exact .plain_append (by decide) (.literal_append (literal_selectList ha catalog _ _)
        (.plain_append (by decide) hq) (delimits_append (by decide) _))
    refine (AlikeAll.cons hselect (.cons h.twins.joinClause
      (.single h.twins.whereClause))).joinParts.congr ?_
    rw [Set.empty_union, Set.union_comm]

end Nested

end AbstractSql
