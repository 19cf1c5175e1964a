import AbstractSql.Proofs.Outline.Lowering
import AbstractSql.Proofs.Text.Parts

/-!
# Steps on parts and on texts

Each step that puts clauses together in parts writes what the step on texts writes. Where a text is
asked whether it is empty, its parts are asked whether there are any: no test is written as nothing.
-/

namespace AbstractSql

open Identifier (quote qualify)

/-- No test is written as nothing. -/
theorem Test.sql_ne_empty (test : Test) : test.sql ≠ "" := by
  intro h
  have hl := congrArg (fun s => ' ' ∈ s.toList) h
  rcases test with _ | _ | _ | ⟨_, _, _, _, _, _, ⟨⟩⟩ | _ | _ <;> simp [Test.sql] at hl

/-- No part of a condition is written as nothing. -/
theorem lexemeText_ne_empty (lexeme : Lexeme Test) : lexemeText lexeme ≠ "" := by
  cases lexeme with
  | atom test => rw [lexemeText]; exact test.sql_ne_empty
  | connector c => cases c <;> decide
  | opening => decide
  | closing => decide

/-- Only an empty condition is written as nothing. -/
theorem conditionText_eq_empty {row : List (Lexeme Test)} : conditionText row = "" ↔ row = [] := by
  cases row with
  | nil => simp [conditionText]
  | cons lexeme rest =>
    simp only [conditionText, reduceCtorEq, iff_false]
    intro h
    have hl := congrArg String.toList h
    rw [String.toList_append, String.toList_empty, List.append_eq_nil_iff] at hl
    exact lexemeText_ne_empty lexeme (String.toList_eq_nil_iff.mp hl.1)

/-- A condition is written as the texts of its lexemes. -/
theorem conditionText_eq (row : List (Lexeme Test)) :
    conditionText row = Lexeme.textOf Test.sql row := by
  induction row with
  | nil => rfl
  | cons lexeme rest ih =>
    rw [conditionText, Lexeme.textOf, ih]
    congr 1
    cases lexeme <;> rfl

/-- Two rows one after the other. -/
@[simp] theorem conditionText_append (first second : List (Lexeme Test)) :
    conditionText (first ++ second) = conditionText first ++ conditionText second := by
  simp only [conditionText_eq, Lexeme.textOf_append]

@[simp] theorem conditionText_nil : conditionText [] = "" := rfl

@[simp] theorem conditionText_atom (test : Test) : conditionText [.atom test] = test.sql := by
  rw [conditionText, lexemeText, conditionText_nil, String.append_empty]

/-- Connected rows. -/
theorem conditionText_connect (c : Connector) (rows : List (List (Lexeme Test))) :
    conditionText (Lexeme.connect c rows) =
      String.intercalate (" " ++ c.sql ++ " ") (rows.map conditionText) := by
  induction rows with
  | nil => rfl
  | cons row rest ih =>
    cases rest with
    | nil => rw [Lexeme.connect, List.map_cons, List.map_nil, String.intercalate_singleton]
    | cons other rest =>
      rw [Lexeme.connect, conditionText_append, conditionText, ih]
      simp only [List.map_cons, String.intercalate_cons_cons, lexemeText, String.append_assoc]

/-- Joined tables are written one by one. -/
@[simp] theorem joinTexts_append (first second : List JoinClause) :
    joinTexts (first ++ second) = joinTexts first ++ joinTexts second := by
  induction first with
  | nil => rfl
  | cons join rest ih => rw [List.cons_append, joinTexts, joinTexts, ih, List.cons_append]

/-- Set operations are written one by one. -/
@[simp] theorem armTexts_append (first second : List Arm) :
    armTexts (first ++ second) = armTexts first ++ armTexts second := by
  induction first with
  | nil => rfl
  | cons arm rest ih => rw [List.cons_append, armTexts, armTexts, ih, List.cons_append]

/-- There are as many texts as set operations. -/
theorem armTexts_isEmpty (arms : List Arm) : (armTexts arms).isEmpty = arms.isEmpty := by
  cases arms <;> rfl

namespace ConditionOutline

/-- Conditions as they are written. -/
def toList (c : ConditionOutline) : ConditionList :=
  { text := conditionText c.row
    hasOr := c.hasOr
    definitions := c.definitions.map ClosureRows.sql
    closure := c.closure }

/-- One condition as it is written. -/
def toFragment (c : ConditionOutline) : ConditionFragment :=
  { text := conditionText c.row
    definitions := c.definitions.map ClosureRows.sql
    closure := c.closure }

/-- One test. -/
theorem toFragment_ofTest (test : Test) : (ofTest test).toFragment = { text := test.sql } := by
  rw [toFragment, ofTest, conditionText_atom]
  rfl

/-- Adding a condition. -/
theorem toList_push (list fragment : ConditionOutline) (connector : Connector) :
    (list.push connector fragment).toList = list.toList.push connector fragment.toFragment := by
  unfold push Lexeme.push ConditionList.push toList toFragment
  simp only [conditionText_eq_empty, List.isEmpty_iff]
  by_cases hf : fragment.row = []
  · simp [hf]
  by_cases hl : list.row = []
  · simp [hf, hl]
  have hne : (!fragment.row.isEmpty && !list.row.isEmpty) = true := by simp [hf, hl]
  simp only [hne, Bool.true_and]
  simp [hf, hl, conditionText, lexemeText, String.append_assoc]

/-- Grouping conditions. -/
theorem toFragment_grouped (list : ConditionOutline) :
    list.grouped.toFragment = list.toList.grouped := by
  unfold grouped Lexeme.enclose ConditionList.grouped toList toFragment
  simp only [conditionText_eq_empty, List.isEmpty_iff]
  by_cases hl : list.row = []
  · simp [hl]
  · simp [hl, conditionText, lexemeText, String.append_assoc]

end ConditionOutline

namespace Outline

/-- Set operations in parts and in texts. -/
theorem hasCombine_toTranslation (o : Outline) : o.toTranslation.hasCombine = o.hasArms := by
  rw [Translation.hasCombine, hasArms, toTranslation, armTexts_isEmpty]

/-- Requiring several conditions is requiring one and then the others. -/
theorem requireAll_cons (o : Outline) (extra : List (Lexeme Test))
    (rest : List (List (Lexeme Test))) :
    o.requireAll (extra :: rest) = (o.requireAll [extra]).requireAll rest := by
  simp [requireAll, Lexeme.requireAll, Bool.and_assoc]

/-- Requiring another condition. -/
theorem toTranslation_require (o : Outline) (extra : List (Lexeme Test)) :
    (o.requireAll [extra]).toTranslation = o.toTranslation.andCondition (conditionText extra) := by
  unfold requireAll Translation.andCondition toTranslation
  simp only [Lexeme.requireAll, Lexeme.require, conditionText_eq_empty, List.isEmpty_iff]
  by_cases he : extra = []
  · simp [he]
  by_cases hc : o.condition = []
  · simp [he, hc]
  by_cases ho : o.hasOr = true
  · have hclosed : ")" ++ (" AND " ++ conditionText extra) = ") AND " ++ conditionText extra := by
      rw [← String.append_assoc]
      rfl
    simp [he, hc, ho, conditionText, lexemeText, Lexeme.enclose, Connector.sql, String.append_assoc,
      hclosed]
  · simp [he, hc, ho, conditionText, lexemeText, Connector.sql, String.append_assoc]

/-- Requiring more conditions. -/
theorem toTranslation_requireAll (rows : List (List (Lexeme Test))) (o : Outline) :
    (o.requireAll rows).toTranslation =
      (rows.map conditionText).foldl Translation.andCondition o.toTranslation := by
  induction rows generalizing o with
  | nil => simp [requireAll, Lexeme.requireAll]
  | cons row rest ih =>
    rw [requireAll_cons, ih, toTranslation_require, List.map_cons, List.foldl_cons]

/-- Merging the conditions on joined rows. -/
theorem toTranslation_mergeJoinExtras (o : Outline) :
    o.mergeJoinExtras.toTranslation = o.toTranslation.mergeJoinExtras :=
  toTranslation_requireAll o.joinExtras { o with joinExtras := [] }

/-- Adding a set operation. -/
theorem toTranslation_addArm (o : Outline) (arm : ResolvedArm) (other : Outline) :
    (o.addArm arm other).toTranslation =
      ({ o.toTranslation with
          combines := o.toTranslation.combines ++ [(armClause arm other).sql] } : Translation).absorb
        other.toTranslation := by
  simp [addArm, Translation.absorb, toTranslation, armTexts]

/-- The written joins. -/
theorem joinClause_toTranslation (o : Outline) :
    o.toTranslation.joinClause = String.intercalate " " (joinTexts o.writtenJoins) := by
  unfold Translation.joinClause writtenJoins toTranslation
  cases o.allowJoin <;> rfl

/-- The select of a query with set operations of its own. -/
theorem select_sql (o : Outline) (columns : List String) (table tableAlias : String) :
    (o.select columns table tableAlias).sql =
      Text.joinParts
        ["SELECT " ++ selectColumns tableAlias columns ++ " FROM " ++ quote table ++ " AS "
            ++ tableAlias,
          o.toTranslation.joinClause, o.toTranslation.whereClause,
          o.toTranslation.combineClause] := by
  rw [joinClause_toTranslation]
  rfl

/-- The select that a set operation combines with. -/
theorem select_withoutArms_sql (o : Outline) (columns : List String) (table tableAlias : String) :
    ({ o.select columns table tableAlias with arms := [] } : Select).sql =
      Text.joinParts
        ["SELECT " ++ selectColumns tableAlias columns ++ " FROM " ++ quote table ++ " AS "
            ++ tableAlias,
          o.toTranslation.joinClause, o.toTranslation.whereClause] := by
  rw [joinClause_toTranslation]
  unfold Outline.select Select.sql selectText
  rw [armTexts, show String.intercalate " " [] = "" from rfl]
  exact Text.joinParts_append_empty [_, _, _]

end Outline

/-- The select list of columns. -/
theorem selectColumns_resolveColumns (catalog : Catalog) (tableAlias entity : String)
    (fields : List String) :
    selectColumns tableAlias (Translating.resolveColumns catalog entity fields) =
      catalog.selectList tableAlias entity fields false := by
  unfold selectColumns Translating.resolveColumns Catalog.selectList
  cases catalog.selectedFields entity fields with
  | nil => rfl
  | cons field rest => simp [Field.selectEntry, Function.comp_def]

/-- The derived table of a query with set operations. -/
theorem combinedSource_toTranslation (catalog : Catalog) (query : Query) (o : Outline)
    (innerAlias outerAlias : String) :
    catalog.combinedSource query o.toTranslation innerAlias outerAlias =
      "(" ++ (o.select (Translating.resolveColumns catalog query.entity query.fields)
        (catalog.table query.entity) innerAlias).sql ++ ") AS " ++ outerAlias := by
  rw [Outline.select_sql, selectColumns_resolveColumns]
  rfl

end AbstractSql
