import AbstractSql.Proofs.Outline.Resolved

/-!
# From resolved queries to clauses

What is written of a query is a function of the query with its names. The clauses are put together
in parts, by the same steps that put their texts together.
-/

namespace AbstractSql

/-- Conditions so far, with what they pull up from nested queries. -/
structure ConditionOutline where
  /-- The conditions with their connectors. -/
  row : List (Lexeme Test) := []
  /-- Whether one of these connectors is an OR. -/
  hasOr : Bool := false
  /-- Definitions of closure tables. -/
  definitions : List ClosureRows := []
  /-- The closure table defined last. -/
  closure : Option ClosureTable := none

namespace ConditionOutline

/-- Add a condition. An empty one is passed over with its connector. -/
def push (list : ConditionOutline) (connector : Connector) (fragment : ConditionOutline) :
    ConditionOutline :=
  { row := Lexeme.push list.row connector fragment.row
    hasOr := list.hasOr
      || (!fragment.row.isEmpty && !list.row.isEmpty && connector == .or)
    definitions := list.definitions ++ fragment.definitions
    closure := fragment.closure.or list.closure }

/-- The conditions of a group as one. -/
def grouped (list : ConditionOutline) : ConditionOutline :=
  { row := Lexeme.enclose list.row, definitions := list.definitions, closure := list.closure }

/-- One test. -/
def ofTest (test : Test) : ConditionOutline := { row := [.atom test] }

end ConditionOutline

namespace Outline

/-- Whether there are set operations. -/
def hasArms (o : Outline) : Bool := !o.arms.isEmpty

/-- Require other conditions, one after the other. -/
def requireAll (o : Outline) (rows : List (List (Lexeme Test))) : Outline :=
  { o with
    condition := Lexeme.requireAll o.hasOr o.condition rows
    hasOr := o.hasOr && rows.all List.isEmpty }

/-- Move the conditions on joined rows into the condition. -/
def mergeJoinExtras (o : Outline) : Outline :=
  ({ o with joinExtras := [] } : Outline).requireAll o.joinExtras

/-- The joins that are written with the clauses. -/
def writtenJoins (o : Outline) : List JoinClause := if o.allowJoin then o.joins else []

/-- The select of these columns with the clauses of a query. -/
def select (o : Outline) (columns : List String) (table tableAlias : String) : Select :=
  { columns, table, tableAlias, joins := o.writtenJoins, condition := o.condition, arms := o.arms }

/-- A set operation with these clauses. Set operations of its own are not written. -/
def armClause (arm : ResolvedArm) (other : Outline) : Arm :=
  match other.text with
  | some raw => .text arm.operator raw
  | none =>
    .select arm.operator
      { other.select arm.columns arm.query.table arm.tableAlias with arms := [] }

/-- Add a set operation. -/
def addArm (o : Outline) (arm : ResolvedArm) (other : Outline) : Outline :=
  { o with
    arms := o.arms ++ [armClause arm other]
    definitions := o.definitions ++ other.definitions
    closure := other.closure.or o.closure }

/-- Whether the condition of a joined query is tested in its ON clause. -/
def testsInJoin (joined : Outline) (kind : JoinKind) : Bool :=
  !joined.hasArms && !joined.condition.isEmpty && joined.allowJoin && kind != .cross

/-- What the ON clause of a join tests of the condition of the joined query. -/
def tested (joined : Outline) (kind : JoinKind) : List (Lexeme Test) :=
  if joined.testsInJoin kind then joined.condition else []

/-- What a joined query hands to the outer condition: its own condition, unless the join tests it,
and those on the rows it joins itself. -/
def lifted (joined : Outline) (kind : JoinKind) : List (List (Lexeme Test)) :=
  if joined.hasArms then []
  else (if joined.testsInJoin kind then [] else [joined.condition]) ++ joined.joinExtras

/-- Joins of a joined query that are written after its own clause. -/
def liftedJoins (joined : Outline) : List JoinClause :=
  if joined.hasArms then [] else joined.writtenJoins

/-- What is required of joined rows. -/
def required (extra : Outline) : List (List (Lexeme Test)) :=
  if extra.condition.isEmpty then [] else [extra.condition]

end Outline

namespace ResolvedJoin

/-- Comparisons of columns under two aliases. -/
def pairTests (tableAlias : String) (join : ResolvedJoin) : List Test :=
  join.pairs.map fun pair =>
    .pair ⟨tableAlias, pair.1⟩ join.operator ⟨join.targetAlias, pair.2⟩

/-- The clause of a join. Its rows are matched on the compared columns and, where it is tested
there, on the condition of the joined query. -/
def clause (tableAlias : String) (join : ResolvedJoin) (joined : Outline) : JoinClause :=
  { kind := join.kind
    source :=
      if joined.hasArms then
        .derived (joined.select join.query.columns join.query.table join.innerAlias)
      else .table join.query.table
    tableAlias := join.targetAlias
    on := Lexeme.afterAtoms (join.pairTests tableAlias) (joined.tested join.kind) }

end ResolvedJoin

namespace Outline

/-- Add a join with the clauses of the joined query and of the condition on joined rows, which are
none when there is no such condition. -/
def addJoin (o : Outline) (tableAlias : String) (join : ResolvedJoin) (joined extra : Outline) :
    Outline :=
  { o.requireAll (joined.lifted join.kind) with
    joins := o.joins ++ join.clause tableAlias joined :: joined.liftedJoins
    joinExtras := o.joinExtras ++ extra.required
    definitions := o.definitions ++ extra.definitions ++ joined.definitions
    closure := joined.closure.or (extra.closure.or o.closure) }

/-- The definition of a closure table whose first rows have these clauses. -/
def closureRows (o : Outline) (table tableAlias : String) (closure : ResolvedClosure) :
    ClosureRows :=
  { closure with
    first :=
      { columns := [closure.data, closure.relation], table, tableAlias, joins := o.joins,
        condition := o.mergeJoinExtras.condition, arms := [] } }

/-- Turn the condition and the joins into the first rows of a closure table, and require membership
in it. -/
def close (o : Outline) (table tableAlias : String) (closure : ResolvedClosure) : Outline :=
  { o with
    condition := [.atom (.member ⟨tableAlias, closure.data⟩ closure.table)]
    hasOr := false
    definitions := o.definitions ++ [o.closureRows table tableAlias closure]
    joinExtras := []
    allowJoin := false
    closure := some closure.table }

/-- Close the rows, if a closure is asked for. -/
def close? (o : Outline) (table tableAlias : String) : Option ResolvedClosure → Outline
  | none => o
  | some closure => o.close table tableAlias closure

/-- Conditions as the start of an outline. -/
def ofConditions (list : ConditionOutline) (sorts : List String) : Outline :=
  { condition := list.row
    hasOr := list.hasOr
    definitions := list.definitions
    closure := list.closure
    sorts }

end Outline

mutual

/-- The clauses of a query under an alias. -/
def ResolvedQuery.outline : ResolvedQuery → String → Outline
  | { text := some raw, .. }, _ => { text := some raw }
  | { table, text := none, conditions, sorts, arms, joins, closure, .. }, tableAlias =>
    let start := Outline.ofConditions (clausesOutline tableAlias conditions {}) sorts
    (joinsOutline tableAlias joins (armsOutline arms start)).close? table tableAlias closure

/-- Conditions after others. -/
def clausesOutline (tableAlias : String) : List ResolvedClause → ConditionOutline → ConditionOutline
  | [], list => list
  | ⟨connector, condition⟩ :: rest, list =>
    clausesOutline tableAlias rest (list.push connector (condition.outline tableAlias))

/-- One condition. A group of one is that condition. -/
def ResolvedCondition.outline (tableAlias : String) : ResolvedCondition → ConditionOutline
  | .criterion criterion => criterion.outline tableAlias
  | .group [] => {}
  | .group [⟨_, only⟩] => only.outline tableAlias
  | .group (first :: second :: rest) =>
    (clausesOutline tableAlias (first :: second :: rest) {}).grouped

/-- One comparison. -/
def ResolvedCriterion.outline (tableAlias : String) : ResolvedCriterion → ConditionOutline
  | .missing reference operator => .ofTest (.missing tableAlias reference operator)
  | .value reference operator parameter => .ofTest (.value tableAlias reference operator parameter)
  | .text reference operator raw => .ofTest (.text tableAlias reference operator raw)
  | .rows reference operator limit column innerAlias query =>
    let other := query.outline innerAlias
    { row := [.atom (.rows tableAlias reference operator limit other.sorts column
        (other.select query.columns query.table innerAlias))]
      definitions := other.definitions
      closure := other.closure }

/-- Set operations after others. -/
def armsOutline : List ResolvedArm → Outline → Outline
  | [], o => o
  | ⟨operator, columns, tableAlias, query⟩ :: rest, o =>
    armsOutline rest (o.addArm ⟨operator, columns, tableAlias, query⟩ (query.outline tableAlias))

/-- Joins after others. -/
def joinsOutline (tableAlias : String) : List ResolvedJoin → Outline → Outline
  | [], o => o
  | { kind, operator, pairs, innerAlias, query, outerAlias, extra := none } :: rest, o =>
    joinsOutline tableAlias rest
      (o.addJoin tableAlias { kind, operator, pairs, innerAlias, query, outerAlias }
        (query.outline innerAlias) {})
  | { kind, operator, pairs, innerAlias, query, outerAlias, extra := some extra } :: rest, o =>
    joinsOutline tableAlias rest
      (o.addJoin tableAlias
        { kind, operator, pairs, innerAlias, query, outerAlias, extra := some extra }
        (query.outline innerAlias)
        (extra.outline (if query.hasArms then outerAlias else innerAlias)))

end

namespace ResolvedArm

/-- The clauses of the other query. -/
def outline (arm : ResolvedArm) : Outline := arm.query.outline arm.tableAlias

/-- The clauses with an arm after those of others. -/
def addTo (o : Outline) (arm : ResolvedArm) : Outline := o.addArm arm arm.outline

end ResolvedArm

/-- The clauses of a condition on joined rows; none when there is no such condition. -/
def extraOutline (extra : Option ResolvedQuery) (targetAlias : String) : Outline :=
  match extra with
  | none => {}
  | some extra => extra.outline targetAlias

namespace ResolvedJoin

/-- The clauses of the joined query. -/
def joined (join : ResolvedJoin) : Outline := join.query.outline join.innerAlias

/-- The clauses of the condition on joined rows. -/
def required (join : ResolvedJoin) : Outline := extraOutline join.extra join.targetAlias

/-- The clauses with a join after those of others. -/
def addTo (tableAlias : String) (o : Outline) (join : ResolvedJoin) : Outline :=
  o.addJoin tableAlias join join.joined join.required

end ResolvedJoin

/-- Arms are added one by one. -/
theorem armsOutline_eq (arms : List ResolvedArm) (o : Outline) :
    armsOutline arms o = arms.foldl ResolvedArm.addTo o := by
  induction arms generalizing o with
  | nil => rw [armsOutline, List.foldl_nil]
  | cons arm rest ih =>
    obtain ⟨operator, columns, tableAlias, query⟩ := arm
    rw [armsOutline, ih, List.foldl_cons]
    rfl

/-- Joins are added one by one. -/
theorem joinsOutline_eq (tableAlias : String) (joins : List ResolvedJoin) (o : Outline) :
    joinsOutline tableAlias joins o = joins.foldl (ResolvedJoin.addTo tableAlias) o := by
  induction joins generalizing o with
  | nil => rw [joinsOutline, List.foldl_nil]
  | cons join rest ih =>
    obtain ⟨kind, operator, pairs, innerAlias, query, outerAlias, extra⟩ := join
    cases extra with
    | none =>
      rw [joinsOutline, ih, List.foldl_cons]
      rfl
    | some extra =>
      rw [joinsOutline, ih, List.foldl_cons]
      rfl

namespace ResolvedQuery

/-- The conditions of a query under an alias, as the start of its clauses. -/
def start (r : ResolvedQuery) (tableAlias : String) : Outline :=
  Outline.ofConditions (clausesOutline tableAlias r.conditions {}) r.sorts

/-- The clauses of a query that is no statement text, before a closure takes them. -/
def gathered (r : ResolvedQuery) (tableAlias : String) : Outline :=
  r.joins.foldl (ResolvedJoin.addTo tableAlias) (r.arms.foldl ResolvedArm.addTo (r.start tableAlias))

/-- The clauses of a query that is no statement text. -/
theorem outline_eq {r : ResolvedQuery} (h : r.text = none) (tableAlias : String) :
    r.outline tableAlias = (r.gathered tableAlias).close? r.table tableAlias r.closure := by
  obtain ⟨table, columns, text, conditions, sorts, arms, joins, closure⟩ := r
  obtain rfl : text = none := h
  rw [ResolvedQuery.outline]
  simp only [armsOutline_eq, joinsOutline_eq]
  rfl

/-- A statement text has no clauses. -/
theorem outline_text {r : ResolvedQuery} {raw : String} (h : r.text = some raw)
    (tableAlias : String) : r.outline tableAlias = { text := some raw } := by
  obtain ⟨table, columns, text, conditions, sorts, arms, joins, closure⟩ := r
  obtain rfl : text = some raw := h
  rw [ResolvedQuery.outline]

end ResolvedQuery

namespace Outline

/-- What joins leave as it is: the text, the arms, the sort entries and whether joins are written.
-/
def frame (o : Outline) : Option String × List Arm × List String × Bool :=
  (o.text, o.arms, o.sorts, o.allowJoin)

/-- Joins leave the frame as it is. -/
theorem foldl_addTo_frame (tableAlias : String) (joins : List ResolvedJoin) (o : Outline) :
    (joins.foldl (ResolvedJoin.addTo tableAlias) o).frame = o.frame := by
  induction joins generalizing o with
  | nil => rfl
  | cons join rest ih =>
    rw [List.foldl_cons, ih]
    rfl

/-- All arms are written, and they leave the rest alone. -/
theorem foldl_addTo_arms (arms : List ResolvedArm) (o : Outline) :
    (arms.foldl ResolvedArm.addTo o).frame =
      (o.text, o.arms ++ arms.map (fun arm => armClause arm arm.outline), o.sorts,
        o.allowJoin) := by
  induction arms generalizing o with
  | nil => rw [List.foldl_nil, List.map_nil, List.append_nil]; rfl
  | cons arm rest ih =>
    rw [List.foldl_cons, ih, List.map_cons, ResolvedArm.addTo, addArm, List.append_assoc]
    rfl

/-- A closure changes neither the text nor the arms. -/
theorem close?_frame (o : Outline) (table tableAlias : String) (closure : Option ResolvedClosure) :
    (o.close? table tableAlias closure).frame =
      (o.text, o.arms, o.sorts, o.allowJoin && closure.isNone) := by
  cases closure with
  | none => simp [close?, frame]
  | some closure => simp [close?, close, frame]

end Outline

namespace ResolvedQuery

/-- What is settled before the joins: there is no text, all arms are written, and so are the joins.
-/
theorem gathered_frame (r : ResolvedQuery) (tableAlias : String) :
    (r.gathered tableAlias).frame =
      (none, r.arms.map (fun arm => Outline.armClause arm arm.outline), r.sorts, true) := by
  rw [gathered, Outline.foldl_addTo_frame, Outline.foldl_addTo_arms, start, Outline.ofConditions,
    List.nil_append]

/-- What is settled of the clauses of a query that is no statement text. -/
theorem outline_frame {r : ResolvedQuery} (h : r.text = none) (tableAlias : String) :
    (r.outline tableAlias).frame =
      (none, r.arms.map (fun arm => Outline.armClause arm arm.outline), r.sorts,
        r.closure.isNone) := by
  obtain ⟨htext, hrest⟩ := Prod.mk.inj (r.gathered_frame tableAlias)
  obtain ⟨harms, hrest⟩ := Prod.mk.inj hrest
  obtain ⟨hsorts, hallow⟩ := Prod.mk.inj hrest
  rw [outline_eq h, Outline.close?_frame, htext, harms, hsorts, hallow, Bool.true_and]

/-- The text of a query stands in for its clauses. -/
@[simp] theorem text_outline (r : ResolvedQuery) (tableAlias : String) :
    (r.outline tableAlias).text = r.text := by
  cases h : r.text with
  | some raw => rw [outline_text h]
  | none => exact congrArg (·.1) (outline_frame h tableAlias)

/-- A query that is no statement text is sorted as it says. -/
theorem sorts_outline {r : ResolvedQuery} (h : r.text = none) (tableAlias : String) :
    (r.outline tableAlias).sorts = r.sorts :=
  congrArg (·.2.2.1) (outline_frame h tableAlias)

/-- A query has set operations where its outline has them. -/
@[simp] theorem hasArms_outline (r : ResolvedQuery) (tableAlias : String) :
    (r.outline tableAlias).hasArms = r.hasArms := by
  unfold hasArms Outline.hasArms
  cases h : r.text with
  | some raw => rw [outline_text h]; rfl
  | none =>
    have harms : (r.outline tableAlias).arms = _ := congrArg (·.2.1) (outline_frame h tableAlias)
    rw [harms]
    cases r.arms <;> rfl

/-- The joins of a query are written with its clauses unless a closure has taken them. -/
@[simp] theorem allowJoin_outline (r : ResolvedQuery) (tableAlias : String) :
    (r.outline tableAlias).allowJoin = r.keepsJoins := by
  unfold keepsJoins
  cases h : r.text with
  | some raw => rw [outline_text h]; rfl
  | none => exact congrArg (·.2.2.2) (outline_frame h tableAlias)

end ResolvedQuery

end AbstractSql
