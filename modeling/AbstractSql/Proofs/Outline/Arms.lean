import AbstractSql.Proofs.Outline.Flattening
import AbstractSql.Proofs.Outline.Translated
import Mathlib.Data.List.Forall2

/-!
# The tree of arms

A query that another one is united with may be united with further ones itself, and so on. What is
written are the arms of the query alone, each with its own joins and its own condition. So the whole
tree is written exactly when no arm has arms of its own and none has conditions on joined rows.
-/

namespace AbstractSql

/-- The set operations of a query that the server has. A statement text has none. -/
def Query.unions (q : Query) : List Combine :=
  if q.text.isSome then [] else q.combines.filter fun entry => entry.kind.isNative

/-- The arms of a query. A statement text has none. -/
def ResolvedQuery.ownArms (r : ResolvedQuery) : List ResolvedArm :=
  if r.text.isSome then [] else r.arms

mutual

/-- The set operations of a query that the server has, each with those of its own query behind it. -/
def Query.unionTree : Query → List Combine
  | { text := some _, .. } => []
  | { text := none, combines, .. } => unionTrees combines

/-- The trees of set operations one after the other. -/
def unionTrees : List Combine → List Combine
  | [] => []
  | ⟨kind, query⟩ :: rest =>
    (if kind.isNative then ⟨kind, query⟩ :: query.unionTree else []) ++ unionTrees rest

end

mutual

/-- The arms of a query, each with those of its own query behind it. -/
def ResolvedQuery.armTree : ResolvedQuery → List ResolvedArm
  | { text := some _, .. } => []
  | { text := none, arms, .. } => armTrees arms

/-- The trees of arms one after the other. -/
def armTrees : List ResolvedArm → List ResolvedArm
  | [] => []
  | ⟨operator, columns, tableAlias, query⟩ :: rest =>
    ⟨operator, columns, tableAlias, query⟩ :: query.armTree ++ armTrees rest

end

/-- An arm as it is asked for: with the joins of its query and with the condition of its query, of
which the conditions on joined rows are a part. A statement text is taken over. -/
inductive ResolvedArm.Writes (arm : ResolvedArm) : Arm → Prop where
  /-- A statement text. -/
  | text (raw : String) (h : arm.query.text = some raw) : Writes arm (.text arm.operator raw)
  /-- A select of any columns. -/
  | select (columns : List String) (h : arm.query.text = none) :
    Writes arm
      (.select arm.operator
        { columns, table := arm.query.table, tableAlias := arm.tableAlias,
          joins := arm.outline.writtenJoins, condition := arm.outline.mergeJoinExtras.condition,
          arms := [] })

section

variable {α : Type} {f : α → List α} {l : List α}

/-- Elements with others behind each are at least as many, and as many only where there are no
others. -/
theorem length_flatMap_cons : l.length ≤ (l.flatMap fun a => a :: f a).length ∧
    ((l.flatMap fun a => a :: f a).length = l.length ↔ ∀ a ∈ l, f a = []) := by
  induction l with
  | nil => simp
  | cons a l ih =>
    obtain ⟨hle, hiff⟩ := ih
    rw [List.flatMap_cons, List.length_append, List.length_cons, List.length_cons,
      List.forall_mem_cons, ← hiff, ← List.length_eq_zero_iff]
    omega

/-- Without others behind them the elements stay as they are. -/
theorem flatMap_cons_eq_self (h : ∀ a ∈ l, f a = []) : (l.flatMap fun a => a :: f a) = l := by
  induction l with
  | nil => rfl
  | cons a l ih =>
    obtain ⟨ha, hl⟩ := List.forall_mem_cons.mp h
    rw [List.flatMap_cons, ha, ih hl, List.singleton_append]

end

/-- The trees of set operations. -/
theorem unionTrees_eq (combines : List Combine) :
    unionTrees combines = (combines.filter fun entry => entry.kind.isNative).flatMap fun entry =>
      entry :: entry.query.unionTree := by
  induction combines with
  | nil => rw [unionTrees]; rfl
  | cons entry rest ih =>
    obtain ⟨kind, query⟩ := entry
    rw [unionTrees, ih]
    cases hk : kind.isNative <;> simp [hk]

/-- The trees of arms. -/
theorem armTrees_eq (arms : List ResolvedArm) :
    armTrees arms = arms.flatMap fun arm => arm :: arm.query.armTree := by
  induction arms with
  | nil => rw [armTrees]; rfl
  | cons arm rest ih =>
    obtain ⟨operator, columns, tableAlias, query⟩ := arm
    rw [armTrees, ih, List.flatMap_cons]

namespace Query

/-- The tree of a query. -/
theorem unionTree_eq (q : Query) :
    q.unionTree = q.unions.flatMap fun entry => entry :: entry.query.unionTree := by
  obtain ⟨entity, text, conditions, sorts, joins, combines, recurve, paging, size, fields,
    isolation⟩ := q
  cases text with
  | some raw => rw [unionTree]; rfl
  | none => rw [unionTree, unionTrees_eq]; rfl

/-- A query has set operations that the server has when there are any. -/
theorem unions_eq_nil {q : Query} : q.unions = [] ↔ q.hasArms = false := by
  unfold unions hasArms
  cases q.text <;> simp

/-- The tree is empty when the query has no set operations that the server has. -/
theorem unionTree_eq_nil {q : Query} : q.unionTree = [] ↔ q.hasArms = false := by
  rw [unionTree_eq, ← unions_eq_nil]
  cases q.unions <;> simp

end Query

namespace ResolvedQuery

/-- The tree of a query with its names. -/
theorem armTree_eq (r : ResolvedQuery) :
    r.armTree = r.ownArms.flatMap fun arm => arm :: arm.query.armTree := by
  obtain ⟨table, columns, text, conditions, sorts, arms, joins, closure⟩ := r
  cases text with
  | some raw => rw [armTree]; rfl
  | none => rw [armTree, armTrees_eq]; rfl

/-- The arms of the query itself are written, each with the clauses of its query, but without its
arms and its conditions on joined rows. -/
theorem arms_outline (r : ResolvedQuery) (tableAlias : String) :
    (r.outline tableAlias).arms = r.ownArms.map fun arm => Outline.armClause arm arm.outline := by
  unfold ownArms
  cases h : r.text with
  | some raw => rw [outline_text h]; rfl
  | none => exact congrArg (·.2.1) (outline_frame h tableAlias)

/-- A condition on joined rows that is handed on tests something. -/
theorem ne_nil_of_mem_joinExtras (r : ResolvedQuery) (tableAlias : String) :
    ∀ row ∈ (r.outline tableAlias).joinExtras, row ≠ [] := by
  intro row hrow
  cases hk : r.keepsJoins with
  | true =>
    rw [joinExtras_outline hk] at hrow
    obtain ⟨join, -, hrow⟩ := List.mem_flatMap.mp hrow
    unfold Outline.required at hrow
    split at hrow
    · exact absurd hrow List.not_mem_nil
    · next hc =>
      obtain rfl := List.mem_singleton.mp hrow
      simpa using hc
  | false =>
    obtain ⟨-, -, -, -, hnone⟩ := outline_closure hk tableAlias
    exact absurd (hnone ▸ hrow) List.not_mem_nil

end ResolvedQuery

/-- An arm is written as it is asked for exactly when it has no conditions on joined rows. -/
theorem ResolvedArm.writes_armClause_iff (arm : ResolvedArm) :
    arm.Writes (Outline.armClause arm arm.outline) ↔ arm.outline.joinExtras = [] := by
  have htext : arm.outline.text = arm.query.text := arm.query.text_outline arm.tableAlias
  unfold Outline.armClause
  rw [htext]
  cases h : arm.query.text with
  | some raw =>
    have hempty : arm.outline = { text := some raw } :=
      ResolvedQuery.outline_text h arm.tableAlias
    exact iff_of_true (.text raw h) (by rw [hempty])
  | none =>
    have hself : arm.outline.mergeJoinExtras.condition = arm.outline.condition ↔
        arm.outline.joinExtras = [] := by
      refine Lexeme.requireAll_eq_self.trans ⟨fun hall => ?_, fun hnil => by simp [hnil]⟩
      refine List.eq_nil_iff_forall_not_mem.mpr fun row hrow => ?_
      exact arm.query.ne_nil_of_mem_joinExtras arm.tableAlias row hrow (hall row hrow)
    rw [← hself]
    constructor
    · intro hw
      generalize harm : Arm.select arm.operator
        { arm.outline.select arm.columns arm.query.table arm.tableAlias with arms := [] } = written
        at hw
      cases hw with
      | text raw ht => exact absurd harm (by simp)
      | select columns _ =>
        injection harm with _ hselect
        exact (congrArg Select.condition hselect).symm
    · intro hcondition
      have hw := ResolvedArm.Writes.select arm.columns h
      rw [hcondition] at hw
      exact hw

/-- The whole tree is written exactly when no arm has arms of its own or conditions on joined rows. -/
theorem ResolvedQuery.writes_armTree_iff (r : ResolvedQuery) (tableAlias : String) :
    List.Forall₂ ResolvedArm.Writes r.armTree (r.outline tableAlias).arms ↔
      ∀ arm ∈ r.ownArms, arm.query.armTree = [] ∧ arm.outline.joinExtras = [] := by
  have hall : List.Forall₂ ResolvedArm.Writes r.ownArms (r.outline tableAlias).arms ↔
      ∀ arm ∈ r.ownArms, arm.outline.joinExtras = [] := by
    rw [arms_outline, List.forall₂_map_right_iff, List.forall₂_same]
    exact forall₂_congr fun arm _ => arm.writes_armClause_iff
  constructor
  · intro h
    have hlength := h.length_eq
    rw [arms_outline, List.length_map, armTree_eq] at hlength
    have hnested := length_flatMap_cons.2.mp hlength
    rw [armTree_eq, flatMap_cons_eq_self hnested] at h
    exact fun arm harm => ⟨hnested arm harm, hall.mp h arm harm⟩
  · intro h
    rw [armTree_eq, flatMap_cons_eq_self fun arm harm => (h arm harm).1]
    exact hall.mpr fun arm harm => (h arm harm).2

namespace Translating

variable {catalog : Catalog}

/-- What a set operation is resolved to. -/
structure ArmFrom (catalog : Catalog) (entry : Combine) (arm : ResolvedArm) : Prop where
  /-- The operator. -/
  operator : arm.operator = entry.kind
  /-- The other query. -/
  query : ∃ w v, outcome (entry.query.resolve catalog false arm.tableAlias) w = (.ok arm.query, v)

/-- What a set operation is resolved to, and what those of its query are. -/
def TreeFrom (catalog : Catalog) (entry : Combine) (arm : ResolvedArm) : Prop :=
  ArmFrom catalog entry arm ∧
    List.Forall₂ (ArmFrom catalog) entry.query.unionTree arm.query.armTree

/-- What is resolved one by one is resolved as a tree. -/
theorem forall₂_unionTree {q : Query} {r : ResolvedQuery}
    (h : List.Forall₂ (TreeFrom catalog) q.unions r.ownArms) :
    List.Forall₂ (ArmFrom catalog) q.unionTree r.armTree := by
  rw [q.unionTree_eq, r.armTree_eq]
  exact List.rel_flatMap h fun entry arm ht => .cons ht.1 ht.2

end Translating

open Translating

variable {catalog : Catalog}

mutual

/-- The set operations of a query are resolved one by one. -/
theorem Query.resolve_ownArms : ∀ (q : Query) {useSort : Bool} {tableAlias : String}
    {w v : Workspace} {r : ResolvedQuery},
    outcome (q.resolve catalog useSort tableAlias) w = (.ok r, v) →
    List.Forall₂ (TreeFrom catalog) q.unions r.ownArms
  | { text := some raw, .. }, _, _, _, _, _, h => by
    obtain rfl := Query.resolve_text rfl h
    exact .nil
  | { text := none, combines, .. }, _, _, _, _, r, h => by
    obtain ⟨_, _, _, _, _, _, hs⟩ := Query.resolve_steps rfl h
    have hown : r.ownArms = r.arms := by rw [ResolvedQuery.ownArms, hs.text]; rfl
    rw [hown]
    exact resolveArms_from combines hs.arms

/-- Set operations are resolved one by one. -/
theorem resolveArms_from : ∀ (combines : List Combine) {source : Query} {w v : Workspace}
    {arms : List ResolvedArm},
    outcome (resolveArms catalog source combines) w = (.ok arms, v) →
    List.Forall₂ (TreeFrom catalog) (combines.filter fun entry => entry.kind.isNative) arms
  | [], _, _, _, _, h => by
    rw [resolveArms, outcome_pure_eq_ok] at h
    obtain ⟨rfl, -⟩ := h
    exact .nil
  | ⟨kind, query⟩ :: rest, _, _, _, _, h => by
    simp only [resolveArms, outcome_bind_eq_ok, outcome_pure_eq_ok] at h
    obtain ⟨arm, x, harm, others, y, hothers, rfl, -⟩ := h
    have hrest := resolveArms_from rest hothers
    unfold resolveArm at harm
    cases hk : kind.isNative with
    | false =>
      rw [hk, if_neg Bool.false_ne_true, outcome_pure_eq_ok] at harm
      obtain ⟨rfl, -⟩ := harm
      rw [List.filter_cons_of_neg (by simp [hk])]
      exact hrest
    | true =>
      rw [hk, if_pos rfl] at harm
      simp only [outcome_bind_eq_ok, outcome_pure_eq_ok] at harm
      obtain ⟨_, _, -, _, _, -, tableAlias, z, -, r, u, hr, rfl, -⟩ := harm
      rw [List.filter_cons_of_pos (by simp [hk])]
      exact .cons ⟨⟨rfl, z, u, hr⟩, forall₂_unionTree (query.resolve_ownArms hr)⟩ hrest

end

/-- The tree of a query is resolved in order. -/
theorem Query.resolve_armTree {q : Query} {useSort : Bool} {tableAlias : String}
    {w v : Workspace} {r : ResolvedQuery}
    (h : outcome (q.resolve catalog useSort tableAlias) w = (.ok r, v)) :
    List.Forall₂ (ArmFrom catalog) q.unionTree r.armTree :=
  forall₂_unionTree (q.resolve_ownArms h)

/-- No arm has arms of its own when no set operation of the query has. -/
theorem Query.resolve_nested {q : Query} {useSort : Bool} {tableAlias : String}
    {w v : Workspace} {r : ResolvedQuery}
    (h : outcome (q.resolve catalog useSort tableAlias) w = (.ok r, v)) :
    (∀ arm ∈ r.ownArms, arm.query.armTree = []) ↔
      ∀ entry ∈ q.unions, entry.query.hasArms = false := by
  have hown := q.resolve_ownArms h
  generalize r.ownArms = arms at hown
  generalize q.unions = entries at hown
  induction hown with
  | nil => simp
  | @cons entry arm entries arms hfirst _ ih =>
    have hempty : arm.query.armTree = [] ↔ entry.query.hasArms = false := by
      rw [← Query.unionTree_eq_nil, ← List.length_eq_zero_iff, ← hfirst.2.length_eq,
        List.length_eq_zero_iff]
    rw [List.forall_mem_cons, List.forall_mem_cons]
    exact and_congr hempty ih

end AbstractSql
