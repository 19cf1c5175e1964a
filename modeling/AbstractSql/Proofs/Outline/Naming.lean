import AbstractSql.Proofs.NameSupply.Freshness
import AbstractSql.Proofs.Outline.Induction
import AbstractSql.Proofs.Outline.Translated
import Mathlib.Data.List.Forall2

/-!
# Names that a query is given

Aliases and closure tables are numbered, so what a query is given by the naming pass are the names
from one number to another. Each relation that a query asks the closure of is given one closure
table.
-/

namespace AbstractSql

/-- The alias with a number. -/
def NameSupply.subqueryAlias (n : Nat) : String := "S" ++ toString n

/-- The closure table with a number. -/
def NameSupply.closureTable (n : Nat) : ClosureTable :=
  ⟨"RecurveTable" ++ toString n, "RTT" ++ toString n⟩

/-- A relation whose closure a query asks for, with the entity that it relates. -/
structure Recursion where
  /-- The entity. -/
  entity : String
  /-- The relation. -/
  closure : Closure

/-- A definition defines the closure of a relation. -/
structure Recursion.DefinedBy (catalog : Catalog) (s : Recursion) (d : ClosureRows) : Prop where
  /-- The rows are those of the entity. -/
  table : d.first.table = catalog.table s.entity
  /-- The relation is followed in its direction. -/
  direction : d.direction = s.closure.direction
  /-- Rows are identified by its property. -/
  data : d.data = catalog.column s.entity s.closure.dataField
  /-- They refer to others by its property. -/
  relation : d.relation = catalog.column s.entity s.closure.relationField

mutual

/-- The relations that a query asks the closure of, in the order of their definitions: those of its
conditions, set operations and joins and last its own. Of a join, those of the condition on joined
rows come first. -/
def Query.recursions : Query → List Recursion
  | { text := some _, .. } => []
  | { entity, text := none, conditions, joins, combines, recurve, .. } =>
    clauseRecursions conditions ++ armRecursions combines
      ++ (joinRecursions joins ++ matchRecursions combines)
      ++ (recurve.map (Recursion.mk entity)).toList

/-- Those of conditions. -/
def clauseRecursions : List Clause → List Recursion
  | [] => []
  | ⟨_, condition⟩ :: rest => condition.recursions ++ clauseRecursions rest

/-- Those of one condition. A query behind a test for a missing value is not translated. -/
def Condition.recursions : Condition → List Recursion
  | .group { conditions, .. } => clauseRecursions conditions
  | .criterion { value := .value _, .. } => []
  | .criterion { operator, value := .query query, .. } =>
    if operator.needsParameter then query.recursions else []

/-- Those of the set operations that the server has. -/
def armRecursions : List Combine → List Recursion
  | [] => []
  | ⟨kind, query⟩ :: rest => (if kind.isNative then query.recursions else []) ++ armRecursions rest

/-- Those of joins. -/
def joinRecursions : List Join → List Recursion
  | [] => []
  | { query, extra := none, .. } :: rest => query.recursions ++ joinRecursions rest
  | { query, extra := some extra, .. } :: rest =>
    extra.recursions ++ query.recursions ++ joinRecursions rest

/-- Those of the set operations that stand for joins. -/
def matchRecursions : List Combine → List Recursion
  | [] => []
  | ⟨kind, query⟩ :: rest => (if kind.isNative then [] else query.recursions) ++ matchRecursions rest

end

/-- A statement text asks for no closure. -/
theorem Query.recursions_of_isText (q : Query) (h : q.isText = true) : q.recursions = [] := by
  obtain ⟨entity, text, conditions, sorts, joins, combines, recurve, paging, size, fields,
    isolation⟩ := q
  cases text with
  | none => exact absurd h (by simp [isText])
  | some raw => rw [recursions]

mutual

/-- The aliases of the joins in a query, in joined queries and in conditions on joined rows. -/
def ResolvedQuery.joinAliases : ResolvedQuery → List String
  | { joins, .. } => joinListAliases joins

/-- The aliases of joins. -/
def joinListAliases : List ResolvedJoin → List String
  | [] => []
  | { innerAlias, query, outerAlias, extra := none, .. } :: rest =>
    innerAlias :: (query.joinAliases ++ if query.hasArms then [outerAlias] else [])
      ++ joinListAliases rest
  | { innerAlias, query, outerAlias, extra := some extra, .. } :: rest =>
    innerAlias :: (query.joinAliases ++ (if query.hasArms then [outerAlias] else [])
      ++ extra.joinAliases) ++ joinListAliases rest

end

namespace ResolvedJoin

/-- The aliases of the condition on joined rows. -/
def extraAliases (extra : Option ResolvedQuery) : List String :=
  match extra with
  | none => []
  | some extra => extra.joinAliases

/-- The aliases of a join. -/
def aliases (join : ResolvedJoin) : List String :=
  join.innerAlias :: (join.query.joinAliases
    ++ (if join.query.hasArms then [join.outerAlias] else []) ++ extraAliases join.extra)

end ResolvedJoin

/-- The aliases of joins are those of each of them. -/
theorem joinListAliases_eq (joins : List ResolvedJoin) :
    joinListAliases joins = joins.flatMap ResolvedJoin.aliases := by
  induction joins with
  | nil => rfl
  | cons join rest ih =>
    obtain ⟨kind, operator, pairs, innerAlias, query, outerAlias, extra⟩ := join
    cases extra <;>
      simp [joinListAliases, ih, ResolvedJoin.aliases, ResolvedJoin.extraAliases]

/-- The aliases of the joins of a query. -/
theorem ResolvedQuery.joinAliases_eq (r : ResolvedQuery) :
    r.joinAliases = r.joins.flatMap ResolvedJoin.aliases := by
  obtain ⟨table, columns, text, conditions, sorts, arms, joins, closure⟩ := r
  rw [ResolvedQuery.joinAliases, joinListAliases_eq]

namespace ResolvedQuery

/-- The definition of the closure that a query asks for itself. -/
def ownDefinition (r : ResolvedQuery) (tableAlias : String) : List ClosureRows :=
  match r.closure with
  | none => []
  | some closure => [(r.gathered tableAlias).closureRows r.table tableAlias closure]

/-- The definitions of a query, part by part. -/
theorem definitions_outline {r : ResolvedQuery} (h : r.text = none) (tableAlias : String) :
    (r.outline tableAlias).definitions =
      r.criteria.flatMap ResolvedCriterion.definitions
        ++ r.arms.flatMap (fun arm => arm.outline.definitions)
        ++ r.joins.flatMap (fun join => join.required.definitions ++ join.joined.definitions)
        ++ r.ownDefinition tableAlias := by
  have harms : ∀ (arms : List ResolvedArm) (o : Outline),
      (arms.foldl ResolvedArm.addTo o).definitions =
        o.definitions ++ arms.flatMap (fun arm => arm.outline.definitions) := by
    intro arms
    induction arms with
    | nil => simp
    | cons arm rest ih =>
      intro o
      rw [List.foldl_cons, ih, List.flatMap_cons, ← List.append_assoc]
      rfl
  have hjoins : ∀ (joins : List ResolvedJoin) (o : Outline),
      (joins.foldl (ResolvedJoin.addTo tableAlias) o).definitions =
        o.definitions ++ joins.flatMap
          (fun join => join.required.definitions ++ join.joined.definitions) := by
    intro joins
    induction joins with
    | nil => simp
    | cons join rest ih =>
      intro o
      rw [List.foldl_cons, ih, List.flatMap_cons, ← List.append_assoc, ← List.append_assoc]
      rfl
  have hgathered : (r.gathered tableAlias).definitions =
      r.criteria.flatMap ResolvedCriterion.definitions
        ++ r.arms.flatMap (fun arm => arm.outline.definitions)
        ++ r.joins.flatMap (fun join => join.required.definitions ++ join.joined.definitions) := by
    rw [gathered, hjoins, harms, start, Outline.ofConditions,
      (r.start_writes tableAlias).definitions]
  rw [outline_eq h, ownDefinition]
  cases r.closure with
  | none => rw [List.append_nil, ← hgathered]; rfl
  | some closure => rw [← hgathered]; rfl

end ResolvedQuery

/-- What is given to parts of a query on the way from one workspace to another: a definition for
each of these relations, and these aliases among those issued. -/
structure Issued (catalog : Catalog) (specs : List Recursion) (definitions : List ClosureRows)
    (aliases : List String) (w v : Workspace) : Prop where
  /-- There is one definition for each relation. -/
  defined : List.Forall₂ (Recursion.DefinedBy catalog) specs definitions
  /-- As many closure tables are issued. -/
  closures : v.names.closures = w.names.closures + definitions.length
  /-- The definitions are of these tables. -/
  tables : (definitions.map (·.table)).Perm
    ((List.range' w.names.closures definitions.length).map NameSupply.closureTable)
  /-- Aliases are issued in order. -/
  aliases_le : w.names.aliases ≤ v.names.aliases
  /-- The aliases of joins are among them. -/
  aliases : aliases.Sublist ((List.range' w.names.aliases
    (v.names.aliases - w.names.aliases)).map NameSupply.subqueryAlias)

namespace Issued

variable {catalog : Catalog} {specs others : List Recursion} {first second : List ClosureRows}
  {before later : List String} {w x v : Workspace}

/-- No closure tables and no aliases for joins are issued. -/
theorem none (hc : v.names.closures = w.names.closures) (ha : w.names.aliases ≤ v.names.aliases) :
    Issued catalog [] [] [] w v :=
  ⟨.nil, hc, .nil, ha, List.nil_sublist _⟩

/-- Nothing happens. -/
theorem refl (w : Workspace) : Issued catalog [] [] [] w w := .none rfl (Nat.le_refl _)

/-- Aliases of two parts one after the other. -/
theorem sublist_append {m n k : Nat} (hm : m ≤ n) (hk : n ≤ k)
    (hb : before.Sublist ((List.range' m (n - m)).map NameSupply.subqueryAlias))
    (ha : later.Sublist ((List.range' n (k - n)).map NameSupply.subqueryAlias)) :
    (before ++ later).Sublist ((List.range' m (k - m)).map NameSupply.subqueryAlias) := by
  have hrange : List.range' m (k - m) = List.range' m (n - m) ++ List.range' n (k - n) := by
    rw [show k - m = (n - m) + (k - n) by omega, ← List.range'_append_1,
      show m + (n - m) = n by omega]
  rw [hrange, List.map_append]
  exact hb.append ha

/-- Two parts one after the other. -/
theorem append (h : Issued catalog specs first before w x) (k : Issued catalog others second later x v) :
    Issued catalog (specs ++ others) (first ++ second) (before ++ later) w v where
  defined := List.rel_append h.defined k.defined
  closures := by rw [k.closures, h.closures, List.length_append, Nat.add_assoc]
  tables := by
    rw [List.map_append, List.length_append, ← List.range'_append_1, List.map_append]
    exact h.tables.append (h.closures ▸ k.tables)
  aliases_le := Nat.le_trans h.aliases_le k.aliases_le
  aliases := sublist_append h.aliases_le k.aliases_le h.aliases k.aliases

/-- Two parts, of which the second one defines its tables first. -/
theorem swap (h : Issued catalog specs first before w x) (k : Issued catalog others second later x v) :
    Issued catalog (others ++ specs) (second ++ first) (before ++ later) w v where
  defined := List.rel_append k.defined h.defined
  closures := by rw [k.closures, h.closures, List.length_append]; omega
  tables := by
    have happend := (h.append k).tables
    rw [List.map_append, List.length_append, Nat.add_comm, ← List.length_append]
    rw [List.map_append] at happend
    exact List.perm_append_comm.trans happend
  aliases_le := Nat.le_trans h.aliases_le k.aliases_le
  aliases := sublist_append h.aliases_le k.aliases_le h.aliases k.aliases

/-- The alias of a join, and what comes after it. -/
theorem cons {name : String} (hn : outcome Translating.nextAlias w = (.ok name, x))
    (k : Issued catalog specs first before x v) : Issued catalog specs first (name :: before) w v := by
  obtain ⟨hf, rfl⟩ := Prod.mk.inj hn
  obtain rfl := Except.ok.inj hf
  have hone : Issued catalog [] [] [w.names.nextAlias.1] w
      { w with names := w.names.nextAlias.2 } := by
    refine ⟨.nil, rfl, .nil, Nat.le_succ _, ?_⟩
    rw [show w.names.nextAlias.2.aliases - w.names.aliases = 1 from Nat.add_sub_cancel_left ..]
    exact List.Sublist.refl _
  exact hone.append k

end Issued

namespace Translating

variable {catalog : Catalog} {w x v : Workspace} {specs : List Recursion}

/-- A comparison with another query is given what the query is given. -/
theorem resolveCompared_issued {reference : Reference} {operator : Comparison} {q : Query}
    {resolve : Bool → String → Translating ResolvedQuery} {c : ResolvedCriterion}
    (htext : q.isText = true → specs = [])
    (hq : ∀ {useSort tableAlias w r v}, outcome (resolve useSort tableAlias) w = (.ok r, v) →
      Issued catalog specs (r.outline tableAlias).definitions r.joinAliases w v)
    (h : outcome (resolveCompared catalog reference operator q resolve) w = (.ok c, v)) :
    Issued catalog specs c.definitions [] w v := by
  have hforget : ∀ {definitions : List ClosureRows} {aliases : List String} {w v : Workspace},
      Issued catalog specs definitions aliases w v → Issued catalog specs definitions [] w v :=
    fun k => ⟨k.defined, k.closures, k.tables, k.aliases_le, List.nil_sublist _⟩
  unfold resolveCompared at h
  split at h
  · next ht =>
    simp only [outcome_bind_eq_ok, outcome_pure_eq_ok] at h
    obtain ⟨r, x, hr, rfl, rfl⟩ := h
    have hissued := hforget (hq hr)
    obtain rfl := htext ht
    have hnone := List.forall₂_nil_left_iff.mp hissued.defined
    rw [hnone] at hissued
    exact hissued
  · split at h
    · exact absurd h (by simp)
    · simp only [outcome_bind_eq_ok, outcome_pure_eq_ok] at h
      obtain ⟨innerAlias, x, ha, r, y, hr, rfl, rfl⟩ := h
      exact hforget ((hq hr).cons ha)

/-- A set operation is given what its query is given. -/
theorem resolveArm_issued {source : Query} {entry : Combine}
    {resolve : String → Translating ResolvedQuery} {arms : List ResolvedArm}
    (hq : ∀ {tableAlias w r v}, outcome (resolve tableAlias) w = (.ok r, v) →
      Issued catalog specs (r.outline tableAlias).definitions r.joinAliases w v)
    (h : outcome (resolveArm catalog source entry resolve) w = (.ok arms, v)) :
    Issued catalog (if entry.kind.isNative then specs else [])
      (arms.flatMap fun arm => arm.outline.definitions) [] w v := by
  unfold resolveArm at h
  split at h
  · next hk =>
    simp only [outcome_bind_eq_ok, outcome_pure_eq_ok] at h
    obtain ⟨_, x, hn, operator, y, hl, tableAlias, z, ha, r, u, hr, rfl, rfl⟩ := h
    obtain ⟨-, rfl⟩ := outcome_lift_eq_ok.mp hl
    obtain ⟨-, rfl⟩ := outcome_lift_eq_ok.mp hn
    have hissued := (hq hr).cons ha
    rw [if_pos hk, List.flatMap_singleton]
    exact ⟨hissued.defined, hissued.closures, hissued.tables, hissued.aliases_le,
      List.nil_sublist _⟩
  · next hk =>
    obtain ⟨rfl, rfl⟩ := outcome_pure_eq_ok.mp h
    rw [if_neg hk]
    exact .refl _

/-- The alias of joined rows is issued when they are a derived table. -/
theorem resolveAlias_issued {r : ResolvedQuery} {innerAlias outerAlias : String}
    {definitions : List ClosureRows} {aliases : List String}
    (h : outcome (resolveAlias r innerAlias) w = (.ok outerAlias, x))
    (k : Issued catalog specs definitions aliases x v) :
    Issued catalog specs definitions
      ((if r.hasArms then [outerAlias] else []) ++ aliases) w v := by
  unfold resolveAlias at h
  split
  · next harms =>
    rw [if_pos harms] at h
    exact k.cons h
  · next harms =>
    rw [if_neg harms, outcome_pure_eq_ok] at h
    obtain ⟨-, rfl⟩ := h
    exact k

/-- A join is given what the joined query and the condition on joined rows are given, the
definitions of the latter before those of the former. -/
theorem resolveJoin_issued {source : String} {join : Join} {extraSpecs : List Recursion}
    {resolve : String → Translating ResolvedQuery}
    {extra : Option (String → Translating ResolvedQuery)} {j : ResolvedJoin}
    (hq : ∀ {tableAlias w r v}, outcome (resolve tableAlias) w = (.ok r, v) →
      Issued catalog specs (r.outline tableAlias).definitions r.joinAliases w v)
    (he : ∀ {tableAlias w r v}, outcome (resolveExtra extra tableAlias) w = (.ok r, v) →
      Issued catalog extraSpecs (extraOutline r tableAlias).definitions
        (ResolvedJoin.extraAliases r) w v)
    (h : outcome (resolveJoin catalog source join resolve extra) w = (.ok j, v)) :
    Issued catalog (extraSpecs ++ specs) (j.required.definitions ++ j.joined.definitions) j.aliases
      w v := by
  simp only [resolveJoin, outcome_bind_eq_ok, outcome_pure_eq_ok] at h
  obtain ⟨_, x, hn, innerAlias, y, ha, r, z, hr, outerAlias, s, ho, required, u, hx, rfl, rfl⟩ := h
  obtain ⟨-, rfl⟩ := outcome_lift_eq_ok.mp hn
  have hquery := (hq hr).swap (resolveAlias_issued ho (he hx))
  have htarget := target_of_resolveAlias ho
  rw [ResolvedJoin.required, ResolvedJoin.targetAlias, htarget, ResolvedJoin.aliases,
    List.append_assoc]
  exact hquery.cons ha

/-- The test for a missing match is given nothing. -/
theorem resolveMissing_issued {entity property tableAlias : String}
    {extra : Option Query} {r : Option ResolvedQuery}
    (h : outcome (resolveExtra (extra.map fun _ _ => pure (resolveMissing catalog entity property))
      tableAlias) w = (.ok r, v)) :
    Issued catalog [] (extraOutline r tableAlias).definitions (ResolvedJoin.extraAliases r) w v := by
  cases extra with
  | none =>
    obtain ⟨rfl, rfl⟩ := outcome_pure_eq_ok.mp h
    exact .refl _
  | some extra =>
    simp only [Option.map_some, resolveExtra, outcome_bind_eq_ok, outcome_pure_eq_ok] at h
    obtain ⟨_, _, ⟨rfl, rfl⟩, rfl, rfl⟩ := h
    have hnone : (extraOutline (some (resolveMissing catalog entity property))
        tableAlias).definitions = [] := by
      rw [extraOutline, ResolvedQuery.definitions_outline rfl]
      rfl
    rw [hnone]
    exact .refl _

/-- The join that stands for a set operation is given what its query is given. -/
theorem resolveMatch_issued {source : String} {entry : Combine}
    {resolve : String → Translating ResolvedQuery} {joins : List ResolvedJoin}
    (hq : ∀ {tableAlias w r v}, outcome (resolve tableAlias) w = (.ok r, v) →
      Issued catalog specs (r.outline tableAlias).definitions r.joinAliases w v)
    (h : outcome (resolveMatch catalog source entry resolve) w = (.ok joins, v)) :
    Issued catalog (if entry.kind.isNative then [] else specs)
      (joins.flatMap fun join => join.required.definitions ++ join.joined.definitions)
      (joinListAliases joins) w v := by
  simp only [resolveMatch, outcome_bind_eq_ok] at h
  obtain ⟨matched, x, hl, hm⟩ := h
  obtain ⟨hjoin, rfl⟩ := outcome_lift_eq_ok.mp hl
  cases matched with
  | none =>
    obtain ⟨rfl, rfl⟩ := outcome_pure_eq_ok.mp hm
    rw [if_pos (Combine.isNative_of_asJoin hjoin)]
    exact .refl _
  | some join =>
    have hk := (Combine.becomes_of_asJoin hjoin).not_native
    simp only [outcome_bind_eq_ok, outcome_pure_eq_ok] at hm
    obtain ⟨j, y, hj, rfl, rfl⟩ := hm
    rw [if_neg (by simp [hk]), List.flatMap_singleton, joinListAliases_eq, List.flatMap_singleton]
    exact resolveJoin_issued hq resolveMissing_issued hj

/-- A closure is given one table. -/
theorem resolveClosure_issued {entity : String} {closure : Option Closure}
    {c : Option ResolvedClosure} (r : ResolvedQuery) (tableAlias : String)
    (h : outcome (resolveClosure catalog entity closure) w = (.ok c, v)) (hr : r.closure = c)
    (ht : r.table = catalog.table entity) :
    Issued catalog (closure.map (Recursion.mk entity)).toList (r.ownDefinition tableAlias) [] w v := by
  unfold resolveClosure at h
  rw [ResolvedQuery.ownDefinition, hr]
  split at h
  · obtain ⟨rfl, rfl⟩ := outcome_pure_eq_ok.mp h
    exact .refl _
  · next closure =>
    simp only [outcome_bind_eq_ok, outcome_pure_eq_ok] at h
    obtain ⟨table, x, hn, rfl, rfl⟩ := h
    obtain ⟨hf, rfl⟩ := Prod.mk.inj hn
    obtain rfl := Except.ok.inj hf
    exact ⟨.cons ⟨ht, rfl, rfl, rfl⟩ .nil, rfl, .refl _, Nat.le_refl _, List.nil_sublist _⟩

end Translating

open Translating

variable {catalog : Catalog} {w v : Workspace}

mutual

/-- A query is given one definition for each relation that it asks the closure of, and the aliases
of its joins in order. -/
theorem Query.resolve_issued :
    ∀ (q : Query) {useSort : Bool} {tableAlias : String} {w : Workspace} {r : ResolvedQuery}
      {v : Workspace}, outcome (q.resolve catalog useSort tableAlias) w = (.ok r, v) →
      Issued catalog q.recursions (r.outline tableAlias).definitions r.joinAliases w v
  | { text := some raw, .. }, useSort, tableAlias, w, r, v, h => by
    simp only [Query.resolve, outcome_bind_eq_ok, outcome_pure_eq_ok] at h
    obtain ⟨_, x, hb, rfl, rfl⟩ := h
    obtain ⟨-, rfl⟩ := Prod.mk.inj hb
    obtain ⟨ha, hc⟩ := w.names.aliases_reserveAll raw.parameters.names
    rw [Query.recursions, ResolvedQuery.outline, ResolvedQuery.joinAliases]
    exact .none hc (Nat.le_of_eq ha.symm)
  | { entity, text := none, conditions, sorts, joins, combines, recurve, paging, size, fields,
      isolation }, useSort, tableAlias, w, r, v, h => by
    obtain ⟨own, others, _, _, _, _, hs⟩ := Query.resolve_steps rfl h
    have hjoins := (resolveJoins_issued joins hs.own).append
      (resolveMatches_issued combines hs.others)
    rw [← List.flatMap_append, joinListAliases_eq, joinListAliases_eq, ← List.flatMap_append,
      ← hs.joins, ← r.joinAliases_eq] at hjoins
    have hown := resolveClosure_issued r tableAlias hs.closure rfl hs.table
    have hrest := (resolveClauses_issued conditions hs.conditions).append
      (resolveArms_issued combines hs.arms) |>.append hjoins |>.append hown
    rw [Query.recursions, ResolvedQuery.definitions_outline hs.text]
    rwa [List.append_nil] at hrest

/-- What conditions are given. -/
theorem resolveClauses_issued :
    ∀ (clauses : List Clause) {entity : String} {resolved : List ResolvedClause} {w v : Workspace},
      outcome (resolveClauses catalog entity clauses) w = (.ok resolved, v) →
      Issued catalog (clauseRecursions clauses)
        ((clauseCriteria resolved).flatMap ResolvedCriterion.definitions) [] w v
  | [], entity, resolved, w, v, h => by
    rw [resolveClauses, outcome_pure_eq_ok] at h
    obtain ⟨rfl, rfl⟩ := h
    rw [clauseRecursions, clauseCriteria]
    exact .refl _
  | ⟨connector, condition⟩ :: rest, entity, resolved, w, v, h => by
    simp only [resolveClauses, outcome_bind_eq_ok, outcome_pure_eq_ok] at h
    obtain ⟨c, x, hc, others, y, hothers, rfl, rfl⟩ := h
    rw [clauseRecursions, clauseCriteria, List.flatMap_append]
    exact (condition.resolve_issued hc).append (resolveClauses_issued rest hothers)

/-- What a condition is given. -/
theorem Condition.resolve_issued :
    ∀ (condition : Condition) {entity : String} {resolved : ResolvedCondition} {w v : Workspace},
      outcome (condition.resolve catalog entity) w = (.ok resolved, v) →
      Issued catalog condition.recursions
        (resolved.criteria.flatMap ResolvedCriterion.definitions) [] w v
  | .group { conditions, .. }, entity, resolved, w, v, h => by
    simp only [Condition.resolve, outcome_bind_eq_ok, outcome_pure_eq_ok] at h
    obtain ⟨clauses, x, hc, rfl, rfl⟩ := h
    rw [Condition.recursions, ResolvedCondition.criteria]
    exact resolveClauses_issued conditions hc
  | .criterion { field, operator, value := .value value, conversion }, entity, resolved, w, v, h => by
    rw [Condition.resolve] at h
    rw [Condition.recursions]
    obtain ⟨reference, ⟨-, hc⟩ | ⟨-, rfl, rfl⟩⟩ := criterion_resolved h
    · simp only [outcome_bind_eq_ok, outcome_pure_eq_ok] at hc
      obtain ⟨parameter, y, hb, rfl, rfl⟩ := hc
      obtain ⟨-, rfl⟩ := Prod.mk.inj hb
      exact .none rfl (Nat.le_refl _)
    · exact .refl _
  | .criterion { field, operator, value := .query query, conversion }, entity, resolved, w, v, h => by
    rw [Condition.resolve] at h
    rw [Condition.recursions]
    obtain ⟨reference, ⟨hp, hc⟩ | ⟨hp, rfl, rfl⟩⟩ := criterion_resolved h
    · rw [if_pos hp]
      simp only [outcome_bind_eq_ok, outcome_pure_eq_ok] at hc
      obtain ⟨criterion, y, hcriterion, rfl, rfl⟩ := hc
      rw [ResolvedCondition.criteria, List.flatMap_singleton]
      exact resolveCompared_issued query.recursions_of_isText query.resolve_issued hcriterion
    · rw [hp]
      exact .refl _

/-- What the set operations that the server has are given. -/
theorem resolveArms_issued :
    ∀ (combines : List Combine) {source : Query} {arms : List ResolvedArm} {w v : Workspace},
      outcome (resolveArms catalog source combines) w = (.ok arms, v) →
      Issued catalog (armRecursions combines) (arms.flatMap fun arm => arm.outline.definitions) [] w v
  | [], source, arms, w, v, h => by
    rw [resolveArms, outcome_pure_eq_ok] at h
    obtain ⟨rfl, rfl⟩ := h
    rw [armRecursions]
    exact .refl _
  | ⟨kind, query⟩ :: rest, source, arms, w, v, h => by
    simp only [resolveArms, outcome_bind_eq_ok, outcome_pure_eq_ok] at h
    obtain ⟨arm, x, ha, others, y, hothers, rfl, rfl⟩ := h
    rw [armRecursions, List.flatMap_append]
    exact (resolveArm_issued query.resolve_issued ha).append (resolveArms_issued rest hothers)

/-- What joins are given. -/
theorem resolveJoins_issued :
    ∀ (joins : List Join) {source : String} {resolved : List ResolvedJoin} {w v : Workspace},
      outcome (resolveJoins catalog source joins) w = (.ok resolved, v) →
      Issued catalog (joinRecursions joins)
        (resolved.flatMap fun join => join.required.definitions ++ join.joined.definitions)
        (joinListAliases resolved) w v
  | [], source, resolved, w, v, h => by
    rw [resolveJoins, outcome_pure_eq_ok] at h
    obtain ⟨rfl, rfl⟩ := h
    rw [joinRecursions]
    exact .refl _
  | { kind, operator, fields, query, extra := none } :: rest, source, resolved, w, v, h => by
    simp only [resolveJoins, outcome_bind_eq_ok, outcome_pure_eq_ok] at h
    obtain ⟨j, x, hj, others, y, hothers, rfl, rfl⟩ := h
    have hfirst : Issued catalog ([] ++ query.recursions)
        (j.required.definitions ++ j.joined.definitions) j.aliases w x :=
      resolveJoin_issued query.resolve_issued (fun h => by
        obtain ⟨rfl, rfl⟩ := outcome_pure_eq_ok.mp h
        exact .refl _) hj
    have hall := hfirst.append (resolveJoins_issued rest hothers)
    rw [joinListAliases_eq] at hall ⊢
    exact hall
  | { kind, operator, fields, query, extra := some extra } :: rest, source, resolved, w, v, h => by
    simp only [resolveJoins, outcome_bind_eq_ok, outcome_pure_eq_ok] at h
    obtain ⟨j, x, hj, others, y, hothers, rfl, rfl⟩ := h
    have hfirst := resolveJoin_issued query.resolve_issued (fun h => by
      simp only [resolveExtra, outcome_bind_eq_ok, outcome_pure_eq_ok] at h
      obtain ⟨r, x, hr, rfl, rfl⟩ := h
      exact extra.resolve_issued hr) hj
    have hall := hfirst.append (resolveJoins_issued rest hothers)
    rw [joinListAliases_eq] at hall ⊢
    exact hall

/-- What the set operations that stand for joins are given. -/
theorem resolveMatches_issued :
    ∀ (combines : List Combine) {source : String} {resolved : List ResolvedJoin} {w v : Workspace},
      outcome (resolveMatches catalog source combines) w = (.ok resolved, v) →
      Issued catalog (matchRecursions combines)
        (resolved.flatMap fun join => join.required.definitions ++ join.joined.definitions)
        (joinListAliases resolved) w v
  | [], source, resolved, w, v, h => by
    rw [resolveMatches, outcome_pure_eq_ok] at h
    obtain ⟨rfl, rfl⟩ := h
    rw [matchRecursions]
    exact .refl _
  | ⟨kind, query⟩ :: rest, source, resolved, w, v, h => by
    simp only [resolveMatches, outcome_bind_eq_ok, outcome_pure_eq_ok] at h
    obtain ⟨matched, x, hm, others, y, hothers, rfl, rfl⟩ := h
    have hall := (resolveMatch_issued query.resolve_issued hm).append
      (resolveMatches_issued rest hothers)
    rw [matchRecursions, List.flatMap_append, joinListAliases_eq, List.flatMap_append,
      ← joinListAliases_eq, ← joinListAliases_eq]
    exact hall

end

end AbstractSql
