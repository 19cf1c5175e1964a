import AbstractSql.Proofs.Outline.AntiJoin
import AbstractSql.Proofs.Outline.Depth
import AbstractSql.Proofs.Translation.Matched

/-!
# Where resolved queries come from

A query that is translated holds the queries that its translation comes by: those it compares with,
combines, joins and requires of joined rows. Every query in a resolved query is one of these with
its names, but for the test for a missing match, which no query is needed for.
-/

namespace AbstractSql

open Translating

mutual

/-- The comparisons of a condition, in order. -/
def Condition.comparisons : Condition → List Criterion
  | .criterion criterion => [criterion]
  | .group { conditions, .. } => clauseComparisons conditions

/-- The comparisons of conditions, in order. -/
def clauseComparisons : List Clause → List Criterion
  | [] => []
  | ⟨_, condition⟩ :: rest => condition.comparisons ++ clauseComparisons rest

end

namespace Query

/-- The comparisons in the conditions of a query. -/
def comparisons (q : Query) : List Criterion := clauseComparisons q.conditions

/-- A query is directly in another one, and is translated with it. -/
inductive Direct (q : Query) : Query → Prop where
  /-- In a comparison, unless that is a test for a missing value. -/
  | compared {criterion : Criterion} {sub : Query} (ht : q.text = none)
      (h : criterion ∈ q.comparisons) (hn : criterion.operator.needsParameter = true)
      (hv : criterion.value = .query sub) : Direct q sub
  /-- In a set operation. -/
  | combined {entry : Combine} (ht : q.text = none) (h : entry ∈ q.combines) : Direct q entry.query
  /-- In a join. -/
  | joined {join : Join} (ht : q.text = none) (h : join ∈ q.joins) : Direct q join.query
  /-- As a condition on joined rows. -/
  | required {join : Join} {extra : Query} (ht : q.text = none) (h : join ∈ q.joins)
      (he : join.extra = some extra) : Direct q extra

/-- A query is another one or in it, at any depth. -/
abbrev Part : Query → Query → Prop := Relation.ReflTransGen Direct

end Query

/-- An alias is not issued from here on. -/
def Workspace.Past (w : Workspace) (tableAlias : String) : Prop :=
  ∀ n, w.names.aliases ≤ n → tableAlias ≠ NameSupply.subqueryAlias n

namespace Workspace

variable {w v : Workspace} {tableAlias : String}

/-- What is not issued is not issued later. -/
theorem Past.mono (h : w.Past tableAlias) (hle : w.names.aliases ≤ v.names.aliases) :
    v.Past tableAlias :=
  fun n hn => h n (Nat.le_trans hle hn)

/-- An alias is issued once. -/
theorem past_nextAlias (h : outcome nextAlias w = (.ok tableAlias, v)) : v.Past tableAlias := by
  obtain ⟨hname, rfl⟩ := Prod.mk.inj h
  obtain rfl := Except.ok.inj hname
  intro n hn he
  have hlt : w.names.aliases < n := hn
  exact Nat.ne_of_lt hlt (NameSupply.numbered_injective "S" he)

/-- The alias of a statement is never issued. -/
theorem past_mainAlias (w : Workspace) : w.Past NameSupply.mainAlias :=
  fun n _ => NameSupply.mainAlias_ne_subqueryAlias n

end Workspace

/-- A query is given names under an alias that is not issued again. -/
def Query.Becomes (catalog : Catalog) (q : Query) (tableAlias : String) (r : ResolvedQuery) :
    Prop :=
  ∃ useSort w v, w.Past tableAlias ∧
    outcome (q.resolve catalog useSort tableAlias) w = (.ok r, v)

/-- Without statement texts in conditions there are none in the queries they compare with. -/
theorem textFree_compared {criterion : Criterion} {sub : Query}
    (hn : criterion.operator.needsParameter = true) (hv : criterion.value = .query sub) :
    ∀ clauses : List Clause, TextFree (clauseSites clauses) →
      criterion ∈ clauseComparisons clauses → TextFree sub.sites
  | [], _, h => by simp [clauseComparisons] at h
  | ⟨_, .criterion other⟩ :: rest, hf, h => by
    rw [clauseSites, textFree_append] at hf
    rw [clauseComparisons, Condition.comparisons] at h
    rcases List.mem_append.mp h with h | h
    · obtain rfl := List.mem_singleton.mp h
      obtain ⟨field, operator, value, conversion⟩ := criterion
      obtain rfl : value = .query sub := hv
      have hsub := hf.1
      rw [Condition.sites, if_pos hn, textFree_move] at hsub
      exact hsub
    · exact textFree_compared hn hv rest hf.2 h
  | ⟨_, .group { conditions, .. }⟩ :: rest, hf, h => by
    rw [clauseSites, textFree_append, Condition.sites] at hf
    rw [clauseComparisons, Condition.comparisons] at h
    rcases List.mem_append.mp h with h | h
    · exact textFree_compared hn hv conditions hf.1 h
    · exact textFree_compared hn hv rest hf.2 h

/-- Without statement texts in set operations there are none in the other queries. -/
theorem textFree_combined {combines : List Combine} (ha : TextFree (armSites combines))
    (hm : TextFree (matchSites combines)) : ∀ entry ∈ combines, TextFree entry.query.sites := by
  induction combines with
  | nil => simp
  | cons entry rest ih =>
    obtain ⟨kind, query⟩ := entry
    rw [armSites, textFree_append] at ha
    rw [matchSites, textFree_append] at hm
    refine List.forall_mem_cons.mpr ⟨?_, ih ha.2 hm.2⟩
    cases hk : kind.isNative with
    | true =>
      have hquery := ha.1
      rwa [if_pos hk, textFree_move] at hquery
    | false =>
      have hquery := hm.1
      rwa [if_neg (by simp [hk]), textFree_move] at hquery

/-- Without statement texts in joins there are none in the joined queries and in the conditions on
joined rows. -/
theorem textFree_joined {joins : List Join} (hf : TextFree (joinSites joins)) :
    ∀ join ∈ joins, TextFree join.query.sites ∧
      ∀ extra, join.extra = some extra → TextFree extra.sites := by
  induction joins with
  | nil => simp
  | cons join rest ih =>
    obtain ⟨kind, operator, fields, query, extra⟩ := join
    cases extra with
    | none =>
      rw [joinSites, textFree_append, textFree_move] at hf
      exact List.forall_mem_cons.mpr ⟨⟨hf.1, fun _ he => nomatch he⟩, ih hf.2⟩
    | some required =>
      rw [joinSites, textFree_append, textFree_append, textFree_move, textFree_move] at hf
      refine List.forall_mem_cons.mpr ⟨⟨hf.1.1, fun extra he => ?_⟩, ih hf.2⟩
      exact Option.some.inj he ▸ hf.1.2

/-- The sites of a query that is no statement text are those of its clauses. -/
theorem Query.textFree_clauses {q : Query} (ht : q.text = none) :
    TextFree q.sites ↔ TextFree (clauseSites q.conditions) ∧ TextFree (armSites q.combines) ∧
      TextFree (joinSites q.joins) ∧ TextFree (matchSites q.combines) := by
  obtain ⟨entity, text, conditions, sorts, joins, combines, recurve, paging, size, fields,
    isolation⟩ := q
  obtain rfl : text = none := ht
  cases recurve with
  | none =>
    rw [Query.sites]
    simp only [textFree_append, and_assoc]
  | some closure =>
    rw [Query.sites, textFree_move]
    simp only [textFree_append, and_assoc]

/-- Without statement texts in a query there are none in the queries directly in it. -/
theorem TextFree.direct {q sub : Query} (hf : TextFree q.sites) (h : q.Direct sub) :
    TextFree sub.sites := by
  cases h with
  | compared ht h hn hv =>
    exact textFree_compared hn hv q.conditions ((Query.textFree_clauses ht).mp hf).1 h
  | combined ht h =>
    obtain ⟨-, harms, -, hmatches⟩ := (Query.textFree_clauses ht).mp hf
    exact textFree_combined harms hmatches _ h
  | joined ht h => exact (textFree_joined ((Query.textFree_clauses ht).mp hf).2.2.1 _ h).1
  | required ht h he => exact (textFree_joined ((Query.textFree_clauses ht).mp hf).2.2.1 _ h).2 _ he

/-- Without statement texts in a query there are none in the queries in it. -/
theorem TextFree.part {q sub : Query} (hf : TextFree q.sites) (h : q.Part sub) :
    TextFree sub.sites := by
  induction h with
  | refl => exact hf
  | tail _ hd ih => exact ih.direct hd

namespace Translating

variable {catalog : Catalog} {entity source : String} {w v : Workspace}

/-- What a comparison is resolved to. -/
inductive CriterionOrigin (catalog : Catalog) (entity : String) (criterion : Criterion) :
    ResolvedCriterion → Prop where
  /-- A test for a missing value. -/
  | missing {reference : Reference} (hn : criterion.operator.needsParameter = false) :
      CriterionOrigin catalog entity criterion (.missing reference criterion.operator)
  /-- A comparison with a value. -/
  | value {reference : Reference} {value : Value} {parameter : String}
      (hn : criterion.operator.needsParameter = true) (hv : criterion.value = .value value) :
      CriterionOrigin catalog entity criterion (.value reference criterion.operator parameter)
  /-- A comparison with a statement text. -/
  | text {reference : Reference} {sub : Query} {raw : String}
      (hn : criterion.operator.needsParameter = true) (hv : criterion.value = .query sub)
      (ht : sub.isText = true) :
      CriterionOrigin catalog entity criterion (.text reference criterion.operator raw)
  /-- A comparison with the first selected column of a query, limited as the operator asks for it
  and sorted only where it is limited. -/
  | rows {reference : Reference} {sub : Query} {property : String} {rest : List String}
      {tableAlias : String} {r : ResolvedQuery} {x y : Workspace} (hp : x.Past tableAlias)
      (hn : criterion.operator.needsParameter = true) (hv : criterion.value = .query sub)
      (ht : sub.isText = false) (hf : sub.fields = property :: rest)
      (hr : outcome (sub.resolve catalog
        (SubqueryLimit.of criterion.operator sub.size != .none) tableAlias) x = (.ok r, y)) :
      CriterionOrigin catalog entity criterion
        (.rows reference criterion.operator (SubqueryLimit.of criterion.operator sub.size)
          (catalog.column sub.entity property) tableAlias r)

mutual

/-- The comparisons of resolved conditions come from comparisons of the conditions. -/
theorem resolveClauses_origin : ∀ (clauses : List Clause) {w v : Workspace}
    {resolved : List ResolvedClause},
    outcome (resolveClauses catalog entity clauses) w = (.ok resolved, v) →
    ∀ c ∈ clauseCriteria resolved, ∃ criterion ∈ clauseComparisons clauses,
      CriterionOrigin catalog entity criterion c
  | [], _, _, _, h, c, hc => by
    rw [resolveClauses, outcome_pure_eq_ok] at h
    obtain ⟨rfl, -⟩ := h
    simp [clauseCriteria] at hc
  | ⟨connector, condition⟩ :: rest, _, _, _, h, c, hc => by
    simp only [resolveClauses, outcome_bind_eq_ok, outcome_pure_eq_ok] at h
    obtain ⟨first, x, hfirst, others, y, hothers, rfl, -⟩ := h
    rw [clauseCriteria] at hc
    rw [clauseComparisons]
    rcases List.mem_append.mp hc with hc | hc
    · obtain ⟨criterion, hm, ho⟩ := condition_origin condition hfirst c hc
      exact ⟨criterion, List.mem_append_left _ hm, ho⟩
    · obtain ⟨criterion, hm, ho⟩ := resolveClauses_origin rest hothers c hc
      exact ⟨criterion, List.mem_append_right _ hm, ho⟩

/-- The comparisons of a resolved condition come from comparisons of the condition. -/
theorem condition_origin : ∀ (condition : Condition) {w v : Workspace}
    {resolved : ResolvedCondition},
    outcome (condition.resolve catalog entity) w = (.ok resolved, v) →
    ∀ c ∈ resolved.criteria, ∃ criterion ∈ condition.comparisons,
      CriterionOrigin catalog entity criterion c
  | .group { conditions, .. }, _, _, _, h, c, hc => by
    simp only [Condition.resolve, outcome_bind_eq_ok, outcome_pure_eq_ok] at h
    obtain ⟨clauses, x, hclauses, rfl, -⟩ := h
    rw [ResolvedCondition.criteria] at hc
    rw [Condition.comparisons]
    exact resolveClauses_origin conditions hclauses c hc
  | .criterion { field, operator, value := .value value, conversion }, _, _, _, h, c, hc => by
    rw [Condition.resolve] at h
    rw [Condition.comparisons]
    refine ⟨_, List.mem_singleton_self _, ?_⟩
    obtain ⟨reference, ⟨hn, h⟩ | ⟨hn, rfl, -⟩⟩ := criterion_resolved h
    · simp only [outcome_bind_eq_ok, outcome_pure_eq_ok] at h
      obtain ⟨parameter, y, -, rfl, -⟩ := h
      obtain rfl := List.mem_singleton.mp hc
      exact .value hn rfl
    · obtain rfl := List.mem_singleton.mp hc
      exact .missing hn
  | .criterion { field, operator, value := .query query, conversion }, _, _, _, h, c, hc => by
    rw [Condition.resolve] at h
    rw [Condition.comparisons]
    refine ⟨_, List.mem_singleton_self _, ?_⟩
    obtain ⟨reference, ⟨hn, h⟩ | ⟨hn, rfl, -⟩⟩ := criterion_resolved h
    · simp only [outcome_bind_eq_ok, outcome_pure_eq_ok] at h
      obtain ⟨criterion, y, hcompared, rfl, -⟩ := h
      obtain rfl := List.mem_singleton.mp hc
      unfold resolveCompared at hcompared
      split at hcompared
      · next ht =>
        simp only [outcome_bind_eq_ok, outcome_pure_eq_ok] at hcompared
        obtain ⟨r, z, -, rfl, -⟩ := hcompared
        exact .text hn rfl ht
      · next ht =>
        cases hf : query.fields with
        | nil =>
          rw [hf] at hcompared
          exact absurd hcompared (by simp)
        | cons property rest =>
          simp only [hf, outcome_bind_eq_ok, outcome_pure_eq_ok] at hcompared
          obtain ⟨tableAlias, z, halias, r, u, hr, rfl, -⟩ := hcompared
          have htext := Bool.eq_false_of_not_eq_true ht
          exact .rows (Workspace.past_nextAlias halias) hn rfl htext hf hr
    · obtain rfl := List.mem_singleton.mp hc
      exact .missing hn

end

/-- What a set operation that the server has is resolved to. -/
structure ArmOrigin (catalog : Catalog) (source : Query) (entry : Combine) (arm : ResolvedArm) :
    Prop where
  /-- It is not left to the joins. -/
  native : entry.kind.isNative = true
  /-- The columns that its select lists. -/
  columns : arm.columns = resolveColumns catalog source.entity source.fields
  /-- The other query. -/
  query : entry.query.Becomes catalog arm.tableAlias arm.query

/-- Set operations are resolved one by one. -/
theorem resolveArms_origin {source : Query} : ∀ {combines : List Combine}
    {arms : List ResolvedArm} {w v : Workspace},
    outcome (resolveArms catalog source combines) w = (.ok arms, v) →
    ∀ arm ∈ arms, ∃ entry ∈ combines, ArmOrigin catalog source entry arm
  | [], _, _, _, h, arm, ha => by
    rw [resolveArms, outcome_pure_eq_ok] at h
    obtain ⟨rfl, -⟩ := h
    exact absurd ha List.not_mem_nil
  | ⟨kind, query⟩ :: rest, _, _, _, h, arm, ha => by
    simp only [resolveArms, outcome_bind_eq_ok, outcome_pure_eq_ok] at h
    obtain ⟨first, x, hfirst, others, y, hothers, rfl, -⟩ := h
    rcases List.mem_append.mp ha with ha | ha
    · refine ⟨_, List.mem_cons_self, ?_⟩
      unfold resolveArm at hfirst
      split at hfirst
      · next hk =>
        simp only [outcome_bind_eq_ok, outcome_pure_eq_ok] at hfirst
        obtain ⟨_, _, -, _, _, -, tableAlias, z, halias, r, u, hr, rfl, -⟩ := hfirst
        obtain rfl := List.mem_singleton.mp ha
        exact ⟨hk, rfl, false, z, u, Workspace.past_nextAlias halias, hr⟩
      · obtain ⟨rfl, -⟩ := outcome_pure_eq_ok.mp hfirst
        exact absurd ha List.not_mem_nil
    · obtain ⟨entry, hentry, horigin⟩ := resolveArms_origin hothers arm ha
      exact ⟨entry, List.mem_cons_of_mem _ hentry, horigin⟩

/-- What a join is resolved to, with what it requires of joined rows. -/
structure JoinOrigin (catalog : Catalog) (source : String)
    (requires : Join → String → ResolvedQuery → Prop) (join : Join) (j : ResolvedJoin) : Prop where
  /-- The comparisons of the join. -/
  compares : ResolvesJoin catalog source join j
  /-- The joined query. -/
  query : join.query.Becomes catalog j.innerAlias j.query
  /-- The condition on joined rows. -/
  required : ∀ extra, j.extra = some extra → requires join j.targetAlias extra

/-- A join requires of joined rows what it says. -/
def OwnRequired (catalog : Catalog) (join : Join) (targetAlias : String) (extra : ResolvedQuery) :
    Prop :=
  ∃ required, join.extra = some required ∧ required.Becomes catalog targetAlias extra

/-- A join that stands for a set operation requires of joined rows only that there are none. -/
def MissingRequired (catalog : Catalog) (join : Join) (_targetAlias : String)
    (extra : ResolvedQuery) : Prop :=
  ∃ property, extra = resolveMissing catalog join.query.entity property

/-- A resolved join comes from the join. -/
theorem resolveJoin_origin {requires : Join → String → ResolvedQuery → Prop} {join : Join}
    {j : ResolvedJoin} {extra : Option (String → Translating ResolvedQuery)}
    (he : ∀ resolve ∈ extra, ∀ {tableAlias x r y}, x.Past tableAlias →
      outcome (resolve tableAlias) x = (.ok r, y) → requires join tableAlias r)
    (h : outcome (resolveJoin catalog source join (join.query.resolve catalog false) extra) w =
      (.ok j, v)) :
    JoinOrigin catalog source requires join j := by
  have hresolves := resolveJoin_resolves Query.resolve_resolves h
  simp only [resolveJoin, outcome_bind_eq_ok, outcome_pure_eq_ok] at h
  obtain ⟨_, _, -, innerAlias, x, hinner, query, y, hquery, outerAlias, z, houter, required, _,
    hrequired, rfl, -⟩ := h
  have hpast := Workspace.past_nextAlias hinner
  refine ⟨hresolves, ⟨_, x, y, hpast, hquery⟩, fun e hsome => ?_⟩
  have htarget : z.Past outerAlias := by
    unfold resolveAlias at houter
    split at houter
    · exact Workspace.past_nextAlias houter
    · obtain ⟨rfl, rfl⟩ := outcome_pure_eq_ok.mp houter
      exact hpast.mono (join.query.resolve_issued hquery).aliases_le
  rw [ResolvedJoin.targetAlias, target_of_resolveAlias houter]
  obtain rfl : required = some e := hsome
  cases extra with
  | none => exact absurd (outcome_pure_eq_ok.mp hrequired).1 (by simp)
  | some resolve =>
    simp only [resolveExtra, outcome_bind_eq_ok, outcome_pure_eq_ok, Option.some.injEq] at hrequired
    obtain ⟨r, u, hr, rfl, -⟩ := hrequired
    exact he resolve rfl htarget hr

/-- Joins are resolved one by one. -/
theorem resolveJoins_origin : ∀ {joins : List Join} {resolved : List ResolvedJoin}
    {w v : Workspace}, outcome (resolveJoins catalog source joins) w = (.ok resolved, v) →
    List.Forall₂ (JoinOrigin catalog source (OwnRequired catalog)) joins resolved
  | [], _, _, _, h => by
    rw [resolveJoins, outcome_pure_eq_ok] at h
    obtain ⟨rfl, -⟩ := h
    exact .nil
  | { extra := none, .. } :: rest, _, _, _, h => by
    simp only [resolveJoins, outcome_bind_eq_ok, outcome_pure_eq_ok] at h
    obtain ⟨j, x, hj, others, y, hothers, rfl, -⟩ := h
    exact .cons (resolveJoin_origin (fun _ he => by cases he) hj) (resolveJoins_origin hothers)
  | { extra := some required, .. } :: rest, _, _, _, h => by
    simp only [resolveJoins, outcome_bind_eq_ok, outcome_pure_eq_ok] at h
    obtain ⟨j, x, hj, others, y, hothers, rfl, -⟩ := h
    refine .cons (resolveJoin_origin (fun resolve he => ?_) hj) (resolveJoins_origin hothers)
    obtain rfl := Option.some.inj he
    exact fun hpast hr => ⟨required, rfl, _, _, _, hpast, hr⟩

/-- The set operations that the server does not have are resolved as the joins that stand for them.
-/
theorem resolveMatches_origin : ∀ {combines : List Combine} {resolved : List ResolvedJoin}
    {w v : Workspace}, outcome (resolveMatches catalog source combines) w = (.ok resolved, v) →
    ∃ joins, catalog.matchingJoins combines = .ok joins ∧
      List.Forall₂ (JoinOrigin catalog source (MissingRequired catalog)) joins resolved
  | [], _, _, _, h => by
    rw [resolveMatches, outcome_pure_eq_ok] at h
    obtain ⟨rfl, -⟩ := h
    exact ⟨[], rfl, .nil⟩
  | ⟨kind, query⟩ :: rest, _, _, _, h => by
    simp only [resolveMatches, outcome_bind_eq_ok, outcome_pure_eq_ok] at h
    obtain ⟨matched, x, hmatched, others, y, hothers, rfl, -⟩ := h
    obtain ⟨joins, hjoins, hrest⟩ := resolveMatches_origin hothers
    simp only [resolveMatch, outcome_bind_eq_ok] at hmatched
    obtain ⟨join?, z, hl, hmatched⟩ := hmatched
    have hjoin := (outcome_lift_eq_ok.mp hl).1
    refine ⟨join?.toList ++ joins, ?_, ?_⟩
    · rw [Catalog.matchingJoins, hjoin, hjoins]
      rfl
    · cases join? with
      | none =>
        obtain ⟨rfl, -⟩ := outcome_pure_eq_ok.mp hmatched
        exact hrest
      | some join =>
        simp only [outcome_bind_eq_ok, outcome_pure_eq_ok] at hmatched
        obtain ⟨j, u, hj, rfl, -⟩ := hmatched
        have hquery : join.query = query := (Combine.becomes_of_asJoin hjoin).query_eq
        rw [← hquery] at hj
        refine .cons (resolveJoin_origin (fun resolve he => ?_) hj) hrest
        obtain ⟨_, -, rfl⟩ := Option.map_eq_some_iff.mp he
        intro tableAlias x r y _ hr
        obtain ⟨rfl, -⟩ := outcome_pure_eq_ok.mp hr
        exact ⟨_, rfl⟩

end Translating

open Translating

variable {catalog : Catalog} {q : Query} {useSort : Bool} {tableAlias : String} {w v : Workspace}
  {r : ResolvedQuery}

/-- What a query that is no statement text is resolved to, part by part. -/
structure Query.Origins (catalog : Catalog) (useSort : Bool) (q : Query) (tableAlias : String)
    (r : ResolvedQuery) : Prop where
  /-- It is no statement text either. -/
  text : r.text = none
  /-- The comparisons come from those of the query. -/
  criteria : ∀ c ∈ r.criteria, ∃ criterion ∈ q.comparisons,
    CriterionOrigin catalog q.entity criterion c
  /-- The sort entries are those asked for. -/
  sorts : requestedSorts catalog useSort q.entity tableAlias q.sorts = .ok r.sorts
  /-- The arms come from its set operations. -/
  arms : ∀ arm ∈ r.arms, ∃ entry ∈ q.combines, ArmOrigin catalog q entry arm
  /-- The joins come from its own and from those that stand for set operations. -/
  joins : ∃ matched own others, catalog.matchingJoins q.combines = .ok matched ∧
    r.joins = own ++ others ∧
    List.Forall₂ (JoinOrigin catalog q.entity (OwnRequired catalog)) q.joins own ∧
    List.Forall₂ (JoinOrigin catalog q.entity (MissingRequired catalog)) matched others

/-- The parts of a resolved query come from parts of the query. -/
theorem Query.resolve_origins (ht : q.text = none)
    (h : outcome (q.resolve catalog useSort tableAlias) w = (.ok r, v)) :
    q.Origins catalog useSort tableAlias r := by
  obtain ⟨own, others, _, _, _, _, hs⟩ := Query.resolve_steps ht h
  obtain ⟨matched, hmatched, hjoins⟩ := resolveMatches_origin hs.others
  exact ⟨hs.text, resolveClauses_origin q.conditions hs.conditions, hs.sorts,
    resolveArms_origin hs.arms, matched, own, others, hmatched, hs.joins,
    resolveJoins_origin hs.own, hjoins⟩

/-- There is no query in the test for a missing match. -/
theorem not_direct_resolveMissing {partAlias : String} {part : ResolvedQuery}
    (entity property : String) :
    ¬ (resolveMissing catalog entity property).Direct partAlias part := by
  intro h
  cases h with
  | compared h =>
    simp [resolveMissing, ResolvedQuery.criteria, clauseCriteria, ResolvedCondition.criteria] at h
  | combined h => simp [resolveMissing] at h
  | joined h => simp [resolveMissing] at h
  | required h _ => simp [resolveMissing] at h

/-- A query directly in a resolved query is a query in the query with its names, or the test for a
missing match. -/
theorem Query.resolve_direct {partAlias : String} {part : ResolvedQuery}
    (h : outcome (q.resolve catalog useSort tableAlias) w = (.ok r, v))
    (hd : r.Direct partAlias part) :
    (∃ sub, q.Direct sub ∧ sub.Becomes catalog partAlias part) ∨
      ∃ entity property, part = resolveMissing catalog entity property := by
  cases ht : q.text with
  | some raw =>
    obtain rfl := Query.resolve_text ht h
    cases hd with
    | compared hc => simp [ResolvedQuery.criteria, clauseCriteria] at hc
    | combined ha => simp at ha
    | joined hj => simp at hj
    | required hj _ => simp at hj
  | none =>
    have ho := Query.resolve_origins ht h
    obtain ⟨matched, own, others, hmatched, hjoins, hown, hothers⟩ := ho.joins
    cases hd with
    | compared hc =>
      obtain ⟨criterion, hm, horigin⟩ := ho.criteria _ hc
      cases horigin with
      | rows hp hn hv _ _ hr => exact .inl ⟨_, .compared ht hm hn hv, _, _, _, hp, hr⟩
    | combined ha =>
      obtain ⟨entry, hentry, harm⟩ := ho.arms _ ha
      exact .inl ⟨entry.query, .combined ht hentry, harm.query⟩
    | joined hj =>
      rw [hjoins] at hj
      rcases List.mem_append.mp hj with hj | hj
      · obtain ⟨join, hm, hjoin⟩ := exists_of_mem_right hown hj
        exact .inl ⟨join.query, .joined ht hm, hjoin.query⟩
      · obtain ⟨join, hm, hjoin⟩ := exists_of_mem_right hothers hj
        obtain ⟨entry, hentry, hb⟩ :=
          exists_of_mem_right (Catalog.matchingJoins_becomes hmatched) hm
        have hsub := Direct.combined ht (List.mem_filter.mp hentry).1
        exact .inl ⟨entry.query, hsub, hb.query_eq ▸ hjoin.query⟩
    | required hj he =>
      rw [hjoins] at hj
      rcases List.mem_append.mp hj with hj | hj
      · obtain ⟨join, hm, hjoin⟩ := exists_of_mem_right hown hj
        obtain ⟨required, hrequired, hb⟩ := hjoin.required _ he
        exact .inl ⟨required, .required ht hm hrequired, hb⟩
      · obtain ⟨join, -, hjoin⟩ := exists_of_mem_right hothers hj
        obtain ⟨property, hmissing⟩ := hjoin.required _ he
        exact .inr ⟨_, property, hmissing⟩

/-- A query in a resolved query is the query itself, a query in it with its names, or the test for a
missing match. -/
theorem Query.resolve_part {part : String × ResolvedQuery}
    (h : outcome (q.resolve catalog useSort tableAlias) w = (.ok r, v))
    (hp : ResolvedQuery.Part (tableAlias, r) part) :
    part = (tableAlias, r) ∨ (∃ sub, q.Part sub ∧ sub.Becomes catalog part.1 part.2) ∨
      ∃ entity property, part.2 = resolveMissing catalog entity property := by
  induction hp with
  | refl => exact .inl rfl
  | tail _ hd ih =>
    rcases ih with rfl | ⟨sub, hsub, _, _, _, -, hr⟩ | ⟨entity, property, hmissing⟩
    · rcases Query.resolve_direct h hd with ⟨inner, hinner, hpart⟩ | hmissing
      · exact .inr (.inl ⟨inner, .single hinner, hpart⟩)
      · exact .inr (.inr hmissing)
    · rcases Query.resolve_direct hr hd with ⟨inner, hinner, hpart⟩ | hmissing
      · exact .inr (.inl ⟨inner, hsub.tail hinner, hpart⟩)
      · exact .inr (.inr hmissing)
    · rw [hmissing] at hd
      exact absurd hd (not_direct_resolveMissing entity property)

/-- Without statement texts, what is compared in a resolved query comes from a comparison of the
query or of one in it, or is the test for a missing match. -/
theorem Query.resolve_criteria {part : String × ResolvedQuery} (hf : TextFree q.sites)
    (h : outcome (q.resolve catalog useSort tableAlias) w = (.ok r, v))
    (hp : ResolvedQuery.Part (tableAlias, r) part) {c : ResolvedCriterion}
    (hc : c ∈ part.2.criteria) :
    (∃ sub criterion, q.Part sub ∧ criterion ∈ sub.comparisons ∧
      CriterionOrigin catalog sub.entity criterion c) ∨
      ∃ reference operator, c = .missing reference operator := by
  have horigin : ∀ {sub useSort partAlias w part v}, q.Part sub →
      outcome (sub.resolve catalog useSort partAlias) w = (.ok part, v) → c ∈ part.criteria →
      ∃ sub criterion, q.Part sub ∧ criterion ∈ sub.comparisons ∧
        CriterionOrigin catalog sub.entity criterion c := by
    intro sub useSort partAlias w part v hsub hr hc
    have ht := Query.text_of_textFree (hf.part hsub)
    obtain ⟨criterion, hm, ho⟩ := (Query.resolve_origins ht hr).criteria c hc
    exact ⟨sub, criterion, hsub, hm, ho⟩
  rcases Query.resolve_part h hp with rfl | ⟨sub, hsub, _, _, _, -, hr⟩ | ⟨_, _, hmissing⟩
  · exact .inl (horigin .refl h hc)
  · exact .inl (horigin hsub hr hc)
  · rw [hmissing, ResolvedQuery.criteria, resolveMissing, clauseCriteria,
      ResolvedCondition.criteria] at hc
    exact .inr ⟨_, _, List.mem_singleton.mp hc⟩

end AbstractSql
