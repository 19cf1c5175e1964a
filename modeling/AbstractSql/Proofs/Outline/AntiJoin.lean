import AbstractSql.Proofs.Outline.Arms
import AbstractSql.Proofs.Outline.Extras
import AbstractSql.Proofs.Outline.Outer
import Mathlib

/-!
# EXCEPT as a left join

EXCEPT of another query becomes a left join with it and a test for a missing match. The restriction
of the other query then belongs to the ON clauses: in the outer condition it would ask for the very
match that is to be missing. It stands there unless the other query has a closure. But conditions on
joined rows of the other query, and so the tests of every EXCEPT in it, are handed to the outer
condition all the same.
-/

namespace AbstractSql

/-- A joined query without set operations hands to the outer condition, other than in a cross join,
the conditions on its own joined rows, or the test for membership in its closure. -/
theorem ResolvedJoin.lifted_eq {join : ResolvedJoin} (ha : join.query.hasArms = false)
    (hk : join.kind ≠ .cross) :
    (join.joined.lifted join.kind).filter (fun row => !row.isEmpty) =
      if join.query.keepsJoins then join.query.ownJoins.flatMap fun own => own.required.required
      else (join.query.membership join.innerAlias).map fun test => [.atom test] := by
  unfold Outline.lifted Outline.testsInJoin joined
  rw [ResolvedQuery.hasArms_outline, ResolvedQuery.allowJoin_outline, ha,
    if_neg Bool.false_ne_true]
  cases hj : join.query.keepsJoins with
  | true =>
    have hkept : (join.query.outline join.innerAlias).joinExtras.filter (fun row => !row.isEmpty) =
        (join.query.outline join.innerAlias).joinExtras :=
      List.filter_eq_self.mpr fun row hrow => by
        simpa using join.query.ne_nil_of_mem_joinExtras join.innerAlias row hrow
    rw [List.filter_append, hkept, ResolvedQuery.joinExtras_outline hj, if_pos rfl]
    cases (join.query.outline join.innerAlias).condition <;> simp [hk]
  | false =>
    obtain ⟨closure, -, hclosure, hcondition, hextras⟩ :=
      ResolvedQuery.outline_closure hj join.innerAlias
    simp [hextras, hcondition, ResolvedQuery.membership, hclosure, ha]

namespace Translating

variable {catalog : Catalog} {source : String} {w v : Workspace}

/-- A join is resolved to one that makes its comparisons. -/
theorem resolveJoin_resolves {join : Join} {j : ResolvedJoin}
    {resolve : String → Translating ResolvedQuery}
    {resolveExtra? : Option (String → Translating ResolvedQuery)}
    (hq : ∀ {tableAlias x r y}, outcome (resolve tableAlias) x = (.ok r, y) →
      Resolves catalog join.query r)
    (h : outcome (resolveJoin catalog source join resolve resolveExtra?) w = (.ok j, v)) :
    ResolvesJoin catalog source join j := by
  simp only [resolveJoin, outcome_bind_eq_ok, outcome_pure_eq_ok] at h
  obtain ⟨_, x, -, innerAlias, y, -, query, z, hquery, outerAlias, s, -, extra, u, -, rfl, -⟩ := h
  exact ⟨rfl, rfl, rfl, hq hquery⟩

/-- What a set operation that stands for a join is resolved to. -/
structure MatchFrom (catalog : Catalog) (source : String) (entry : Combine) (join : Join)
    (j : ResolvedJoin) : Prop where
  /-- The join that stands for it. -/
  stands : entry.asJoin catalog = .ok (some join)
  /-- The comparisons of the join. -/
  compares : ResolvesJoin catalog source join j
  /-- The other query. -/
  query : ∃ x y, outcome (entry.query.resolve catalog false j.innerAlias) x = (.ok j.query, y)
  /-- The test for a missing match. -/
  extra : j.extra = join.extra.map fun _ =>
    resolveMissing catalog entry.query.entity ((join.fields.head?.map (·.1)).getD "")

/-- The set operations that the server does not have are resolved one by one. -/
theorem resolveMatches_each : ∀ {combines : List Combine} {resolved : List ResolvedJoin}
    {w v : Workspace}, outcome (resolveMatches catalog source combines) w = (.ok resolved, v) →
    List.Forall₂ (fun entry j => ∃ join, MatchFrom catalog source entry join j)
      (combines.filter fun entry => !entry.kind.isNative) resolved
  | [], _, _, _, h => by
    rw [resolveMatches, outcome_pure_eq_ok] at h
    obtain ⟨rfl, -⟩ := h
    exact .nil
  | ⟨kind, query⟩ :: rest, _, _, _, h => by
    simp only [resolveMatches, outcome_bind_eq_ok, outcome_pure_eq_ok] at h
    obtain ⟨matched, x, hmatched, others, y, hothers, rfl, -⟩ := h
    have hrest := resolveMatches_each hothers
    simp only [resolveMatch, outcome_bind_eq_ok] at hmatched
    obtain ⟨join?, z, hl, hmatched⟩ := hmatched
    have hjoin := (outcome_lift_eq_ok.mp hl).1
    cases join? with
    | none =>
      obtain ⟨rfl, -⟩ := outcome_pure_eq_ok.mp hmatched
      rw [List.filter_cons_of_neg (by simpa using Combine.isNative_of_asJoin hjoin)]
      exact hrest
    | some join =>
      simp only [outcome_bind_eq_ok, outcome_pure_eq_ok] at hmatched
      obtain ⟨j, u, hj, rfl, -⟩ := hmatched
      have hbecomes := Combine.becomes_of_asJoin hjoin
      have hnative : kind.isNative = false := hbecomes.not_native
      rw [List.filter_cons_of_pos (by simp [hnative])]
      obtain ⟨-, hquery, s, he⟩ := resolveJoin_parts hj
      refine .cons ⟨join, hjoin, resolveJoin_resolves (fun h => ?_) hj, hquery, ?_⟩ hrest
      · exact hbecomes.query_eq ▸ Query.resolve_resolves h
      · cases hextra : join.extra with
        | none =>
          rw [hextra] at he
          exact (outcome_pure_eq_ok.mp he).1.symm
        | some required =>
          rw [hextra] at he
          simp only [Option.map_some, resolveExtra, outcome_bind_eq_ok, outcome_pure_eq_ok] at he
          obtain ⟨_, _, ⟨rfl, -⟩, hreturned, -⟩ := he
          exact hreturned.symm

/-- Joins without a condition on joined rows are resolved to such joins. -/
theorem resolveJoins_extra : ∀ {joins : List Join} {resolved : List ResolvedJoin}
    {w v : Workspace}, outcome (resolveJoins catalog source joins) w = (.ok resolved, v) →
    (∀ join ∈ joins, join.extra = none) → ∀ j ∈ resolved, j.extra = none
  | [], _, _, _, h, _ => by
    rw [resolveJoins, outcome_pure_eq_ok] at h
    obtain ⟨rfl, -⟩ := h
    simp
  | { extra := none, .. } :: rest, _, _, _, h, hnone => by
    simp only [resolveJoins, outcome_bind_eq_ok, outcome_pure_eq_ok] at h
    obtain ⟨j, x, hj, others, y, hothers, rfl, -⟩ := h
    obtain ⟨-, -, s, he⟩ := resolveJoin_parts hj
    refine List.forall_mem_cons.mpr ⟨(outcome_pure_eq_ok.mp he).1.symm, ?_⟩
    exact resolveJoins_extra hothers (List.forall_mem_cons.mp hnone).2
  | { extra := some _, .. } :: _, _, _, _, _, hnone =>
    absurd (List.forall_mem_cons.mp hnone).1 (Option.some_ne_none _)

/-- A closure is resolved to one of its columns in some table. -/
theorem resolveClosure_from {entity : String} {closure : Option Closure}
    {resolved : Option ResolvedClosure}
    (h : outcome (resolveClosure catalog entity closure) w = (.ok resolved, v)) :
    ∃ table, resolved = closure.map fun spec =>
      { table, direction := spec.direction, data := catalog.column entity spec.dataField,
        relation := catalog.column entity spec.relationField } := by
  cases closure with
  | none => exact ⟨NameSupply.closureTable 0, (outcome_pure_eq_ok.mp h).1.symm⟩
  | some spec =>
    simp only [resolveClosure, outcome_bind_eq_ok, outcome_pure_eq_ok] at h
    obtain ⟨table, x, -, rfl, -⟩ := h
    exact ⟨table, rfl⟩

end Translating

/-- Whether a query has set operations and keeps its joins is known of it with its names. -/
theorem Query.resolve_shape {catalog : Catalog} {useSort : Bool} {q : Query} {tableAlias : String}
    {w v : Workspace} {r : ResolvedQuery}
    (h : outcome (q.resolve catalog useSort tableAlias) w = (.ok r, v)) :
    r.hasArms = q.hasArms ∧ r.keepsJoins = q.keepsJoins := by
  have htext := (q.resolve_resolves h).text
  constructor
  · have hr : r.hasArms = false ↔ r.ownArms = [] := by
      unfold ResolvedQuery.hasArms ResolvedQuery.ownArms
      cases r.text <;> simp
    have hiff : r.hasArms = false ↔ q.hasArms = false := by
      rw [hr, ← Query.unions_eq_nil, ← List.length_eq_zero_iff,
        ← (q.resolve_ownArms h).length_eq, List.length_eq_zero_iff]
    rwa [Bool.eq_iff_iff, ← not_iff_not, Bool.not_eq_true, Bool.not_eq_true]
  · unfold ResolvedQuery.keepsJoins Query.keepsJoins
    rw [htext]
    cases ht : q.text with
    | some raw => simp [Query.isText, ht]
    | none =>
      obtain ⟨_, _, _, _, _, _, hs⟩ := Query.resolve_steps ht h
      obtain ⟨table, hclosure⟩ := Translating.resolveClosure_from hs.closure
      simp [Query.isText, ht, hclosure]

namespace Translating

variable {catalog : Catalog} {source : String} {w v : Workspace}

/-- EXCEPT stands for a left join on the matched properties, whose first one is tested for a missing
match. -/
theorem asJoin_except_eq {query : Query} {join : Join}
    (h : Combine.asJoin ⟨.except, query⟩ catalog = .ok (some join)) :
    ∃ first rest, catalog.matchedFields query = .ok (first :: rest) ∧
      join = { kind := .left, fields := (first :: rest).map fun f => (f, f), query,
               extra := some ((Query.ofEntity query.entity).isNull first) } := by
  cases Combine.becomes_of_asJoin h with
  | except _ matched => exact ⟨_, _, matched, rfl⟩

/-- Other set operations have no condition on joined rows. -/
theorem extra_of_asJoin {entry : Combine} {join : Join} (hk : entry.kind ≠ .except)
    (h : entry.asJoin catalog = .ok (some join)) : join.extra = none := by
  cases Combine.becomes_of_asJoin h with
  | intersect => rfl
  | except => exact absurd rfl hk

/-- Properties of the same name are compared, unless it is empty. -/
theorem resolvePairs_matched {query : Query} {kind : JoinKind} (hk : kind ≠ .cross)
    (extra : Option Query) (first : String) (rest : List String) :
    resolvePairs catalog source
        { kind, fields := (first :: rest).map fun f => (f, f), query, extra } =
      ((first :: rest).filter (· != "")).map fun f =>
        (catalog.column source f, catalog.column query.entity f) := by
  unfold resolvePairs
  rw [if_neg hk]
  have hpairs : joinPairs catalog source
      { kind, fields := (first :: rest).map fun f => (f, f), query, extra } =
        (first :: rest).map fun f => (f, f) := rfl
  rw [hpairs, List.filter_map, List.map_map]
  simp only [Function.comp_def, Bool.and_self]

/-- The test for a missing match of a joined row. -/
def missingMatch (catalog : Catalog) (entity property : String) (j : ResolvedJoin) : Test :=
  .missing j.innerAlias { column := catalog.column entity property } .isNull

/-- What EXCEPT of a query without set operations of the server becomes, matched on some properties:
a join of the query with its names. -/
structure AntiJoin (catalog : Catalog) (source tableAlias : String) (target : Query) (first : String)
    (rest : List String) (j : ResolvedJoin) : Prop where
  /-- The matched properties. -/
  matched : catalog.matchedFields target = .ok (first :: rest)
  /-- The other query has its names under the alias of the joined rows. -/
  names : ∃ x y, outcome (target.resolve catalog false j.innerAlias) x = (.ok j.query, y)
  /-- The clause is a left join with the table of the other query. It compares the matched columns
  and tests the condition of the other query, unless that one has a closure. -/
  clause : j.clause tableAlias j.joined =
    { kind := .left, source := .table (catalog.table target.entity), tableAlias := j.innerAlias
      on := Lexeme.afterAtoms
        (((first :: rest).filter (· != "")).map fun f =>
          .pair ⟨tableAlias, catalog.column source f⟩ .equal
            ⟨j.innerAlias, catalog.column target.entity f⟩)
        (if target.keepsJoins then j.joined.condition else []) }
  /-- The clauses of its joins follow, unless it has a closure. -/
  nested : j.joined.liftedJoins = if target.keepsJoins then j.joined.joins else []
  /-- To the outer condition it adds the test for a missing match, and before it the conditions on
  joined rows of the other query or membership in its closure. -/
  adds : j.adds =
    (if target.keepsJoins then j.query.ownJoins.flatMap fun own => own.required.required
      else (j.query.membership j.innerAlias).map fun test => [.atom test])
      ++ [[.atom (missingMatch catalog target.entity first j)]]
  /-- The test is all that it adds exactly when the other query has no closure and none of its joins
  has a condition on joined rows. -/
  alone : j.adds = [[.atom (missingMatch catalog target.entity first j)]] ↔
    target.keepsJoins = true ∧ ∀ own ∈ j.query.ownJoins, own.required.required = []
  /-- It is not if there is an EXCEPT in the other query. -/
  exceptions : target.text = none → (∃ entry ∈ target.combines, entry.kind = .except) →
    j.adds ≠ [[.atom (missingMatch catalog target.entity first j)]]
  /-- It is if the other query has no closure, no EXCEPT and no condition on joined rows. -/
  plain : target.keepsJoins = true → (∀ join ∈ target.joins, join.extra = none) →
    (∀ entry ∈ target.combines, entry.kind ≠ .except) →
      j.adds = [[.atom (missingMatch catalog target.entity first j)]]
  /-- Membership in a closure of the other query is tested of the joined rows. -/
  member : ∀ closure ∈ target.recurve, target.text = none → ∃ table,
    j.query.membership j.innerAlias =
      [.member ⟨j.innerAlias, catalog.column target.entity closure.dataField⟩ table]

/-- On the right of a relation between lists there is nothing without a counterpart. -/
theorem exists_of_mem_right {α β : Type} {R : α → β → Prop} {l : List α} {u : List β}
    (h : List.Forall₂ R l u) {b : β} (hb : b ∈ u) : ∃ a ∈ l, R a b := by
  induction h with
  | nil => exact absurd hb List.not_mem_nil
  | cons hr _ ih =>
    rcases List.mem_cons.mp hb with rfl | hb
    · exact ⟨_, List.mem_cons_self, hr⟩
    · obtain ⟨a, ha, hab⟩ := ih hb
      exact ⟨a, List.mem_cons_of_mem _ ha, hab⟩

/-- A join without a condition on joined rows requires nothing of them. -/
theorem required_of_none {j : ResolvedJoin} (h : j.extra = none) : j.required.required = [] := by
  unfold ResolvedJoin.required extraOutline
  rw [h]
  rfl

/-- A query without a closure, EXCEPT and conditions on joined rows requires none of its joins. -/
theorem required_of_plain {target : Query} {r : ResolvedQuery} {tableAlias : String}
    (hr : outcome (target.resolve catalog false tableAlias) w = (.ok r, v))
    (hextra : ∀ join ∈ target.joins, join.extra = none)
    (hexcept : ∀ entry ∈ target.combines, entry.kind ≠ .except) :
    ∀ own ∈ r.ownJoins, own.required.required = [] := by
  intro own hown
  cases ht : target.text with
  | some raw =>
    have htext := (target.resolve_resolves hr).text
    rw [Query.isText, ht, Option.isSome_some] at htext
    rw [ResolvedQuery.ownJoins, if_pos htext] at hown
    exact absurd hown List.not_mem_nil
  | none =>
    obtain ⟨joins, matched, _, _, _, _, hs⟩ := Query.resolve_steps ht hr
    rw [ResolvedQuery.ownJoins_eq hs.text, hs.joins, List.mem_append] at hown
    rcases hown with hown | hown
    · exact required_of_none (resolveJoins_extra hs.own hextra own hown)
    · obtain ⟨entry, he, join, hfrom⟩ := exists_of_mem_right (resolveMatches_each hs.others) hown
      refine required_of_none (hfrom.extra.trans ?_)
      rw [extra_of_asJoin (hexcept entry (List.mem_of_mem_filter he)) hfrom.stands, Option.map_none]

/-- A query with an EXCEPT has a join with a condition on joined rows. -/
theorem required_of_except {target : Query} {r : ResolvedQuery} {tableAlias : String}
    (hr : outcome (target.resolve catalog false tableAlias) w = (.ok r, v)) (ht : target.text = none)
    {entry : Combine} (he : entry ∈ target.combines) (hk : entry.kind = .except) :
    ∃ own ∈ r.ownJoins, own.required.required ≠ [] := by
  obtain ⟨joins, matched, _, _, _, _, hs⟩ := Query.resolve_steps ht hr
  obtain ⟨own, hown, -, -, extra, hextra, reference, hcondition⟩ :=
    resolveMatches_from hs.others entry he hk
  refine ⟨own, ?_, ?_⟩
  · rw [ResolvedQuery.ownJoins_eq hs.text, hs.joins]
    exact List.mem_append_right _ hown
  · unfold ResolvedJoin.required extraOutline
    rw [Option.mem_def.mp hextra]
    simp [Outline.required, hcondition]

/-- EXCEPT becomes a left join whose rows are to be missing. -/
theorem antiJoin_of_matchFrom {target : Query} {join : Join} {j : ResolvedJoin}
    (h : MatchFrom catalog source ⟨.except, target⟩ join j) (ha : target.hasArms = false)
    (tableAlias : String) : ∃ first rest, AntiJoin catalog source tableAlias target first rest j := by
  obtain ⟨first, rest, hfields, rfl⟩ := asJoin_except_eq h.stands
  obtain ⟨x, y, hr⟩ := h.query
  obtain ⟨harms, hkeeps⟩ := target.resolve_shape hr
  rw [ha] at harms
  have hkind : j.kind = .left := h.compares.kind
  have hi : j.inlined = target.keepsJoins := by
    rw [ResolvedJoin.inlined, harms, hkeeps, Bool.not_false, Bool.true_and]
  have htarget : j.targetAlias = j.innerAlias := by
    rw [ResolvedJoin.targetAlias, harms, if_neg Bool.false_ne_true]
  have hpairs : j.pairTests tableAlias = ((first :: rest).filter (· != "")).map fun f =>
      .pair ⟨tableAlias, catalog.column source f⟩ .equal
        ⟨j.innerAlias, catalog.column target.entity f⟩ := by
    rw [ResolvedJoin.pairTests, h.compares.pairs, h.compares.operator, htarget,
      resolvePairs_matched (by decide), List.map_map]
    rfl
  have hrequired : j.required.required =
      [[.atom (missingMatch catalog target.entity first j)]] := by
    unfold ResolvedJoin.required extraOutline
    rw [h.extra, htarget]
    simp [Outline.required, outline_resolveMissing, missingMatch]
  have hlifted := ResolvedJoin.lifted_eq harms (by rw [hkind]; decide)
  rw [hkeeps] at hlifted
  have hadds : j.adds =
      (if target.keepsJoins then j.query.ownJoins.flatMap fun own => own.required.required
        else (j.query.membership j.innerAlias).map fun test => [.atom test])
        ++ [[.atom (missingMatch catalog target.entity first j)]] := by
    rw [ResolvedJoin.adds, List.filter_append, hlifted, hrequired]
    rfl
  have halone : j.adds = [[.atom (missingMatch catalog target.entity first j)]] ↔
      target.keepsJoins = true ∧ ∀ own ∈ j.query.ownJoins, own.required.required = [] := by
    rw [hadds, List.append_left_eq_self]
    cases hk : target.keepsJoins with
    | true => simp
    | false =>
      obtain ⟨closure, -, hclosure, -⟩ := ResolvedQuery.outline_closure (hkeeps.trans hk) ""
      simp [ResolvedQuery.membership, hclosure, harms]
  refine ⟨first, rest, hfields, ⟨x, y, hr⟩, ?_, ?_, hadds, halone, fun ht hexcept hall => ?_,
    fun hkeeps hextra hexcept => halone.mpr ⟨hkeeps, required_of_plain hr hextra hexcept⟩, ?_⟩
  · have hjoined : j.joined.hasArms = false := (j.query.hasArms_outline j.innerAlias).trans harms
    rw [ResolvedJoin.clause, hpairs, j.tested_joined, hi, hkind, htarget, hjoined,
      h.compares.query.table, if_neg Bool.false_ne_true]
    simp
  · rw [j.liftedJoins_joined, hi]
  · obtain ⟨entry, he, hk⟩ := hexcept
    obtain ⟨own, hown, hne⟩ := required_of_except hr ht he hk
    exact hne ((halone.mp hall).2 own hown)
  · intro closure hclosure ht
    obtain ⟨_, _, _, _, _, _, hs⟩ := Query.resolve_steps ht hr
    obtain ⟨table, hresolved⟩ := resolveClosure_from hs.closure
    rw [Option.mem_def.mp hclosure, Option.map_some] at hresolved
    refine ⟨table, ?_⟩
    rw [ResolvedQuery.membership, hresolved, harms]
    rfl

/-- The tests of the outer condition that use the alias of the joined rows are the one for a missing
match and, if the other query has a closure, the one for membership in it. -/
theorem AntiJoin.restricts {r : ResolvedQuery} {tableAlias first : String} {target : Query}
    {rest : List String} {j : ResolvedJoin}
    (h : AntiJoin catalog source tableAlias target first rest j)
    (hn : (tableAlias :: r.joinAliases).Nodup) (hj : j ∈ r.joins) (test : Test) :
    .atom test ∈ r.outer tableAlias ∧ j.innerAlias ∈ test.aliases ↔
      test = missingMatch catalog target.entity first j ∨
        target.keepsJoins = false ∧ test ∈ j.query.membership j.innerAlias := by
  have hadded : ∀ row ∈ j.adds, .atom test ∈ row → .atom test ∈ r.outer tableAlias :=
    fun row hrow hm => ResolvedQuery.atom_mem_outer.mpr
      (.inr ⟨j, hj, row, List.mem_of_mem_filter hrow, hm⟩)
  rw [h.adds] at hadded
  constructor
  · rintro ⟨hm, ha⟩
    obtain ⟨row, hrow, hm⟩ :=
      ResolvedQuery.added_by_join hn hj (j.query_aliases_subset List.mem_cons_self) hm ha
    have hadds : row ∈ j.adds :=
      List.mem_filter.mpr ⟨hrow, by simpa using List.ne_nil_of_mem hm⟩
    rw [h.adds, List.mem_append, List.mem_singleton] at hadds
    rcases hadds with hadds | rfl
    · split at hadds
      -- A condition on joined rows of the other query uses aliases of its own joins only.
      · obtain ⟨own, hown, hadds⟩ := List.mem_flatMap.mp hadds
        have hused := (ResolvedJoin.adds_spec (List.mem_append_right _ hadds)).2
          (mem_usedAliases.mpr ⟨test, hm, ha⟩)
        have hinner := (ResolvedJoin.nodup_inner
          (ResolvedQuery.nodup_join (List.nodup_cons.mp hn).2 hj)).1
        exact absurd (ResolvedQuery.aliases_subset (j.query.ownJoins_sublist.subset hown) hused)
          hinner
      · next hk =>
        obtain ⟨member, hmember, rfl⟩ := List.mem_map.mp hadds
        obtain rfl := Lexeme.atom.inj (List.mem_singleton.mp hm)
        exact .inr ⟨by simpa using hk, hmember⟩
    · exact .inl (Lexeme.atom.inj (List.mem_singleton.mp hm))
  · rintro (rfl | ⟨hk, hmember⟩)
    · exact ⟨hadded _ (List.mem_append_right _ (List.mem_singleton_self _))
        (List.mem_singleton_self _), List.mem_cons_self⟩
    · refine ⟨hadded [.atom test] (List.mem_append_left _ ?_) (List.mem_singleton_self _),
        ResolvedQuery.alias_mem_of_membership hmember⟩
      rw [hk, if_neg Bool.false_ne_true]
      exact List.mem_map_of_mem hmember

end Translating

/-- What EXCEPT is translated to. The joins of the query are its own and one for each INTERSECT and
EXCEPT in order, and the outer condition is that of the query together with all that these joins
add; a closure of the query takes it for its first rows. EXCEPT of a query without set operations of
the server is a left join, restricted in its ON clause unless the other query has a closure, and adds
the test for a missing match. It adds nothing else exactly when the other query has no closure and
none of its joins has a condition on joined rows, as every EXCEPT has. The test is the only one of
the joined rows exactly when the other query has no closure. -/
theorem Query.translateUnder_antiJoins {catalog : Catalog} {useSort : Bool} {q : Query}
    {tableAlias : String} {w v : Workspace} {t : Translation} (ht : q.text = none)
    (h : outcome (q.translateUnder catalog useSort tableAlias) w = (.ok t, v)) :
    ∃ r own matched, outcome (q.resolve catalog useSort tableAlias) w = (.ok r, v) ∧
      t = (r.outline tableAlias).toTranslation ∧ r.joins = own ++ matched ∧
      t.joins = joinTexts (r.joins.flatMap fun j =>
        j.clause tableAlias j.joined :: j.joined.liftedJoins) ∧
      (q.recurve = none → t.mergeJoinExtras.condition = conditionText (r.outer tableAlias)) ∧
      (∀ closure ∈ q.recurve, ∃ (earlier : List ClosureRows) (d : ClosureRows),
        t.definitions = (earlier ++ [d]).map ClosureRows.sql ∧
          d.first.condition = r.outer tableAlias) ∧
      Lexeme.Conjoins (r.own tableAlias).hasOr (r.own tableAlias).row r.added ∧
      List.Forall₂
        (fun entry j => entry.kind = .except → entry.query.hasArms = false → ∃ first rest,
          Translating.AntiJoin catalog q.entity tableAlias entry.query first rest j ∧
          ((∀ n, w.names.aliases ≤ n → tableAlias ≠ NameSupply.subqueryAlias n) → ∀ test,
            .atom test ∈ r.outer tableAlias ∧ j.innerAlias ∈ test.aliases ↔
              test = Translating.missingMatch catalog entry.query.entity first j ∨
                entry.query.keepsJoins = false ∧ test ∈ j.query.membership j.innerAlias))
        (q.combines.filter fun entry => !entry.kind.isNative) matched := by
  obtain ⟨r, hr, rfl⟩ := q.translateUnder_resolve h
  obtain ⟨own, matched, _, _, _, _, hs⟩ := Query.resolve_steps ht hr
  obtain ⟨table, hclosure⟩ := Translating.resolveClosure_from hs.closure
  obtain ⟨hstatement, hfirst⟩ := r.outer_written hs.text tableAlias
  refine ⟨r, own, matched, hr, rfl, hs.joins, ?_, fun hrec => ?_, fun closure hrec => ?_,
    r.conjoins_outer tableAlias, ?_⟩
  · rw [← ResolvedQuery.ownJoins_eq hs.text, ← r.joins_outline]
    rfl
  · rw [hrec, Option.map_none] at hclosure
    rw [← hstatement hclosure, ← Outline.toTranslation_mergeJoinExtras]
    rfl
  · rw [Option.mem_def.mp hrec, Option.map_some] at hclosure
    obtain ⟨earlier, d, hdefinitions, hcondition⟩ := hfirst _ hclosure
    exact ⟨earlier, d, congrArg (List.map ClosureRows.sql) hdefinitions, hcondition⟩
  · have hmatched : ∀ j ∈ matched, j ∈ r.joins :=
      fun j hj => hs.joins ▸ List.mem_append_right _ hj
    have heach : List.Forall₂ (fun j entry => j ∈ r.joins ∧
        ∃ join, Translating.MatchFrom catalog q.entity entry join j) matched
        (q.combines.filter fun entry => !entry.kind.isNative) :=
      (List.forall₂_and_left _ _).mpr ⟨hmatched, (Translating.resolveMatches_each hs.others).flip⟩
    refine List.Forall₂.flip (heach.imp fun j entry ⟨hj, join, hfrom⟩ hk ha => ?_)
    obtain ⟨kind, target⟩ := entry
    obtain rfl : kind = .except := hk
    obtain ⟨first, rest, hanti⟩ := Translating.antiJoin_of_matchFrom hfrom ha tableAlias
    exact ⟨first, rest, hanti, fun hfresh =>
      hanti.restricts (ResolvedQuery.nodup_aliases (q.resolve_issued hr) hfresh) hj⟩

/-- EXCEPT of a query with a condition and an INTERSECT is restricted in its ON clause and adds
nothing but the test for a missing match. -/
theorem Query.translateUnder_antiJoins_intersect :
    let target := ((Query.ofEntity "Banned").equal "level" (.int 3)).select ["id"]
      |>.combine .intersect ((Query.ofEntity "Suspended").select ["id"])
    let q := ((Query.ofEntity "User").equal "active" (.bool true)).combine .except target
    q.text = none ∧
    ∃ t v, outcome (q.translateUnder {} true NameSupply.mainAlias) {} = (.ok t, v) ∧
      t.joins = ["LEFT JOIN `Banned` AS S0 ON TB.`id` = S0.`id` AND S0.`level` = ?level2",
        "INNER JOIN `Suspended` AS S1 ON S0.`id` = S1.`id`"] ∧
      t.mergeJoinExtras.condition = "TB.`active` = ?active1 AND S0.`id` IS NULL" ∧
      target.hasArms = false ∧ ∃ (outer : List (Lexeme Test)) (j : ResolvedJoin),
        t.mergeJoinExtras.condition = conditionText outer ∧ j.innerAlias = "S0" ∧
        Translating.AntiJoin {} "User" NameSupply.mainAlias target "id" [] j ∧
        j.adds = [[.atom (.missing "S0" ⟨"id", false⟩ .isNull)]] ∧
        ∀ test, .atom test ∈ outer ∧ "S0" ∈ test.aliases ↔
          test = .missing "S0" ⟨"id", false⟩ .isNull := by
  intro target q
  have hrun : ∃ t v, outcome (q.translateUnder {} true NameSupply.mainAlias) {} = (.ok t, v) ∧
      t.joins = ["LEFT JOIN `Banned` AS S0 ON TB.`id` = S0.`id` AND S0.`level` = ?level2",
        "INNER JOIN `Suspended` AS S1 ON S0.`id` = S1.`id`"] ∧
      t.mergeJoinExtras.condition = "TB.`active` = ?active1 AND S0.`id` IS NULL" :=
    ⟨_, _, rfl, by decide +kernel, by decide +kernel⟩
  obtain ⟨t, v, hrun, htexts, hcondition⟩ := hrun
  obtain ⟨r, own, matched, hr, -, hjoins, -, houter, -, -, hentries⟩ :=
    Query.translateUnder_antiJoins rfl hrun
  have hnames : r.joins.map ResolvedJoin.innerAlias = ["S0"] := by
    obtain ⟨hf, -⟩ := Prod.mk.inj hr
    obtain rfl := Except.ok.inj hf
    decide +kernel
  rw [show (q.combines.filter fun entry => !entry.kind.isNative) = [⟨.except, target⟩] from rfl]
    at hentries
  cases hentries with | @cons _ j _ rest hfirst hrest =>
  cases hrest
  obtain ⟨first, others, hanti, hrestricts⟩ := hfirst rfl rfl
  obtain ⟨rfl, rfl⟩ := List.cons.inj (Except.ok.inj hanti.matched)
  have halias : j.innerAlias = "S0" := by
    rw [hjoins, List.map_append] at hnames
    have hlast := congrArg List.getLast? hnames
    simpa using hlast
  refine ⟨rfl, t, v, hrun, htexts, hcondition, rfl, r.outer NameSupply.mainAlias, j, houter rfl,
    halias, hanti, ?_, fun test => ?_⟩
  · rw [← halias]
    refine hanti.plain rfl (fun join hjoin => absurd hjoin List.not_mem_nil) fun entry hentry => ?_
    rw [List.mem_singleton.mp hentry]
    decide
  · rw [← halias]
    refine (hrestricts (fun n _ => NameSupply.mainAlias_ne_subqueryAlias n) test).trans ?_
    exact or_iff_left fun h => Bool.noConfusion (h.1 : true = false)

/-- EXCEPT of a query with a closure asks in the outer condition for membership of the joined rows
in the closure and for a missing match at once, so no row is left; its ON clause does not restrict
them. EXCEPT of a query that has an EXCEPT itself puts both tests for a missing match there, so the
rows of the inner one are not taken out of those of the outer one. -/
theorem Query.translateUnder_except_not_alone :
    let banned := (Query.ofEntity "Banned").select ["id"]
    let recursive := (Query.ofEntity "User").combine .except
      (banned.closedUnder "id" "parent" .down)
    let nested := (Query.ofEntity "User").combine .except
      (banned.combine .except ((Query.ofEntity "Pardoned").select ["id"]))
    let missing : Test := .missing "S0" ⟨"id", false⟩ .isNull
    let member : Test := .member ⟨"S0", "id"⟩ (NameSupply.closureTable 0)
    let pardoned : Test := .missing "S1" ⟨"id", false⟩ .isNull
    (∃ t v, outcome (recursive.translateUnder {} true "TB") {} = (.ok t, v) ∧
      t.joins = ["LEFT JOIN `Banned` AS S0 ON TB.`id` = S0.`id`"] ∧
      t.mergeJoinExtras.condition =
        "S0.`id` IN (SELECT RTT0.`id` FROM `RecurveTable0` AS RTT0) AND S0.`id` IS NULL" ∧
      t.mergeJoinExtras.condition =
        conditionText [.atom member, .connector .and, .atom missing] ∧
      ∀ holds : Test → Bool, holds member = false ∨ holds missing = false →
        ¬Lexeme.Admits holds [.atom member, .connector .and, .atom missing]) ∧
    ∃ t v, outcome (nested.translateUnder {} true "TB") {} = (.ok t, v) ∧
      t.joins = ["LEFT JOIN `Banned` AS S0 ON TB.`id` = S0.`id`",
        "LEFT JOIN `Pardoned` AS S1 ON S0.`id` = S1.`id`"] ∧
      t.mergeJoinExtras.condition = "S1.`id` IS NULL AND S0.`id` IS NULL" ∧
      t.mergeJoinExtras.condition =
        conditionText [.atom pardoned, .connector .and, .atom missing] := by
  intro banned recursive nested missing member pardoned
  refine ⟨⟨_, _, rfl, by decide +kernel, by decide +kernel, by decide +kernel, ?_⟩,
    ⟨_, _, rfl, by decide +kernel, by decide +kernel, by decide +kernel⟩⟩
  intro holds hfalse hadmits
  obtain ⟨hmember, hmissing⟩ :=
    (Lexeme.admits_afterAtoms (.atom missing) [member] holds).mp hadmits
  rw [Lexeme.IsTerm.admits_atom] at hmissing
  rcases hfalse with hfalse | hfalse
  · exact Bool.noConfusion (hfalse.symm.trans (hmember member List.mem_cons_self))
  · exact Bool.noConfusion (hfalse.symm.trans hmissing)

end AbstractSql
