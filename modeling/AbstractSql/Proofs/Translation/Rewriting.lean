import AbstractSql.Proofs.Failures
import AbstractSql.Proofs.Translation.Matched

/-!
# Rewriting set operations

Every set operation that the server lacks becomes one join behind the joins of the query, in the
order of the operations, and the operations that are left keep theirs. This fails only when an
operation has nothing to match. A query is translated as if it had been rewritten first, so no
operator without a native form is ever written.
-/

namespace AbstractSql

open Translating

variable {catalog : Catalog}

namespace Translating

/-- A lifted result is returned. -/
theorem lift_ok {α : Type} (a : α) : (lift (.ok a) : Translating α) = pure a := rfl

/-- Translating a test for a missing value only returns its condition. -/
theorem translateUnder_isNull (entity property tableAlias : String) (useSort : Bool) :
    ((Query.ofEntity entity).isNull property).translateUnder catalog useSort tableAlias =
      pure (missingTest catalog entity property tableAlias) := by
  have hsorts : requestedSorts catalog useSort entity tableAlias [] = .ok [] := by
    cases useSort <;> rfl
  have hrewrite : ∀ conditions, catalog.withoutMatching { entity, conditions } =
      .ok { entity, conditions } := fun _ => rfl
  have hreference : catalog.reference entity tableAlias property none =
      .ok (Identifier.qualify tableAlias (catalog.column entity property)) := rfl
  simp only [Query.isNull, Query.filter, Query.compare, Query.addClause, Query.ofEntity,
    List.nil_append, Query.translateUnder, hrewrite, translateClauses, Condition.translate,
    hreference, lift_ok, pure_bind, hsorts, translateCombines, translateJoins, translateMatches]
  simp [ConditionList.push, ConditionList.toTranslation, missingTest, Comparison.needsParameter,
    Comparison.sql]

/-- Joins are translated one list after the other. -/
theorem translateJoins_append (source tableAlias : String) (first second : List Join)
    (out : Translation) :
    translateJoins catalog source tableAlias (first ++ second) out =
      translateJoins catalog source tableAlias first out >>=
        translateJoins catalog source tableAlias second := by
  induction first generalizing out with
  | nil => rw [List.nil_append, translateJoins, pure_bind]
  | cons join rest ih =>
    obtain ⟨kind, operator, fields, query, extra⟩ := join
    cases extra with
    | none =>
      rw [List.cons_append, translateJoins, translateJoins, bind_assoc]
      exact bind_congr fun next => ih next
    | some extra =>
      rw [List.cons_append, translateJoins, translateJoins, bind_assoc]
      exact bind_congr fun next => ih next

/-- The set operations that the server lacks are passed over. -/
theorem translateCombines_filter (source : Query) (combines : List Combine) (out : Translation) :
    translateCombines catalog source (combines.filter fun entry => entry.kind.isNative) out =
      translateCombines catalog source combines out := by
  induction combines generalizing out with
  | nil => rfl
  | cons entry rest ih =>
    obtain ⟨kind, query⟩ := entry
    cases hk : kind.isNative with
    | true =>
      rw [List.filter_cons_of_pos (by simpa using hk), translateCombines, translateCombines]
      exact bind_congr fun next => ih next
    | false =>
      rw [List.filter_cons_of_neg (by simpa using hk), translateCombines, addNative,
        if_neg (by simp [hk]), pure_bind, ih]

/-- Of another query with the same entity and selection the set operations are translated alike. -/
theorem translateCombines_congr {source source' : Query} (he : source'.entity = source.entity)
    (hf : source'.fields = source.fields) (combines : List Combine) (out : Translation) :
    translateCombines catalog source' combines out =
      translateCombines catalog source combines out := by
  have hselect : combineSelect catalog source' = combineSelect catalog source := by
    funext target tableAlias translated
    rw [combineSelect, combineSelect, he, hf]
  induction combines generalizing out with
  | nil => rw [translateCombines, translateCombines]
  | cons entry rest ih =>
    obtain ⟨kind, query⟩ := entry
    rw [translateCombines, translateCombines]
    have hadd : addNative catalog source' = addNative catalog source := by
      funext entry translate out
      simp only [addNative, addCombine, hselect]
    rw [hadd]
    exact bind_congr fun next => ih next

/-- Of the set operations that the server has none stands for a join. -/
theorem translateMatches_native (source tableAlias : String) (combines : List Combine)
    (out : Translation) :
    translateMatches catalog source tableAlias
      (combines.filter fun entry => entry.kind.isNative) out = pure out := by
  induction combines generalizing out with
  | nil => rw [List.filter_nil, translateMatches]
  | cons entry rest ih =>
    obtain ⟨kind, query⟩ := entry
    cases hk : kind.isNative with
    | true =>
      have hjoin : Combine.asJoin ⟨kind, query⟩ catalog = .ok none := if_pos hk
      rw [List.filter_cons_of_pos (by simpa using hk), translateMatches, addMatch, hjoin]
      exact ih out
    | false =>
      rw [List.filter_cons_of_neg (by simpa using hk)]
      exact ih out

/-- A set operation adds what the join adds that stands for it. -/
theorem addMatch_becomes {source tableAlias : String} {entry : Combine} {join : Join}
    {rest : List Join} {out : Translation} (hb : entry.Becomes catalog join)
    (h : entry.asJoin catalog = .ok (some join)) :
    translateJoins catalog source tableAlias (join :: rest) out =
      addMatch catalog source tableAlias entry (entry.query.translateUnder catalog false) out >>=
        translateJoins catalog source tableAlias rest := by
  rw [addMatch, h, lift_ok, pure_bind]
  cases hb with
  | intersect entity matched =>
    rw [translateJoins]
    rfl
  | @except query first _ entity matched =>
    have htest : ((Query.ofEntity query.entity).isNull first).translateUnder catalog false =
        fun tableAlias => pure (missingTest catalog query.entity first tableAlias) := by
      funext tableAlias
      exact translateUnder_isNull query.entity first tableAlias false
    rw [translateJoins, htest]
    rfl

/-- Translating set operations as joins is translating the joins that stand for them. -/
theorem translateMatches_eq (source tableAlias : String) {combines : List Combine}
    {joins : List Join} (h : catalog.matchingJoins combines = .ok joins) (out : Translation) :
    translateMatches catalog source tableAlias combines out =
      translateJoins catalog source tableAlias joins out := by
  induction combines generalizing joins out with
  | nil =>
    obtain rfl := Except.ok.inj h
    rw [translateMatches, translateJoins]
  | cons entry rest ih =>
    rw [Catalog.matchingJoins] at h
    cases hentry : entry.asJoin catalog with
    | error failure =>
      rw [hentry] at h
      cases h
    | ok join? =>
      rw [hentry] at h
      cases hrest : catalog.matchingJoins rest with
      | error failure =>
        rw [hrest] at h
        cases h
      | ok others =>
        rw [hrest] at h
        obtain rfl := Except.ok.inj h
        obtain ⟨kind, query⟩ := entry
        rw [translateMatches]
        rcases Combine.asJoin_eq_ok hentry with ⟨hk, rfl⟩ | ⟨join, rfl, hb⟩
        · rw [addMatch, hentry]
          exact ih hrest out
        · rw [Option.toList_some, List.singleton_append, addMatch_becomes hb hentry]
          exact bind_congr fun next => ih hrest next

end Translating

/-- Of the set operations that the server has none becomes a join. -/
theorem Catalog.matchingJoins_native (combines : List Combine) :
    catalog.matchingJoins (combines.filter fun entry => entry.kind.isNative) = .ok [] := by
  induction combines with
  | nil => rfl
  | cons entry rest ih =>
    cases hk : entry.kind.isNative with
    | true =>
      have hjoin : entry.asJoin catalog = .ok none := if_pos hk
      rw [List.filter_cons_of_pos (by simpa using hk), matchingJoins, hjoin, ih]
      rfl
    | false =>
      rw [List.filter_cons_of_neg (by simpa using hk)]
      exact ih

/-- The query in which the given joins stand for the set operations that the server lacks. -/
def Query.withMatches (q : Query) (matched : List Join) : Query :=
  { q with
    joins := q.joins ++ matched
    combines := q.combines.filter fun entry => entry.kind.isNative }

/-- A query is rewritten when all its set operations find a join. -/
theorem Catalog.withoutMatching_eq {q : Query} {matched : List Join}
    (h : catalog.matchingJoins q.combines = .ok matched) :
    catalog.withoutMatching q = .ok (q.withMatches matched) := by
  rw [withoutMatching, h]
  rfl

/-- A rewritten query is rewritten to itself. -/
theorem Catalog.withoutMatching_withMatches (q : Query) (matched : List Join) :
    catalog.withoutMatching (q.withMatches matched) = .ok (q.withMatches matched) := by
  have hnone : catalog.matchingJoins (q.withMatches matched).combines = .ok [] :=
    matchingJoins_native q.combines
  rw [withoutMatching_eq hnone, Query.withMatches, Query.withMatches, List.append_nil,
    List.filter_filter]
  simp only [Bool.and_self]

/-- The set operations that are left are translated as before. -/
theorem Translating.translateCombines_withMatches (q : Query) (matched : List Join)
    (out : Translation) :
    translateCombines catalog (q.withMatches matched) (q.withMatches matched).combines out =
      translateCombines catalog q q.combines out := by
  have hentity : (q.withMatches matched).entity = q.entity := rfl
  have hfields : (q.withMatches matched).fields = q.fields := rfl
  calc translateCombines catalog (q.withMatches matched) (q.withMatches matched).combines out
      = translateCombines catalog (q.withMatches matched) q.combines out :=
        translateCombines_filter (q.withMatches matched) q.combines out
    _ = translateCombines catalog q q.combines out :=
        translateCombines_congr hentity hfields q.combines out

/-- A query is translated as the query that it is rewritten to. -/
theorem Query.translateUnder_withMatches {q : Query} {matched : List Join}
    (h : catalog.matchingJoins q.combines = .ok matched) (useSort : Bool) (tableAlias : String) :
    q.translateUnder catalog useSort tableAlias =
      (q.withMatches matched).translateUnder catalog useSort tableAlias := by
  obtain ⟨entity, text, conditions, sorts, joins, combines, recurve, paging, size, fields,
    isolation⟩ := q
  cases text with
  | some raw => simp only [Query.translateUnder, withMatches]
  | none =>
    let own : Query :=
      { entity, conditions, sorts, joins, combines, recurve, paging, size, fields, isolation }
    have hown := Catalog.withoutMatching_eq h
    have hagain : catalog.withoutMatching (own.withMatches matched) =
        .ok (own.withMatches matched) := Catalog.withoutMatching_withMatches own matched
    have hcombines : ∀ out, translateCombines catalog (own.withMatches matched)
        (own.withMatches matched).combines out = translateCombines catalog own own.combines out :=
      translateCombines_withMatches own matched
    simp only [own, withMatches] at hown hagain hcombines ⊢
    rw [Query.translateUnder, Query.translateUnder, hown, hagain, lift_ok, pure_bind, pure_bind]
    apply bind_congr
    intro list
    apply bind_congr
    intro sorted
    rw [hcombines]
    apply bind_congr
    intro combined
    rw [translateJoins_append, bind_assoc]
    apply bind_congr
    intro joined
    rw [translateMatches_eq entity tableAlias h]
    apply bind_congr
    intro all
    rw [translateMatches_native, pure_bind]

/-- A query whose set operations find no joins is not translated, and nothing happens. -/
theorem Query.translateUnder_unmatched {q : Query} (hq : q.text = none) {failure : Failure}
    (h : catalog.withoutMatching q = .error failure) (useSort : Bool) (tableAlias : String) :
    q.translateUnder catalog useSort tableAlias = throw failure := by
  obtain ⟨entity, text, conditions, sorts, joins, combines, recurve, paging, size, fields,
    isolation⟩ := q
  obtain rfl : text = none := hq
  rw [Query.translateUnder, h]
  rfl

/-- What becomes of a query whose set operations are rewritten. -/
inductive Catalog.Rewrites (catalog : Catalog) (q : Query) : Except Failure Query → Prop where
  /-- A set operation has no entity or no property to match, and the query is not translated. -/
  | failed {failure : Failure} (cause : failure.OfMatching)
      (stops : q.text = none → ∀ useSort tableAlias,
        q.translateUnder catalog useSort tableAlias = throw failure) :
      Rewrites catalog q (.error failure)
  /-- One join stands for each set operation that the server lacks. These joins follow those of the
  query in the order of the operations, the other operations keep their order, and the query is
  translated as the rewritten one. -/
  | rewritten {matched : List Join}
      (each : List.Forall₂ (Combine.Becomes catalog)
        (q.combines.filter fun entry => !entry.kind.isNative) matched)
      (same : ∀ useSort tableAlias, q.translateUnder catalog useSort tableAlias =
        (q.withMatches matched).translateUnder catalog useSort tableAlias) :
      Rewrites catalog q (.ok (q.withMatches matched))

/-- Every query is rewritten, unless an operation has nothing to match. -/
theorem Catalog.rewrites_withoutMatching (catalog : Catalog) (q : Query) :
    catalog.Rewrites q (catalog.withoutMatching q) := by
  cases h : catalog.withoutMatching q with
  | error failure =>
    exact .failed (withoutMatching_error h) fun hq => Query.translateUnder_unmatched hq h
  | ok rewritten =>
    cases hmatched : catalog.matchingJoins q.combines with
    | error failure =>
      rw [withoutMatching, hmatched] at h
      cases h
    | ok matched =>
      rw [withoutMatching_eq hmatched] at h
      obtain rfl := Except.ok.inj h
      exact .rewritten (matchingJoins_becomes hmatched) (Query.translateUnder_withMatches hmatched)

/-- Every query can be rewritten unless an operation has nothing to match, and no translation, no
read and no command ever asks for a set operator that the server lacks. -/
theorem Catalog.rewriting_total (catalog : Catalog) :
    (∀ q, catalog.Rewrites q (catalog.withoutMatching q)) ∧
    ∀ operator : String,
      (∀ q useSort tableAlias w, (outcome (Query.translateUnder catalog useSort q tableAlias) w).1 ≠
        .error (.unsupportedCombine operator)) ∧
      (∀ q names, (Query.translate q catalog names).1 ≠ .error (.unsupportedCombine operator)) ∧
      (∀ mode q names, (outcome (Statement.read catalog mode q) names).1 ≠
        .error (.unsupportedCombine operator)) ∧
      (∀ c names, (outcome (Command.toUnit c catalog) names).1 ≠
        .error (.unsupportedCombine operator)) ∧
      ∀ policy commands, Command.planAll catalog policy commands ≠
        .error (.unsupportedCombine operator) := by
  refine ⟨catalog.rewrites_withoutMatching, fun operator => ⟨?_, ?_, ?_, ?_, ?_⟩⟩
  · intro q useSort tableAlias w
    exact (q.failsOnly_translateUnder useSort tableAlias).ne_error
      (Failure.not_ofTranslation operator) w
  · intro q names h
    exact Failure.not_ofTranslation operator (Query.translate_error (Prod.ext h rfl))
  · intro mode q names
    exact (Statement.failsOnly_read mode q).ne_error (Failure.not_ofReading operator) names
  · intro c names
    exact c.failsOnly_toUnit.ne_error (Failure.not_ofCommand operator) names
  · intro policy commands h
    exact Failure.not_ofCommand operator (Command.planAll_error h)

/-- Union, difference and intersection of one query: the last two become joins in their order. -/
example :
    let banned := (Query.ofEntity "Banned").select ["id"]
    let guests := (Query.ofEntity "Guest").select ["id"]
    let members := (Query.ofEntity "Member").select ["id", "name"]
    let q : Query :=
      { entity := "User", combines := [⟨.except, banned⟩, ⟨.union, guests⟩, ⟨.intersect, members⟩] }
    ({} : Catalog).withoutMatching q = .ok
      { q with
        joins :=
          [{ kind := .left, fields := [("id", "id")], query := banned
             extra := some ((Query.ofEntity "Banned").isNull "id") },
            { kind := .inner, fields := [("id", "id"), ("name", "name")], query := members }]
        combines := [⟨.union, guests⟩] } := rfl

end AbstractSql
