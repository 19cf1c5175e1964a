import AbstractSql.Proofs.Command.Compiled

/-!
# What can go wrong

A translation fails for one of a few causes: a conversion that no one knows, a compared query that
selects nothing, a query without an entity, or an entity without properties to match. Reading a
query and compiling a command add the causes of their own. A set operator without a native form is
not among these, since only operators that the server has are asked for their text.
-/

namespace AbstractSql

section Steps

variable {σ α β : Type} {P Q : Failure → Prop}

/-- A step that fails does so in one of the given ways. -/
def FailsOnly (P : Failure → Prop) (step : ExceptT Failure (StateM σ) α) : Prop :=
  ∀ s e t, outcome step s = (.error e, t) → P e

namespace FailsOnly

/-- A step that only returns does not fail. -/
theorem pure (a : α) : FailsOnly P (Pure.pure a : ExceptT Failure (StateM σ) α) := by
  intro s e t h
  exact absurd (Prod.mk.inj h).1 (by simp)

/-- A step that only fails does so in its own way. -/
theorem throw {e : Failure} (he : P e) :
    FailsOnly P (MonadExcept.throw e : ExceptT Failure (StateM σ) α) := by
  intro s e' t h
  have hsame : e = e' := Except.error.inj (Prod.mk.inj h).1
  exact hsame ▸ he

/-- A composed step fails where one of its parts does. -/
theorem bind {first : ExceptT Failure (StateM σ) α} {next : α → ExceptT Failure (StateM σ) β}
    (hfirst : FailsOnly P first) (hnext : ∀ a, FailsOnly P (next a)) :
    FailsOnly P (first >>= next) := by
  intro s e t h
  rw [outcome_bind] at h
  rcases hf : outcome first s with ⟨e' | a, r⟩
  · rw [hf] at h
    have hsame : e' = e := Except.error.inj (Prod.mk.inj h).1
    exact hsame ▸ hfirst s e' r hf
  · rw [hf] at h
    exact hnext a r e t h

/-- A step that fails in fewer ways. -/
theorem mono {step : ExceptT Failure (StateM σ) α} (h : FailsOnly P step)
    (himp : ∀ e, P e → Q e) : FailsOnly Q step :=
  fun s e t he => himp e (h s e t he)

/-- A failure that is none of the given ones does not occur. -/
theorem ne_error {step : ExceptT Failure (StateM σ) α} (h : FailsOnly P step) {e : Failure}
    (he : ¬P e) (s : σ) : (outcome step s).1 ≠ .error e :=
  fun hs => he (h s e _ (Prod.ext hs rfl))

end FailsOnly

end Steps

namespace Failure

/-- What can go wrong when the set operations that the server lacks are turned into joins. -/
inductive OfMatching : Failure → Prop where
  /-- The other query has no entity. -/
  | noEntity : OfMatching (.missingEntity .combine)
  /-- Its entity has no property to match. -/
  | noField (entity : String) : OfMatching (.configuration (.noMatchField entity))

/-- What can go wrong when a query is translated. -/
inductive OfTranslation : Failure → Prop where
  /-- Set operations cannot be turned into joins. -/
  | matching {failure : Failure} (h : failure.OfMatching) : OfTranslation failure
  /-- A joined or combined query has no entity. -/
  | noEntity (role : EntityRole) : OfTranslation (.missingEntity role)
  /-- No one knows a conversion. -/
  | conversion (name : String) : OfTranslation (.unknownConversion name)
  /-- A compared query selects nothing. -/
  | selection (entity : String) : OfTranslation (.subqueryWithoutFields entity)

/-- What can go wrong when a query is read. -/
inductive OfReading : Failure → Prop where
  /-- The query cannot be translated. -/
  | translation {failure : Failure} (h : failure.OfTranslation) : OfReading failure
  /-- No field stands for the rows. -/
  | noProbe (entity : String) : OfReading (.configuration (.noProbeField entity))
  /-- There is no field to aggregate. -/
  | noField (function : Aggregate) : OfReading (.missingAggregateField function)

/-- What can go wrong when a command is compiled. -/
inductive OfCommand : Failure → Prop where
  /-- The query for its rows cannot be translated. -/
  | translation {failure : Failure} (h : failure.OfTranslation) : OfCommand failure
  /-- There is nothing to insert. -/
  | noField (entity : String) : OfCommand (.configuration (.noEditableField entity))
  /-- There is nothing to set. -/
  | nothingSet (entity : String) : OfCommand (.missingUpdateFields entity)

/-- A translation finds every operator it asks for. -/
theorem not_ofTranslation (operator : String) :
    ¬(unsupportedCombine operator).OfTranslation := by
  rintro (⟨⟨⟩⟩)

/-- A read finds every operator it asks for. -/
theorem not_ofReading (operator : String) : ¬(unsupportedCombine operator).OfReading := by
  rintro (⟨⟨⟨⟩⟩⟩)

/-- A command finds every operator it asks for. -/
theorem not_ofCommand (operator : String) : ¬(unsupportedCombine operator).OfCommand := by
  rintro (⟨⟨⟨⟩⟩⟩)

end Failure

/-- A set operation that the server lacks is matched only within an entity that has properties. -/
theorem Catalog.matchedFields_error {catalog : Catalog} {target : Query} {e : Failure}
    (h : catalog.matchedFields target = .error e) :
    e = .configuration (.noMatchField target.entity) := by
  unfold matchedFields at h
  split at h
  · cases h
  · split at h
    · cases h
    · split at h
      · cases h
      · exact (Except.error.inj h).symm

/-- Turning a set operation into a join fails without an entity or without properties. -/
theorem Combine.asJoin_error {catalog : Catalog} {entry : Combine} {e : Failure}
    (h : entry.asJoin catalog = .error e) : e.OfMatching := by
  unfold asJoin at h
  split at h
  · cases h
  · split at h
    · cases h
      exact .noEntity
    · cases hf : catalog.matchedFields entry.query with
      | error failure =>
        rw [hf] at h
        cases h
        rw [Catalog.matchedFields_error hf]
        exact .noField entry.query.entity
      | ok fields =>
        rw [hf] at h
        cases h

/-- Turning set operations into joins fails where one of them does. -/
theorem Catalog.matchingJoins_error {catalog : Catalog} {combines : List Combine} {e : Failure}
    (h : catalog.matchingJoins combines = .error e) : e.OfMatching := by
  induction combines with
  | nil => cases h
  | cons entry rest ih =>
    rw [matchingJoins] at h
    cases hentry : entry.asJoin catalog with
    | error failure =>
      rw [hentry] at h
      cases h
      exact Combine.asJoin_error hentry
    | ok join =>
      rw [hentry] at h
      cases hrest : catalog.matchingJoins rest with
      | error failure =>
        rw [hrest] at h
        cases h
        exact ih hrest
      | ok joins =>
        rw [hrest] at h
        cases h

/-- Leaving only the operations that the server has fails for the same causes. -/
theorem Catalog.withoutMatching_error {catalog : Catalog} {q : Query} {e : Failure}
    (h : catalog.withoutMatching q = .error e) : e.OfMatching := by
  unfold withoutMatching at h
  cases hjoins : catalog.matchingJoins q.combines with
  | error failure =>
    rw [hjoins] at h
    cases h
    exact matchingJoins_error hjoins
  | ok joins =>
    rw [hjoins] at h
    cases h

/-- A reference fails for an unknown conversion. -/
theorem Catalog.reference_error {catalog : Catalog} {entity tableAlias property : String}
    {conversion : Option Conversion} {e : Failure}
    (h : catalog.reference entity tableAlias property conversion = .error e) :
    e.OfTranslation := by
  unfold reference at h
  split at h
  · unfold Conversion.render at h
    split at h
    · cases h
    · cases h
      exact .conversion _
  · cases h

namespace Translating

variable {P : Failure → Prop} {catalog : Catalog}

/-- A lifted result fails in its own way. -/
theorem failsOnly_lift {α : Type} {result : Except Failure α} (h : ∀ e, result = .error e → P e) :
    FailsOnly P (lift result) := by
  cases result with
  | ok a => exact .pure a
  | error e => exact .throw (h e rfl)

/-- A check fails in its own way. -/
theorem failsOnly_ensure {holds : Bool} {failure : Failure} (h : P failure) :
    FailsOnly P (ensure holds failure) := by
  refine failsOnly_lift fun e he => ?_
  cases holds with
  | true => cases he
  | false => exact Except.error.inj he ▸ h

/-- Issuing an alias does not fail. -/
theorem failsOnly_nextAlias : FailsOnly P nextAlias :=
  fun _ _ _ h => absurd (Prod.mk.inj h).1 (by simp)

/-- Issuing a closure table does not fail. -/
theorem failsOnly_nextClosure : FailsOnly P nextClosure :=
  fun _ _ _ h => absurd (Prod.mk.inj h).1 (by simp)

/-- Binding a value does not fail. -/
theorem failsOnly_bindFresh (base : String) (value : Value) : FailsOnly P (bindFresh base value) :=
  fun _ _ _ h => absurd (Prod.mk.inj h).1 (by simp)

/-- Binding the parameters of a statement text does not fail. -/
theorem failsOnly_bindText (parameters : ParameterSet) : FailsOnly P (bindText parameters) :=
  fun _ _ _ h => absurd (Prod.mk.inj h).1 (by simp)

/-- Sort entries fail where a reference does. -/
theorem sortEntries_error {entity tableAlias : String} {sorts : List SortKey} {e : Failure}
    (h : sortEntries catalog entity tableAlias sorts = .error e) : e.OfTranslation := by
  induction sorts with
  | nil => cases h
  | cons key rest ih =>
    rw [sortEntries] at h
    cases hkey : catalog.reference entity tableAlias key.field key.conversion with
    | error failure =>
      rw [hkey] at h
      cases h
      exact Catalog.reference_error hkey
    | ok field =>
      rw [hkey] at h
      cases hrest : sortEntries catalog entity tableAlias rest with
      | error failure =>
        rw [hrest] at h
        cases h
        exact ih hrest
      | ok entries =>
        rw [hrest] at h
        cases h

/-- Sort entries that are not asked for do not fail. -/
theorem requestedSorts_error {useSort : Bool} {entity tableAlias : String} {sorts : List SortKey}
    {e : Failure} (h : requestedSorts catalog useSort entity tableAlias sorts = .error e) :
    e.OfTranslation := by
  unfold requestedSorts at h
  split at h
  · exact sortEntries_error h
  · cases h

/-- A comparison with another query fails where that query does, or when it selects nothing. -/
theorem failsOnly_queryComparison {field : String} {operator : Comparison} {query : Query}
    {translate : Bool → String → Translating Translation}
    (h : ∀ useSort tableAlias, FailsOnly Failure.OfTranslation (translate useSort tableAlias)) :
    FailsOnly Failure.OfTranslation
      (queryComparison catalog field operator query translate) := by
  unfold queryComparison
  split
  · exact .bind (h false "") fun _ => .pure _
  · split
    · exact .throw (.selection query.entity)
    · exact .bind failsOnly_nextAlias fun tableAlias => .bind (h _ tableAlias) fun _ => .pure _

/-- A criterion fails where its reference or its comparison does. -/
theorem failsOnly_criterion {entity tableAlias field : String} {conversion : Option Conversion}
    {operator : Comparison} {compare : String → Translating ConditionFragment}
    (h : ∀ reference, FailsOnly Failure.OfTranslation (compare reference)) :
    FailsOnly Failure.OfTranslation (do
      let reference ← lift (catalog.reference entity tableAlias field conversion)
      if operator.needsParameter then compare reference
      else return { text := reference ++ " " ++ operator.sql }) := by
  refine .bind (failsOnly_lift fun e he => Catalog.reference_error he) fun reference => ?_
  split
  · exact h reference
  · exact .pure _

/-- Adding a set operation fails where the other query does, or when that has no entity. Only an
operator that the server has is asked for its text. -/
theorem failsOnly_addNative {source : Query} {entry : Combine}
    {translate : String → Translating Translation} {out : Translation}
    (h : ∀ tableAlias, FailsOnly Failure.OfTranslation (translate tableAlias)) :
    FailsOnly Failure.OfTranslation (addNative catalog source entry translate out) := by
  unfold addNative
  split
  · next hk =>
    have hoperator : entry.kind.native = .ok entry.kind.sql := if_pos hk
    refine .bind (failsOnly_ensure (.noEntity .combine)) fun _ => ?_
    refine .bind (failsOnly_lift fun e he => ?_) fun operator => ?_
    · rw [hoperator] at he
      cases he
    · exact .bind failsOnly_nextAlias fun tableAlias => .bind (h tableAlias) fun _ => .pure _
  · exact .pure out

/-- The alias of joined rows is always found. -/
theorem failsOnly_joinedAlias (translated : Translation) (joinAlias : String) :
    FailsOnly P (joinedAlias translated joinAlias) := by
  unfold joinedAlias
  split
  · exact failsOnly_nextAlias
  · exact .pure joinAlias

/-- Adding a join fails where the joined query or the condition on its rows does, or when the joined
query has no entity. -/
theorem failsOnly_addJoin {source tableAlias : String} {join : Join}
    {translate : String → Translating Translation}
    {extra : Option (String → Translating Translation)} {out : Translation}
    (h : ∀ tableAlias, FailsOnly Failure.OfTranslation (translate tableAlias))
    (hextra : ∀ required ∈ extra, ∀ tableAlias,
      FailsOnly Failure.OfTranslation (required tableAlias)) :
    FailsOnly Failure.OfTranslation
      (addJoin catalog source tableAlias join translate extra out) := by
  refine .bind (failsOnly_ensure (.noEntity .join)) fun _ => ?_
  refine .bind failsOnly_nextAlias fun joinAlias => .bind (h joinAlias) fun translated => ?_
  refine .bind (failsOnly_joinedAlias translated joinAlias) fun targetAlias => ?_
  refine .bind ?_ fun _ => .pure _
  cases extra with
  | none => exact .pure _
  | some required => exact .bind (hextra required rfl targetAlias) fun _ => .pure _

/-- Adding the join that stands for a set operation fails where the other query does, or when there
is nothing to match. -/
theorem failsOnly_addMatch {source tableAlias : String} {entry : Combine}
    {translate : String → Translating Translation} {out : Translation}
    (h : ∀ tableAlias, FailsOnly Failure.OfTranslation (translate tableAlias)) :
    FailsOnly Failure.OfTranslation
      (addMatch catalog source tableAlias entry translate out) := by
  refine .bind (failsOnly_lift fun e he => .matching (Combine.asJoin_error he)) fun join? => ?_
  cases join? with
  | none => exact .pure out
  | some join =>
    refine failsOnly_addJoin h fun required hrequired => ?_
    obtain ⟨_, -, rfl⟩ := Option.map_eq_some_iff.mp hrequired
    exact fun _ => .pure _

end Translating

open Translating

variable {catalog : Catalog}

mutual

/-- Translating a query fails for the known causes only. -/
theorem Query.failsOnly_translateUnder : ∀ (q : Query) (useSort : Bool) (tableAlias : String),
    FailsOnly Failure.OfTranslation (q.translateUnder catalog useSort tableAlias)
  | { text := some raw, .. }, useSort, tableAlias => by
    rw [Query.translateUnder]
    exact .bind (failsOnly_bindText raw.parameters) fun _ => .pure _
  | { entity, text := none, conditions, sorts, joins, combines, recurve, paging, size, fields,
      isolation }, useSort, tableAlias => by
    rw [Query.translateUnder]
    refine .bind (failsOnly_lift fun e he => .matching (Catalog.withoutMatching_error he))
      fun _ => ?_
    refine .bind (failsOnly_translateClauses conditions entity tableAlias {}) fun list => ?_
    refine .bind (failsOnly_lift fun e he => requestedSorts_error he) fun sorted => ?_
    refine .bind (failsOnly_translateCombines combines _ _) fun combined => ?_
    refine .bind (failsOnly_translateJoins joins entity tableAlias combined) fun joined => ?_
    refine .bind (failsOnly_translateMatches combines entity tableAlias joined) fun matched => ?_
    cases recurve with
    | none => exact .pure matched
    | some closure => exact .bind failsOnly_nextClosure fun _ => .pure _

/-- Translating conditions fails for the known causes only. -/
theorem failsOnly_translateClauses : ∀ (clauses : List Clause) (entity tableAlias : String)
    (list : ConditionList),
    FailsOnly Failure.OfTranslation (translateClauses catalog entity tableAlias clauses list)
  | [], entity, tableAlias, list => by
    rw [translateClauses]
    exact .pure list
  | ⟨connector, condition⟩ :: rest, entity, tableAlias, list => by
    rw [translateClauses]
    exact .bind (condition.failsOnly_translate entity tableAlias) fun fragment =>
      failsOnly_translateClauses rest entity tableAlias _

/-- Translating a condition fails for the known causes only. -/
theorem Condition.failsOnly_translate : ∀ (condition : Condition) (entity tableAlias : String),
    FailsOnly Failure.OfTranslation (condition.translate catalog entity tableAlias)
  | .group { conditions := [], .. }, _, _ => by
    rw [Condition.translate]
    exact .pure _
  | .group { conditions := [⟨_, only⟩], .. }, entity, tableAlias => by
    rw [Condition.translate]
    exact only.failsOnly_translate entity tableAlias
  | .group { conditions := first :: second :: rest, .. }, entity, tableAlias => by
    rw [Condition.translate]
    exact .bind (failsOnly_translateClauses (first :: second :: rest) entity tableAlias {})
      fun _ => .pure _
  | .criterion { field, operator, value := .value value, conversion }, entity, tableAlias => by
    rw [Condition.translate]
    exact failsOnly_criterion fun _ => .bind (failsOnly_bindFresh _ _) fun _ => .pure _
  | .criterion { field, operator, value := .query query, conversion }, entity, tableAlias => by
    rw [Condition.translate]
    exact failsOnly_criterion fun _ => failsOnly_queryComparison query.failsOnly_translateUnder

/-- Translating the set operations that the server has fails for the known causes only. -/
theorem failsOnly_translateCombines : ∀ (combines : List Combine) (source : Query)
    (out : Translation),
    FailsOnly Failure.OfTranslation (translateCombines catalog source combines out)
  | [], source, out => by
    rw [translateCombines]
    exact .pure out
  | ⟨kind, query⟩ :: rest, source, out => by
    rw [translateCombines]
    exact .bind (failsOnly_addNative (query.failsOnly_translateUnder false)) fun next =>
      failsOnly_translateCombines rest source next

/-- Translating joins fails for the known causes only. -/
theorem failsOnly_translateJoins : ∀ (joins : List Join) (source tableAlias : String)
    (out : Translation),
    FailsOnly Failure.OfTranslation (translateJoins catalog source tableAlias joins out)
  | [], source, tableAlias, out => by
    rw [translateJoins]
    exact .pure out
  | { kind, operator, fields, query, extra := none } :: rest, source, tableAlias, out => by
    rw [translateJoins]
    exact .bind (failsOnly_addJoin (query.failsOnly_translateUnder false) fun _ h => by cases h)
      fun next => failsOnly_translateJoins rest source tableAlias next
  | { kind, operator, fields, query, extra := some extra } :: rest, source, tableAlias, out => by
    rw [translateJoins]
    have hextra : ∀ required ∈ some (extra.translateUnder catalog false), ∀ tableAlias,
        FailsOnly Failure.OfTranslation (required tableAlias) :=
      fun _ h => Option.some.inj h ▸ extra.failsOnly_translateUnder false
    exact .bind (failsOnly_addJoin (query.failsOnly_translateUnder false) hextra) fun next =>
      failsOnly_translateJoins rest source tableAlias next

/-- Translating the set operations that stand for joins fails for the known causes only. -/
theorem failsOnly_translateMatches : ∀ (combines : List Combine) (source tableAlias : String)
    (out : Translation),
    FailsOnly Failure.OfTranslation (translateMatches catalog source tableAlias combines out)
  | [], source, tableAlias, out => by
    rw [translateMatches]
    exact .pure out
  | ⟨kind, query⟩ :: rest, source, tableAlias, out => by
    rw [translateMatches]
    exact .bind (failsOnly_addMatch (query.failsOnly_translateUnder false)) fun next =>
      failsOnly_translateMatches rest source tableAlias next

end

/-- A whole query is translated or fails for the known causes. -/
theorem Query.translate_error {q : Query} {names names' : NameSupply} {e : Failure}
    (h : q.translate catalog names = (.error e, names')) : e.OfTranslation := by
  have hrun : (q.translateUnder catalog true NameSupply.mainAlias).run.run
      { names := names.resetAliases } = outcome (q.translateUnder catalog true NameSupply.mainAlias)
      { names := names.resetAliases } := rfl
  simp only [translate, hrun] at h
  rcases hu : outcome (q.translateUnder catalog true NameSupply.mainAlias)
    { names := names.resetAliases } with ⟨failure | u, w⟩
  · rw [hu] at h
    have hsame : failure = e := Except.error.inj (Prod.mk.inj h).1
    exact hsame ▸ q.failsOnly_translateUnder true NameSupply.mainAlias _ _ _ hu
  · rw [hu] at h
    cases h

namespace Statement

/-- Translating as a step fails for the same causes. -/
theorem failsOnly_translated (q : Query) :
    FailsOnly Failure.OfTranslation (translated catalog q) := by
  intro names e names' h
  simp only [translated, outcome_bind, outcome_get, outcome_set] at h
  rcases ht : q.translate catalog names with ⟨failure | t, rest⟩
  · rw [ht] at h
    have hsame : failure = e := Except.error.inj (Prod.mk.inj h).1
    exact hsame ▸ Query.translate_error ht
  · rw [ht] at h
    cases h

/-- A settled result fails in its own way. -/
theorem failsOnly_settled {P : Failure → Prop} {α : Type} {result : Except Failure α}
    (h : ∀ e, result = .error e → P e) : FailsOnly P (settled result) := by
  cases result with
  | ok a => exact .pure a
  | error e => exact .throw (h e rfl)

/-- A statement fails where its text does. -/
theorem failsOnly_ofTranslation {P : Failure → Prop} {t : Translation}
    {text : Except Failure String}
    (h : ∀ e, text = .error e → P e) : FailsOnly P (ofTranslation t text) := by
  unfold ofTranslation
  split
  · exact .pure _
  · cases text with
    | ok text => exact .pure _
    | error e => exact .throw (h e rfl)

/-- Without a field for the rows there is no probe. -/
theorem probeField_error {q : Query} {e : Failure} (h : probeField catalog q = .error e) :
    e.OfReading := by
  unfold probeField at h
  split at h
  · cases h
  · cases h
    exact .noProbe q.entity

/-- What stands for the rows is missing only with the probe. -/
theorem keyFields_error {q : Query} {e : Failure} (h : keyFields catalog q = .error e) :
    e.OfReading := by
  unfold keyFields at h
  split at h
  · cases h
  · split at h
    · cases h
    · cases hp : probeField catalog q with
      | error failure =>
        rw [hp] at h
        cases h
        exact probeField_error hp
      | ok field =>
        rw [hp] at h
        cases h

/-- A field to aggregate is missing without a probe or a selection. -/
theorem aggregateField_error {function : Aggregate} {q : Query} {e : Failure}
    (h : aggregateField catalog function q = .error e) : e.OfReading := by
  unfold aggregateField at h
  split at h
  · exact probeField_error h
  · split at h
    · cases h
    · cases h
      exact .noField function

/-- Reading a query in any way fails for the known causes only. -/
theorem failsOnly_read (mode : ReadMode) (q : Query) :
    FailsOnly Failure.OfReading (read catalog mode q) := by
  have htranslated : ∀ source, FailsOnly Failure.OfReading (translated catalog source) :=
    fun source => (failsOnly_translated source).mono fun _ => .translation
  have hrange : ∀ offset size, FailsOnly Failure.OfReading (range catalog q offset size) := by
    intro offset size
    refine .bind (htranslated q) fun t => failsOnly_ofTranslation fun e he => ?_
    cases hp : probeField catalog q with
    | error failure =>
      rw [hp] at he
      cases he
      exact probeField_error hp
    | ok field =>
      rw [hp] at he
      cases he
  have htext : ∀ (t : Translation) (text : String),
      FailsOnly Failure.OfReading (ofTranslation t (.ok text)) :=
    fun t text => failsOnly_ofTranslation fun e he => by cases he
  cases mode with
  | select => exact .bind (htranslated q) fun t => htext t _
  | paging => exact hrange _ _
  | range offset size => exact hrange offset size
  | existence =>
    refine .bind (failsOnly_settled fun e he => keyFields_error he) fun fields => ?_
    exact .bind (htranslated _) fun t => htext t _
  | aggregate function =>
    refine .bind (failsOnly_settled fun e he => aggregateField_error he) fun field => ?_
    exact .bind (htranslated _) fun t => htext t _

end Statement

namespace Command

/-- Compiling a command fails for the known causes only. -/
theorem failsOnly_toUnit (c : Command) : FailsOnly Failure.OfCommand (c.toUnit catalog) := by
  have htranslated : FailsOnly Failure.OfCommand (Statement.translated catalog c.target) :=
    (Statement.failsOnly_translated c.target).mono fun _ => .translation
  have hnames : ∀ bases, FailsOnly Failure.OfCommand (Naming.freshAll bases) := by
    intro bases names e names' h
    rw [Naming.outcome_freshAll] at h
    cases h
  unfold toUnit
  split
  · exact .pure _
  · refine .bind ?_ fun _ => .pure _
    unfold insertUnit
    split
    · exact .bind (.throw (.noField c.entity)) fun _ => .bind (hnames _) fun _ => .pure _
    · exact .bind (hnames _) fun _ => .pure _
  · refine .bind ?_ fun _ => .pure _
    unfold updateUnit
    split
    · exact .bind (.throw (.nothingSet c.entity)) fun _ => .bind (hnames _) fun _ =>
        .bind htranslated fun _ => .pure _
    · exact .bind (hnames _) fun _ => .bind htranslated fun _ => .pure _
  · exact .bind (.bind htranslated fun _ => .pure _) fun _ => .pure _

/-- Compiling a list of commands fails where one of them does. -/
theorem compileAll_error {commands : List Command} {names : NameSupply} {e : Failure}
    (h : (compileAll catalog commands names).2 = some e) : e.OfCommand := by
  induction commands generalizing names with
  | nil => cases h
  | cons c rest ih =>
    rw [compileAll_cons] at h
    rcases ho : outcome (c.toUnit catalog) names with ⟨failure | u, middle⟩
    · rw [ho] at h
      exact Option.some.inj h ▸ c.failsOnly_toUnit names failure middle ho
    · rw [ho] at h
      exact ih h

/-- Planning commands fails where one of them does. -/
theorem planAll_error {policy : BatchPolicy} {commands : List Command} {e : Failure}
    (h : planAll catalog policy commands = .error e) : e.OfCommand := by
  rw [planAll] at h
  rcases hc : compileAll catalog commands {} with ⟨us, _ | failure⟩
  · rw [hc] at h
    cases h
  · rw [hc] at h
    have hsame : failure = e := Except.error.inj h
    exact compileAll_error (hsame ▸ congrArg Prod.snd hc)

end Command

end AbstractSql
