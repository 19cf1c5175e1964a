import AbstractSql.Proofs.Outcome
import AbstractSql.Proofs.Query.Ledger
import AbstractSql.Proofs.Translation.Matched

/-!
# What a translation leaves behind

A translation that succeeds has bound exactly the sources of its query, in order: the supply it
leaves and the values it has collected are those of the ledger. Aliases are apart from this, for
they start again with every statement.
-/

namespace AbstractSql

/-- The supply of parameter names of a workspace. -/
abbrev Workspace.supply (w : Workspace) : NameSupply := w.names.resetAliases

/-- Exactly the given sources are bound between two workspaces. -/
structure Effect (sources : List Source) (w v : Workspace) : Prop where
  /-- The supply is what the ledger leaves. -/
  supply : v.supply = w.supply.after sources
  /-- The values are inserted after those that were there. -/
  parameters : v.parameters =
    w.parameters.union ⟨Entry.parameters (ledger w.supply sources).1⟩

namespace Effect

variable {first second : List Source} {w v x : Workspace}

/-- Nothing is bound when neither the supply nor the values change. -/
theorem none (hs : v.supply = w.supply) (hp : v.parameters = w.parameters) : Effect [] w v :=
  ⟨hs, hp⟩

/-- A workspace that stays the same has nothing bound. -/
theorem refl (w : Workspace) : Effect [] w w := none rfl rfl

/-- Sources bound one list after the other. -/
theorem append (h : Effect first w v) (k : Effect second v x) : Effect (first ++ second) w x := by
  refine ⟨?_, ?_⟩
  · rw [NameSupply.after, ledger_append, k.supply, h.supply]
  · rw [ledger_append, Entry.parameters, List.map_append, ParameterSet.union_append,
      k.parameters, h.supply, h.parameters]

/-- Sources bound after nothing was. -/
theorem after_none (h : Effect [] w v) (k : Effect second v x) : Effect second w x := h.append k

/-- Sources bound before nothing is. -/
theorem before_none (h : Effect first w v) (k : Effect [] v x) : Effect first w x := by
  have ha := h.append k
  rwa [List.append_nil] at ha

end Effect

namespace Translating

/-- A step that has nothing to do with the workspace leaves it alone. -/
theorem outcome_lift {α : Type} (result : Except Failure α) (w : Workspace) :
    outcome (lift result) w = (result, w) := by
  cases result <;> rfl

/-- Such a step succeeds with its result. -/
theorem outcome_lift_eq_ok {α : Type} {result : Except Failure α} {a : α} {w v : Workspace} :
    outcome (lift result) w = (.ok a, v) ↔ result = .ok a ∧ w = v := by
  rw [outcome_lift, Prod.mk.injEq]

/-- Issuing an alias. -/
theorem outcome_nextAlias (w : Workspace) :
    outcome nextAlias w = (.ok w.names.nextAlias.1, { w with names := w.names.nextAlias.2 }) := rfl

/-- Issuing a closure table. -/
theorem outcome_nextClosure (w : Workspace) :
    outcome nextClosure w =
      (.ok w.names.nextClosure.1, { w with names := w.names.nextClosure.2 }) := rfl

/-- Binding a value. -/
theorem outcome_bindFresh (base : String) (value : Value) (w : Workspace) :
    outcome (bindFresh base value) w =
      (.ok (w.names.nextParameter base).1,
        ⟨(w.names.nextParameter base).2, w.parameters.add (w.names.nextParameter base).1 value⟩) :=
  rfl

/-- Binding the parameters of a statement text. -/
theorem outcome_bindText (parameters : ParameterSet) (w : Workspace) :
    outcome (bindText parameters) w =
      (.ok ⟨⟩, ⟨w.names.reserveAll parameters.names, w.parameters.union parameters⟩) := rfl

variable {w v : Workspace}

/-- Issuing an alias binds nothing. -/
theorem nextAlias_effect {name : String} (h : outcome nextAlias w = (.ok name, v)) :
    Effect [] w v := by
  obtain ⟨-, rfl⟩ := Prod.mk.inj h
  exact .none rfl rfl

/-- Issuing a closure table binds nothing. -/
theorem nextClosure_effect {table : ClosureTable} (h : outcome nextClosure w = (.ok table, v)) :
    Effect [] w v := by
  obtain ⟨-, rfl⟩ := Prod.mk.inj h
  exact .none rfl rfl

/-- A comparison with a value binds that value. -/
theorem valueComparison_effect {field : String} {criterion : Criterion} {value : Value}
    {fragment : ConditionFragment}
    (h : outcome (valueComparison field criterion value) w = (.ok fragment, v)) :
    Effect [.value criterion.field
      { name := "", value := criterion.operator.shapeValue value }] w v := by
  rw [valueComparison, outcome_bind_eq_ok] at h
  obtain ⟨name, x, hb, hp⟩ := h
  rw [outcome_bindFresh] at hb
  rw [outcome_pure] at hp
  obtain ⟨-, rfl⟩ := Prod.mk.inj hb
  obtain ⟨-, rfl⟩ := Prod.mk.inj hp
  exact ⟨rfl, rfl⟩

/-- A statement text binds its parameters. -/
theorem bindText_effect {raw : RawText} (h : outcome (bindText raw.parameters) w = (.ok ⟨⟩, v)) :
    Effect [.text raw] w v := by
  rw [outcome_bindText] at h
  obtain ⟨-, rfl⟩ := Prod.mk.inj h
  refine ⟨?_, ?_⟩
  · exact (NameSupply.resetAliases_reserveAll _ _).symm
  · have he : Entry.parameters (ledger w.supply [.text raw]).1 = raw.parameters.items := by
      simp [ledger, Source.bind, Entry.parameters, Function.comp_def]
    rw [he]

/-- A lifted result leaves the workspace alone. -/
theorem lift_effect {α : Type} {result : Except Failure α} {a : α}
    (h : outcome (lift result) w = (.ok a, v)) : Effect [] w v := by
  rw [outcome_lift] at h
  obtain ⟨-, rfl⟩ := Prod.mk.inj h
  exact .refl w

/-- A check leaves the workspace alone. -/
theorem ensure_effect {holds : Bool} {failure : Failure} {a : Unit}
    (h : outcome (ensure holds failure) w = (.ok a, v)) : Effect [] w v := lift_effect h

/-- A comparison with another query binds what that query binds. -/
theorem queryComparison_effect {catalog : Catalog} {field : String} {operator : Comparison}
    {query : Query} {translate : Bool → String → Translating Translation}
    {fragment : ConditionFragment} {sources : List Source}
    (ht : ∀ {useSort tableAlias w t v},
      outcome (translate useSort tableAlias) w = (.ok t, v) → Effect sources w v)
    (h : outcome (queryComparison catalog field operator query translate) w = (.ok fragment, v)) :
    Effect sources w v := by
  unfold queryComparison at h
  split at h
  · simp only [outcome_bind_eq_ok, outcome_pure] at h
    obtain ⟨translated, x, hq, hp⟩ := h
    obtain ⟨-, rfl⟩ := Prod.mk.inj hp
    exact ht hq
  · split at h
    · exact absurd h (by simp)
    · simp only [outcome_bind_eq_ok, outcome_pure] at h
      obtain ⟨tableAlias, x, ha, translated, y, hq, hp⟩ := h
      obtain ⟨-, rfl⟩ := Prod.mk.inj hp
      exact (nextAlias_effect ha).after_none (ht hq)

/-- A criterion binds what its comparison binds, and nothing where its operator needs no value. -/
theorem criterion_effect {catalog : Catalog} {entity tableAlias field : String}
    {conversion : Option Conversion} {operator : Comparison} {sites : List Site}
    {compare : String → Translating ConditionFragment} {fragment : ConditionFragment}
    (hcompare : ∀ {reference w fragment v},
      outcome (compare reference) w = (.ok fragment, v) → Effect (sourcesOf sites) w v)
    (h : outcome (do
        let reference ← lift (catalog.reference entity tableAlias field conversion)
        if operator.needsParameter then compare reference
        else return { text := reference ++ " " ++ operator.sql }) w = (.ok fragment, v)) :
    Effect (sourcesOf (if operator.needsParameter then sites else [])) w v := by
  obtain ⟨reference, x, hl, hc⟩ := outcome_bind_eq_ok.mp h
  split at hc
  · next hp =>
    rw [if_pos hp]
    exact (lift_effect hl).after_none (hcompare hc)
  · next hp =>
    rw [if_neg hp]
    obtain ⟨-, rfl⟩ := outcome_pure_eq_ok.mp hc
    exact lift_effect hl

/-- A set operation that the server has adds one and binds what the other query binds. -/
theorem addCombine_effect {catalog : Catalog} {source : Query} {entry : Combine}
    {translate : String → Translating Translation} {out t : Translation} {sources : List Source}
    (ht : ∀ {tableAlias w t v}, outcome (translate tableAlias) w = (.ok t, v) → Effect sources w v)
    (h : outcome (addCombine catalog source entry translate out) w = (.ok t, v)) :
    Effect sources w v ∧ t.shape = { out.shape with hasCombine := true } := by
  simp only [addCombine, outcome_bind_eq_ok, outcome_pure] at h
  obtain ⟨_, x, hn, operator, y, hl, tableAlias, z, ha, translated, u, hq, hp⟩ := h
  obtain ⟨he, rfl⟩ := Prod.mk.inj hp
  cases he
  have hk := (ensure_effect hn).after_none ((lift_effect hl).after_none (nextAlias_effect ha))
  refine ⟨hk.after_none (ht hq), ?_⟩
  simp [Translation.shape, Translation.hasCombine, Translation.isText, Translation.absorb]

/-- A set operation that the server lacks adds nothing here. -/
theorem addNative_effect {catalog : Catalog} {source : Query} {entry : Combine}
    {translate : String → Translating Translation} {out t : Translation} {sources : List Source}
    (ht : ∀ {tableAlias w t v}, outcome (translate tableAlias) w = (.ok t, v) → Effect sources w v)
    (h : outcome (addNative catalog source entry translate out) w = (.ok t, v)) :
    Effect (if entry.kind.isNative then sources else []) w v ∧
      t.shape = { out.shape with hasCombine := entry.kind.isNative || out.hasCombine } := by
  unfold addNative at h
  split at h
  · next hk =>
    rw [if_pos hk, hk, Bool.true_or]
    exact addCombine_effect ht h
  · next hk =>
    rw [outcome_pure] at h
    obtain ⟨he, rfl⟩ := Prod.mk.inj h
    cases he
    rw [Bool.not_eq_true] at hk
    rw [hk, Bool.false_or]
    exact ⟨.refl w, rfl⟩

/-- Requiring another condition does not change the shape. -/
@[simp] theorem andCondition_shape (t : Translation) (extra : String) :
    (t.andCondition extra).shape = t.shape := by
  unfold Translation.andCondition
  split
  · rfl
  · split
    · rfl
    · split <;> rfl

/-- Requiring more conditions does not change the shape. -/
@[simp] theorem foldl_andCondition_shape (extras : List String) (t : Translation) :
    (extras.foldl Translation.andCondition t).shape = t.shape := by
  induction extras generalizing t with
  | nil => rfl
  | cons extra rest ih => rw [List.foldl_cons, ih, andCondition_shape]

/-- Lifting conditions out of a join does not change the shape. -/
@[simp] theorem liftConditions_shape (join : Join) (translated out : Translation) :
    (liftConditions join translated out).shape = out.shape := by
  unfold liftConditions
  split
  · rfl
  · dsimp only
    rw [foldl_andCondition_shape]
    split
    · exact andCondition_shape _ _
    · rfl

/-- A condition for the outer statement does not change the shape. -/
@[simp] theorem addExtra_shape (extra out : Translation) : (addExtra extra out).shape = out.shape := by
  unfold addExtra
  dsimp only
  split <;> rfl

/-- Lifting joins does not change the shape. -/
@[simp] theorem liftJoins_shape (translated out : Translation) :
    (liftJoins translated out).shape = out.shape := by
  unfold liftJoins
  split <;> rfl

/-- The alias of joined rows is issued without binding anything. -/
theorem joinedAlias_effect {translated : Translation} {joinAlias name : String}
    (h : outcome (joinedAlias translated joinAlias) w = (.ok name, v)) : Effect [] w v := by
  unfold joinedAlias at h
  split at h
  · exact nextAlias_effect h
  · rw [outcome_pure] at h
    obtain ⟨-, rfl⟩ := Prod.mk.inj h
    exact .refl w

/-- What a translation of a condition on joined rows binds, when there is one. -/
def Binds (extra : Option (String → Translating Translation)) (sources : List Source) : Prop :=
  match extra with
  | none => sources = []
  | some translate =>
    ∀ tableAlias w t v, outcome (translate tableAlias) w = (.ok t, v) → Effect sources w v

/-- Requiring a condition on joined rows binds what that condition binds. -/
theorem requireExtra_effect {extra : Option (String → Translating Translation)}
    {targetAlias : String} {out t : Translation} {sources : List Source} (he : Binds extra sources)
    (h : outcome (requireExtra extra targetAlias out) w = (.ok t, v)) :
    Effect sources w v ∧ t.shape = out.shape := by
  unfold requireExtra at h
  cases extra with
  | none =>
    obtain rfl : sources = [] := he
    rw [outcome_pure] at h
    obtain ⟨ho, rfl⟩ := Prod.mk.inj h
    cases ho
    exact ⟨.refl w, rfl⟩
  | some translate =>
    simp only [outcome_bind_eq_ok, outcome_pure] at h
    obtain ⟨translated, x, hq, hp⟩ := h
    obtain ⟨ho, rfl⟩ := Prod.mk.inj hp
    cases ho
    exact ⟨he _ _ _ _ hq, addExtra_shape _ _⟩

/-- A join binds what the joined query and then the required condition bind. -/
theorem addJoin_effect {catalog : Catalog} {source tableAlias : String} {join : Join}
    {translate : String → Translating Translation}
    {extra : Option (String → Translating Translation)} {out t : Translation}
    {sources required : List Source}
    (ht : ∀ {tableAlias w t v}, outcome (translate tableAlias) w = (.ok t, v) → Effect sources w v)
    (he : Binds extra required)
    (h : outcome (addJoin catalog source tableAlias join translate extra out) w = (.ok t, v)) :
    Effect (sources ++ required) w v ∧ t.shape = out.shape := by
  simp only [addJoin, outcome_bind_eq_ok, outcome_pure] at h
  obtain ⟨_, x, hn, joinAlias, y, ha, translated, z, hq, targetAlias, s, hd, extended, r, hx, hp⟩ := h
  obtain ⟨ho, rfl⟩ := Prod.mk.inj hp
  cases ho
  obtain ⟨hr, hs⟩ := requireExtra_effect he hx
  have hk := (ensure_effect hn).after_none (nextAlias_effect ha)
  refine ⟨((hk.after_none (ht hq)).before_none (joinedAlias_effect hd)).append hr, ?_⟩
  calc (liftJoins translated extended).shape
      = extended.shape := liftJoins_shape _ _
    _ = (liftConditions join translated out).shape := hs
    _ = out.shape := liftConditions_shape _ _ _

/-- The join that stands for a set operation binds what the other query binds. -/
theorem addMatch_effect {catalog : Catalog} {source tableAlias : String} {entry : Combine}
    {translate : String → Translating Translation} {out t : Translation} {sources : List Source}
    (ht : ∀ {tableAlias w t v}, outcome (translate tableAlias) w = (.ok t, v) → Effect sources w v)
    (h : outcome (addMatch catalog source tableAlias entry translate out) w = (.ok t, v)) :
    Effect (if entry.kind.isNative then [] else sources) w v ∧ t.shape = out.shape := by
  simp only [addMatch, outcome_bind_eq_ok] at h
  obtain ⟨matched, x, hl, hm⟩ := h
  have hx := lift_effect hl
  rw [outcome_lift] at hl
  cases hk : entry.kind.isNative with
  | true =>
    obtain ⟨he, -⟩ := Prod.mk.inj hl
    rw [Combine.asJoin, if_pos hk] at he
    cases he
    rw [outcome_pure] at hm
    obtain ⟨ho, rfl⟩ := Prod.mk.inj hm
    cases ho
    rw [if_pos rfl]
    exact ⟨hx, rfl⟩
  | false =>
    rw [if_neg (by simp)]
    cases matched with
    | none =>
      obtain ⟨he, -⟩ := Prod.mk.inj hl
      exact absurd (Combine.isNative_of_asJoin he) (by simp [hk])
    | some join =>
      have hb : Binds (join.extra.map fun _ tableAlias =>
          pure (missingTest catalog entry.query.entity
            ((join.fields.head?.map (·.1)).getD "") tableAlias)) [] := by
        cases join.extra with
        | none => rfl
        | some extra =>
          intro tableAlias w t v h
          obtain ⟨-, rfl⟩ := Prod.mk.inj h
          exact .refl w
      obtain ⟨hj, hs⟩ := addJoin_effect ht hb hm
      rw [List.append_nil] at hj
      exact ⟨hx.after_none hj, hs⟩

/-- A closure binds nothing itself, and from then on the joins are not written. -/
theorem addClosure_effect {catalog : Catalog} {entity tableAlias : String} {closure : Closure}
    {out t : Translation}
    (h : outcome (addClosure catalog entity tableAlias closure out) w = (.ok t, v)) :
    Effect [] w v ∧ t.shape = { out.shape with allowJoin := false } := by
  simp only [addClosure, outcome_bind_eq_ok, outcome_pure] at h
  obtain ⟨table, x, hn, hp⟩ := h
  obtain ⟨ho, rfl⟩ := Prod.mk.inj hp
  cases ho
  refine ⟨nextClosure_effect hn, ?_⟩
  exact foldl_andCondition_shape out.joinExtras { out with allowJoin := false, joinExtras := [] }

end Translating

open Translating

variable {catalog : Catalog} {w v : Workspace}

mutual

/-- Translating a query binds its sources, and the shape of the translation is known beforehand. -/
theorem Query.translateUnder_effect :
    ∀ (q : Query) {useSort : Bool} {tableAlias : String} {w : Workspace} {t : Translation}
      {v : Workspace}, outcome (q.translateUnder catalog useSort tableAlias) w = (.ok t, v) →
      Effect (sourcesOf q.sites) w v ∧ t.shape = q.shape
  | { text := some raw, .. }, useSort, tableAlias, w, t, v, h => by
    simp only [Query.translateUnder, outcome_bind_eq_ok, outcome_pure] at h
    obtain ⟨_, x, hb, hp⟩ := h
    obtain ⟨ho, rfl⟩ := Prod.mk.inj hp
    cases ho
    exact ⟨bindText_effect hb, rfl⟩
  | { entity, text := none, conditions, sorts, joins, combines, recurve, paging, size, fields,
      isolation }, useSort, tableAlias, w, t, v, h => by
    simp only [Query.translateUnder, outcome_bind_eq_ok] at h
    obtain ⟨_, w₁, hs, list, w₂, hc, sorted, w₃, ho, combined, w₄, ha, joined, w₅, hj, matched, w₆,
      hm, hr⟩ := h
    have h₁ := (lift_effect hs).after_none (translateClauses_effect conditions hc)
    have h₃ := h₁.before_none (lift_effect ho)
    obtain ⟨h₄, hs₄⟩ := translateCombines_effect combines ha
    obtain ⟨h₅, hs₅⟩ := translateJoins_effect joins hj
    obtain ⟨h₆, hs₆⟩ := translateMatches_effect combines hm
    have hg : Effect (sourcesOf (clauseSites conditions ++ armSites combines ++ joinSites joins
        ++ matchSites combines)) w w₆ := by
      simp only [sourcesOf_append]
      exact ((h₃.append h₄).append h₅).append h₆
    have hshape : matched.shape =
        ⟨combines.any (fun entry => entry.kind.isNative) || false, true, false⟩ :=
      (hs₆.trans hs₅).trans hs₄
    rw [Bool.or_false] at hshape
    cases recurve with
    | none =>
      rw [outcome_pure] at hr
      obtain ⟨ho, rfl⟩ := Prod.mk.inj hr
      cases ho
      exact ⟨hg, hshape⟩
    | some closure =>
      obtain ⟨hn, hcl⟩ := addClosure_effect hr
      rw [hshape] at hcl
      refine ⟨?_, hcl⟩
      rw [Query.sites, sourcesOf_move]
      exact hg.before_none hn

/-- Translating conditions binds their sources. -/
theorem translateClauses_effect :
    ∀ (clauses : List Clause) {entity tableAlias : String} {list result : ConditionList}
      {w v : Workspace},
      outcome (translateClauses catalog entity tableAlias clauses list) w = (.ok result, v) →
      Effect (sourcesOf (clauseSites clauses)) w v
  | [], _, _, list, result, w, v, h => by
    rw [translateClauses, outcome_pure] at h
    obtain ⟨-, rfl⟩ := Prod.mk.inj h
    exact .refl w
  | ⟨connector, condition⟩ :: rest, _, _, list, result, w, v, h => by
    simp only [translateClauses, outcome_bind_eq_ok] at h
    obtain ⟨fragment, x, hc, hr⟩ := h
    rw [clauseSites, sourcesOf_append]
    exact (condition.translate_effect hc).append (translateClauses_effect rest hr)

/-- Translating a condition binds its sources. -/
theorem Condition.translate_effect :
    ∀ (condition : Condition) {entity tableAlias : String} {fragment : ConditionFragment}
      {w v : Workspace},
      outcome (condition.translate catalog entity tableAlias) w = (.ok fragment, v) →
      Effect (sourcesOf condition.sites) w v
  | .group { conditions := [], .. }, _, _, fragment, w, v, h => by
    rw [Condition.translate, outcome_pure] at h
    obtain ⟨-, rfl⟩ := Prod.mk.inj h
    exact .refl w
  | .group { conditions := [⟨_, only⟩], .. }, _, _, fragment, w, v, h => by
    rw [Condition.translate] at h
    rw [Condition.sites, clauseSites, clauseSites, List.append_nil]
    exact only.translate_effect h
  | .group { conditions := first :: second :: rest, .. }, _, _, fragment, w, v, h => by
    simp only [Condition.translate, outcome_bind_eq_ok, outcome_pure] at h
    obtain ⟨list, x, hc, hp⟩ := h
    obtain ⟨-, rfl⟩ := Prod.mk.inj hp
    exact translateClauses_effect (first :: second :: rest) hc
  | .criterion { field, operator, value := .value value, conversion }, _, _, fragment, w, v, h => by
    rw [Condition.translate] at h
    rw [Condition.sites]
    exact criterion_effect valueComparison_effect h
  | .criterion { field, operator, value := .query query, conversion }, _, _, fragment, w, v, h => by
    rw [Condition.translate] at h
    rw [Condition.sites]
    refine criterion_effect (fun hc => ?_) h
    rw [sourcesOf_move]
    exact queryComparison_effect (fun h => (query.translateUnder_effect h).1) hc

/-- Translating the set operations that the server has binds their sources. -/
theorem translateCombines_effect :
    ∀ (combines : List Combine) {source : Query} {out t : Translation} {w v : Workspace},
      outcome (translateCombines catalog source combines out) w = (.ok t, v) →
      Effect (sourcesOf (armSites combines)) w v ∧
        t.shape = { out.shape with
          hasCombine := combines.any (fun entry => entry.kind.isNative) || out.hasCombine }
  | [], _, out, t, w, v, h => by
    rw [translateCombines, outcome_pure] at h
    obtain ⟨ho, rfl⟩ := Prod.mk.inj h
    cases ho
    exact ⟨.refl w, rfl⟩
  | ⟨kind, query⟩ :: rest, _, out, t, w, v, h => by
    simp only [translateCombines, outcome_bind_eq_ok] at h
    obtain ⟨next, x, hn, hr⟩ := h
    obtain ⟨he, hs⟩ := addNative_effect (fun h => (query.translateUnder_effect h).1) hn
    obtain ⟨hre, hrs⟩ := translateCombines_effect rest hr
    refine ⟨?_, ?_⟩
    · have hs : sourcesOf (armSites (⟨kind, query⟩ :: rest)) =
          (if kind.isNative then sourcesOf query.sites else []) ++ sourcesOf (armSites rest) := by
        rw [armSites, sourcesOf_append, sourcesOf_if, sourcesOf_move, sourcesOf_nil]
      rw [hs]
      exact he.append hre
    · have hc : next.hasCombine = (kind.isNative || out.hasCombine) := congrArg Shape.hasCombine hs
      rw [hrs, hs, hc, List.any_cons, Bool.or_left_comm, Bool.or_assoc]

/-- Translating joins binds their sources. -/
theorem translateJoins_effect :
    ∀ (joins : List Join) {source tableAlias : String} {out t : Translation} {w v : Workspace},
      outcome (translateJoins catalog source tableAlias joins out) w = (.ok t, v) →
      Effect (sourcesOf (joinSites joins)) w v ∧ t.shape = out.shape
  | [], _, _, out, t, w, v, h => by
    rw [translateJoins, outcome_pure] at h
    obtain ⟨ho, rfl⟩ := Prod.mk.inj h
    cases ho
    exact ⟨.refl w, rfl⟩
  | { kind, operator, fields, query, extra := none } :: rest, _, _, out, t, w, v, h => by
    simp only [translateJoins, outcome_bind_eq_ok] at h
    obtain ⟨next, x, hn, hr⟩ := h
    have hb : Binds none [] := rfl
    obtain ⟨he, hs⟩ := addJoin_effect (fun h => (query.translateUnder_effect h).1) hb hn
    obtain ⟨hre, hrs⟩ := translateJoins_effect rest hr
    refine ⟨?_, hrs.trans hs⟩
    rw [List.append_nil] at he
    rw [joinSites, sourcesOf_append, sourcesOf_move]
    exact he.append hre
  | { kind, operator, fields, query, extra := some extra } :: rest, _, _, out, t, w, v, h => by
    simp only [translateJoins, outcome_bind_eq_ok] at h
    obtain ⟨next, x, hn, hr⟩ := h
    have hb : Binds (some (extra.translateUnder catalog false)) (sourcesOf extra.sites) :=
      fun _ _ _ _ h => (extra.translateUnder_effect h).1
    obtain ⟨he, hs⟩ := addJoin_effect (fun h => (query.translateUnder_effect h).1) hb hn
    obtain ⟨hre, hrs⟩ := translateJoins_effect rest hr
    refine ⟨?_, hrs.trans hs⟩
    rw [joinSites, sourcesOf_append, sourcesOf_append, sourcesOf_move, sourcesOf_move]
    exact he.append hre

/-- Translating the set operations that stand for joins binds their sources. -/
theorem translateMatches_effect :
    ∀ (combines : List Combine) {source tableAlias : String} {out t : Translation}
      {w v : Workspace},
      outcome (translateMatches catalog source tableAlias combines out) w = (.ok t, v) →
      Effect (sourcesOf (matchSites combines)) w v ∧ t.shape = out.shape
  | [], _, _, out, t, w, v, h => by
    rw [translateMatches, outcome_pure] at h
    obtain ⟨ho, rfl⟩ := Prod.mk.inj h
    cases ho
    exact ⟨.refl w, rfl⟩
  | ⟨kind, query⟩ :: rest, _, _, out, t, w, v, h => by
    simp only [translateMatches, outcome_bind_eq_ok] at h
    obtain ⟨next, x, hn, hr⟩ := h
    obtain ⟨he, hs⟩ := addMatch_effect (fun h => (query.translateUnder_effect h).1) hn
    obtain ⟨hre, hrs⟩ := translateMatches_effect rest hr
    refine ⟨?_, hrs.trans hs⟩
    have hs : sourcesOf (matchSites (⟨kind, query⟩ :: rest)) =
        (if kind.isNative then [] else sourcesOf query.sites) ++ sourcesOf (matchSites rest) := by
      rw [matchSites, sourcesOf_append, sourcesOf_if, sourcesOf_move, sourcesOf_nil]
    rw [hs]
    exact he.append hre

end

end AbstractSql
