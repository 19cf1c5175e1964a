import AbstractSql.Proofs.Outline.Flattening
import AbstractSql.Proofs.Outline.Translated

/-!
# What the rows of a join are matched on

The condition of a joined query stands behind the compared columns in the ON clause as it is,
without parentheses. So the clause asks for the columns and the condition exactly when there are no
compared columns, or the condition has no alternative outside of all parentheses.
-/

namespace AbstractSql

open Identifier (quote)

/-- Whether a test compares two columns. -/
def Test.isPair : Test → Bool
  | .pair .. => true
  | _ => false

/-- A comparison of a criterion is none of two columns. -/
theorem ResolvedCriterion.isPair_test (c : ResolvedCriterion) (tableAlias : String) :
    (c.test tableAlias).isPair = false := by
  cases c <;> rfl

namespace Outline

/-- The condition and the conditions on joined rows. -/
def rows (o : Outline) : List (List (Lexeme Test)) := o.condition :: o.joinExtras

/-- All conditions are rows of terms, and their tests have a property. -/
def OfTests (property : Test → Prop) (o : Outline) : Prop :=
  ∀ row ∈ o.rows, Lexeme.IsSum row ∧ ∀ test, .atom test ∈ row → property test

variable {o joined extra : Outline} {property : Test → Prop}

/-- What is handed to the outer condition is one of the conditions. -/
theorem mem_rows_of_lifted {kind : JoinKind} {row : List (Lexeme Test)}
    (h : row ∈ joined.lifted kind) : row ∈ joined.rows := by
  unfold lifted at h
  split at h
  · exact absurd h List.not_mem_nil
  · rcases List.mem_append.mp h with h | h
    · split at h
      · exact absurd h List.not_mem_nil
      · exact List.mem_singleton.mp h ▸ List.mem_cons_self
    · exact List.mem_cons_of_mem _ h

/-- What is required of joined rows is the condition. -/
theorem mem_rows_of_required {row : List (Lexeme Test)} (h : row ∈ extra.required) :
    row ∈ extra.rows := by
  unfold required at h
  split at h
  · exact absurd h List.not_mem_nil
  · exact List.mem_singleton.mp h ▸ List.mem_cons_self

/-- No clauses at all. -/
theorem ofTests_empty (text : Option String) : OfTests property { text } := by
  intro row hrow
  obtain rfl := List.mem_singleton.mp hrow
  exact ⟨.nil, by simp⟩

/-- Adding a join whose conditions have tests with the property. -/
theorem OfTests.addJoin (ho : o.OfTests property) (hj : joined.OfTests property)
    (he : extra.OfTests property) (tableAlias : String) (join : ResolvedJoin) :
    (o.addJoin tableAlias join joined extra).OfTests property := by
  have hlifted : ∀ row ∈ joined.lifted join.kind, Lexeme.IsSum row ∧
      ∀ test, .atom test ∈ row → property test :=
    fun row hrow => hj row (mem_rows_of_lifted hrow)
  obtain ⟨hcondition, hextras⟩ := List.forall_mem_cons.mp ho
  refine List.forall_mem_cons.mpr ⟨⟨?_, fun test hm => ?_⟩, fun row hrow => ?_⟩
  · exact hcondition.1.requireAll (fun row hrow => (hlifted row hrow).1) _
  · rcases Lexeme.atom_mem_requireAll.mp hm with hm | ⟨row, hrow, hm⟩
    · exact hcondition.2 test hm
    · exact (hlifted row hrow).2 test hm
  · rcases List.mem_append.mp hrow with hrow | hrow
    · exact hextras row hrow
    · exact he row (mem_rows_of_required hrow)

end Outline

/-- The tests of a query have a property that its comparisons, the test for membership in a closure
and the tests of its joins have. -/
theorem ResolvedQuery.ofTests_outline {r : ResolvedQuery} {tableAlias : String}
    {property : Test → Prop} (own : ∀ c : ResolvedCriterion, property (c.test tableAlias))
    (member : ∀ column table, property (.member ⟨tableAlias, column⟩ table))
    (joined : ∀ join ∈ r.joins, join.joined.OfTests property)
    (required : ∀ join ∈ r.joins, join.required.OfTests property) :
    (r.outline tableAlias).OfTests property := by
  refine outline_of_steps (fun raw _ => Outline.ofTests_empty _) ?_ (fun o arm _ ho => ho)
    (fun o join hm ho => ho.addJoin (joined join hm) (required join hm) tableAlias join) ?_
  · intro row hrow
    obtain rfl := List.mem_singleton.mp hrow
    have hstart := r.start_writes tableAlias
    refine ⟨hstart.sum, fun test hm => ?_⟩
    obtain ⟨c, -, rfl⟩ := (hstart.atoms test).mp hm
    exact own c
  · intro o closure _ _ row hrow
    obtain rfl := List.mem_singleton.mp hrow
    refine ⟨.of_term (.atom _), fun test hm => ?_⟩
    obtain rfl := Lexeme.atom.inj (List.mem_singleton.mp hm)
    exact member _ _

/-- The conditions of a query are rows of terms, and compare no two columns. -/
theorem ResolvedQuery.plain_outline (r : ResolvedQuery) :
    ∀ tableAlias, (r.outline tableAlias).OfTests fun test => test.isPair = false := by
  induction r using ResolvedQuery.induction with | step r within
  intro tableAlias
  exact ofTests_outline (fun c => c.isPair_test tableAlias) (fun _ _ => rfl)
    (fun join hm => within.joined join hm join.innerAlias)
    fun _ hm => within.required (Outline.ofTests_empty none) hm

namespace Translating

variable {catalog : Catalog} {source tableAlias : String} {join : Join}
  {translateExtra : Option (String → Translating Translation)} {out t : Translation}
  {w v : Workspace}

/-- Conditions go into the outer condition and leave the joins alone. -/
theorem liftConditions_joins (join : Join) (translated out : Translation) :
    (liftConditions join translated out).joins = out.joins := by
  have hrequired : ∀ (extras : List String) (t : Translation),
      (extras.foldl Translation.andCondition t).joins = t.joins :=
    fun extras t => (foldl_andCondition_joins extras t true).2
  unfold liftConditions
  split
  · rfl
  · rw [hrequired]
    split
    · exact hrequired [_] out
    · rfl

/-- The condition on joined rows adds no join. -/
theorem requireExtra_joins {targetAlias : String}
    (h : outcome (requireExtra translateExtra targetAlias out) w = (.ok t, v)) :
    t.joins = out.joins := by
  unfold requireExtra at h
  split at h
  · rw [(outcome_pure_eq_ok.mp h).1]
  · simp only [outcome_bind_eq_ok, outcome_pure_eq_ok] at h
    obtain ⟨extra, x, -, rfl, -⟩ := h
    unfold addExtra
    split <;> rfl

/-- Writing a join adds its clause. -/
theorem writeJoin_joins {j : ResolvedJoin} (hj : ResolvesJoin catalog source join j)
    (tableAlias : String) (out : Translation) :
    (writeJoin catalog source tableAlias join j.innerAlias j.targetAlias j.joined.toTranslation
      out).joins = out.joins ++ [(j.clause tableAlias j.joined).sql] := by
  unfold writeJoin
  dsimp only
  rw [joinText_eq tableAlias hj, liftConditions_joins]

/-- The joins of a joined query that is written into the other one follow its clause. -/
theorem liftJoins_joins {j : ResolvedJoin} (hi : j.inlined = true) (out : Translation) :
    (liftJoins j.joined.toTranslation out).joins =
      out.joins ++ j.joined.toTranslation.joins := by
  have harms : j.joined.hasArms = false :=
    (j.query.hasArms_outline j.innerAlias).trans (ResolvedJoin.hasArms_of_inlined hi)
  have hallow : j.joined.toTranslation.allowJoin = true :=
    (j.query.allowJoin_outline j.innerAlias).trans (ResolvedJoin.keepsJoins_of_inlined hi)
  rw [liftJoins, Outline.hasCombine_toTranslation, harms, hallow]
  rfl

/-- Other than in a cross join, its condition stands behind the compared columns. -/
theorem clause_sql_of_inlined {j : ResolvedJoin} (hj : ResolvesJoin catalog source join j)
    (hi : j.inlined = true) (hk : join.kind ≠ .cross) (tableAlias : String) :
    (j.clause tableAlias j.joined).sql = joinedText join.kind
      (quote (catalog.table join.query.entity) ++ " AS " ++ j.innerAlias)
      (conditionText (Lexeme.afterAtoms (joinTests catalog source join tableAlias j.innerAlias)
        j.joined.condition)) := by
  have harms : j.joined.hasArms = false :=
    (j.query.hasArms_outline j.innerAlias).trans (ResolvedJoin.hasArms_of_inlined hi)
  rw [ResolvedJoin.clause, JoinClause.sql, hj.pairTests, j.tested_joined, hi, hj.kind,
    Bool.true_and, if_pos (bne_iff_ne.mpr hk), ResolvedJoin.targetAlias_of_inlined hi, harms,
    if_neg Bool.false_ne_true, JoinSource.sql, hj.query.table]

/-- A join without set operations and without a closure, other than a cross join, writes its ON
clause from the compared columns and the condition of the joined query under its alias. Read with
AND binding tighter than OR, the clause holds just when all of these hold, whatever the tests stand
for, exactly when no columns are compared or the condition has no OR outside of all parentheses. -/
theorem addJoin_conjunction_iff (hk : join.kind ≠ .cross) (ha : join.query.hasArms = false)
    (hr : join.query.keepsJoins = true)
    (h : outcome (addJoin catalog source tableAlias join (join.query.translateUnder catalog false)
      translateExtra out) w = (.ok t, v)) :
    ∃ joinAlias x joined y r,
      outcome nextAlias w = (.ok joinAlias, x) ∧
      outcome (join.query.translateUnder catalog false joinAlias) x = (.ok joined, y) ∧
      outcome (join.query.resolve catalog false joinAlias) x = (.ok r, y) ∧
      let pairs := joinTests catalog source join tableAlias joinAlias
      let own := (r.outline joinAlias).condition
      let on := Lexeme.afterAtoms pairs own
      pairs.map Test.sql = joinConditions catalog source join tableAlias joinAlias ∧
      joined.condition = conditionText own ∧
      t.joins = out.joins ++ joinedText join.kind
        (quote (catalog.table join.query.entity) ++ " AS " ++ joinAlias) (conditionText on)
          :: joined.joins ∧
      ((∀ holds : Test → Bool, Lexeme.Admits holds on ↔
          (∀ test ∈ pairs, holds test = true) ∧ Lexeme.Admits holds own) ↔
        pairs = [] ∨ Lexeme.alternates 0 own = false) := by
  simp only [addJoin, outcome_bind_eq_ok, outcome_pure_eq_ok] at h
  obtain ⟨_, x₀, hn, joinAlias, x, hx, joined, y, hy, targetAlias, z, hz, extended, u, hu, rfl, -⟩ :=
    h
  obtain rfl : w = x₀ := (outcome_lift_eq_ok.mp hn).2
  have hshape := (join.query.translateUnder_effect hy).2
  obtain ⟨r, hres, rfl⟩ := join.query.translateUnder_resolve hy
  have harms : (r.outline joinAlias).hasArms = false := by
    rw [← Outline.hasCombine_toTranslation]
    exact (congrArg Shape.hasCombine hshape).trans ha
  have hallow : (r.outline joinAlias).allowJoin = true := (congrArg Shape.allowJoin hshape).trans hr
  obtain rfl : joinAlias = targetAlias := by
    rw [joinedAlias, Outline.hasCombine_toTranslation, harms, if_neg Bool.false_ne_true,
      outcome_pure_eq_ok] at hz
    exact hz.1
  let j : ResolvedJoin :=
    { kind := join.kind, operator := join.operator, pairs := resolvePairs catalog source join,
      innerAlias := joinAlias, query := r, outerAlias := joinAlias }
  have hj : ResolvesJoin catalog source join j := ⟨rfl, rfl, rfl, Query.resolve_resolves hres⟩
  have hi : j.inlined = true := by
    rw [ResolvedJoin.inlined, ← r.hasArms_outline joinAlias, ← r.allowJoin_outline joinAlias, harms,
      hallow]
    rfl
  have htarget : j.targetAlias = joinAlias := ResolvedJoin.targetAlias_of_inlined hi
  refine ⟨joinAlias, x, _, y, r, hx, hy, hres, (joinConditions_eq ..).symm, rfl, ?_, ?_⟩
  · have hwritten := writeJoin_joins hj tableAlias out
    rw [htarget, clause_sql_of_inlined hj hi hk] at hwritten
    refine (liftJoins_joins hi extended).trans ?_
    rw [requireExtra_joins hu]
    refine (congrArg (· ++ _) hwritten).trans ?_
    rw [List.append_assoc, List.singleton_append]
    rfl
  · refine Lexeme.admits_afterAtoms_iff ((r.plain_outline joinAlias) _ List.mem_cons_self).1 ?_
    intro test hm hrow
    obtain ⟨pair, -, rfl⟩ := List.mem_map.mp hm
    exact Bool.noConfusion
      (((r.plain_outline joinAlias) _ List.mem_cons_self).2 _ hrow : Test.isPair (.pair ..) = false)

/-- Two conditions in a group are put in parentheses, so the compared columns are required with
either of them. -/
theorem addJoin_conjunction_group :
    let choice := ((Query.ofEntity "Team").equal "open" (.bool true)).orFilter "public" .equal
      (.bool true)
    let join : Join :=
      { kind := .inner, fields := [("team", "id")]
        query := { entity := "Team", conditions := [⟨.and, .group choice⟩] } }
    let own : List (Lexeme Test) :=
      [.opening, .atom (.value "S0" ⟨"open", false⟩ .equal "open1"), .connector .or,
        .atom (.value "S0" ⟨"public", false⟩ .equal "public2"), .closing]
    let pair : Test := .pair ⟨"TB", "team"⟩ .equal ⟨"S0", "id"⟩
    join.kind ≠ .cross ∧ join.query.hasArms = false ∧ join.query.keepsJoins = true ∧
    ∃ t v, outcome (addJoin {} "User" "TB" join (join.query.translateUnder {} false) none {}) {} =
        (.ok t, v) ∧
      t.joins = ["INNER JOIN `Team` AS S0 ON " ++ conditionText (.atom pair
        :: .connector .and :: own)] ∧
      ∀ holds : Test → Bool, Lexeme.Admits holds (.atom pair :: .connector .and :: own) ↔
        holds pair = true ∧ Lexeme.Admits holds own := by
  intro choice join own pair
  have hk : join.kind ≠ .cross := by decide
  refine ⟨hk, rfl, rfl, ?_⟩
  have hrun : ∃ t v, outcome (addJoin {} "User" "TB" join (join.query.translateUnder {} false) none
      {}) {} = (.ok t, v) := ⟨_, _, rfl⟩
  obtain ⟨t, v, hrun⟩ := hrun
  obtain ⟨joinAlias, x, joined, y, r, hx, hy, hres, -, -, hjoins, hiff⟩ :=
    addJoin_conjunction_iff hk rfl rfl hrun
  obtain ⟨hn, rfl⟩ := Prod.mk.inj hx
  obtain rfl := Except.ok.inj hn
  obtain ⟨hf, rfl⟩ := Prod.mk.inj hres
  obtain rfl := Except.ok.inj hf
  obtain rfl := Except.ok.inj (Prod.mk.inj hy).1
  refine ⟨t, v, hrun, hjoins.trans (by decide +kernel), fun holds => ?_⟩
  have hholds := hiff.mpr (.inr rfl) holds
  rw [show joinTests {} "User" join "TB" (NameSupply.nextAlias {}).1 = [pair] from rfl] at hholds
  rw [List.forall_mem_singleton] at hholds
  exact hholds

/-- Two conditions with an OR between them are not put in parentheses. With the second of them true,
the ON clause is read as true for rows whose compared columns differ. -/
theorem addJoin_splits_alternative :
    let join : Join :=
      { kind := .inner, fields := [("team", "id")]
        query := ((Query.ofEntity "Team").equal "open" (.bool true)).orFilter "public" .equal
          (.bool true) }
    let pair : Test := .pair ⟨"TB", "team"⟩ .equal ⟨"S0", "id"⟩
    let own : List (Lexeme Test) :=
      [.atom (.value "S0" ⟨"open", false⟩ .equal "open1"), .connector .or,
        .atom (.value "S0" ⟨"public", false⟩ .equal "public2")]
    let on := .atom pair :: .connector .and :: own
    let differ : Test → Bool := fun test => !test.isPair
    join.kind ≠ .cross ∧ join.query.hasArms = false ∧ join.query.keepsJoins = true ∧
    (∃ t v, outcome (addJoin {} "User" "TB" join (join.query.translateUnder {} false) none {}) {} =
        (.ok t, v) ∧ t.joins = ["INNER JOIN `Team` AS S0 ON " ++ conditionText on]) ∧
    (∃ joined v, outcome (join.query.translateUnder {} false "S0") {} = (.ok joined, v) ∧
      joined.condition = conditionText own) ∧
    conditionText on = "TB.`team` = S0.`id` AND S0.`open` = ?open1 OR S0.`public` = ?public2" ∧
    Lexeme.read differ on = some true ∧ Lexeme.read differ own = some true ∧
    differ pair = false := by
  intro join pair own on differ
  exact ⟨by decide, rfl, rfl, ⟨_, _, rfl, by decide +kernel⟩, ⟨_, _, rfl, by decide +kernel⟩,
    by decide +kernel, rfl, rfl, rfl⟩

end Translating

end AbstractSql
