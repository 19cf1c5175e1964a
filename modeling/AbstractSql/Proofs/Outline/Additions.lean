import AbstractSql.Proofs.Outline.Matching
import AbstractSql.Proofs.Outline.Translated
import AbstractSql.Proofs.Predicate.Requiring
import Mathlib

/-!
# Adding to a condition

Conditions are added to that of a translated query one after another, and the conditions on joined
rows are moved into it. All of them have to hold afterwards, unless one that is added has an
alternative outside of all parentheses: only the condition so far is put in parentheses.
-/

namespace AbstractSql

/-- A step that adds to a condition. -/
inductive Addition (α : Type) where
  /-- Another condition is required. -/
  | condition (extra : α)
  /-- The conditions on joined rows are moved into the condition. -/
  | joinExtras

namespace Addition

variable {α β : Type}

/-- A step with another form of what it requires. -/
def map (f : α → β) : Addition α → Addition β
  | condition extra => condition (f extra)
  | joinExtras => joinExtras

/-- All that steps require, in order. The conditions on joined rows are moved once. -/
def rows (extras : List α) : List (Addition α) → List α
  | [] => []
  | condition extra :: rest => extra :: rows extras rest
  | joinExtras :: rest => extras ++ rows [] rest

/-- Nothing else is required. -/
theorem mem_rows {extra : α} {extras : List α} {steps : List (Addition α)}
    (h : extra ∈ rows extras steps) : extra ∈ extras ∨ condition extra ∈ steps := by
  induction steps generalizing extras with
  | nil => exact absurd h List.not_mem_nil
  | cons step rest ih =>
    cases step with
    | condition first =>
      rcases List.mem_cons.mp h with rfl | h
      · exact .inr List.mem_cons_self
      · exact (ih h).imp_right (List.mem_cons_of_mem _)
    | joinExtras =>
      rcases List.mem_append.mp h with h | h
      · exact .inl h
      · exact .inr (List.mem_cons_of_mem _ ((ih h).resolve_left List.not_mem_nil))

end Addition

/-- A translation after a step. -/
def Translation.add (t : Translation) : Addition String → Translation
  | .condition extra => t.andCondition extra
  | .joinExtras => t.mergeJoinExtras

/-- The clauses of a query after a step. -/
def Outline.add (o : Outline) : Addition (List (Lexeme Test)) → Outline
  | .condition row => o.requireAll [row]
  | .joinExtras => o.mergeJoinExtras

/-- Conditions that were translated. -/
structure TranslatedClauses (catalog : Catalog) where
  /-- Entity of the tested rows. -/
  entity : String
  /-- Alias of the tested rows. -/
  tableAlias : String
  /-- The conditions. -/
  clauses : List Clause
  /-- What they are translated to. -/
  list : ConditionList
  /-- Names issued and values bound before. -/
  before : Workspace
  /-- Names issued and values bound afterwards. -/
  after : Workspace
  /-- They were translated. -/
  translated : outcome (translateClauses catalog entity tableAlias clauses {}) before =
    (.ok list, after)

namespace TranslatedClauses

variable {catalog : Catalog}

/-- The row of tests that the conditions are written as. -/
def row (c : TranslatedClauses catalog) : List (Lexeme Test) :=
  match (outcome (resolveClauses catalog c.entity c.clauses) c.before).1 with
  | .ok resolved => (clausesOutline c.tableAlias resolved {}).row
  | .error _ => []

/-- The text is that of a row of terms, and whether it has an alternative outside of all parentheses
is known. -/
theorem list_eq (c : TranslatedClauses catalog) :
    c.list.text = conditionText c.row ∧ Lexeme.IsSum c.row ∧
      c.list.hasOr = Lexeme.alternates 0 c.row := by
  obtain ⟨resolved, hresolved, hlist⟩ := translateClauses_resolve c.clauses {} c.translated
  have hrow : c.row = (clausesOutline c.tableAlias resolved {}).row := by
    rw [row, hresolved]
  have hwrites := clausesOutline_writes c.tableAlias resolved ConditionOutline.Writes.nil
  rw [hrow, hlist]
  exact ⟨rfl, hwrites.sum, hwrites.alternates⟩

end TranslatedClauses

namespace Outline

/-- A step is written as the step on texts. -/
theorem toTranslation_add (o : Outline) (step : Addition (List (Lexeme Test))) :
    (o.add step).toTranslation = o.toTranslation.add (step.map conditionText) := by
  cases step with
  | condition row => exact o.toTranslation_require row
  | joinExtras => exact o.toTranslation_mergeJoinExtras

/-- Steps are written as the steps on texts. -/
theorem toTranslation_foldl_add (steps : List (Addition (List (Lexeme Test)))) (o : Outline) :
    (steps.foldl add o).toTranslation =
      (steps.map (Addition.map conditionText)).foldl Translation.add o.toTranslation := by
  induction steps generalizing o with
  | nil => rfl
  | cons step rest ih => rw [List.foldl_cons, ih, toTranslation_add, List.map_cons, List.foldl_cons]

/-- Steps require all that they add, one after the other. -/
theorem foldl_add_condition (steps : List (Addition (List (Lexeme Test)))) (o : Outline) :
    (steps.foldl add o).condition =
        Lexeme.requireAll o.hasOr o.condition (Addition.rows o.joinExtras steps) ∧
      (steps.foldl add o).hasOr =
        (o.hasOr && (Addition.rows o.joinExtras steps).all List.isEmpty) := by
  induction steps generalizing o with
  | nil => simp [Addition.rows, Lexeme.requireAll]
  | cons step rest ih =>
    rw [List.foldl_cons]
    cases step with
    | condition row =>
      obtain ⟨hcondition, hor⟩ := ih (o.add (.condition row))
      rw [hcondition, hor]
      simp [add, requireAll, Addition.rows, Lexeme.requireAll, Bool.and_assoc]
    | joinExtras =>
      obtain ⟨hcondition, hor⟩ := ih (o.add .joinExtras)
      rw [hcondition, hor]
      simp [add, mergeJoinExtras, requireAll, Addition.rows, Lexeme.requireAll_append,
        Bool.and_assoc]

end Outline

/-- The empty translation is that of a query without clauses. -/
theorem Query.translateUnder_ofEntity (catalog : Catalog) (useSort : Bool)
    (entity tableAlias : String) (w : Workspace) :
    outcome ((Query.ofEntity entity).translateUnder catalog useSort tableAlias) w = (.ok {}, w) := by
  cases useSort <;> rfl

/-- What becomes of the condition of a translated query when conditions are added. Together with
all that is added it is written as a row, whose meaning is that of all of them exactly where nothing
stands beside an alternative that is overlooked: one of the condition so far that is not known, or
one of something added. Just so, the whole is known to have an alternative where it has one. -/
theorem Query.translateUnder_conjoins {catalog : Catalog} {useSort : Bool} {q : Query}
    {tableAlias : String} {w v : Workspace} {t : Translation}
    (h : outcome (q.translateUnder catalog useSort tableAlias) w = (.ok t, v))
    (steps : List (Addition (TranslatedClauses catalog))) :
    ∃ r, outcome (q.resolve catalog useSort tableAlias) w = (.ok r, v) ∧
      let o := r.outline tableAlias
      let rows := Addition.rows o.joinExtras (steps.map (Addition.map TranslatedClauses.row))
      let last := (steps.map (Addition.map fun c => c.list.text)).foldl Translation.add t
      t = o.toTranslation ∧
      last.condition = conditionText (Lexeme.requireAll t.hasOr o.condition rows) ∧
      last.hasOr = (t.hasOr && rows.all List.isEmpty) ∧
      Lexeme.Conjoins t.hasOr o.condition rows := by
  obtain ⟨r, hr, rfl⟩ := q.translateUnder_resolve h
  refine ⟨r, hr, ?_⟩
  intro o rows last
  have hplain := r.plain_outline tableAlias
  have htexts : steps.map (Addition.map fun c => c.list.text) =
      (steps.map (Addition.map TranslatedClauses.row)).map (Addition.map conditionText) := by
    rw [List.map_map]
    refine List.map_congr_left fun step _ => ?_
    cases step with
    | condition c => exact congrArg Addition.condition c.list_eq.1
    | joinExtras => rfl
  have hlast : last = ((steps.map (Addition.map TranslatedClauses.row)).foldl Outline.add o).toTranslation := by
    rw [Outline.toTranslation_foldl_add, ← htexts]
  obtain ⟨hcondition, hor⟩ := o.foldl_add_condition (steps.map (Addition.map TranslatedClauses.row))
  refine ⟨rfl, ?_, ?_, Lexeme.conjoins (hplain _ List.mem_cons_self).1 (fun extra he => ?_) _⟩
  · rw [hlast]
    exact congrArg conditionText hcondition
  · rw [hlast]
    exact hor
  · rcases Addition.mem_rows he with he | he
    · exact (hplain extra (List.mem_cons_of_mem _ he)).1
    · obtain ⟨step, -, hstep⟩ := List.mem_map.mp he
      cases step with
      | condition c =>
        obtain rfl : c.row = extra := Addition.condition.inj hstep
        exact c.list_eq.2.1
      | joinExtras => exact absurd hstep (by simp [Addition.map])

/-- A chain of alternatives is put in parentheses once, in front of a condition on joined rows and
another condition. Added to the empty translation, the other condition is the whole. -/
theorem Query.translateUnder_conjoins_chain :
    let missing (field : String) : Condition :=
      .criterion { field, operator := .isNull, value := .value .null }
    let q : Query :=
      { entity := "User", conditions := [⟨.and, missing "a"⟩, ⟨.or, missing "b"⟩]
        joins := [{ kind := .inner, fields := [("team", "id")], query := Query.ofEntity "Team"
                    extra := some { entity := "Team", conditions := [⟨.and, missing "closed"⟩] } }] }
    ∃ t v list last, outcome (q.translateUnder {} true "TB") {} = (.ok t, v) ∧
      outcome (translateClauses {} "Banned" "S1" [⟨.and, missing "id"⟩] {}) {} = (.ok list, {}) ∧
      last = t.mergeJoinExtras.andCondition list.text ∧ last.condition =
        "(TB.`a` IS NULL OR TB.`b` IS NULL) AND S0.`closed` IS NULL AND S1.`id` IS NULL" ∧
      ∃ row rows, t.condition = conditionText row ∧
        rows.map conditionText = ["S0.`closed` IS NULL", "S1.`id` IS NULL"] ∧
        last.condition = conditionText (Lexeme.requireAll t.hasOr row rows) ∧
        (∀ holds, Lexeme.Admits holds (Lexeme.requireAll t.hasOr row rows) ↔
          Lexeme.Admits holds row ∧ ∀ extra ∈ rows, Lexeme.Admits holds extra) ∧
        ∃ alone, list.text = conditionText alone ∧
          (({} : Translation).andCondition list.text).condition =
            conditionText (Lexeme.requireAll false [] [alone]) ∧
          ∀ holds, Lexeme.Admits holds (Lexeme.requireAll false [] [alone]) ↔
            Lexeme.Admits holds alone := by
  intro missing q
  let added : TranslatedClauses {} :=
    ⟨"Banned", "S1", [⟨.and, missing "id"⟩], _, {}, _, rfl⟩
  have hrun : ∃ t v, outcome (q.translateUnder {} true "TB") {} = (.ok t, v) ∧
      (t.mergeJoinExtras.andCondition added.list.text).condition =
        "(TB.`a` IS NULL OR TB.`b` IS NULL) AND S0.`closed` IS NULL AND S1.`id` IS NULL" :=
    ⟨_, _, rfl, by decide +kernel⟩
  obtain ⟨t, v, hrun, hlast⟩ := hrun
  obtain ⟨r, hr, ht, hcondition, -, hall⟩ :=
    Query.translateUnder_conjoins hrun [.joinExtras, .condition added]
  obtain ⟨hf, -⟩ := Prod.mk.inj hr
  obtain rfl := Except.ok.inj hf
  subst ht
  obtain ⟨r', hr', -, hcondition', -, hall'⟩ :=
    Query.translateUnder_conjoins (Query.translateUnder_ofEntity {} true "User" "TB" {})
      [.condition added]
  obtain ⟨hf', -⟩ := Prod.mk.inj hr'
  obtain rfl := Except.ok.inj hf'
  have hmeans : ∀ holds, Lexeme.Admits holds (Lexeme.requireAll false [] [added.row]) ↔
      Lexeme.Admits holds [] ∧ ∀ extra ∈ [added.row], Lexeme.Admits holds extra :=
    hall'.means (.inl (by decide +kernel))
  refine ⟨_, v, added.list, _, hrun, rfl, rfl, hlast, _, _, rfl, by decide +kernel, hcondition,
    hall.means (.inl (by decide +kernel)), added.row, added.list_eq.1, hcondition', fun holds => ?_⟩
  rw [hmeans, List.forall_mem_singleton]
  exact and_iff_right (.inl rfl)

/-- A condition on joined rows with an alternative is not put in parentheses: the whole holds though
the condition of the query does not. Without a condition of the query the alternative is not known
either, and another condition is bound to its second half only. -/
theorem Query.translateUnder_overlooks_alternatives :
    let team : Join :=
      { kind := .inner, fields := [("team", "id")], query := Query.ofEntity "Team"
        extra := some (((Query.ofEntity "Team").equal "open" (.bool true)).orFilter "public" .equal
          (.bool true)) }
    let missing : Condition :=
      .criterion { field := "deleted", operator := .isNull, value := .value .null }
    let alive : Query := { entity := "User", conditions := [⟨.and, missing⟩], joins := [team] }
    let own : List (Lexeme Test) := [.atom (.missing "TB" ⟨"deleted", false⟩ .isNull)]
    let extra : List (Lexeme Test) :=
      [.atom (.value "S0" ⟨"open", false⟩ .equal "open1"), .connector .or,
        .atom (.value "S0" ⟨"public", false⟩ .equal "public2")]
    let holds : Test → Bool := fun
      | .missing .. => false
      | _ => true
    (∃ t v, outcome (alive.translateUnder {} true "TB") {} = (.ok t, v) ∧
      t.condition = conditionText own ∧ t.joinExtras = [conditionText extra] ∧
      t.mergeJoinExtras.condition = conditionText (own ++ .connector .and :: extra) ∧
      conditionText (own ++ .connector .and :: extra) =
        "TB.`deleted` IS NULL AND S0.`open` = ?open1 OR S0.`public` = ?public2" ∧
      Lexeme.read holds own = some false ∧
      Lexeme.read holds (own ++ .connector .and :: extra) = some true) ∧
    ∃ t v, outcome (((Query.ofEntity "User").withJoin team).translateUnder {} true "TB") {} =
        (.ok t, v) ∧
      t.condition = "" ∧ t.mergeJoinExtras.condition = conditionText extra ∧
      Lexeme.alternates 0 extra = true ∧ t.mergeJoinExtras.hasOr = false ∧
      (t.mergeJoinExtras.andCondition (conditionText own)).condition =
        "S0.`open` = ?open1 OR S0.`public` = ?public2 AND TB.`deleted` IS NULL" ∧
      (t.mergeJoinExtras.andCondition (conditionText own)).condition =
        conditionText (extra ++ .connector .and :: own) ∧
      Lexeme.read holds (extra ++ .connector .and :: own) = some true := by
  intro team missing alive own extra holds
  refine ⟨⟨_, _, rfl, ?_⟩, ⟨_, _, rfl, ?_⟩⟩
  · exact ⟨by decide +kernel, by decide +kernel, by decide +kernel, by decide +kernel, rfl, rfl⟩
  · exact ⟨by decide +kernel, by decide +kernel, rfl, by decide +kernel, by decide +kernel,
      by decide +kernel, rfl⟩

end AbstractSql
