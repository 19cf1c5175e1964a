import AbstractSql.Batch
import AbstractSql.Proofs.Outcome

/-!
# Compiled commands

What a compiled command is, kind by kind: the names it takes from the supply, its statement and its
parameters. Later proofs take these equations in place of the steps of the compiler.
-/

namespace AbstractSql

namespace NameSupply

/-- A new parameter name for each base, one after another. -/
def nextParameters : NameSupply → List String → List String × NameSupply
  | names, [] => ([], names)
  | names, base :: rest =>
    let issued := names.nextParameter base
    let after := issued.2.nextParameters rest
    (issued.1 :: after.1, after.2)

/-- Every base gets a name. -/
@[simp] theorem nextParameters_length (names : NameSupply) (bases : List String) :
    (names.nextParameters bases).1.length = bases.length := by
  induction bases generalizing names with
  | nil => rfl
  | cons base rest ih => simp only [nextParameters, List.length_cons, ih]

end NameSupply

/-- Issuing names for a list of bases never fails. -/
theorem Naming.outcome_freshAll (bases : List String) (names : NameSupply) :
    outcome (freshAll bases) names =
      (.ok (names.nextParameters bases).1, (names.nextParameters bases).2) := by
  induction bases generalizing names with
  | nil => rfl
  | cons base rest ih =>
    have hf : outcome (fresh base) names =
        (.ok (names.nextParameter base).1, (names.nextParameter base).2) := rfl
    simp only [freshAll, outcome_bind, hf, ih, outcome_pure, NameSupply.nextParameters]

/-- Translating as a step is translating with the present supply. -/
theorem Statement.outcome_translated_eq_ok {catalog : Catalog} {q : Query} {names names' : NameSupply}
    {t : Translation} :
    outcome (translated catalog q) names = (.ok t, names') ↔
      q.translate catalog names = (.ok t, names') := by
  simp only [translated, outcome_bind, outcome_get, outcome_set]
  rcases q.translate catalog names with ⟨e | t', rest⟩
  · simp only [outcome_throw, Prod.mk.injEq, reduceCtorEq, false_and]
  · simp only [outcome_pure]

namespace Command

variable {catalog : Catalog} {c : Command} {names names' : NameSupply} {u : ExecutionUnit}

/-- A statement text or a procedure call is compiled without taking a name. -/
theorem toUnit_text {text : String} {isProcedure : Bool} (hk : c.kind = .text text isProcedure) :
    outcome (c.toUnit catalog) names = (.ok (c.textUnit text isProcedure), names) := by
  simp only [toUnit, hk, outcome_pure]

/-- An insertion is compiled exactly when there is a field to insert, and then takes one name for
every such field. -/
theorem toUnit_insert {properties : List String} (hk : c.kind = .insert)
    (hp : (catalog.editFields c.entity).map (·.property) = properties) :
    outcome (c.toUnit catalog) names = (.ok u, names') ↔
      properties ≠ [] ∧ names' = (names.nextParameters properties).2 ∧
        u = { ExecutionUnit.ofStatement (c.insertText catalog (names.nextParameters properties).1)
                (bindAll c.values (properties.zip (names.nextParameters properties).1)) with
              mustAffectRows := c.mustAffectRows } := by
  subst hp
  rw [toUnit, hk]
  by_cases hf : catalog.editFields c.entity = []
  · simp [insertUnit, hf]
  · have he : (catalog.editFields c.entity).isEmpty = false := by simp [hf]
    have hm : (catalog.editFields c.entity).map (·.property) ≠ [] := by simp [hf]
    simp only [insertUnit, he, Bool.false_eq_true, if_false, outcome_bind_eq_ok, outcome_pure,
      Naming.outcome_freshAll, Prod.mk.injEq, Except.ok.injEq]
    constructor
    · rintro ⟨_, _, ⟨_, _, ⟨rfl, rfl⟩, rfl, rfl⟩, rfl, rfl⟩
      exact ⟨hm, rfl, rfl⟩
    · rintro ⟨-, rfl, rfl⟩
      exact ⟨_, _, ⟨_, _, ⟨rfl, rfl⟩, rfl, rfl⟩, rfl, rfl⟩

/-- An update is compiled exactly when it sets something and its target can be translated. The
assigned values take their names first. -/
theorem toUnit_update (hk : c.kind = .update) :
    outcome (c.toUnit catalog) names = (.ok u, names') ↔
      c.fields ≠ [] ∧
      ∃ t, c.target.translate catalog (names.nextParameters c.fields).2 = (.ok t, names') ∧
        u = { definedUnit t (c.updateText catalog (names.nextParameters c.fields).1 t)
                ((bindAll c.values (c.fields.zip (names.nextParameters c.fields).1)).union
                  t.parameters) with
              mustAffectRows := c.mustAffectRows } := by
  rw [toUnit, hk]
  by_cases hf : c.fields = []
  · simp [updateUnit, hf]
  · have he : c.fields.isEmpty = false := by simp [hf]
    simp only [updateUnit, he, Bool.false_eq_true, if_false, outcome_bind_eq_ok, outcome_pure,
      Naming.outcome_freshAll, Statement.outcome_translated_eq_ok, Prod.mk.injEq, Except.ok.injEq]
    constructor
    · rintro ⟨_, _, ⟨_, _, ⟨rfl, rfl⟩, t, _, ht, rfl, rfl⟩, rfl, rfl⟩
      exact ⟨hf, t, ht, rfl⟩
    · rintro ⟨-, t, ht, rfl⟩
      exact ⟨_, _, ⟨_, _, ⟨rfl, rfl⟩, t, _, ht, rfl, rfl⟩, rfl, rfl⟩

/-- A deletion is compiled exactly when its target can be translated. -/
theorem toUnit_delete (hk : c.kind = .delete) :
    outcome (c.toUnit catalog) names = (.ok u, names') ↔
      ∃ t, c.target.translate catalog names = (.ok t, names') ∧
        u = { definedUnit t (c.deleteText catalog t) t.parameters with
              mustAffectRows := c.mustAffectRows } := by
  rw [toUnit, hk]
  simp only [deleteUnit, outcome_bind_eq_ok, outcome_pure, Statement.outcome_translated_eq_ok,
    Prod.mk.injEq, Except.ok.injEq]
  constructor
  · rintro ⟨_, _, ⟨t, _, ht, rfl, rfl⟩, rfl, rfl⟩
    exact ⟨t, ht, rfl⟩
  · rintro ⟨t, ht, rfl⟩
    exact ⟨_, _, ⟨t, _, ht, rfl, rfl⟩, rfl, rfl⟩

/-- Commands compiled one after another with one supply of names, and the supply they leave. -/
inductive Compiles (catalog : Catalog) :
    NameSupply → List Command → List ExecutionUnit → NameSupply → Prop where
  /-- Nothing is compiled. -/
  | nil (names : NameSupply) : Compiles catalog names [] [] names
  /-- The first command is compiled, and then the others with the supply it leaves. -/
  | cons {names middle final : NameSupply} {c : Command} {u : ExecutionUnit}
      {rest : List Command} {us : List ExecutionUnit}
      (first : outcome (c.toUnit catalog) names = (.ok u, middle))
      (others : Compiles catalog middle rest us final) :
      Compiles catalog names (c :: rest) (u :: us) final

/-- The first command of a list is compiled, and then the others if it does not fail. -/
theorem compileAll_cons (c : Command) (rest : List Command) :
    compileAll catalog (c :: rest) names =
      match outcome (c.toUnit catalog) names with
      | (.error failure, _) => ([], some failure)
      | (.ok u, names) => (u :: (compileAll catalog rest names).1,
          (compileAll catalog rest names).2) := by
  rw [compileAll]
  rfl

/-- Compiling a list fails nowhere exactly when its commands compile one after another. -/
theorem compileAll_eq_none {commands : List Command} {us : List ExecutionUnit} :
    compileAll catalog commands names = (us, none) ↔
      ∃ final, Compiles catalog names commands us final := by
  induction commands generalizing names us with
  | nil =>
    constructor
    · intro h
      simp only [compileAll, Prod.mk.injEq, and_true] at h
      exact h ▸ ⟨names, .nil names⟩
    · rintro ⟨_, ⟨⟩⟩
      rfl
  | cons c rest ih =>
    rw [compileAll_cons]
    rcases ho : outcome (c.toUnit catalog) names with ⟨e | u, middle⟩
    · simp only [Prod.mk.injEq, reduceCtorEq, and_false, false_iff, not_exists]
      intro final hf
      cases hf with
      | cons first others => simp [ho] at first
    · constructor
      · intro h
        simp only [Prod.mk.injEq] at h
        obtain ⟨final, hf⟩ := ih.mp (Prod.ext rfl h.2 : compileAll catalog rest middle = (_, none))
        exact ⟨final, h.1 ▸ .cons ho hf⟩
      · rintro ⟨final, hf⟩
        cases hf with
        | cons first others =>
          obtain ⟨hu, rfl⟩ := Prod.mk.inj (ho.symm.trans first)
          cases hu
          simp only [ih.mpr ⟨final, others⟩]

/-- A list of commands is planned exactly when its commands compile one after another. -/
theorem planAll_eq_ok {policy : BatchPolicy} {commands : List Command}
    {units : List ExecutionUnit} :
    planAll catalog policy commands = .ok units ↔
      ∃ us final, Compiles catalog {} commands us final ∧ policy.group none us = units := by
  rw [planAll]
  rcases hc : compileAll catalog commands {} with ⟨us, _ | failure⟩
  · simp only [Except.ok.injEq]
    constructor
    · rintro rfl
      obtain ⟨final, hf⟩ := compileAll_eq_none.mp hc
      exact ⟨us, final, hf, rfl⟩
    · rintro ⟨us', final, hf, rfl⟩
      have he := compileAll_eq_none.mpr ⟨final, hf⟩
      rw [hc] at he
      rw [(Prod.mk.inj he).1]
  · simp only [reduceCtorEq, false_iff, not_exists, not_and]
    intro us' final hf
    have he := compileAll_eq_none.mpr ⟨final, hf⟩
    simp [hc] at he

/-- Every command becomes one unit. -/
theorem Compiles.length_eq {names final : NameSupply} {commands : List Command}
    {us : List ExecutionUnit} (h : Compiles catalog names commands us final) :
    us.length = commands.length := by
  induction h with
  | nil => rfl
  | cons _ _ ih => simp only [List.length_cons, ih]

/-- What holds of every unit that a command compiles to holds of all units of a list. -/
theorem Compiles.forall_mem {P : ExecutionUnit → Prop} {names final : NameSupply}
    {commands : List Command} {us : List ExecutionUnit}
    (h : Compiles catalog names commands us final)
    (hp : ∀ {c names u names'}, outcome (toUnit c catalog) names = (.ok u, names') → P u) :
    ∀ u ∈ us, P u := by
  induction h with
  | nil => simp
  | cons first _ ih =>
    intro v hv
    rcases List.mem_cons.mp hv with rfl | hv
    · exact hp first
    · exact ih v hv

end Command

end AbstractSql
