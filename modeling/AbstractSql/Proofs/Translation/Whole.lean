import AbstractSql.Proofs.Translation.Coupling

/-!
# Translations of whole statements

A statement translates its query under the main alias, starts the aliases again and makes the
conditions on joined rows part of the condition. What it binds is collected. Translated with two
supplies, a query gives alike clauses.
-/

namespace AbstractSql

open Translating

/-- Steps that are coupled both succeed, when the first one does. -/
theorem Coupled.of_ok {α β : Type} {R : α → β → Prop} {a : α} {v : Workspace}
    {r : Except Failure β × Workspace} (h : Coupled R (.ok a, v) r) :
    ∃ b v', r = (.ok b, v') ∧ R a b := by
  cases h with
  | success same related => exact ⟨_, _, rfl, related⟩

namespace Query

variable {catalog : Catalog} {q : Query} {names names' left left' : NameSupply} {t : Translation}

/-- A query is translated exactly when its translation under the main alias succeeds. -/
theorem translate_eq_ok :
    q.translate catalog names = (.ok t, names') ↔
      ∃ u w, outcome (q.translateUnder catalog true NameSupply.mainAlias)
          { names := names.resetAliases } = (.ok u, w) ∧
        t = { u.mergeJoinExtras with parameters := w.parameters } ∧ names' = w.names := by
  have hrun : (q.translateUnder catalog true NameSupply.mainAlias).run.run
      { names := names.resetAliases } = outcome (q.translateUnder catalog true NameSupply.mainAlias)
      { names := names.resetAliases } := rfl
  simp only [translate, hrun]
  rcases outcome (q.translateUnder catalog true NameSupply.mainAlias)
    { names := names.resetAliases } with ⟨e | u, w⟩
  · simp [Except.map]
  · simp only [Except.map, Prod.mk.injEq, Except.ok.injEq]
    constructor
    · rintro ⟨rfl, rfl⟩
      exact ⟨u, w, ⟨rfl, rfl⟩, rfl, rfl⟩
    · rintro ⟨_, _, ⟨rfl, rfl⟩, rfl, rfl⟩
      exact ⟨rfl, rfl⟩

/-- The query for all rows of an entity is translated to nothing. -/
theorem translate_ofEntity (catalog : Catalog) (entity : String) (names : NameSupply) :
    (ofEntity entity).translate catalog names = (.ok {}, names.resetAliases) := by
  refine translate_eq_ok.mpr ⟨{}, { names := names.resetAliases }, ?_, rfl, rfl⟩
  rfl

/-- A translated query has bound its sources and collected what they bind. -/
theorem translate_ledger (h : q.translate catalog names = (.ok t, names')) :
    names'.resetAliases = (names.after (sourcesOf q.sites)).resetAliases ∧
      t.parameters = .collect (Entry.parameters (ledger names (sourcesOf q.sites)).1) := by
  obtain ⟨u, w, hu, rfl, rfl⟩ := translate_eq_ok.mp h
  have he := (q.translateUnder_effect hu).1
  have hsupply : w.names.resetAliases = names.resetAliases.after (sourcesOf q.sites) := he.supply
  have hparameters : w.parameters =
      .collect (Entry.parameters (ledger names.resetAliases (sourcesOf q.sites)).1) := he.parameters
  rw [ledger_resetAliases] at hparameters
  rw [NameSupply.after, ledger_resetAliases] at hsupply
  exact ⟨hsupply, hparameters⟩

/-- Translated with another supply, a query gives alike clauses. -/
theorem translate_twins (hr : Readable q.sites) (right : NameSupply)
    (h : q.translate catalog left = (.ok t, left')) :
    ∃ t' right', q.translate catalog right = (.ok t', right') ∧
      t.Twins ((twins left right q.sites).map (Twin.move .merged)) t' := by
  obtain ⟨u, w, hu, rfl, rfl⟩ := translate_eq_ok.mp h
  have hsame : SameAliases { names := left.resetAliases } { names := right.resetAliases } :=
    ⟨rfl, rfl⟩
  have hc : Coupled (Nested q _)
      (outcome (q.translateUnder catalog true NameSupply.mainAlias) { names := left.resetAliases })
      (outcome (q.translateUnder catalog true NameSupply.mainAlias)
        { names := right.resetAliases }) :=
    q.translateUnder_coupled hr plain_mainAlias hsame
  rw [hu] at hc
  obtain ⟨u', w', hu', hn⟩ := hc.of_ok
  have ht := hn.twins.mergeJoinExtras
  have hs : twins (Workspace.supply { names := left.resetAliases })
      (Workspace.supply { names := right.resetAliases }) q.sites = twins left right q.sites :=
    twins_resetAliases left right q.sites
  rw [hs] at ht
  exact ⟨_, _, translate_eq_ok.mpr ⟨u', w', hu', rfl, rfl⟩, ht.text, ht.statement, ht.condition,
    ht.hasOr, ht.sorts, ht.joins, ht.combines, ht.definitions, ht.extras, ht.allowJoin, ht.closure⟩

end Query

end AbstractSql
