import AbstractSql.Proofs.Outline.Exposing
import AbstractSql.Proofs.Statement.Binding

/-!
# The texts of read statements

A read statement translates its query, or a copy in which other properties are wanted, and writes the
translation around one select of the rows. Here is each text in full: the definitions come first, and
each way to read a query sorts, limits, counts or aggregates the rows in a frame of its own.
-/

namespace AbstractSql

open Identifier (quote qualify)

/-- The query that is translated to read another one. -/
def ReadMode.source (catalog : Catalog) (q : Query) : ReadMode → Except Failure Query
  | .select => .ok q
  | .paging => .ok q
  | .range _ _ => .ok q
  | .existence => (Statement.keyFields catalog q).map fun fields => { q with fields }
  | .aggregate function =>
    (Statement.aggregateField catalog function q).map fun field =>
      Statement.aggregateSource catalog field q

/-- Offset and size of the range of rows that is read. -/
def ReadMode.span? (q : Query) : ReadMode → Option (Nat × Nat)
  | .select => none
  | .paging => some (Statement.pageRange q)
  | .range offset size => some (offset, size)
  | .existence => none
  | .aggregate _ => none

namespace Statement

variable {catalog : Catalog} {q source : Query} {mode : ReadMode} {names names' : NameSupply}
  {t : Translation} {st : Statement} {entries : List SortEntry}

/-- How many rows a plain read asks for. -/
def capText (q : Query) : String := if q.size = 0 then "" else "LIMIT 0," ++ toString q.size.toNat

/-- How a range is sorted. -/
def rangeOrder (probe : Field) (entries : List SortEntry) : String :=
  if entries.isEmpty then qualify NameSupply.mainAlias probe.column ++ " DESC"
  else String.intercalate "," (entries.map (SortEntry.sql NameSupply.mainAlias))

/-- The definition of the common table that a range is selected from. -/
def rangeDefinitions (t : Translation) (rows : String) : String :=
  if t.hasDefinitions then t.definitionClause ++ ",PagingTable AS (" ++ rows ++ ")"
  else "WITH PagingTable AS (" ++ rows ++ ")"

/-- Columns that a query lists. -/
def listed (catalog : Catalog) (q : Query) : List String :=
  (catalog.selectedFields q.entity q.fields).map (·.column)

/-- The text of a read statement around the select of its rows, with the columns of a derived or
common table that the text refers to. -/
inductive Selects (catalog : Catalog) (q : Query) (t : Translation) (rows : String)
    (entries : List SortEntry) : ReadMode → List String → String → Prop where
  /-- The rows of a query without set operations. -/
  | plain (ha : q.hasArms = false) : Selects catalog q t rows entries .select []
      (Text.joinParts
        [t.definitionClause, baseSelect catalog q t (outputList catalog q), t.orderClause,
          capText q])
  /-- The rows of a query with set operations, from a derived table. -/
  | combined (ha : q.hasArms = true) : Selects catalog q t rows entries .select
      (listed catalog q ++ entries.map (·.reference.column))
      (Text.joinParts
        [t.definitionClause, "SELECT " ++ outputList catalog q ++ " FROM (" ++ rows ++ ") AS "
            ++ NameSupply.mainAlias,
          Translation.orderClause { sorts := entries.map (SortEntry.sql NameSupply.mainAlias) },
          capText q])
  /-- A range of rows and their number, from a common table. -/
  | range {mode : ReadMode} {offset size : Nat} {probe : Field}
      (hm : mode.span? q = some (offset, size))
      (hp : catalog.defaultField? q.entity = some probe) : Selects catalog q t rows entries mode
      (probe.column :: (listed catalog q ++ entries.map (·.reference.column)))
      (rangeDefinitions t rows ++ " SELECT (SELECT COUNT(" ++ quote probe.column
        ++ ") FROM PagingTable) AS QueryDataTotalCount," ++ outputList catalog q
        ++ " FROM PagingTable AS " ++ NameSupply.mainAlias ++ " ORDER BY "
        ++ rangeOrder probe entries ++ " LIMIT " ++ toString offset ++ "," ++ toString size)
  /-- Whether there are rows. -/
  | existence : Selects catalog q t rows entries .existence []
      (Text.joinParts [t.definitionClause, "SELECT EXISTS(" ++ rows ++ ")"])
  /-- An aggregate over the rows of a query without set operations. -/
  | aggregated {function : Aggregate} {field : Field} (ha : q.hasArms = false)
      (hf : aggregateField catalog function q = .ok field) :
      Selects catalog q t rows entries (.aggregate function) []
      (Text.joinParts
        [t.definitionClause,
          "SELECT " ++ (function.sql ++ "(" ++ qualify NameSupply.mainAlias field.column ++ ")")
            ++ " FROM " ++ quote (catalog.table q.entity) ++ " AS " ++ NameSupply.mainAlias,
          t.joinClause, t.whereClause])
  /-- An aggregate over the rows of a query with set operations, from a derived table. -/
  | aggregatedRows {function : Aggregate} {field : Field} (ha : q.hasArms = true)
      (hf : aggregateField catalog function q = .ok field) :
      Selects catalog q t rows entries (.aggregate function) [field.column]
      (Text.joinParts
        [t.definitionClause,
          "SELECT " ++ (function.sql ++ "(" ++ qualify NameSupply.mainAlias field.column ++ ")")
            ++ " FROM (" ++ rows ++ ") AS " ++ NameSupply.mainAlias])

/-- What is translated to read a query differs from the query only in what is selected. -/
theorem reselects_source (h : mode.source catalog q = .ok source) : q.Reselects source := by
  cases mode with
  | select => exact Except.ok.inj h ▸ .refl q
  | paging => exact Except.ok.inj h ▸ .refl q
  | range offset size => exact Except.ok.inj h ▸ .refl q
  | existence =>
    obtain ⟨fields, -, rfl⟩ := map_eq_ok.mp h
    exact q.reselects_fields fields
  | aggregate function =>
    obtain ⟨field, -, rfl⟩ := map_eq_ok.mp h
    exact reselects_aggregateSource catalog field q

/-- The sort entries of a translated query refer to the columns that it is sorted by. -/
theorem translate_sorts (hq : q.isText = false) (h : q.translate catalog names = (.ok t, names')) :
    ∃ entries : List SortEntry, t.sorts = entries.map (SortEntry.sql NameSupply.mainAlias) ∧
      entries.map (·.reference.column) =
        q.sorts.map fun key => catalog.column q.entity key.field := by
  obtain ⟨r, w, hr, -, rfl⟩ := Query.translate_resolve h
  have horigins := Query.resolve_origins (Query.isText_eq_false.mp hq) hr
  obtain ⟨entries, hentries, hkeys⟩ := sortEntries_eq_ok horigins.sorts
  have hsorts := ResolvedQuery.sorts_outline horigins.text NameSupply.mainAlias
  exact ⟨entries, hsorts.trans hentries, hkeys⟩

/-- How a read statement is put together: the query `source` is translated for it. -/
structure Framed (catalog : Catalog) (mode : ReadMode) (q : Query) (names names' : NameSupply)
    (st : Statement) (source : Query) (t : Translation) (entries : List SortEntry)
    (used : List String) : Prop where
  /-- The query differs from the given one in what it selects. -/
  copies : mode.source catalog q = .ok source
  /-- It is translated, and no other names are issued. -/
  translated : source.translate catalog names = (.ok t, names')
  /-- The parameters. -/
  parameters : st.parameters = t.parameters
  /-- The sort entries. -/
  sorts : t.sorts = entries.map (SortEntry.sql NameSupply.mainAlias)
  /-- The columns that the rows are sorted by. -/
  keys : entries.map (·.reference.column) =
    source.sorts.map fun key => catalog.column source.entity key.field
  /-- The text around the select of the rows. -/
  selects : Selects catalog q t (baseSelect catalog source t (innerList catalog source)) entries mode
    used st.text

/-- The text of a plain read. -/
theorem selects_selectText (hsorts : t.sorts = entries.map (SortEntry.sql NameSupply.mainAlias))
    (harms : t.hasCombine = q.hasArms) :
    ∃ used, Selects catalog q t (baseSelect catalog q t (innerList catalog q)) entries .select used
      (selectText catalog q t) := by
  unfold selectText
  cases ha : q.hasArms with
  | false =>
    simp only [harms, ha, Bool.false_eq_true, if_false]
    exact ⟨_, .plain ha⟩
  | true =>
    have horder : t.orderClause = Translation.orderClause
        { sorts := entries.map (SortEntry.sql NameSupply.mainAlias) } := by
      rw [Translation.orderClause, hsorts, Translation.orderClause]
    simp only [harms, ha, if_true, selectFromDerived, horder]
    exact ⟨_, .combined ha⟩

/-- The text of a range of rows. -/
theorem selects_rangeText {offset size : Nat} {probe : Field}
    (hsorts : t.sorts = entries.map (SortEntry.sql NameSupply.mainAlias))
    (hm : mode.span? q = some (offset, size)) (hp : catalog.defaultField? q.entity = some probe) :
    ∃ used, Selects catalog q t (baseSelect catalog q t (innerList catalog q)) entries mode used
      (rangeText catalog q t offset size probe) := by
  have htext : rangeText catalog q t offset size probe =
      rangeDefinitions t (baseSelect catalog q t (innerList catalog q))
        ++ " SELECT (SELECT COUNT(" ++ quote probe.column
        ++ ") FROM PagingTable) AS QueryDataTotalCount," ++ outputList catalog q
        ++ " FROM PagingTable AS " ++ NameSupply.mainAlias ++ " ORDER BY "
        ++ rangeOrder probe entries ++ " LIMIT " ++ toString offset ++ "," ++ toString size := by
    rw [rangeText, hsorts]
    cases entries <;> rfl
  rw [htext]
  exact ⟨_, .range hm hp⟩

/-- The text of an aggregate. -/
theorem selects_aggregateText {function : Aggregate} {field : Field}
    (hf : aggregateField catalog function q = .ok field) (harms : t.hasCombine = q.hasArms) :
    ∃ used, Selects catalog q t
      (baseSelect catalog (aggregateSource catalog field q) t
        (innerList catalog (aggregateSource catalog field q))) entries (.aggregate function) used
      (aggregateText catalog function field (aggregateSource catalog field q) t) := by
  unfold aggregateText
  cases ha : q.hasArms with
  | false =>
    simp only [harms, ha, Bool.false_eq_true, if_false,
      (reselects_aggregateSource catalog field q).entity_eq]
    exact ⟨_, .aggregated ha hf⟩
  | true =>
    simp only [harms, ha, if_true, selectFromDerived]
    exact ⟨_, .aggregatedRows ha hf⟩

/-- The text of whatever is read is put together from one translation. -/
theorem translated_framed {text : Translation → Except Failure String} (hq : q.isText = false)
    (hs : mode.source catalog q = .ok source)
    (htext : ∀ {t entries s}, t.sorts = entries.map (SortEntry.sql NameSupply.mainAlias) →
      t.hasCombine = q.hasArms → text t = .ok s →
      ∃ used, Selects catalog q t (baseSelect catalog source t (innerList catalog source)) entries
        mode used s)
    (h : outcome (translated catalog source >>= fun t => ofTranslation t (text t)) names =
      (.ok st, names')) :
    ∃ t entries used, Framed catalog mode q names names' st source t entries used := by
  have hsource := reselects_source hs
  have hnone : source.isText = false := hsource.isText_eq.trans hq
  obtain ⟨t, final, ht, hof⟩ := outcome_bind_eq_ok.mp h
  rw [outcome_translated_eq_ok] at ht
  obtain ⟨hst, hparameters, rfl⟩ := ofTranslation_eq_ok (source.translate_text ht hnone) hof
  obtain ⟨entries, hsorts, hkeys⟩ := translate_sorts hnone ht
  have harms : t.hasCombine = q.hasArms := (source.translate_hasCombine ht).trans hsource.hasArms_eq
  obtain ⟨used, hselects⟩ := htext hsorts harms hst
  exact ⟨t, entries, used, hs, ht, hparameters, hsorts, hkeys, hselects⟩

/-- The text of a range of rows is put together from the translation of the query. -/
theorem range_framed {offset size : Nat} (hq : q.isText = false)
    (hs : mode.source catalog q = .ok q) (hm : mode.span? q = some (offset, size))
    (h : outcome (range catalog q offset size) names = (.ok st, names')) :
    ∃ t entries used, Framed catalog mode q names names' st q t entries used := by
  refine translated_framed hq hs (fun hsorts _ htext => ?_) h
  cases hp : catalog.defaultField? q.entity with
  | none => simp [probeField, hp, Except.map] at htext
  | some probe =>
    simp only [probeField, hp, Except.map, Except.ok.injEq] at htext
    exact htext ▸ selects_rangeText hsorts hm hp

/-- Every read statement is put together from one translation, however it reads its query. -/
theorem read_framed (hq : q.isText = false)
    (h : outcome (read catalog mode q) names = (.ok st, names')) :
    ∃ source t entries used, Framed catalog mode q names names' st source t entries used := by
  cases mode with
  | select =>
    exact ⟨q, translated_framed hq rfl
      (fun hsorts harms htext => Except.ok.inj htext ▸ selects_selectText hsorts harms) h⟩
  | paging => exact ⟨q, range_framed hq rfl rfl h⟩
  | range offset size => exact ⟨q, range_framed hq rfl rfl h⟩
  | existence =>
    obtain ⟨fields, middle, hfields, hrest⟩ := outcome_bind_eq_ok.mp h
    obtain ⟨hok, rfl⟩ := outcome_settled_eq_ok.mp hfields
    have hs : ReadMode.existence.source catalog q = .ok { q with fields } :=
      map_eq_ok.mpr ⟨fields, hok, rfl⟩
    exact ⟨_, translated_framed hq hs
      (fun _ _ htext => Except.ok.inj htext ▸ ⟨_, .existence⟩) hrest⟩
  | aggregate function =>
    obtain ⟨field, middle, hfield, hrest⟩ := outcome_bind_eq_ok.mp h
    obtain ⟨hok, rfl⟩ := outcome_settled_eq_ok.mp hfield
    have hs : (ReadMode.aggregate function).source catalog q =
        .ok (aggregateSource catalog field q) :=
      map_eq_ok.mpr ⟨field, hok, rfl⟩
    exact ⟨_, translated_framed hq hs
      (fun _ harms htext => Except.ok.inj htext ▸ selects_aggregateText hok harms) hrest⟩

end Statement

end AbstractSql
