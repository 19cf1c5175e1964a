import AbstractSql.Proofs.Command.Compiled
import AbstractSql.Proofs.Translation.Whole

/-!
# Statement texts in every way of reading

A query that is a statement text is its own statement, whichever way it is read. Two ways look at
the catalog or at the selected properties before they translate the query, and fail there: a test
for rows looks for what stands for them, an aggregate for the field it runs over. A statement text
has no entity and selects nothing, so these look-ups decide whether it passes.
-/

namespace AbstractSql

open ParameterSet (Distinct)

variable {catalog : Catalog} {q : Query} {raw : RawText} {names : NameSupply}

/-- A statement text is translated to itself, and its parameters are bound under their own names. -/
theorem Query.translate_raw (h : q.text = some raw) (catalog : Catalog) (names : NameSupply) :
    q.translate catalog names =
      (.ok { text := some raw.text, parameters := ({} : ParameterSet).union raw.parameters },
        names.resetAliases.reserveAll raw.parameters.names) := by
  obtain ⟨entity, text, conditions, sorts, joins, combines, recurve, paging, size, fields,
    isolation⟩ := q
  obtain rfl : text = some raw := h
  refine translate_eq_ok.mpr ⟨.ofText raw.text, ⟨names.resetAliases.reserveAll raw.parameters.names,
    ({} : ParameterSet).union raw.parameters⟩, ?_, rfl, rfl⟩
  rw [translateUnder, outcome_bind, Translating.outcome_bindText]
  rfl

namespace Statement

/-- A translated statement text is the statement, with its parameters. -/
theorem outcome_translated_raw (h : q.text = some raw)
    (text : Translation → Except Failure String) :
    outcome (translated catalog q >>= fun t => ofTranslation t (text t)) names =
      (.ok ⟨raw.text, ({} : ParameterSet).union raw.parameters⟩,
        names.resetAliases.reserveAll raw.parameters.names) := by
  rw [outcome_bind, outcome_translated_eq_ok.mpr (q.translate_raw h catalog names)]
  rfl

/-- What a way of reading looks up before it translates the query. -/
def lookUp (catalog : Catalog) (q : Query) : ReadMode → Except Failure Unit
  | .select | .paging | .range _ _ => .ok ()
  | .existence => (keyFields catalog q).map fun _ => ()
  | .aggregate function => (aggregateField catalog function q).map fun _ => ()

/-- A statement text passes through a way of reading exactly when that finds what it looks up. -/
theorem outcome_read_raw (h : q.text = some raw) (mode : ReadMode) (names : NameSupply) :
    outcome (read catalog mode q) names =
      match lookUp catalog q mode with
      | .ok _ => (.ok ⟨raw.text, ({} : ParameterSet).union raw.parameters⟩,
          names.resetAliases.reserveAll raw.parameters.names)
      | .error failure => (.error failure, names) := by
  cases mode with
  | select => exact outcome_translated_raw h _
  | paging => exact outcome_translated_raw h _
  | range offset size => exact outcome_translated_raw h _
  | existence =>
    simp only [read, existence, lookUp]
    cases hk : keyFields catalog q with
    | error failure => rfl
    | ok fields =>
      have hraw : ({ q with fields } : Query).text = some raw := h
      exact outcome_translated_raw hraw _
  | aggregate function =>
    simp only [read, aggregate, lookUp]
    cases hk : aggregateField catalog function q with
    | error failure => rfl
    | ok field =>
      -- The selection that carries the counted column leaves the text alone.
      have hraw : (aggregateSource catalog field q).text = some raw := by
        unfold aggregateSource
        split
        · exact h
        · exact h
      exact outcome_translated_raw hraw _

end Statement

/-- The catalog declares a key or a property to read for an entity. -/
def Catalog.HasProbe (catalog : Catalog) (entity : String) : Prop :=
  ∃ field ∈ catalog.declaredFields entity, field.primaryKey = true ∨ field.queryable = true

namespace Statement

/-- Something stands for the rows of a query exactly when its entity has a key or a property to
read. -/
theorem probeField_cases (catalog : Catalog) (q : Query) :
    (catalog.HasProbe q.entity ∧ ∃ field, probeField catalog q = .ok field) ∨
      (¬ catalog.HasProbe q.entity ∧
        probeField catalog q = .error (.configuration (.noProbeField q.entity)) ∧
        catalog.primaryKeys q.entity = [] ∧ catalog.queryFields q.entity = []) := by
  unfold probeField Catalog.defaultField?
  cases hkeys : catalog.primaryKeys q.entity with
  | cons key keys =>
    have hkey : key ∈ catalog.primaryKeys q.entity := hkeys ▸ List.mem_cons_self
    obtain ⟨field, hfield, -⟩ := List.mem_map.mp hkey
    obtain ⟨hdeclared, hprimary⟩ := List.mem_filter.mp hfield
    exact .inl ⟨⟨field, hdeclared, .inl hprimary⟩, _, rfl⟩
  | nil =>
    cases hfields : catalog.queryFields q.entity with
    | cons field fields =>
      have hfield : field ∈ catalog.queryFields q.entity := hfields ▸ List.mem_cons_self
      obtain ⟨hdeclared, hqueryable⟩ := List.mem_filter.mp hfield
      exact .inl ⟨⟨field, hdeclared, .inr hqueryable⟩, _, rfl⟩
    | nil =>
      refine .inr ⟨?_, rfl, rfl, rfl⟩
      rintro ⟨field, hdeclared, hprimary | hqueryable⟩
      · have hkey : field.property ∈ catalog.primaryKeys q.entity :=
          List.mem_map_of_mem (List.mem_filter.mpr ⟨hdeclared, hprimary⟩)
        simp [hkeys] at hkey
      · have hfield : field ∈ catalog.queryFields q.entity :=
          List.mem_filter.mpr ⟨hdeclared, hqueryable⟩
        simp [hfields] at hfield

/-- What stands for the rows is found exactly when the field that is counted is. -/
theorem keyFields_map (catalog : Catalog) (q : Query) :
    (keyFields catalog q).map (fun _ => ()) = (probeField catalog q).map fun _ => () := by
  unfold keyFields
  rcases probeField_cases catalog q with ⟨-, field, hprobe⟩ | ⟨-, hprobe, hkeys, hfields⟩
  · rw [hprobe]
    cases catalog.primaryKeys q.entity with
    | cons key keys => rfl
    | nil => cases (catalog.queryFields q.entity).map (·.property) <;> rfl
  · rw [hkeys, hfields, hprobe]
    rfl

/-- Whether a statement text passes through a way of reading. Rows are read of any text; testing for
rows and counting them need something that stands for the rows of the empty entity; the other
aggregates need a selected property, of which a text has none. -/
def PassesText (catalog : Catalog) : ReadMode → Prop
  | .select | .paging | .range _ _ => True
  | .existence | .aggregate .count => catalog.HasProbe ""
  | .aggregate _ => False

/-- What is said of a statement text that does not pass. -/
def textFailure : ReadMode → Failure
  | .aggregate .max => .missingAggregateField .max
  | .aggregate .min => .missingAggregateField .min
  | .aggregate .sum => .missingAggregateField .sum
  | .aggregate .avg => .missingAggregateField .avg
  | _ => .configuration (.noProbeField "")

/-- The look-up for a statement text. -/
theorem lookUp_ofText (catalog : Catalog) (text : String) (parameters : ParameterSet)
    (mode : ReadMode) :
    (PassesText catalog mode ∧ lookUp catalog (Query.ofText text parameters) mode = .ok ()) ∨
      (¬ PassesText catalog mode ∧
        lookUp catalog (Query.ofText text parameters) mode = .error (textFailure mode)) := by
  have hcounted : (catalog.HasProbe "" ∧
        (probeField catalog (Query.ofText text parameters)).map (fun _ => ()) = .ok ()) ∨
      (¬ catalog.HasProbe "" ∧
        (probeField catalog (Query.ofText text parameters)).map (fun _ => ()) =
          .error (.configuration (.noProbeField ""))) := by
    rcases probeField_cases catalog (Query.ofText text parameters) with
      ⟨hhas, field, hprobe⟩ | ⟨hnot, hprobe, -⟩
    · exact .inl ⟨hhas, by rw [hprobe]; rfl⟩
    · exact .inr ⟨hnot, by rw [hprobe]; rfl⟩
  cases mode with
  | select => exact .inl ⟨trivial, rfl⟩
  | paging => exact .inl ⟨trivial, rfl⟩
  | range offset size => exact .inl ⟨trivial, rfl⟩
  | existence =>
    rw [lookUp, keyFields_map]
    exact hcounted
  | aggregate function =>
    cases function with
    | count => exact hcounted
    | max => exact .inr ⟨id, rfl⟩
    | min => exact .inr ⟨id, rfl⟩
    | sum => exact .inr ⟨id, rfl⟩
    | avg => exact .inr ⟨id, rfl⟩

/-- When a statement text passes through a way of reading: it is then the statement, with its own
parameters, and their names are kept from being issued. Otherwise the look-up fails, and no name is
touched. -/
theorem read_ofText_iff {parameters : ParameterSet} (hd : parameters.Distinct) (catalog : Catalog)
    (text : String) (mode : ReadMode) (names : NameSupply) :
    let q := Query.ofText text parameters
    ((∃ st names', outcome (read catalog mode q) names = (.ok st, names')) ↔
        PassesText catalog mode) ∧
      (PassesText catalog mode → outcome (read catalog mode q) names =
        (.ok ⟨text, parameters⟩, names.resetAliases.reserveAll parameters.names)) ∧
      (¬ PassesText catalog mode →
        outcome (read catalog mode q) names = (.error (textFailure mode), names)) := by
  intro q
  have hraw : q.text = some ⟨text, parameters⟩ := rfl
  have hread := @outcome_read_raw catalog q _ hraw mode names
  rw [hd.union_empty] at hread
  rcases lookUp_ofText catalog text parameters mode with ⟨hpasses, hlook⟩ | ⟨hnot, hlook⟩
  · rw [hlook] at hread
    exact ⟨⟨fun _ => hpasses, fun _ => ⟨_, _, hread⟩⟩, fun _ => hread,
      fun h => absurd hpasses h⟩
  · rw [hlook] at hread
    refine ⟨⟨?_, fun h => absurd h hnot⟩, fun h => absurd h hnot, fun _ => hread⟩
    rintro ⟨st, names', hok⟩
    rw [hread] at hok
    cases hok

/-- A text with a parameter is read as a page, and counted where the empty entity has a key. -/
theorem read_ofText_page :
    let parameters := ParameterSet.ofPairs [("a", .int 1)]
    let catalog : Catalog := ({} : Catalog).insert ""
      { fields := [{ property := "id", primaryKey := true }] }
    let q := Query.ofText "SELECT 1 FROM dual WHERE ?a = 1" parameters
    parameters.Distinct ∧
      outcome (read {} .paging q) {} =
        (.ok ⟨"SELECT 1 FROM dual WHERE ?a = 1", parameters⟩, { issued := ["a"] }) ∧
      outcome (read catalog (.aggregate .count) q) {} =
        (.ok ⟨"SELECT 1 FROM dual WHERE ?a = 1", parameters⟩, { issued := ["a"] }) := by
  intro parameters catalog q
  have hd : parameters.Distinct := List.pairwise_singleton _ _
  have hprobe : catalog.HasProbe "" :=
    ⟨{ property := "id", primaryKey := true }, by decide, .inl rfl⟩
  exact ⟨hd, (read_ofText_iff hd {} _ .paging {}).2.1 trivial,
    (read_ofText_iff hd catalog _ (.aggregate .count) {}).2.1 hprobe⟩

/-- Texts without parameters that are not passed through: a test for rows and a count without
anything declared, and a maximum. -/
theorem read_refuses_ofText :
    let q := Query.ofText "SELECT 1" {}
    ({} : ParameterSet).Distinct ∧
      outcome (read {} .existence q) {} = (.error (.configuration (.noProbeField "")), {}) ∧
      outcome (read {} (.aggregate .count) q) {} =
        (.error (.configuration (.noProbeField "")), {}) ∧
      outcome (read {} (.aggregate .max) q) {} = (.error (.missingAggregateField .max), {}) :=
  ⟨.nil, rfl, rfl, rfl⟩

end Statement

end AbstractSql
