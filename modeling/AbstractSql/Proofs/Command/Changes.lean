import Mathlib
import AbstractSql.Proofs.Command.Assigned

/-!
# The last change of a property wins

An update is put together by changes: each sets a property to a value or computes it from its
present value. The properties, the payload and the calculations of the command are kept in step by
every change, so that all three say of a property what its last change said, and the compiled update
assigns every changed property once.
-/

namespace AbstractSql

open Identifier (quote qualify placeholder)

/-- A change that an update makes to a property. -/
inductive Change where
  /-- Set it to a value. -/
  | set (property : String) (value : Value)
  /-- Compute it from its present value. -/
  | calculate (property : String) (operator : Arithmetic) (operand : Value)

namespace Change

/-- The property that is changed. -/
def property : Change → String
  | set property _ => property
  | calculate property _ _ => property

/-- The value that is set, or the operand. -/
def value : Change → Value
  | set _ value => value
  | calculate _ _ operand => operand

/-- The operation on the present value, if there is one. -/
def operator? : Change → Option Arithmetic
  | set _ _ => none
  | calculate _ operator _ => some operator

/-- The assignment that makes the change, with the value behind a parameter. -/
def sql (column parameter : String) : Change → String
  | set _ _ => column ++ "=" ++ placeholder parameter
  | calculate _ operator _ => column ++ "=" ++ column ++ operator.sql ++ placeholder parameter

/-- The last change of a property. -/
def last (changes : List Change) (property : String) : Option Change :=
  changes.reverse.find? fun change => change.property == property

/-- The changed properties in the order of their first change. -/
def properties (changes : List Change) : List String := (changes.map property).eraseDups

/-- The last change of every changed property. -/
def effective (changes : List Change) : List Change :=
  (properties changes).filterMap (last changes)

/-- A change at the end is the last one of its property. -/
theorem last_concat (changes : List Change) (change : Change) (property : String) :
    last (changes ++ [change]) property =
      if change.property = property then some change else last changes property := by
  unfold last
  rw [List.reverse_concat]
  by_cases hp : change.property = property
  · rw [if_pos hp, List.find?_cons_of_pos (by simpa using hp)]
  · rw [if_neg hp, List.find?_cons_of_neg (by simpa using hp)]

/-- The last change of a property changes it. -/
theorem property_last {changes : List Change} {property : String} {change : Change}
    (h : last changes property = some change) : change.property = property := by
  have hfound := List.find?_some h
  simpa using hfound

/-- A property has a last change exactly when it is changed. -/
theorem mem_properties {changes : List Change} {property : String} :
    property ∈ properties changes ↔ ∃ change, last changes property = some change := by
  rw [properties, List.mem_eraseDups, ← Option.isSome_iff_exists, last, List.find?_isSome]
  simp

/-- Only the first change of a property adds to the changed properties. -/
theorem properties_concat (changes : List Change) (change : Change) :
    properties (changes ++ [change]) =
      if change.property ∈ properties changes then properties changes
      else properties changes ++ [change.property] := by
  have hm : change.property ∈ properties changes ↔ change.property ∈ changes.map property :=
    List.mem_eraseDups
  rw [if_congr hm rfl rfl, properties, properties, List.map_append, List.eraseDups_append]
  generalize changes.map property = touched
  by_cases hp : change.property ∈ touched
  · have hleft : [change.property].removeAll touched = [] := by simp [List.removeAll, hp]
    rw [List.map_singleton, hleft, if_pos hp, List.eraseDups_nil, List.append_nil]
  · have hleft : [change.property].removeAll touched = [change.property] := by
      simp [List.removeAll, hp]
    rw [List.map_singleton, hleft, if_neg hp, List.eraseDups_cons, List.filter_nil,
      List.eraseDups_nil]

/-- There is one effective change for every changed property, in the same order. -/
theorem map_property_effective (changes : List Change) :
    (effective changes).map property = properties changes := by
  rw [effective, List.map_filterMap]
  have hall : ∀ p ∈ properties changes, (last changes p).map property = some p := by
    intro p hp
    obtain ⟨change, hchange⟩ := mem_properties.mp hp
    rw [hchange, Option.map_some, property_last hchange]
  rw [List.filterMap_congr hall, List.filterMap_some]

/-- An effective change is the last one of its property. -/
theorem last_of_mem_effective {changes : List Change} {change : Change}
    (h : change ∈ effective changes) : last changes change.property = some change := by
  obtain ⟨property, -, hlast⟩ := List.mem_filterMap.mp h
  rwa [property_last hlast]

end Change

namespace Command

variable {catalog : Catalog} {c : Command} {changes : List Change} {names names' : NameSupply}
  {u : ExecutionUnit}

/-- Make one change. -/
def change (c : Command) : Change → Command
  | .set property value => c.set property value
  | .calculate property operator operand => c.calculate property operator operand

/-- Make changes one after another. -/
def changeAll (c : Command) (changes : List Change) : Command := changes.foldl change c

/-- The command says of every property what the last of the changes says. -/
structure Reflects (c : Command) (changes : List Change) : Prop where
  /-- The changed properties in the order of their first change. -/
  fields : c.fields = Change.properties changes
  /-- None of them twice. -/
  distinct : c.fields.Nodup
  /-- The payload has exactly their names. -/
  names : c.values.names = c.fields
  /-- The payload of a property is the value of its last change, with nothing declared about it. -/
  values : ∀ property, c.values.get? property =
    (Change.last changes property).map fun change => { name := property, value := change.value }
  /-- A calculation belongs to a property whose last change computes it, with that operator. -/
  calculations : ∀ property operator, (property, operator) ∈ c.calculations ↔
    (Change.last changes property).bind Change.operator? = some operator
  /-- No property has two calculations. -/
  single : (c.calculations.map Prod.fst).Nodup

/-- What a change of a property does to a command whose payload holds plain values. -/
structure Changed (c : Command) (property : String) (value : Value) (operator? : Option Arithmetic)
    (c' : Command) : Prop where
  /-- The property is named at the end unless it is named already. -/
  fields : c'.fields = if property ∈ c.fields then c.fields else c.fields ++ [property]
  /-- So is its payload. -/
  names : c'.values.names =
    if property ∈ c.values.names then c.values.names else c.values.names ++ [property]
  /-- The payload of the property is the value. -/
  values : ∀ other, c'.values.get? other =
    if property = other then some { name := property, value } else c.values.get? other
  /-- Its calculations are dropped, and the one of the change takes their place. -/
  calculations : c'.calculations =
    (c.calculations.filter fun entry => entry.1 != property) ++
      (operator?.map fun operator => (property, operator)).toList

/-- A property is named at the end unless it is named already, and nothing else changes. -/
theorem touch_eq (c : Command) (property : String) :
    c.touch property = { c with
      fields := if property ∈ c.fields then c.fields else c.fields ++ [property] } := by
  unfold touch
  by_cases hp : property ∈ c.fields
  · rw [if_pos (List.contains_iff_mem.mpr hp), if_pos hp]
  · rw [if_neg (fun h => hp (List.contains_iff_mem.mp h)), if_neg hp]

/-- Setting a property puts its value into the payload and drops its calculations. -/
theorem set_changed (c : Command) (property : String) (value : Value) :
    c.Changed property value none (c.set property value) := by
  unfold set
  rw [touch_eq]
  exact ⟨rfl, ParameterSet.names_insert c.values _, ParameterSet.get?_insert c.values _,
    (List.append_nil _).symm⟩

/-- Computing a property puts its operand into the payload. An entry that is there already takes the
operand and keeps its declarations, of which a plain value has none. -/
theorem calculate_changed (c : Command) (property : String) (operator : Arithmetic)
    (operand : Value)
    (hplain : ∀ p, c.values.get? property = some p → p = { name := property, value := p.value }) :
    c.Changed property operand (some operator) (c.calculate property operator operand) := by
  unfold calculate
  rw [touch_eq]
  exact ⟨rfl, ParameterSet.names_modifyOrAdd c.values property operand,
    ParameterSet.get?_modifyOrAdd operand hplain, rfl⟩

/-- A command with nothing to set reflects no change. -/
theorem reflects_nil (hf : c.fields = []) (hv : c.values = {}) (hc : c.calculations = []) :
    c.Reflects [] where
  fields := hf
  distinct := hf ▸ .nil
  names := by rw [hf, hv]; rfl
  values := fun property => by rw [hv]; rfl
  calculations := fun property operator => by simp [hc, Change.last]
  single := by simp [hc]

/-- A changed command reflects one change more. -/
theorem Reflects.changed {c' : Command} (h : c.Reflects changes) (change : Change)
    (hc : c.Changed change.property change.value change.operator? c') :
    c'.Reflects (changes ++ [change]) where
  fields := by rw [hc.fields, h.fields, Change.properties_concat]
  distinct := by
    rw [hc.fields]
    split
    · exact h.distinct
    · next hnot => exact List.nodup_append.mpr ⟨h.distinct, by simp, by grind⟩
  names := by rw [hc.fields, hc.names, h.names]
  values := by
    intro property
    rw [hc.values, Change.last_concat]
    by_cases hp : change.property = property
    · subst hp
      rw [if_pos rfl, if_pos rfl, Option.map_some]
    · rw [if_neg hp, if_neg hp, h.values]
  calculations := by
    intro property operator
    -- Behind the filter no calculation of the property is left, so the new one decides alone.
    rw [hc.calculations, Change.last_concat, List.mem_append, List.mem_filter, h.calculations]
    by_cases hp : change.property = property
    · subst hp
      cases change <;> simp [Change.operator?, eq_comm]
    · have hq : property ≠ change.property := Ne.symm hp
      cases change <;> simp_all [Change.operator?]
  single := by
    rw [hc.calculations, List.map_append]
    have hsub :
        ((c.calculations.filter fun entry => entry.1 != change.property).map Prod.fst).Nodup :=
      (List.filter_sublist.map Prod.fst).nodup h.single
    have hfree : change.property ∉
        (c.calculations.filter fun entry => entry.1 != change.property).map Prod.fst := by
      simp
    cases change with
    | set property value => simpa [Change.operator?] using hsub
    | calculate property operator operand =>
      refine List.nodup_append.mpr ⟨hsub, by simp [Change.operator?], ?_⟩
      rintro a ha b hb rfl
      simp only [Change.operator?, Option.map_some, Option.toList_some, List.map_singleton,
        List.mem_singleton] at hb
      exact hfree (hb ▸ ha)

/-- One more change is reflected. -/
theorem Reflects.change (h : c.Reflects changes) (x : Change) :
    (c.change x).Reflects (changes ++ [x]) := by
  cases x with
  | set property value => exact h.changed (.set property value) (c.set_changed property value)
  | calculate property operator operand =>
    -- The entry that takes the operand was written by a change, so it declares nothing.
    refine h.changed (.calculate property operator operand)
      (c.calculate_changed property operator operand fun p hp => ?_)
    rw [h.values] at hp
    obtain ⟨last, -, rfl⟩ := Option.map_eq_some_iff.mp hp
    rfl

/-- Any number of further changes is reflected. -/
theorem Reflects.changeAll {before : List Change} (h : c.Reflects before) (changes : List Change) :
    (c.changeAll changes).Reflects (before ++ changes) := by
  induction changes generalizing c before with
  | nil => rwa [List.append_nil]
  | cons x rest ih =>
    have hnext := ih (h.change x)
    rwa [List.append_assoc, List.singleton_append] at hnext

/-- Changes leave all but properties, payload and calculations alone. -/
theorem changeAll_frame (c : Command) (changes : List Change) :
    ∃ fields values calculations,
      c.changeAll changes = { c with fields, values, calculations } := by
  induction changes generalizing c with
  | nil => exact ⟨_, _, _, rfl⟩
  | cons x rest ih =>
    obtain ⟨fields, values, calculations, hx⟩ : ∃ fields values calculations,
        c.change x = { c with fields, values, calculations } := by
      cases x with
      | set property value =>
        change ∃ _ _ _, c.set property value = _
        rw [set, touch_eq]
        exact ⟨_, _, _, rfl⟩
      | calculate property operator operand =>
        change ∃ _ _ _, c.calculate property operator operand = _
        rw [calculate, touch_eq]
        exact ⟨_, _, _, rfl⟩
    obtain ⟨fields', values', calculations', hrest⟩ := ih (c.change x)
    refine ⟨fields', values', calculations', ?_⟩
    rw [hx] at hrest
    exact (congrArg (fun d : Command => d.changeAll rest) hx).trans hrest

/-- A property is computed by the operator of its last change. -/
theorem Reflects.calculation?_eq (h : c.Reflects changes) (property : String) :
    c.calculation? property = (Change.last changes property).bind Change.operator? := by
  refine Option.ext fun operator => ?_
  rw [← h.calculations]
  constructor
  · intro hl
    obtain ⟨before, after, hsplit, -⟩ := List.lookup_eq_some_iff.mp hl
    rw [hsplit]
    exact List.mem_append_right before List.mem_cons_self
  · intro hm
    obtain ⟨before, after, hsplit⟩ := List.append_of_mem hm
    have hsingle := h.single
    rw [hsplit, List.map_append, List.nodup_append] at hsingle
    refine List.lookup_eq_some_iff.mpr ⟨before, after, hsplit, fun entry he => ?_⟩
    have hne := hsingle.2.2 entry.1 (List.mem_map_of_mem he) property (by simp)
    simpa using Ne.symm hne

/-- The assignment of a property makes its last change. -/
theorem Reflects.assignment_eq {change : Change} (h : c.Reflects changes)
    (hl : Change.last changes change.property = some change) (name : String) :
    c.assignment catalog change.property name =
      change.sql (qualify NameSupply.mainAlias (catalog.column c.entity change.property)) name := by
  have hvalue : c.values.contains change.property = true := by
    rw [ParameterSet.contains_eq_isSome, h.values, hl]
    rfl
  unfold assignment assignedValue
  rw [h.calculation?_eq, hl, Option.bind_some]
  cases change with
  | set property value => rfl
  | calculate property operator operand =>
    simp only [Change.operator?, hvalue, if_true, Change.sql, String.append_assoc]

/-- The unit updates the rows of a translated filter by the given changes. -/
structure Assigns (c : Command) (catalog : Catalog) (t : Translation) (changes : List Change)
    (u : ExecutionUnit) (parameters : List String) : Prop where
  /-- One assignment for every change, between the joins and the condition. -/
  statement : u.statements =
    [Text.joinParts
      [t.definitionClause,
        "UPDATE " ++ c.table catalog ++ " AS " ++ NameSupply.mainAlias,
        t.joinClause,
        "SET " ++ String.intercalate ", " ((changes.zip parameters).map fun entry =>
          entry.1.sql (qualify NameSupply.mainAlias (catalog.column c.entity entry.1.property))
            entry.2),
        t.whereClause] ++ ";"]
  /-- As many parameters as changes. -/
  length : parameters.length = changes.length
  /-- No two of them have one name. -/
  distinct : parameters.Nodup
  /-- Behind each is the value of its change. -/
  bound : ∀ entry ∈ changes.zip parameters, u.parameters.value? entry.2 = some entry.1.value

/-- A compiled update makes the last change of every property. -/
theorem Reflects.assigns (h : c.Reflects changes) (hk : c.kind = .update)
    (hf : TextFree c.target.sites) (hu : outcome (c.toUnit catalog) names = (.ok u, names')) :
    ∃ t, c.target.translate catalog (names.nextParameters c.fields).2 = (.ok t, names') ∧
      c.Assigns catalog t (Change.effective changes) u (names.nextParameters c.fields).1 := by
  have hsites : c.sites catalog = c.assignedSites c.fields ++ c.target.sites := by
    simp [sites, hk]
  have hget := toUnit_get?_assigned (.inr (.inl hk)) hsites hf hu
  have hmap : (Change.effective changes).map Change.property = c.fields :=
    (Change.map_property_effective changes).trans h.fields.symm
  obtain ⟨-, t, ht, rfl⟩ := (toUnit_update hk).mp hu
  refine ⟨t, ht, ?statement, ?length, (names.nextParameters_fresh c.fields).1, ?bound⟩
  case statement =>
    have hassignments : ((c.fields.zip (names.nextParameters c.fields).1).map fun entry =>
        c.assignment catalog entry.1 entry.2) =
        ((Change.effective changes).zip (names.nextParameters c.fields).1).map fun entry =>
          entry.1.sql (qualify NameSupply.mainAlias (catalog.column c.entity entry.1.property))
            entry.2 := by
      generalize (names.nextParameters c.fields).1 = parameters
      rw [← hmap, List.zip_map_left, List.map_map]
      refine List.map_congr_left fun entry he => ?_
      have hlast := Change.last_of_mem_effective (List.of_mem_zip he).1
      exact h.assignment_eq hlast entry.2
    exact congrArg (fun assignments => [Text.joinParts
      [t.definitionClause, "UPDATE " ++ c.table catalog ++ " AS " ++ NameSupply.mainAlias,
        t.joinClause, "SET " ++ String.intercalate ", " assignments, t.whereClause] ++ ";"])
      hassignments
  case length =>
    rw [NameSupply.nextParameters_length, ← hmap, List.length_map]
  case bound =>
    intro entry he
    have hlast := Change.last_of_mem_effective (List.of_mem_zip he).1
    have hentry : (entry.1.property, entry.2) ∈ c.fields.zip (names.nextParameters c.fields).1 := by
      generalize (names.nextParameters c.fields).1 = parameters at he ⊢
      rw [← hmap, List.zip_map_left]
      exact List.mem_map_of_mem (f := Prod.map Change.property id) he
    have hvalue : (bindPayload c.values entry.1.property entry.2).value = entry.1.value := by
      simp [bindPayload, h.values, hlast]
    rw [ParameterSet.value?, hget _ hentry, Option.map_some, hvalue]

/-- Any change gives the command something to assign. -/
theorem Reflects.fields_ne_nil (h : c.Reflects changes) (hne : changes ≠ []) : c.fields ≠ [] := by
  obtain ⟨first, rest, rfl⟩ := List.exists_cons_of_ne_nil hne
  have hm : first.property ∈ c.fields := by
    rw [h.fields, Change.properties, List.mem_eraseDups]
    exact List.mem_cons_self
  exact List.ne_nil_of_mem hm

/-- An update with something to assign compiles exactly when its filter can be translated. -/
theorem toUnit_update_succeeds_iff (hk : c.kind = .update) (hf : c.fields ≠ []) :
    (∃ u names', outcome (c.toUnit catalog) names = (.ok u, names')) ↔
      ∃ t names',
        c.target.translate catalog (names.nextParameters c.fields).2 = (.ok t, names') := by
  constructor
  · rintro ⟨u, names', hu⟩
    obtain ⟨-, t, ht, -⟩ := (toUnit_update hk).mp hu
    exact ⟨t, names', ht⟩
  · rintro ⟨t, names', ht⟩
    exact ⟨_, names', (toUnit_update hk).mpr ⟨hf, t, ht, rfl⟩⟩

/-- The last change of a property wins. After every change the command reflects the changes made so
far. It compiles whenever its filter can be translated, and then assigns every changed property
once, in the order of first changes, by the last change of the property and with its value. -/
theorem changeAll_lastWins {changes : List Change} {filter : Option Query} (hne : changes ≠ [])
    (hf : ∀ q ∈ filter, TextFree q.sites) (catalog : Catalog) (entity : String)
    (objectName : Option String) (mustAffectRows : Bool) (names : NameSupply) :
    let start : Command := { ofUpdate entity with query := filter, objectName, mustAffectRows }
    let c := start.changeAll changes
    (∀ before, before <+: changes → (start.changeAll before).Reflects before) ∧
      (Change.effective changes).map Change.property = Change.properties changes ∧
      ((∃ u names', outcome (c.toUnit catalog) names = (.ok u, names')) ↔
        ∃ t names',
          c.target.translate catalog (names.nextParameters c.fields).2 = (.ok t, names')) ∧
      (filter = none → ∃ u names', outcome (c.toUnit catalog) names = (.ok u, names')) ∧
      ∀ u names', outcome (c.toUnit catalog) names = (.ok u, names') → ∃ t parameters,
        c.target.translate catalog (names.nextParameters c.fields).2 = (.ok t, names') ∧
          c.Assigns catalog t (Change.effective changes) u parameters := by
  intro start c
  have hstart : start.Reflects [] := reflects_nil rfl rfl rfl
  have hreflects : c.Reflects changes := hstart.changeAll changes
  obtain ⟨fields, values, calculations, hframe⟩ := start.changeAll_frame changes
  have hk : c.kind = .update := congrArg Command.kind hframe
  have htarget : c.target = filter.getD (.ofEntity entity) := congrArg Command.target hframe
  have hfree : TextFree c.target.sites := by
    rw [htarget]
    cases filter with
    | none => exact fun site hsite => absurd hsite (by simp [Query.ofEntity, Query.sites,
        clauseSites, armSites, joinSites, matchSites])
    | some q => exact hf q rfl
  have hcompiles := @toUnit_update_succeeds_iff catalog c names hk (hreflects.fields_ne_nil hne)
  refine ⟨fun before _ => hstart.changeAll before, Change.map_property_effective changes, hcompiles,
    ?unfiltered, fun u names' hu => ?assigns⟩
  case unfiltered =>
    rintro rfl
    refine hcompiles.mpr ⟨{}, (names.nextParameters c.fields).2.resetAliases, ?_⟩
    rw [htarget]
    exact Query.translate_ofEntity catalog entity _
  case assigns =>
    obtain ⟨t, ht, hassigns⟩ := hreflects.assigns hk hfree hu
    exact ⟨t, _, ht, hassigns⟩

/-- A property set and then computed, and another computed and then set, in one update with a
condition. -/
theorem changeAll_lastWins_order :
    let catalog : Catalog := ({} : Catalog).insert "Order"
      { table := some "orders", fields := [{ property := "total", mapped := some "amount" }] }
    let changes : List Change := [.set "total" (.int 1), .calculate "status" .multiply (.int 2),
      .calculate "total" .add (.int 10), .set "status" (.string "PAID")]
    let filter := (Query.ofEntity "Order").equal "id" (.int 7)
    let c := (({ ofUpdate "Order" with query := some filter } : Command)).changeAll changes
    changes ≠ [] ∧ (∀ q ∈ some filter, TextFree q.sites) ∧ c.Reflects changes ∧
      ∃ u names' t parameters, outcome (c.toUnit catalog) {} = (.ok u, names') ∧
        c.Assigns catalog t (Change.effective changes) u parameters ∧
        u.statements = ["UPDATE `orders` AS TB SET TB.`amount`=TB.`amount`+?total1, "
          ++ "TB.`status`=?status2 WHERE TB.`id` = ?id3;"] ∧
        u.parameters.value? "total1" = some (.int 10) ∧
        u.parameters.value? "status2" = some (.string "PAID") := by
  intro catalog changes filter c
  have hne : changes ≠ [] := by simp [changes]
  have hsites : filter.sites = [⟨.value "id" { name := "", value := .int 7 }, .condition⟩] := rfl
  have hf : ∀ q ∈ some filter, TextFree q.sites := by simp [hsites, TextFree, Source.isText]
  obtain ⟨u, names', hu, htext, hvalues⟩ : ∃ u names',
      outcome (c.toUnit catalog) {} = (.ok u, names') ∧
        u.statements = ["UPDATE `orders` AS TB SET TB.`amount`=TB.`amount`+?total1, "
          ++ "TB.`status`=?status2 WHERE TB.`id` = ?id3;"] ∧
        u.parameters.value? "total1" = some (.int 10) ∧
        u.parameters.value? "status2" = some (.string "PAID") :=
    ⟨_, _, rfl, by decide +kernel, by cbv, by cbv⟩
  obtain ⟨hreflects, -, -, -, hall⟩ :=
    @changeAll_lastWins changes (some filter) hne hf catalog "Order" none false {}
  obtain ⟨t, parameters, -, hassigns⟩ := hall u names' hu
  exact ⟨hne, hf, hreflects changes (List.prefix_refl changes), u, names', t, parameters, hu,
    hassigns, htext, hvalues⟩

end Command

end AbstractSql
