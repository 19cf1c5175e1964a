import AbstractSql.Proofs.Command.Compiled
import AbstractSql.Proofs.Translation.Whole

/-!
# What a command binds

A command binds the values it assigns and then the sources of its filter. The parameters of its unit
are what these make in the ledger, the latest entry of a name being the one that counts.
-/

namespace AbstractSql

open ParameterSet (collect latest Distinct)

namespace Command

variable {catalog : Catalog} {c : Command} {names names' : NameSupply} {u : ExecutionUnit}

/-- The command inserts, updates or deletes rows. -/
def IsData (c : Command) : Prop := c.kind = .insert ∨ c.kind = .update ∨ c.kind = .delete

/-- A command is a statement text or works on rows. -/
theorem isData_or_text (c : Command) :
    c.IsData ∨ ∃ text isProcedure, c.kind = .text text isProcedure := by
  unfold IsData
  cases c.kind with
  | text text isProcedure => exact .inr ⟨text, isProcedure, rfl⟩
  | insert => exact .inl (.inl rfl)
  | update => exact .inl (.inr (.inl rfl))
  | delete => exact .inl (.inr (.inr rfl))

/-- The sources of assigned properties. An assigned value is always written, like a condition. -/
def assignedSites (c : Command) (properties : List String) : List Site :=
  properties.map fun property => ⟨.value property (bindPayload c.values property ""), .condition⟩

/-- The sources of a command in the order in which they are bound. A statement text has its
parameters apart. -/
def sites (c : Command) (catalog : Catalog) : List Site :=
  match c.kind with
  | .text _ _ => []
  | .insert => c.assignedSites ((catalog.editFields c.entity).map (·.property))
  | .update => c.assignedSites c.fields ++ c.target.sites
  | .delete => c.target.sites

/-- The sources of a command without their places. -/
abbrev sources (c : Command) (catalog : Catalog) : List Source := sourcesOf (c.sites catalog)

/-- The payload of a property under another name. -/
theorem bindPayload_rename (payload : ParameterSet) (property name : String) :
    { bindPayload payload property "" with name } = bindPayload payload property name := by
  unfold bindPayload
  cases payload.get? property <;> rfl

/-- Assigned values are bound under the names issued for their properties. -/
theorem ledger_assigned (c : Command) (names : NameSupply) (properties : List String) :
    Entry.parameters (ledger names (sourcesOf (c.assignedSites properties))).1 =
        (properties.zip (names.nextParameters properties).1).map (fun entry =>
          bindPayload c.values entry.1 entry.2) ∧
      names.after (sourcesOf (c.assignedSites properties)) =
        (names.nextParameters properties).2 := by
  induction properties generalizing names with
  | nil => exact ⟨rfl, rfl⟩
  | cons property rest ih =>
    obtain ⟨hentries, hsupply⟩ := ih (names.nextParameter property).2
    have hbind : ledger names (sourcesOf (c.assignedSites (property :: rest))) =
        (⟨bindPayload c.values property (names.nextParameter property).1, false⟩ ::
          (ledger (names.nextParameter property).2 (sourcesOf (c.assignedSites rest))).1,
        (names.nextParameter property).2.after (sourcesOf (c.assignedSites rest))) := by
      rw [← bindPayload_rename]
      rfl
    rw [NameSupply.after, hbind]
    refine ⟨?_, hsupply⟩
    rw [Entry.parameters, List.map_cons, ← Entry.parameters, hentries]
    rfl

/-- Collected payloads are collected. -/
theorem bindAll_eq_collect (payload : ParameterSet) (bound : List (String × String)) :
    bindAll payload bound = collect (bound.map fun entry => bindPayload payload entry.1 entry.2) :=
  (List.foldl_map).symm

/-- The parameters of an assignment are what its sources bind. -/
theorem bindAll_assigned (c : Command) (names : NameSupply) (properties : List String) :
    bindAll c.values (properties.zip (names.nextParameters properties).1) =
      collect (Entry.parameters (ledger names (sourcesOf (c.assignedSites properties))).1) := by
  rw [bindAll_eq_collect, (c.ledger_assigned names properties).1]

/-- The supply is the one that sources leave, and the parameters hold the latest entry of every
name. -/
structure Collected (sources : List Source) (names names' : NameSupply) (parameters : ParameterSet) :
    Prop where
  /-- Up to the aliases, the supply is what the ledger leaves. -/
  supply : names'.resetAliases = (names.after sources).resetAliases
  /-- No name is repeated. -/
  distinct : parameters.Distinct
  /-- The latest entry of a name counts. -/
  get? : ∀ name, parameters.get? name = latest (Entry.parameters (ledger names sources).1) name

/-- Collected entries hold the latest of every name. -/
theorem Collected.of_collect {sources : List Source}
    (hs : names'.resetAliases = (names.after sources).resetAliases) :
    Collected sources names names' (collect (Entry.parameters (ledger names sources).1)) where
  supply := hs
  distinct := ParameterSet.distinct_collect _
  get? := ParameterSet.get?_collect _

/-- A compiled command has bound its sources. -/
theorem toUnit_collected (hc : c.IsData) (h : outcome (c.toUnit catalog) names = (.ok u, names')) :
    Collected (c.sources catalog) names names' u.parameters := by
  unfold sources sites
  rcases hc with hk | hk | hk
  · obtain ⟨-, rfl, rfl⟩ := (toUnit_insert hk rfl).mp h
    simp only [hk]
    have hb := Collected.of_collect (congrArg NameSupply.resetAliases
      (c.ledger_assigned names ((catalog.editFields c.entity).map (·.property))).2.symm)
    rw [← bindAll_assigned] at hb
    exact hb
  · obtain ⟨-, t, ht, rfl⟩ := (toUnit_update hk).mp h
    obtain ⟨hsupply, hparameters⟩ := Query.translate_ledger ht
    have ha := (c.ledger_assigned names c.fields).2
    simp only [hk, sourcesOf_append]
    rw [← ha] at hsupply hparameters
    refine ⟨?_, ?_, fun name => ?_⟩
    · rw [hsupply, NameSupply.after_append]
    · change Distinct (ParameterSet.union _ _)
      rw [bindAll_assigned]
      exact (ParameterSet.distinct_collect _).union _
    · change ParameterSet.get? (ParameterSet.union _ _) name = _
      rw [ParameterSet.get?_union, bindAll_assigned, ParameterSet.get?_collect, hparameters,
        ParameterSet.latest_collect, ledger_parameters_append, ParameterSet.latest_append]
  · obtain ⟨t, ht, rfl⟩ := (toUnit_delete hk).mp h
    obtain ⟨hsupply, hparameters⟩ := Query.translate_ledger ht
    have hb := Collected.of_collect hsupply
    rw [← hparameters] at hb
    simp only [hk]
    exact hb

end Command

end AbstractSql
