import AbstractSql.Proofs.Command.Sites
import AbstractSql.Proofs.ParameterSet.Names

/-!
# Assigned values

An insertion or an update binds the payload of its properties under names issued one after another.
The names are new and differ from each other, so no parameter replaces another one, whatever the
payload and the supply hold: an insertion has a column, a placeholder and a parameter for each of
its fields, side by side.
-/

namespace AbstractSql

open Identifier (quote placeholder)
open ParameterSet (collect)

/-- Names issued one after another are new and differ from each other. -/
theorem NameSupply.nextParameters_fresh (names : NameSupply) (bases : List String) :
    (names.nextParameters bases).1.Nodup ∧
      ∀ name ∈ (names.nextParameters bases).1, name ∉ names.issued := by
  induction bases generalizing names with
  | nil => exact ⟨.nil, by simp [nextParameters]⟩
  | cons base rest ih =>
    obtain ⟨hrest, hlater⟩ := ih (names.nextParameter base).2
    have hfirst := names.nextParameter_fresh base
    have hnot : ∀ name ∈ ((names.nextParameter base).2.nextParameters rest).1,
        name ≠ (names.nextParameter base).1 ∧ name ∉ names.issued := by
      intro name hn
      have hissued := hlater name hn
      rw [nextParameter_issued, List.mem_cons, not_or] at hissued
      exact hissued
    refine ⟨List.nodup_cons.mpr ⟨fun hm => (hnot _ hm).1 rfl, hrest⟩, ?_⟩
    intro name hn
    rcases List.mem_cons.mp hn with rfl | hn
    · exact hfirst
    · exact (hnot name hn).2

/-- The parameter says what the payload says of a property; without an entry it stands for no
value. Its own name does not matter. -/
structure Parameter.Copies (p : Parameter) (payload : ParameterSet) (property : String) : Prop where
  /-- Value and declarations are those of the entry. -/
  entry : ∀ found, payload.get? property = some found → p = { found with name := p.name }
  /-- Nothing is declared about a missing value. -/
  missing : payload.get? property = none → p = { name := p.name, value := .null }

namespace Command

variable {catalog : Catalog} {c : Command} {names names' : NameSupply} {u : ExecutionUnit}

/-- The bound payload of a property has the given name. -/
@[simp] theorem bindPayload_name (payload : ParameterSet) (property name : String) :
    (bindPayload payload property name).name = name := by
  unfold bindPayload
  split <;> rfl

/-- The bound payload of a property is a copy of it. -/
theorem bindPayload_copies (payload : ParameterSet) (property name : String) :
    (bindPayload payload property name).Copies payload property := by
  constructor
  · intro found hfound
    simp only [bindPayload, hfound]
  · intro hnone
    simp only [bindPayload, hnone]

/-- The payload of some properties under different names stands in the order of the properties. -/
theorem items_bindAll (payload : ParameterSet) {properties parameters : List String}
    (hl : parameters.length = properties.length) (hd : parameters.Nodup) :
    (bindAll payload (properties.zip parameters)).items =
        (properties.zip parameters).map (fun entry => bindPayload payload entry.1 entry.2) ∧
      (bindAll payload (properties.zip parameters)).names = parameters := by
  have hnames : ((properties.zip parameters).map fun entry =>
      bindPayload payload entry.1 entry.2).map (·.name) = parameters := by
    rw [List.map_map]
    calc (properties.zip parameters).map _ = (properties.zip parameters).map Prod.snd :=
          List.map_congr_left fun entry _ => bindPayload_name payload entry.1 entry.2
      _ = parameters := List.map_snd_zip hl.le
  have hitems : (bindAll payload (properties.zip parameters)).items =
      (properties.zip parameters).map (fun entry => bindPayload payload entry.1 entry.2) := by
    rw [bindAll_eq_collect, collect,
      ParameterSet.items_union_of_fresh (by simp) (by rwa [hnames]), List.nil_append]
  refine ⟨hitems, ?_⟩
  rw [ParameterSet.names, hitems, hnames]

/-- A value that a command assigns is found under the name issued for its property. A raw text in
the filter could put another one in its place, so there must be none. -/
theorem toUnit_get?_assigned {properties : List String} {rest : List Site} (hc : c.IsData)
    (hs : c.sites catalog = c.assignedSites properties ++ rest) (hf : TextFree rest)
    (h : outcome (c.toUnit catalog) names = (.ok u, names')) :
    ∀ entry ∈ properties.zip (names.nextParameters properties).1,
      u.parameters.get? entry.2 = some (bindPayload c.values entry.1 entry.2) := by
  intro entry he
  have hfree : ∀ source ∈ c.sources catalog, source.isText = false := by
    intro source hsource
    obtain ⟨site, hsite, rfl⟩ := List.mem_map.mp hsource
    rw [hs] at hsite
    rcases List.mem_append.mp hsite with hsite | hsite
    · obtain ⟨property, -, rfl⟩ := List.mem_map.mp hsite
      rfl
    · exact hf site hsite
  have hbound : bindPayload c.values entry.1 entry.2 ∈
      Entry.parameters (ledger names (c.sources catalog)).1 := by
    rw [sources, hs, sourcesOf_append, ledger_parameters_append,
      (c.ledger_assigned names properties).1]
    exact List.mem_append_left _ (List.mem_map_of_mem he)
  -- Issued names are new, so nothing behind it in the ledger takes the name away.
  obtain ⟨e, hmem, hparameter⟩ := List.mem_map.mp hbound
  have hlatest := latest_ledger hfree e hmem
  rw [hparameter, bindPayload_name] at hlatest
  rw [(toUnit_collected hc h).get?, hlatest]

/-- An insertion puts columns, placeholders and parameters side by side. -/
structure Aligned (c : Command) (catalog : Catalog) (u : ExecutionUnit) (parameters : List String) :
    Prop where
  /-- The columns of the fields and the placeholders of the parameters, in this order. -/
  statement : u.statements =
    ["INSERT INTO " ++ c.table catalog ++ " ("
      ++ String.intercalate "," ((catalog.editFields c.entity).map fun field => quote field.column)
      ++ ") VALUES (" ++ String.intercalate "," (parameters.map placeholder) ++ ");"]
  /-- As many placeholders as fields. -/
  length : parameters.length = (catalog.editFields c.entity).length
  /-- Nothing else is bound, and nothing out of order. -/
  names : u.parameters.names = parameters
  /-- No two placeholders are the same. -/
  distinct : parameters.Nodup
  /-- The parameter of a field is found under its name and says what the payload says of the
  property. -/
  bound : ∀ (i : Nat) (field : Field), (catalog.editFields c.entity)[i]? = some field →
    ∃ p, u.parameters.items[i]? = some p ∧ parameters[i]? = some p.name ∧
      u.parameters.get? p.name = some p ∧ p.Copies c.values field.property

/-- An insertion into an entity with fields to insert is compiled, and its columns, placeholders and
parameters are aligned, whatever names were issued before and whatever names the payload has. -/
theorem toUnit_aligns (hk : c.kind = .insert) (hf : catalog.editFields c.entity ≠ [])
    (names : NameSupply) :
    ∃ u names' parameters, outcome (c.toUnit catalog) names = (.ok u, names') ∧
      c.Aligned catalog u parameters ∧ ∀ name ∈ parameters, name ∉ names.issued := by
  let properties := (catalog.editFields c.entity).map (·.property)
  let parameters := (names.nextParameters properties).1
  obtain ⟨hdistinct, hfresh⟩ := names.nextParameters_fresh properties
  have hlength : parameters.length = properties.length := names.nextParameters_length properties
  obtain ⟨hitems, hnames⟩ := items_bindAll c.values hlength hdistinct
  have hsome : properties ≠ [] := by simpa [properties] using hf
  obtain ⟨u, names', hunit⟩ : ∃ u names', outcome (c.toUnit catalog) names = (.ok u, names') :=
    ⟨_, _, (toUnit_insert hk rfl).mpr ⟨hsome, rfl, rfl⟩⟩
  have hsites : c.sites catalog = c.assignedSites properties ++ [] := by
    simp [sites, hk, properties]
  have hget := toUnit_get?_assigned (.inl hk) hsites (by simp [TextFree]) hunit
  obtain ⟨-, -, rfl⟩ := (toUnit_insert hk rfl).mp hunit
  refine ⟨_, names', parameters, hunit, ⟨rfl, ?length, hnames, hdistinct, ?bound⟩, hfresh⟩
  case length => simpa [properties] using hlength
  case bound =>
    intro i field hi
    have hlt : i < parameters.length := by
      have := (List.getElem?_eq_some_iff.mp hi).1
      simp only [hlength, properties, List.length_map]
      exact this
    have hzip : (properties.zip parameters)[i]? = some (field.property, parameters[i]) := by
      rw [List.getElem?_zip_eq_some]
      exact ⟨by simp [properties, hi], List.getElem?_eq_getElem hlt⟩
    have hentry := hget _ (List.mem_of_getElem? hzip)
    refine ⟨bindPayload c.values field.property parameters[i], ?_, ?_, ?_,
      bindPayload_copies c.values field.property _⟩
    · change (bindAll c.values (properties.zip parameters)).items[i]? = _
      rw [hitems, List.getElem?_map, hzip]
      rfl
    · rw [bindPayload_name, List.getElem?_eq_getElem hlt]
    · rw [bindPayload_name]
      exact hentry

/-- A property declared twice, one that the payload does not name, and a payload with a name that is
generated for another property. -/
theorem toUnit_aligns_phones :
    let catalog : Catalog := ({} : Catalog).insert "Contact"
      { fields := [{ property := "phone" }, { property := "phone1", mapped := some "second" },
          { property := "phone" }, { property := "note" }] }
    let c := ofInsert "Contact" ⟨[{ name := "phone", value := .string "111", size := some 8 },
      { name := "phone1", value := .string "222" }, { name := "other", value := .int 5 }]⟩
    c.kind = .insert ∧ catalog.editFields c.entity ≠ [] ∧ ∃ u names' parameters,
      outcome (c.toUnit catalog) {} = (.ok u, names') ∧ c.Aligned catalog u parameters ∧
        (∀ name ∈ parameters, name ∉ ({} : NameSupply).issued) ∧
        parameters = ["phone1", "phone12", "phone3", "note4"] ∧
        u.parameters.value? "phone1" = some (.string "111") ∧
        u.parameters.value? "phone12" = some (.string "222") := by
  intro catalog c
  have hf : catalog.editFields c.entity ≠ [] := by decide
  obtain ⟨u, names', parameters, hu, ha, hfresh⟩ := toUnit_aligns (c := c) rfl hf {}
  obtain ⟨v, final, hv, hnames⟩ : ∃ v final, outcome (c.toUnit catalog) {} = (.ok v, final) ∧
      v.parameters.names = ["phone1", "phone12", "phone3", "note4"] ∧
      v.parameters.value? "phone1" = some (.string "111") ∧
      v.parameters.value? "phone12" = some (.string "222") := ⟨_, _, rfl, rfl, rfl, rfl⟩
  obtain rfl : u = v := Except.ok.inj (Prod.mk.inj (hu.symm.trans hv)).1
  exact ⟨rfl, hf, u, names', parameters, hu, ha, hfresh, ha.names.symm.trans hnames.1, hnames.2⟩

end Command

end AbstractSql
