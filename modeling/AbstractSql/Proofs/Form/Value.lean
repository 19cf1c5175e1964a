import AbstractSql.Form.Value
import AbstractSql.Proofs.Json.Record
import AbstractSql.Proofs.Query.Values

/-!
# Values and parameters read back

A value that is read from its own form is the value again, but for points in time: they come back as
their texts, also inside lists. Binary64 numbers are left out here, since some are written as null.
Parameters and sets of parameters come back with their values and with all that is declared about
them.
-/

namespace AbstractSql

mutual

/-- The scalars in a value: the value itself, or those of its members. -/
def Value.leaves : Value → List Value
  | .list items => Value.leavesItems items
  | scalar => [scalar]

/-- The scalars in values. -/
def Value.leavesItems : List Value → List Value
  | [] => []
  | v :: rest => v.leaves ++ Value.leavesItems rest

end

mutual

/-- The value with the text of each point in time in its place. -/
def Value.textual : Value → Value
  | .dateTime t => .string t.iso
  | .list items => .list (Value.textualItems items)
  | scalar => scalar

/-- The values with the text of each point in time in its place. -/
def Value.textualItems : List Value → List Value
  | [] => []
  | v :: rest => v.textual :: Value.textualItems rest

end

namespace Value

/-- No binary64 number is in the value. -/
def FloatFree (v : Value) : Prop := ∀ x, .float x ∉ v.leaves

/-- No point in time is in the value. -/
def TimeFree (v : Value) : Prop := ∀ t, .dateTime t ∉ v.leaves

mutual

/-- A value is read back, with texts for points in time. -/
theorem ofJson?_toJson : ∀ v : Value, v.FloatFree → ofJson? v.toJson = some v.textual
  | .null, _ => rfl
  | .bool _, _ => rfl
  | .int n, _ => by
    rw [toJson, Json.int, ofJson?, Json.toInt?_ofInt]
    rfl
  | .float x, h => absurd List.mem_cons_self (h x)
  | .string _, _ => rfl
  | .dateTime _, _ => rfl
  | .list items, h => by
    have hitems := ofJsonItems?_toJsonItems items fun x hx => h x (by rwa [leaves])
    rw [toJson, ofJson?, hitems, textual]
    rfl

/-- Values are read back, with texts for points in time. -/
theorem ofJsonItems?_toJsonItems : ∀ items : List Value, (∀ x, .float x ∉ leavesItems items) →
    ofJsonItems? (toJsonItems items) = some (textualItems items)
  | [], _ => rfl
  | v :: rest, h => by
    have hv := v.ofJson?_toJson fun x hx => h x (List.mem_append_left _ hx)
    have hrest := ofJsonItems?_toJsonItems rest fun x hx => h x (List.mem_append_right _ hx)
    rw [toJsonItems, ofJsonItems?, hv, hrest, textualItems]
    rfl

end

mutual

/-- A value stays as it is exactly when no point in time is in it. -/
theorem textual_eq_self_iff : ∀ v : Value, v.textual = v ↔ v.TimeFree
  | .null => by simp [textual, TimeFree, leaves]
  | .bool _ => by simp [textual, TimeFree, leaves]
  | .int _ => by simp [textual, TimeFree, leaves]
  | .float _ => by simp [textual, TimeFree, leaves]
  | .string _ => by simp [textual, TimeFree, leaves]
  | .dateTime _ => by simp [textual, TimeFree, leaves]
  | .list items => by
    have hitems := textualItems_eq_self_iff items
    simpa only [textual, TimeFree, leaves, list.injEq] using hitems

/-- Values stay as they are exactly when no point in time is in them. -/
theorem textualItems_eq_self_iff : ∀ items : List Value,
    textualItems items = items ↔ ∀ t, .dateTime t ∉ leavesItems items
  | [] => by simp [textualItems, leavesItems]
  | v :: rest => by
    have hv := v.textual_eq_self_iff
    have hrest := textualItems_eq_self_iff rest
    simp only [textualItems, leavesItems, List.cons.injEq, hv, hrest, TimeFree, List.mem_append,
      not_or, forall_and]

end

mutual

/-- The scalars come back one by one. -/
theorem leaves_textual : ∀ v : Value, v.textual.leaves = v.leaves.map textual
  | .null => rfl
  | .bool _ => rfl
  | .int _ => rfl
  | .float _ => rfl
  | .string _ => rfl
  | .dateTime _ => rfl
  | .list items => leavesItems_textualItems items

/-- The scalars of values come back one by one. -/
theorem leavesItems_textualItems : ∀ items : List Value,
    leavesItems (textualItems items) = (leavesItems items).map textual
  | [] => rfl
  | v :: rest => by
    rw [textualItems, leavesItems, leavesItems, List.map_append, v.leaves_textual,
      leavesItems_textualItems rest]

end

/-- A scalar that comes back as a binary64 number is one. -/
theorem textual_eq_float {v : Value} {x : Float} (h : v.textual = .float x) : v = .float x := by
  cases v with
  | float y => exact h
  | null | bool | int | string | dateTime | list => simp [textual] at h

/-- A scalar never comes back as a point in time. -/
theorem textual_ne_dateTime (v : Value) (t : DateTime) : v.textual ≠ .dateTime t := by
  cases v <;> simp [textual]

/-- No binary64 number comes back where none was. -/
theorem FloatFree.textual {v : Value} (h : v.FloatFree) : v.textual.FloatFree := by
  intro x hx
  rw [leaves_textual] at hx
  obtain ⟨leaf, hleaf, hfloat⟩ := List.mem_map.mp hx
  exact h x (textual_eq_float hfloat ▸ hleaf)

/-- No point in time comes back. -/
theorem timeFree_textual (v : Value) : v.textual.TimeFree := by
  intro t ht
  rw [leaves_textual] at ht
  obtain ⟨leaf, -, htime⟩ := List.mem_map.mp ht
  exact textual_ne_dateTime leaf t htime

end Value

/-- A direction is read back from its name. -/
theorem ParameterDirection.toChoice?_name (d : Dialect) (p : ParameterDirection) :
    Json.toChoice? d choices (.string p.name) = some p := by
  cases p <;> rfl

/-- A declared type is read back from its name. -/
theorem SqlType.toChoice?_name (d : Dialect) (t : SqlType) :
    Json.toChoice? d choices (.string t.name) = some t := by
  cases t <;> rfl

/-- A parameter is read back with all that is declared about it. -/
theorem Parameter.ofJson?_toJson {p : Parameter} (h : p.value.FloatFree) :
    ofJson? p.toJson = some (p.mapValues Value.textual) := by
  obtain ⟨r, hr, hparts⟩ : ∃ r, JsonRecord.of? .json partNames p.toJson = some r ∧ ∀ key, _ :=
    JsonRecord.exists_of?_object .json rfl (by decide)
  have hname : r.required "name" Json.toText? = some p.name :=
    JsonRecord.required_eq (hparts "name") _
  have hvalue : r.required "value" Value.ofJson? = some p.value.textual :=
    (JsonRecord.required_eq (hparts "value") _).trans (p.value.ofJson?_toJson h)
  have hdirection : r.defaulted "direction" .input
      (Json.toChoice? .json ParameterDirection.choices) = some p.direction :=
    (JsonRecord.defaulted_eq (hparts "direction") _ _).trans (p.direction.toChoice?_name .json)
  have hword (n : UInt8) : ((Json.nat n.toUInt64).toNat? UInt8.size).map Nat.toUInt8 = some n := by
    have hlt : n.toUInt64.toNat < UInt8.size := n.toNat_toUInt64 ▸ n.toNat_lt
    rw [Json.toNat?_nat hlt, n.toNat_toUInt64, Option.map_some]
    exact congrArg some UInt8.ofNat_toNat
  have hlong (n : UInt32) :
      ((Json.nat n.toUInt64).toNat? UInt32.size).map Nat.toUInt32 = some n := by
    have hlt : n.toUInt64.toNat < UInt32.size := n.toNat_toUInt64 ▸ n.toNat_lt
    rw [Json.toNat?_nat hlt, n.toNat_toUInt64, Option.map_some]
    exact congrArg some UInt32.ofNat_toNat
  have hsize : (r.optional "size" fun j => (j.toNat? UInt32.size).map Nat.toUInt32) =
      some p.size := JsonRecord.optional_eq_self (hparts "size") (fun _ => Json.noConfusion) hlong
  have hprecision : (r.optional "precision" fun j => (j.toNat? UInt8.size).map Nat.toUInt8) =
      some p.precision :=
    JsonRecord.optional_eq_self (hparts "precision") (fun _ => Json.noConfusion) hword
  have hscale : (r.optional "scale" fun j => (j.toNat? UInt8.size).map Nat.toUInt8) =
      some p.scale := JsonRecord.optional_eq_self (hparts "scale") (fun _ => Json.noConfusion) hword
  have htype : r.optional "sql_type" (Json.toChoice? .json SqlType.choices) = some p.sqlType :=
    JsonRecord.optional_eq_self (hparts "sql_type") (fun _ => Json.noConfusion)
      (SqlType.toChoice?_name .json)
  rw [ofJson?, hr]
  simp only [Option.bind_eq_bind, Option.bind_some, hname, hvalue, hdirection, hsize, hprecision,
    hscale, htype]
  rfl

/-- Parameters are read back in order. -/
theorem ParameterSet.ofJson?_toJson {set : ParameterSet} (h : ∀ v ∈ set.allValues, v.FloatFree) :
    ofJson? set.toJson = some (set.mapValues Value.textual) := by
  have hitems : (Json.list Parameter.toJson set.items).toList? Parameter.ofJson? =
      some (set.items.map (.mapValues Value.textual)) :=
    Json.toList?_list fun p hp => Parameter.ofJson?_toJson (h p.value (List.mem_map_of_mem hp))
  rw [ofJson?, toJson, hitems]
  rfl

end AbstractSql
