import AbstractSql.Form.Command
import AbstractSql.Proofs.Form.Query

/-!
# Commands read back

A command without binary64 numbers comes back from its form as it was, with texts for points in
time. For queries and commands alike this makes reading what is written the identity exactly where
no point in time is, and doing it once as good as doing it again.
-/

namespace AbstractSql

/-- An operation on a present value is read back from its name. -/
theorem Arithmetic.toChoice?_name (d : Dialect) (x : Arithmetic) :
    Json.toChoice? d choices (.string x.name) = some x := by
  cases x <;> rfl

/-- A kind of command is read back, in every dialect. -/
theorem CommandKind.ofJson?_toJson (d : Dialect) (k : CommandKind) :
    ofJson? d k.toJson = some k := by
  cases k with
  | text body isProcedure =>
    obtain ⟨r, hr, hparts⟩ : ∃ r, JsonRecord.of? d textPartNames
        (.object [("text", .string body), ("procedure", .bool isProcedure)]) = some r ∧ ∀ key, _ :=
      JsonRecord.exists_of?_object d rfl (by decide)
    have htext : r.required "text" Json.toText? = some body :=
      JsonRecord.required_eq (hparts "text") _
    have hprocedure : r.defaulted "procedure" false Json.toBool? = some isProcedure :=
      JsonRecord.defaulted_eq (hparts "procedure") _ _
    rw [toJson, ofJson?, textOfJson?, hr]
    simp only [Option.bind_eq_bind, Option.bind_some, htext, hprocedure]
    rfl
  | insert => rfl
  | update => rfl
  | delete => rfl

/-- A command without binary64 numbers is read back, with texts for points in time. -/
theorem Command.ofJson?_toJson (d : Dialect) {c : Command} (h : ∀ v ∈ c.allValues, v.FloatFree) :
    ofJson? d c.toJson = some (c.mapValues Value.textual) := by
  rw [allValues, List.forall_mem_append, List.forall_mem_flatMap] at h
  obtain ⟨r, hr, hparts⟩ : ∃ r, JsonRecord.of? .json partNames c.toJson = some r ∧ ∀ key, _ :=
    JsonRecord.exists_of?_object .json rfl (by decide)
  have hkind : r.required "kind" (CommandKind.ofJson? d) = some c.kind :=
    (JsonRecord.required_eq (hparts "kind") _).trans (c.kind.ofJson?_toJson d)
  have hentity : r.defaulted "entity" "" Json.toText? = some c.entity :=
    JsonRecord.defaulted_eq (hparts "entity") _ _
  have hobject : r.optional "object_name" Json.toText? = some c.objectName :=
    JsonRecord.optional_eq_self (hparts "object_name") (fun _ => Json.noConfusion) fun _ => rfl
  have hfields : r.defaulted "fields" [] (Json.toList? Json.toText?) = some c.fields :=
    (JsonRecord.defaulted_eq (hparts "fields") _ _).trans
      (Json.toList?_list_self .string (fun _ => rfl) c.fields)
  have hquery : r.optional "query" Query.ofJson? =
      some (c.query.map (.mapValues Value.textual)) :=
    JsonRecord.optional_eq (hparts "query") Query.toJson_ne_null fun q hq =>
      Query.ofJson?_toJson (h.1 q (Option.mem_toList.mpr hq))
  have hvalues : r.defaulted "values" {} ParameterSet.ofJson? =
      some (c.values.mapValues Value.textual) :=
    (JsonRecord.defaulted_eq (hparts "values") _ _).trans (ParameterSet.ofJson?_toJson h.2)
  have hcalculation (entry : String × Arithmetic) :
      (calculationToJson entry).toPair? .json Json.toText?
        (Json.toChoice? .json Arithmetic.choices) = some entry := by
    have hname := entry.2.toChoice?_name .json
    rw [calculationToJson, Json.toPair?, hname]
    rfl
  have hcalculations : r.defaulted "calculations" [] (Json.toList? (Json.toPair? .json Json.toText?
      (Json.toChoice? .json Arithmetic.choices))) = some c.calculations :=
    (JsonRecord.defaulted_eq (hparts "calculations") _ _).trans
      (Json.toList?_list_self calculationToJson hcalculation c.calculations)
  have hmust : r.defaulted "must_affect_rows" false Json.toBool? = some c.mustAffectRows :=
    JsonRecord.defaulted_eq (hparts "must_affect_rows") _ _
  rw [ofJson?, hr]
  simp only [Option.bind_eq_bind, Option.bind_some, hkind, hentity, hobject, hfields, hquery,
    hvalues, hcalculations, hmust]
  rfl

/-! ## Reading what is written -/

/-- What reading a model from its form gives. -/
structure ReadsBack {α : Type} (encode : α → Json) (decode : Json → Option α)
    (mapValues : (Value → Value) → α → α) (allValues : α → List Value) (a : α) : Prop where
  /-- The model, with texts in the place of all points in time. -/
  textual : decode (encode a) = some (mapValues Value.textual a)
  /-- The same model exactly when it has no points in time. -/
  same : decode (encode a) = some a ↔ ∀ v ∈ allValues a, v.TimeFree
  /-- A model that is read from its own form as it is. -/
  again : (decode (encode a)).bind (fun b => decode (encode b)) = decode (encode a)

/-- A form that is read back with texts for points in time is read back as it is from then on. -/
theorem ReadsBack.of_textual {α : Type} {encode : α → Json} {decode : Json → Option α}
    {mapValues : (Value → Value) → α → α} {allValues : α → List Value}
    (hread : ∀ b, (∀ v ∈ allValues b, v.FloatFree) →
      decode (encode b) = some (mapValues Value.textual b))
    (hvalues : ∀ b, allValues (mapValues Value.textual b) = (allValues b).map Value.textual)
    (hself : ∀ b, mapValues Value.textual b = b ↔ ∀ v ∈ allValues b, v.textual = v)
    {a : α} (h : ∀ v ∈ allValues a, v.FloatFree) :
    ReadsBack encode decode mapValues allValues a where
  textual := hread a h
  same := by
    rw [hread a h, Option.some.injEq, hself]
    exact forall₂_congr fun v _ => v.textual_eq_self_iff
  again := by
    -- What comes back has neither binary64 numbers nor points in time, so it is read back as it is.
    have hfree : ∀ v ∈ allValues (mapValues Value.textual a), v.FloatFree := by
      rw [hvalues, List.forall_mem_map]
      exact fun v hv => (h v hv).textual
    have htime : ∀ v ∈ allValues (mapValues Value.textual a), v.textual = v := by
      rw [hvalues, List.forall_mem_map]
      exact fun v _ => v.textual.textual_eq_self_iff.mpr v.timeFree_textual
    rw [hread a h, Option.bind_some, hread _ hfree, (hself _).mpr htime]

/-- A query or a command without binary64 numbers is read back from its form, however deep queries
stand inside it: with texts for its points in time, so unchanged exactly when it has none, and from
then on always as it is. -/
theorem toJson_readsBack :
    (∀ q : Query, (∀ v ∈ q.allValues, v.FloatFree) →
      ReadsBack Query.toJson Query.ofJson? Query.mapValues Query.allValues q) ∧
      ∀ (d : Dialect) (c : Command), (∀ v ∈ c.allValues, v.FloatFree) →
        ReadsBack Command.toJson (Command.ofJson? d) Command.mapValues Command.allValues c :=
  ⟨fun _ h => .of_textual (fun _ => Query.ofJson?_toJson) Query.allValues_mapValues
      Query.mapValues_eq_self_iff h,
    fun d _ h => .of_textual (fun _ => Command.ofJson?_toJson d) Command.allValues_mapValues
      Command.mapValues_eq_self_iff h⟩

/-- An update whose filter has a group with a list, a compared query, a join with a condition on its
rows, a closure, a page and a set operation with a statement text. A leap second is in it three
times, once as it is and twice in lists. -/
theorem toJson_readsBack_leapSecond :
    let t : DateTime := ⟨2016, 12, 31, 23, 59, 59, 1500000000, rfl⟩
    let texts : Value := .list [.list [], .null, .bool true, .int (-1),
      .string "2016-12-31T23:59:60.500"]
    let times : Value := .list [.list [], .null, .bool true, .int (-1), .dateTime t]
    let late : Condition :=
      .criterion { field := "placed", operator := .isIn, value := .value times }
    let buyer : Query := { entity := "User", fields := ["id"], size := 1 }
    let latest : RawText := ⟨"SELECT ?t", ⟨[{ name := "t", value := .dateTime t, size := some 8 }]⟩⟩
    let q : Query :=
      { entity := "Order"
        conditions := [⟨.and, .group { entity := "", conditions := [⟨.or, late⟩] }⟩,
          ⟨.or, .criterion { field := "buyer", operator := .equal, value := .query buyer }⟩]
        joins := [{ kind := .left, fields := [("buyer", "id")], query := buyer
                    extra := some { entity := "User", conditions := [⟨.and, late⟩] } }]
        combines := [⟨.except, { entity := "", text := some latest }⟩]
        recurve := some ⟨"id", "parent", .up⟩
        paging := some ⟨2, 10⟩
        isolation := some .serializable }
    let c : Command :=
      { kind := .update, entity := "Order", fields := ["total"], query := some q
        values := .ofPairs [("total", .int 5)], calculations := [("total", .add)] }
    (∃ r, Query.ofJson? q.toJson = some r ∧
        r.allValues = [texts, texts, .string "2016-12-31T23:59:60.500"] ∧ r ≠ q ∧
        Query.ofJson? r.toJson = some r) ∧
      ∃ r, Command.ofJson? .json c.toJson = some r ∧ r = c.mapValues Value.textual ∧ r ≠ c ∧
        Command.ofJson? .json r.toJson = some r := by
  intro t texts times late buyer latest q c
  have hvalues : q.allValues = [times, times, .dateTime t] := rfl
  have hpayload : c.values.allValues = [.int 5] := rfl
  have hquery : c.query.toList.flatMap Query.allValues = q.allValues := List.flatMap_singleton ..
  have hcommand : c.allValues = q.allValues ++ [.int 5] := by
    rw [Command.allValues, hpayload, hquery]
  have hfree : ∀ v ∈ q.allValues, v.FloatFree := by
    rw [hvalues]
    simp [times, Value.FloatFree, Value.leaves, Value.leavesItems]
  have hfrees : ∀ v ∈ c.allValues, v.FloatFree := by
    rw [hcommand, List.forall_mem_append]
    exact ⟨hfree, by simp [Value.FloatFree, Value.leaves]⟩
  have hiso : t.iso = "2016-12-31T23:59:60.500" := by
    change (⟨2016, 12, 31, 23, 59, 59, 1500000000, rfl⟩ : DateTime).iso = _
    rfl
  have htimes : times.textual = texts := by
    simp only [times, texts, Value.textual, Value.textualItems, hiso]
  have htexts : (q.mapValues Value.textual).allValues =
      [texts, texts, .string "2016-12-31T23:59:60.500"] := by
    rw [Query.allValues_mapValues, hvalues]
    simp only [List.map_cons, List.map_nil, htimes, Value.textual, hiso]
  have htime : ¬(Value.dateTime t).TimeFree := fun h => h t List.mem_cons_self
  have hmem : Value.dateTime t ∈ q.allValues := by simp [hvalues]
  have hq := toJson_readsBack.1 q hfree
  have hc := toJson_readsBack.2 .json c hfrees
  have hqagain := hq.again
  have hcagain := hc.again
  rw [hq.textual, Option.bind_some] at hqagain
  rw [hc.textual, Option.bind_some] at hcagain
  refine ⟨⟨q.mapValues Value.textual, hq.textual, htexts, ?_, ?_⟩,
    c.mapValues Value.textual, hc.textual, rfl, ?_, ?_⟩
  · intro h
    exact htime (hq.same.mp (hq.textual.trans (congrArg some h)) _ hmem)
  · exact hqagain
  · intro h
    have hlast : Value.dateTime t ∈ c.allValues := hcommand ▸ List.mem_append_left _ hmem
    exact htime (hc.same.mp (hc.textual.trans (congrArg some h)) _ hlast)
  · exact hcagain

end AbstractSql
