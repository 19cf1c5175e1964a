import AbstractSql.Form.Query
import AbstractSql.Proofs.Form.Value

/-!
# Queries read back

A query is read with a reader for the queries inside it. Such a reader that reads the inner queries
back makes one that reads the query back, and the height of its form is height enough for the whole.
So a query without binary64 numbers comes back from its form as it was, with texts for points in
time.
-/

namespace AbstractSql

/-! ## Names -/

/-- A connector is read back from its name. -/
theorem Connector.toChoice?_name (d : Dialect) (c : Connector) :
    Json.toChoice? d choices (.string c.name) = some c := by
  cases c <;> rfl

/-- A comparison is read back from its name. -/
theorem Comparison.toChoice?_name (d : Dialect) (c : Comparison) :
    Json.toChoice? d choices (.string c.name) = some c := by
  cases c <;> rfl

/-- A kind of join is read back from its name. -/
theorem JoinKind.toChoice?_name (d : Dialect) (k : JoinKind) :
    Json.toChoice? d choices (.string k.name) = some k := by
  cases k <;> rfl

/-- An operator of a join is read back from its name. -/
theorem JoinOperator.toChoice?_name (d : Dialect) (o : JoinOperator) :
    Json.toChoice? d choices (.string o.name) = some o := by
  cases o <;> rfl

/-- A set operator is read back from its name. -/
theorem SetOperator.toChoice?_name (d : Dialect) (o : SetOperator) :
    Json.toChoice? d choices (.string o.name) = some o := by
  cases o <;> rfl

/-- A direction of a closure is read back from its name. -/
theorem Direction.toChoice?_name (d : Dialect) (x : Direction) :
    Json.toChoice? d choices (.string x.name) = some x := by
  cases x <;> rfl

/-- An isolation level is read back from its name. -/
theorem Isolation.toChoice?_name (d : Dialect) (level : Isolation) :
    Json.toChoice? d choices (.string level.name) = some level := by
  cases level <;> rfl

/-! ## Parts that hold no queries -/

/-- A conversion is read back. -/
theorem Conversion.ofJson?_toJson (c : Conversion) : ofJson? c.toJson = some c := rfl

/-- A sort key is read back. -/
theorem SortKey.ofJson?_toJson (key : SortKey) : ofJson? key.toJson = some key := by
  obtain ⟨r, hr, hparts⟩ :
      ∃ r, JsonRecord.of? .json ["field", "desc", "conversion"] key.toJson = some r ∧ ∀ key, _ :=
    JsonRecord.exists_of?_object .json rfl (by decide)
  have hfield : r.required "field" Json.toText? = some key.field :=
    JsonRecord.required_eq (hparts "field") _
  have hdesc : r.defaulted "desc" false Json.toBool? = some key.desc :=
    JsonRecord.defaulted_eq (hparts "desc") _ _
  have hconversion : r.optional "conversion" Conversion.ofJson? = some key.conversion :=
    JsonRecord.optional_eq_self (hparts "conversion") (fun _ => Json.noConfusion)
      Conversion.ofJson?_toJson
  rw [ofJson?, hr]
  simp only [Option.bind_eq_bind, Option.bind_some, hfield, hdesc, hconversion]
  rfl

/-- A closure is read back. -/
theorem Closure.ofJson?_toJson (c : Closure) : ofJson? c.toJson = some c := by
  obtain ⟨r, hr, hparts⟩ :
      ∃ r, JsonRecord.of? .json ["data_field", "relation_field", "direction"] c.toJson = some r ∧
        ∀ key, _ :=
    JsonRecord.exists_of?_object .json rfl (by decide)
  have hdata : r.required "data_field" Json.toText? = some c.dataField :=
    JsonRecord.required_eq (hparts "data_field") _
  have hrelation : r.required "relation_field" Json.toText? = some c.relationField :=
    JsonRecord.required_eq (hparts "relation_field") _
  have hdirection : r.required "direction" (Json.toChoice? .json Direction.choices) =
      some c.direction :=
    (JsonRecord.required_eq (hparts "direction") _).trans (c.direction.toChoice?_name .json)
  rw [ofJson?, hr]
  simp only [Option.bind_eq_bind, Option.bind_some, hdata, hrelation, hdirection]
  rfl

/-- A page is read back. -/
theorem Paging.ofJson?_toJson (p : Paging) : ofJson? p.toJson = some p := by
  obtain ⟨r, hr, hparts⟩ :
      ∃ r, JsonRecord.of? .json ["page", "size"] p.toJson = some r ∧ ∀ key, _ :=
    JsonRecord.exists_of?_object .json rfl (by decide)
  have hpage : r.required "page" Json.toWord? = some p.page :=
    (JsonRecord.required_eq (hparts "page") _).trans (Json.toWord?_nat p.page)
  have hsize : r.required "size" Json.toWord? = some p.size :=
    (JsonRecord.required_eq (hparts "size") _).trans (Json.toWord?_nat p.size)
  rw [ofJson?, hr]
  simp only [Option.bind_eq_bind, Option.bind_some, hpage, hsize]
  rfl

/-- A statement text is read back with its parameters. -/
theorem RawText.ofJson?_toJson {raw : RawText} (h : ∀ v ∈ raw.allValues, v.FloatFree) :
    ofJson? raw.toJson = some (raw.mapValues Value.textual) := by
  obtain ⟨r, hr, hparts⟩ :
      ∃ r, JsonRecord.of? .json ["text", "parameters"] raw.toJson = some r ∧ ∀ key, _ :=
    JsonRecord.exists_of?_object .json rfl (by decide)
  have htext : r.required "text" Json.toText? = some raw.text :=
    JsonRecord.required_eq (hparts "text") _
  have hparameters : r.defaulted "parameters" {} ParameterSet.ofJson? =
      some (raw.parameters.mapValues Value.textual) :=
    (JsonRecord.defaulted_eq (hparts "parameters") _ _).trans (ParameterSet.ofJson?_toJson h)
  rw [ofJson?, hr]
  simp only [Option.bind_eq_bind, Option.bind_some, htext, hparameters]
  rfl

/-! ## Parts that hold queries -/

/-- Form of a comparison in JSON. -/
def Criterion.toJson (c : Criterion) : Json :=
  .object
    [("field", .string c.field),
      ("operator", .string c.operator.name),
      ("value", c.value.toJson),
      ("conversion", .optional Conversion.toJson c.conversion)]

/-- Form of a condition with its connector in JSON. -/
def Clause.toJson (c : Clause) : Json := .array [.string c.connector.name, c.condition.toJson]

/-- Form of a join in JSON. -/
def Join.toJson (j : Join) : Json :=
  .object
    [("kind", .string j.kind.name),
      ("operator", .string j.operator.name),
      ("fields", .list Json.textPair j.fields),
      ("query", j.query.toJson),
      ("extra", .optional Query.toJson j.extra)]

/-- Form of a set operation in JSON. -/
def Combine.toJson (c : Combine) : Json :=
  .object [("kind", .string c.kind.name), ("query", c.query.toJson)]

theorem Clause.toJsonItems_eq_map (clauses : List Clause) :
    Clause.toJsonItems clauses = clauses.map toJson := by
  induction clauses with
  | nil => rfl
  | cons c rest ih =>
    obtain ⟨connector, condition⟩ := c
    exact congrArg (List.cons _) ih

theorem Join.toJsonItems_eq_map (joins : List Join) :
    Join.toJsonItems joins = joins.map toJson := by
  induction joins with
  | nil => rfl
  | cons j rest ih =>
    obtain ⟨kind, operator, fields, query, extra⟩ := j
    cases extra <;> exact congrArg (List.cons _) ih

theorem Combine.toJsonItems_eq_map (combines : List Combine) :
    Combine.toJsonItems combines = combines.map toJson := by
  induction combines with
  | nil => rfl
  | cons c rest ih =>
    obtain ⟨kind, query⟩ := c
    exact congrArg (List.cons _) ih

/-- Members of the form of a query. -/
def Query.toMembers (q : Query) : List (String × Json) :=
  [("entity", .string q.entity),
    ("text", .optional RawText.toJson q.text),
    ("conditions", .list Clause.toJson q.conditions),
    ("sorts", .list SortKey.toJson q.sorts),
    ("joins", .list Join.toJson q.joins),
    ("combines", .list Combine.toJson q.combines),
    ("recurve", .optional Closure.toJson q.recurve),
    ("paging", .optional Paging.toJson q.paging),
    ("size", .nat q.size),
    ("fields", .list .string q.fields),
    ("isolation", .optional (fun level => .string level.name) q.isolation)]

/-- The lists of a query are written member by member. -/
theorem Query.toJson_eq (q : Query) : q.toJson = .object q.toMembers := by
  obtain ⟨entity, text, conditions, sorts, joins, combines, _⟩ := q
  rw [Query.toJson, Clause.toJsonItems_eq_map, Join.toJsonItems_eq_map, Combine.toJsonItems_eq_map]
  rfl

/-- A query is not written as null. -/
theorem Query.toJson_ne_null (q : Query) : q.toJson ≠ .null := by
  rw [q.toJson_eq]
  exact Json.noConfusion

/-! ## Heights -/

/-- A query that stands in a condition has a smaller form. -/
theorem Condition.height_lt_of_mem_inner {c : Condition} {r : Query} (h : r ∈ c.inner) :
    r.toJson.height < c.toJson.height := by
  cases c with
  | criterion c =>
    obtain ⟨field, operator, value, conversion⟩ := c
    cases value with
    | value v => exact absurd h List.not_mem_nil
    | query inner =>
      obtain rfl : r = inner := List.mem_singleton.mp h
      calc r.toJson.height
        _ < (Operand.query r).toJson.height := Json.height_lt_of_lookup "Query" rfl
        _ < _ := Json.height_lt_of_lookup "value" rfl
        _ < _ := Json.height_lt_of_lookup "Criterion" rfl
  | group inner =>
    obtain rfl : r = inner := List.mem_singleton.mp h
    exact Json.height_lt_of_lookup "Group" rfl

/-- A query that stands in a join has a smaller form. -/
theorem Join.height_lt_of_mem_inner {j : Join} {r : Query} (h : r ∈ j.inner) :
    r.toJson.height < j.toJson.height := by
  rcases List.mem_cons.mp h with rfl | h
  · exact Json.height_lt_of_lookup "query" rfl
  · have hextra : j.extra = some r := Option.mem_toList.mp h
    refine Json.height_lt_of_lookup "extra" ?_
    rw [hextra]
    rfl

/-- A query that stands in another has a smaller form. -/
theorem Query.height_lt_of_mem_inner {q r : Query} (h : r ∈ q.inner) :
    r.toJson.height < q.toJson.height := by
  rw [q.toJson_eq]
  rcases mem_inner.mp h with ⟨c, hc, hr⟩ | ⟨j, hj, hr⟩ | ⟨c, hc, rfl⟩
  · calc r.toJson.height
      _ < c.condition.toJson.height := Condition.height_lt_of_mem_inner hr
      _ < c.toJson.height :=
        Json.height_lt_of_mem_items (List.mem_cons_of_mem _ List.mem_cons_self)
      _ < (Json.list Clause.toJson q.conditions).height :=
        Json.height_lt_of_mem_items (List.mem_map_of_mem hc)
      _ < _ := Json.height_lt_of_lookup "conditions" rfl
  · calc r.toJson.height
      _ < j.toJson.height := Join.height_lt_of_mem_inner hr
      _ < (Json.list Join.toJson q.joins).height :=
        Json.height_lt_of_mem_items (List.mem_map_of_mem hj)
      _ < _ := Json.height_lt_of_lookup "joins" rfl
  · calc c.query.toJson.height
      _ < c.toJson.height := Json.height_lt_of_lookup "query" rfl
      _ < (Json.list Combine.toJson q.combines).height :=
        Json.height_lt_of_mem_items (List.mem_map_of_mem hc)
      _ < _ := Json.height_lt_of_lookup "combines" rfl

/-! ## Queries -/

/-- The reader reads the query back, unless a binary64 number is in it. -/
def Query.ReadBy (read : Json → Option Query) (q : Query) : Prop :=
  (∀ v ∈ q.allValues, v.FloatFree) → read q.toJson = some (q.mapValues Value.textual)

section

variable {read : Json → Option Query}

/-- A right-hand side is read back if the queries in it are. -/
theorem Operand.ofJson?_toJson {operand : Operand} (hread : ∀ q ∈ operand.inner, q.ReadBy read)
    (h : ∀ v ∈ operand.allValues, v.FloatFree) :
    ofJson? read operand.toJson = some (operand.mapValues Value.textual) := by
  cases operand with
  | value v =>
    have hv : Value.ofJson? v.toJson = some v.textual := v.ofJson?_toJson (h v List.mem_cons_self)
    rw [toJson, ofJson?, hv]
    rfl
  | query q =>
    have hq : read q.toJson = some (q.mapValues Value.textual) := hread q List.mem_cons_self h
    rw [toJson, ofJson?, hq]
    rfl

/-- A comparison is read back if the queries in it are. -/
theorem Criterion.ofJson?_toJson {c : Criterion} (hread : ∀ q ∈ c.value.inner, q.ReadBy read)
    (h : ∀ v ∈ c.value.allValues, v.FloatFree) :
    ofJson? read c.toJson = some { c with value := c.value.mapValues Value.textual } := by
  obtain ⟨r, hr, hparts⟩ :
      ∃ r, JsonRecord.of? .json ["field", "operator", "value", "conversion"] c.toJson = some r ∧
        ∀ key, _ :=
    JsonRecord.exists_of?_object .json rfl (by decide)
  have hfield : r.required "field" Json.toText? = some c.field :=
    JsonRecord.required_eq (hparts "field") _
  have hoperator : r.required "operator" (Json.toChoice? .json Comparison.choices) =
      some c.operator :=
    (JsonRecord.required_eq (hparts "operator") _).trans (c.operator.toChoice?_name .json)
  have hvalue : r.required "value" (Operand.ofJson? read) =
      some (c.value.mapValues Value.textual) :=
    (JsonRecord.required_eq (hparts "value") _).trans (Operand.ofJson?_toJson hread h)
  have hconversion : r.optional "conversion" Conversion.ofJson? = some c.conversion :=
    JsonRecord.optional_eq_self (hparts "conversion") (fun _ => Json.noConfusion)
      Conversion.ofJson?_toJson
  rw [ofJson?, hr]
  simp only [Option.bind_eq_bind, Option.bind_some, hfield, hoperator, hvalue, hconversion]
  rfl

/-- A condition is read back if the queries in it are. -/
theorem Condition.ofJson?_toJson {c : Condition} (hread : ∀ q ∈ c.inner, q.ReadBy read)
    (h : ∀ v ∈ c.allValues, v.FloatFree) :
    ofJson? read c.toJson = some (c.mapValues Value.textual) := by
  cases c with
  | criterion c =>
    obtain ⟨field, operator, value, conversion⟩ := c
    have hc := Criterion.ofJson?_toJson (c := ⟨field, operator, value, conversion⟩) hread h
    exact congrArg (Option.map Condition.criterion) hc
  | group q =>
    have hq : read q.toJson = some (q.mapValues Value.textual) := hread q List.mem_cons_self h
    exact congrArg (Option.map Condition.group) hq

/-- A condition with its connector is read back if the queries in it are. -/
theorem Clause.ofJson?_toJson {c : Clause} (hread : ∀ q ∈ c.condition.inner, q.ReadBy read)
    (h : ∀ v ∈ c.allValues, v.FloatFree) :
    ofJson? read c.toJson = some (c.mapValues Value.textual) := by
  have hconnector := c.connector.toChoice?_name .json
  have hcondition := Condition.ofJson?_toJson hread h
  rw [ofJson?, toJson, Json.toPair?, hconnector, hcondition]
  rfl

/-- A join is read back if its queries are. -/
theorem Join.ofJson?_toJson {j : Join} (hread : ∀ q ∈ j.inner, q.ReadBy read)
    (h : ∀ v ∈ j.allValues, v.FloatFree) :
    ofJson? read j.toJson = some (j.mapValues Value.textual) := by
  rw [allValues, List.forall_mem_append, List.forall_mem_flatMap] at h
  obtain ⟨r, hr, hparts⟩ :
      ∃ r, JsonRecord.of? .json ["kind", "operator", "fields", "query", "extra"] j.toJson = some r ∧
        ∀ key, _ :=
    JsonRecord.exists_of?_object .json rfl (by decide)
  have hkind : r.required "kind" (Json.toChoice? .json JoinKind.choices) = some j.kind :=
    (JsonRecord.required_eq (hparts "kind") _).trans (j.kind.toChoice?_name .json)
  have hoperator : r.defaulted "operator" .equal (Json.toChoice? .json JoinOperator.choices) =
      some j.operator :=
    (JsonRecord.defaulted_eq (hparts "operator") _ _).trans (j.operator.toChoice?_name .json)
  have hfields : r.defaulted "fields" [] (Json.toList? (Json.toTextPair? .json)) =
      some j.fields :=
    (JsonRecord.defaulted_eq (hparts "fields") _ _).trans
      (Json.toList?_list_self Json.textPair (fun _ => rfl) j.fields)
  have hquery : r.required "query" read = some (j.query.mapValues Value.textual) :=
    (JsonRecord.required_eq (hparts "query") _).trans (hread j.query List.mem_cons_self h.1)
  have hextra : r.optional "extra" read = some (j.extra.map (.mapValues Value.textual)) :=
    JsonRecord.optional_eq (hparts "extra") Query.toJson_ne_null fun q hq =>
      have hmem : q ∈ j.extra.toList := Option.mem_toList.mpr hq
      hread q (List.mem_cons_of_mem _ hmem) (h.2 q hmem)
  rw [ofJson?, hr]
  simp only [Option.bind_eq_bind, Option.bind_some, hkind, hoperator, hfields, hquery, hextra]
  rfl

/-- A set operation is read back if its query is. -/
theorem Combine.ofJson?_toJson {c : Combine} (hread : c.query.ReadBy read)
    (h : ∀ v ∈ c.allValues, v.FloatFree) :
    ofJson? read c.toJson = some (c.mapValues Value.textual) := by
  obtain ⟨r, hr, hparts⟩ :
      ∃ r, JsonRecord.of? .json ["kind", "query"] c.toJson = some r ∧ ∀ key, _ :=
    JsonRecord.exists_of?_object .json rfl (by decide)
  have hkind : r.required "kind" (Json.toChoice? .json SetOperator.choices) = some c.kind :=
    (JsonRecord.required_eq (hparts "kind") _).trans (c.kind.toChoice?_name .json)
  have hquery : r.required "query" read = some (c.query.mapValues Value.textual) :=
    (JsonRecord.required_eq (hparts "query") _).trans (hread h)
  rw [ofJson?, hr]
  simp only [Option.bind_eq_bind, Option.bind_some, hkind, hquery]
  rfl

end

/-- A reader for queries so deep reads back every query whose form is not higher. -/
theorem Query.readBy_ofJsonWithin? {depth : Nat} {q : Query} (hd : q.toJson.height ≤ depth) :
    q.ReadBy (ofJsonWithin? depth) := by
  induction depth generalizing q with
  | zero =>
    rw [q.toJson_eq, Json.height] at hd
    omega
  | succ depth ih =>
    intro h
    rw [allValues_eq] at h
    simp only [List.forall_mem_append, List.forall_mem_flatMap] at h
    obtain ⟨⟨⟨htexts, hclauses⟩, hjoined⟩, hcombined⟩ := h
    -- The inner queries are read one level down, where their smaller forms still fit.
    have hread : ∀ r ∈ q.inner, r.ReadBy (ofJsonWithin? depth) := by
      intro r hr
      have hlt := height_lt_of_mem_inner hr
      exact ih (by omega)
    obtain ⟨r, hr, hparts⟩ :
        ∃ r, JsonRecord.of? .json partNames (.object q.toMembers) = some r ∧ ∀ key, _ :=
      JsonRecord.exists_of?_object .json rfl (by decide)
    have hentity : r.required "entity" Json.toText? = some q.entity :=
      JsonRecord.required_eq (hparts "entity") _
    have htext : r.optional "text" RawText.ofJson? =
        some (q.text.map (.mapValues Value.textual)) :=
      JsonRecord.optional_eq (hparts "text") (fun _ => Json.noConfusion) fun raw hraw =>
        RawText.ofJson?_toJson (htexts raw (Option.mem_toList.mpr hraw))
    have hconditions : r.defaulted "conditions" []
        (Json.toList? (Clause.ofJson? (ofJsonWithin? depth))) =
          some (q.conditions.map (.mapValues Value.textual)) :=
      (JsonRecord.defaulted_eq (hparts "conditions") _ _).trans
        (Json.toList?_list fun c hc => Clause.ofJson?_toJson
          (fun r hr => hread r (mem_inner_of_clause hc hr)) (hclauses c hc))
    have hsorts : r.defaulted "sorts" [] (Json.toList? SortKey.ofJson?) = some q.sorts :=
      (JsonRecord.defaulted_eq (hparts "sorts") _ _).trans
        (Json.toList?_list_self SortKey.toJson SortKey.ofJson?_toJson q.sorts)
    have hjoins : r.defaulted "joins" [] (Json.toList? (Join.ofJson? (ofJsonWithin? depth))) =
        some (q.joins.map (.mapValues Value.textual)) :=
      (JsonRecord.defaulted_eq (hparts "joins") _ _).trans
        (Json.toList?_list fun j hj => Join.ofJson?_toJson
          (fun r hr => hread r (mem_inner_of_join hj hr)) (hjoined j hj))
    have hcombines : r.defaulted "combines" []
        (Json.toList? (Combine.ofJson? (ofJsonWithin? depth))) =
          some (q.combines.map (.mapValues Value.textual)) :=
      (JsonRecord.defaulted_eq (hparts "combines") _ _).trans
        (Json.toList?_list fun c hc => Combine.ofJson?_toJson
          (hread c.query (mem_inner_of_combine hc)) (hcombined c hc))
    have hrecurve : r.optional "recurve" Closure.ofJson? = some q.recurve :=
      JsonRecord.optional_eq_self (hparts "recurve") (fun _ => Json.noConfusion)
        Closure.ofJson?_toJson
    have hpaging : r.optional "paging" Paging.ofJson? = some q.paging :=
      JsonRecord.optional_eq_self (hparts "paging") (fun _ => Json.noConfusion)
        Paging.ofJson?_toJson
    have hsize : r.defaulted "size" 0 Json.toWord? = some q.size :=
      (JsonRecord.defaulted_eq (hparts "size") _ _).trans (Json.toWord?_nat q.size)
    have hfields : r.defaulted "fields" [] (Json.toList? Json.toText?) = some q.fields :=
      (JsonRecord.defaulted_eq (hparts "fields") _ _).trans
        (Json.toList?_list_self .string (fun _ => rfl) q.fields)
    have hisolation : r.optional "isolation" (Json.toChoice? .json Isolation.choices) =
        some q.isolation :=
      JsonRecord.optional_eq_self (hparts "isolation") (fun _ => Json.noConfusion)
        (Isolation.toChoice?_name .json)
    rw [ofJsonWithin?, q.toJson_eq, hr, q.mapValues_eq]
    simp only [Option.bind_eq_bind, Option.bind_some, hentity, htext, hconditions, hsorts, hjoins,
      hcombines, hrecurve, hpaging, hsize, hfields, hisolation]
    rfl

/-- A query without binary64 numbers is read back, with texts for points in time. -/
theorem Query.ofJson?_toJson {q : Query} (h : ∀ v ∈ q.allValues, v.FloatFree) :
    ofJson? q.toJson = some (q.mapValues Value.textual) :=
  readBy_ofJsonWithin? (Nat.le_refl _) h

end AbstractSql
