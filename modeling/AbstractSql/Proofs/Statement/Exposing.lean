import AbstractSql.Proofs.Statement.Arms
import AbstractSql.Proofs.Statement.Framing

/-!
# What read statements refer to

A plain read and an aggregate of a query with set operations select from a derived table, and a
range of rows is selected from a common table. What they list, count, aggregate and sort by are
columns of that table, and it has only those that its own select lists. An aggregate makes sure of
its column. A plain read does not look after the columns that it sorts by, and a range not even
after the one that it counts.
-/

namespace AbstractSql

open Identifier (quote qualify)
open Translating

namespace Catalog

/-- The catalog finds a property under its name. -/
theorem field_property (c : Catalog) (entity property : String) :
    (c.field entity property).property = property := by
  unfold field
  cases h : (c.get? entity).bind fun e => e.fields.find? fun f => f.property == property with
  | none => rfl
  | some f =>
    obtain ⟨e, -, hfind⟩ := Option.bind_eq_some_iff.mp h
    have hfound := List.find?_some hfind
    exact beq_iff_eq.mp hfound

/-- The column of a field is found under its property, unless an earlier field has the property too.
-/
theorem column_of_nodup {c : Catalog} {entity : String} {f : Field}
    (hn : ((c.declaredFields entity).map (·.property)).Nodup) (hf : f ∈ c.declaredFields entity) :
    c.column entity f.property = f.column := by
  unfold declaredFields at hn hf
  unfold column field
  cases he : c.get? entity with
  | none =>
    rw [he] at hf
    exact absurd hf List.not_mem_nil
  | some e =>
    rw [he] at hn hf
    have hfind : e.fields.find? (fun g => g.property == f.property) = some f := by
      cases hg : e.fields.find? fun g => g.property == f.property with
      | none => exact absurd (List.find?_eq_none.mp hg f hf) (by simp)
      | some g =>
        have hfound := List.find?_some hg
        rw [List.inj_on_of_nodup_map hn (List.mem_of_find?_eq_some hg) hf (beq_iff_eq.mp hfound)]
    rw [Option.bind_some, hfind]
    rfl

end Catalog

/-- Where the columns that a statement refers to are selected: a plain read selects those that the
rows are sorted by, a range also the one that is counted, and an aggregate has its column found
under the property. Only a range needs it of a query without set operations. -/
def ReadMode.Lists (catalog : Catalog) (q : Query) : ReadMode → Prop
  | .select => q.hasArms = true → q.ListsSorts catalog
  | .paging => q.ListsSorts catalog ∧
    ∀ probe, catalog.defaultField? q.entity = some probe → q.Lists catalog probe.column
  | .range _ _ => q.ListsSorts catalog ∧
    ∀ probe, catalog.defaultField? q.entity = some probe → q.Lists catalog probe.column
  | .existence => True
  | .aggregate function => q.hasArms = true → ∀ field,
    Statement.aggregateField catalog function q = .ok field →
      catalog.column q.entity field.property = field.column

namespace Statement

variable {catalog : Catalog} {q source : Query} {mode : ReadMode} {names names' : NameSupply}
  {t : Translation} {st : Statement} {entries : List SortEntry}

/-- The field that an aggregate runs over is found under its property, unless rows are counted that
have no key. -/
theorem column_aggregateField {function : Aggregate} {field : Field}
    (h : aggregateField catalog function q = .ok field) :
    catalog.column q.entity field.property = field.column ∨
      catalog.primaryKeys q.entity = [] ∧ field ∈ catalog.declaredFields q.entity := by
  have hfound : ∀ property, catalog.field q.entity property = field →
      catalog.column q.entity field.property = field.column := by
    rintro property rfl
    rw [Catalog.field_property, Catalog.column]
  cases function with
  | count =>
    rw [aggregateField, probeField, Catalog.defaultField?] at h
    cases hkeys : catalog.primaryKeys q.entity with
    | cons key rest =>
      rw [hkeys] at h
      exact .inl (hfound key (Except.ok.inj h))
    | nil =>
      rw [hkeys] at h
      cases hfields : catalog.queryFields q.entity with
      | nil => simp [hfields] at h
      | cons first others =>
        rw [hfields] at h
        obtain rfl : first = field := Except.ok.inj h
        have hm : first ∈ catalog.queryFields q.entity := hfields ▸ List.mem_cons_self
        exact .inr ⟨rfl, (List.mem_filter.mp hm).1⟩
  | _ =>
    unfold aggregateField at h
    cases hfields : q.fields with
    | nil => simp [hfields] at h
    | cons property others =>
      simp only [hfields] at h
      exact .inl (hfound property (Except.ok.inj h))

/-- An aggregate has its column wherever an entity declares each property once. -/
theorem lists_aggregate {function : Aggregate}
    (hn : ((catalog.declaredFields q.entity).map (·.property)).Nodup) :
    (ReadMode.aggregate function).Lists catalog q := by
  intro _ field h
  rcases column_aggregateField h with hfound | ⟨-, hm⟩
  · exact hfound
  · exact Catalog.column_of_nodup hn hm

/-- The derived table of an aggregate has the column exactly when that is found under the property.
-/
theorem aggregateSource_lists_iff {function : Aggregate} {field : Field} (ha : q.hasArms = true)
    (h : aggregateField catalog function q = .ok field) :
    (aggregateSource catalog field q).Lists catalog field.column ↔
      catalog.column q.entity field.property = field.column := by
  have hcombines : q.combines.isEmpty = false := by
    cases hc : q.combines with
    | nil => simp [Query.hasArms, hc] at ha
    | cons entry rest => rfl
  have hfields : ∀ property, property ∈ (aggregateSource catalog field q).fields ↔
      property ∈ catalog.primaryKeys q.entity ∨ property = field.property := by
    intro property
    simp only [aggregateSource, hcombines, Bool.false_eq_true, if_false]
    split
    · next hkey =>
      refine ⟨.inl, fun h => h.elim id ?_⟩
      rintro rfl
      exact List.contains_iff_mem.mp hkey
    · rw [List.mem_append, List.mem_singleton]
  have hown := (hfields field.property).mpr (.inr rfl)
  rw [Query.lists_iff (List.ne_nil_of_mem hown),
    (reselects_aggregateSource catalog field q).entity_eq]
  constructor
  · rintro ⟨property, hm, hcolumn⟩
    rcases column_aggregateField h with hfound | ⟨hkeys, -⟩
    · exact hfound
    · rcases (hfields property).mp hm with hkey | rfl
      · exact absurd (hkeys ▸ hkey) List.not_mem_nil
      · exact hcolumn
  · exact fun hcolumn => ⟨_, hown, hcolumn⟩

/-- A query that is translated for a statement, with its names and its sort entries. -/
structure Translates (catalog : Catalog) (source : Query) (names : NameSupply) (t : Translation)
    (r : ResolvedQuery) (entries : List SortEntry) : Prop where
  /-- The names are given under the main alias. -/
  resolved : ∃ w, outcome (source.resolve catalog true NameSupply.mainAlias)
      { names := names.resetAliases } = (.ok r, w) ∧
    t = { (r.outline NameSupply.mainAlias).mergeJoinExtras.toTranslation with
      parameters := w.parameters }
  /-- The columns of the derived or common table. -/
  columns : r.statementSelect.columns = resolveColumns catalog source.entity source.fields
  /-- The sort entries. -/
  sorts : t.sorts = entries.map (SortEntry.sql NameSupply.mainAlias)
  /-- The columns that the rows are sorted by. -/
  keys : entries.map (·.reference.column) =
    source.sorts.map fun key => catalog.column source.entity key.field

/-- What a read statement refers to. The query `source` is translated for it, and `r` is that query
with its names. -/
structure Exposure (catalog : Catalog) (mode : ReadMode) (q : Query) (names : NameSupply)
    (st : Statement) (source : Query) (t : Translation) (r : ResolvedQuery)
    (entries : List SortEntry) (used : List String) : Prop where
  /-- The query differs from the given one in what it selects. -/
  copies : mode.source catalog q = .ok source
  /-- It is translated under the main alias. -/
  translates : Translates catalog source names t r entries
  /-- The text around the select of its rows. -/
  selects : Selects catalog q t r.statementSelect.sql entries mode used st.text
  /-- The table that is selected from exposes what the text refers to exactly when that is selected.
  -/
  exposes : ExposesAll r.statementSelect.columns used ↔ mode.Lists catalog q
  /-- So do the derived tables within that select, at every depth. -/
  within : (r.outline NameSupply.mainAlias).mergeJoinExtras.Obeys (exposureLaw catalog source)

/-- A query without statement texts is translated with its names, and all tables that are derived
within it expose what is referred to as described. -/
theorem translate_exposes (hf : TextFree source.sites)
    (h : source.translate catalog names = (.ok t, names'))
    (hsorts : t.sorts = entries.map (SortEntry.sql NameSupply.mainAlias))
    (hkeys : entries.map (·.reference.column) =
      source.sorts.map fun key => catalog.column source.entity key.field) :
    ∃ r, Translates catalog source names t r entries ∧
      baseSelect catalog source t (innerList catalog source) = r.statementSelect.sql ∧
      (r.outline NameSupply.mainAlias).mergeJoinExtras.Obeys (exposureLaw catalog source) := by
  obtain ⟨r, w, hr, hsql⟩ := baseSelect_sql h
  obtain ⟨other, final, ho, -, rfl⟩ := Query.translate_resolve h
  obtain ⟨hresult, rfl⟩ := Prod.mk.inj (hr.symm.trans ho)
  obtain rfl := Except.ok.inj hresult
  have hb : source.Becomes catalog NameSupply.mainAlias r :=
    ⟨true, _, w, Workspace.past_mainAlias _, hr⟩
  refine ⟨r, ⟨⟨w, hr, rfl⟩, (Query.resolve_resolves hr).columns, hsorts, hkeys⟩, hsql, ?_⟩
  exact (r.obeys_outline NameSupply.mainAlias fun part hp => hb.exposed hf hp).mergeJoinExtras

/-- The columns that a query lists are exposed, and with them those that it is sorted by exactly
when they are selected. -/
theorem exposesAll_listed_iff
    (hkeys : entries.map (·.reference.column) =
      q.sorts.map fun key => catalog.column q.entity key.field) :
    ExposesAll (resolveColumns catalog q.entity q.fields)
        (listed catalog q ++ entries.map (·.reference.column)) ↔ q.ListsSorts catalog := by
  rw [ExposesAll, List.forall_mem_append, List.forall_mem_map (l := entries), ← lists_entries hkeys]
  exact and_iff_right fun column hm => .inr hm

/-- The table that a text selects from exposes what the text refers to exactly when that is
selected. -/
theorem Selects.exposesAll_iff {rows text : String} {used : List String}
    (hs : mode.source catalog q = .ok source)
    (hkeys : entries.map (·.reference.column) =
      source.sorts.map fun key => catalog.column source.entity key.field)
    (h : Selects catalog q t rows entries mode used text) :
    ExposesAll (resolveColumns catalog source.entity source.fields) used ↔
      mode.Lists catalog q := by
  cases h with
  | plain ha => simp [ExposesAll, ReadMode.Lists, ha]
  | combined ha =>
    obtain rfl := Except.ok.inj hs
    rw [exposesAll_listed_iff hkeys, ReadMode.Lists]
    exact ⟨fun h _ => h, fun h => h ha⟩
  | @range _ offset size probe hm hp =>
    obtain ⟨hsource, hlists⟩ : q = source ∧ (mode.Lists catalog q ↔ q.ListsSorts catalog ∧
        ∀ probe, catalog.defaultField? q.entity = some probe → q.Lists catalog probe.column) := by
      cases mode with
      | paging => exact ⟨Except.ok.inj hs, Iff.rfl⟩
      | range _ _ => exact ⟨Except.ok.inj hs, Iff.rfl⟩
      | select => cases hm
      | existence => cases hm
      | aggregate function => cases hm
    obtain rfl := hsource
    rw [ExposesAll, List.forall_mem_cons, ← ExposesAll, exposesAll_listed_iff hkeys, hlists,
      and_comm, hp]
    simp only [Option.some.injEq, forall_eq', Query.Lists]
  | existence => simp [ExposesAll, ReadMode.Lists]
  | aggregated ha hf => simp [ExposesAll, ReadMode.Lists, ha]
  | @aggregatedRows function field ha hf =>
    rw [ReadMode.source, hf] at hs
    obtain rfl := Except.ok.inj hs
    rw [ExposesAll, List.forall_mem_singleton, ← Query.Lists, aggregateSource_lists_iff ha hf,
      ReadMode.Lists, hf]
    simp only [ha, forall_const, Except.ok.injEq, forall_eq']

/-- Every read statement refers to columns as described, however it reads its query. -/
theorem read_exposes (hf : TextFree q.sites)
    (h : outcome (read catalog mode q) names = (.ok st, names')) :
    ∃ source t r entries used, Exposure catalog mode q names st source t r entries used := by
  obtain ⟨source, t, entries, used, hframed⟩ := read_framed (Query.isText_of_textFree hf) h
  have hfree : TextFree source.sites := (reselects_source hframed.copies).sites_eq ▸ hf
  obtain ⟨r, htranslates, hrows, hlaw⟩ :=
    translate_exposes hfree hframed.translated hframed.sorts hframed.keys
  refine ⟨source, t, r, entries, used, hframed.copies, htranslates, hrows ▸ hframed.selects, ?_,
    hlaw⟩
  rw [htranslates.columns]
  exact hframed.selects.exposesAll_iff hframed.copies hframed.keys

/-- Whether derived and common tables expose what is referred to. A read statement selects from a
derived table if its query has set operations, and from a common table if it reads a range. The table
has all columns that the text around it refers to exactly when they are selected: those that the rows
are sorted by, and in a range the one that is counted; what is listed is always there, and what is
aggregated if it is found under its property, as it is in an entity that declares each property
once. Within the select of the table, and within the clauses
that a command takes from its query, derived tables that are joined or compared with expose what is
referred to exactly when the columns that rows are matched on, or that limited rows are sorted by,
are selected. -/
theorem tables_expose_iff (hf : TextFree q.sites) :
    (∀ {mode names st names'}, outcome (read catalog mode q) names = (.ok st, names') →
      ∃ source t r entries used, Exposure catalog mode q names st source t r entries used) ∧
    (∀ {names t names'}, q.translate catalog names = (.ok t, names') →
      ∃ r entries, Translates catalog q names t r entries ∧
        (r.outline NameSupply.mainAlias).mergeJoinExtras.Obeys (exposureLaw catalog q)) ∧
    ∀ function, ((catalog.declaredFields q.entity).map (·.property)).Nodup →
      (ReadMode.aggregate function).Lists catalog q := by
  refine ⟨fun h => read_exposes hf h, fun h => ?_, fun _ => lists_aggregate⟩
  obtain ⟨entries, hsorts, hkeys⟩ := translate_sorts (Query.isText_of_textFree hf) h
  obtain ⟨r, htranslates, -, hlaw⟩ := translate_exposes hf h hsorts hkeys
  exact ⟨r, entries, htranslates, hlaw⟩

/-- A page of all columns, joined with a derived table that lists its key, has all columns that it
refers to. -/
theorem tables_expose_page :
    let catalog := (({} : Catalog).insert "User"
      (((({} : Entity).withKey "id").withProperty "name").withProperty "age")).insert "Team"
      ((({} : Entity).withKey "id").withProperty "name")
    let teams := ((Query.ofEntity "Team").select ["id"]).combine .union (Query.ofEntity "Team")
    let q := ((Query.ofEntity "User").orderBy "age").withJoin
      { kind := .inner, fields := [("team", "id")], query := teams }
    TextFree q.sites ∧ ∃ st final, outcome (read catalog .paging q) {} = (.ok st, final) ∧
      ∃ source t r entries used, Exposure catalog .paging q {} st source t r entries used ∧
        r.statementSelect.columns = ["id", "name", "age"] ∧
        ExposesAll r.statementSelect.columns used := by
  intro catalog teams q
  have hf : TextFree q.sites := by decide +kernel
  have hlists : ReadMode.paging.Lists catalog q := by
    refine ⟨fun key hk => ?_, fun probe hp => ?_⟩
    · obtain rfl := List.mem_singleton.mp hk
      exact .inr (by decide +kernel)
    · obtain rfl := Option.some.inj hp
      exact .inr (by decide +kernel)
  obtain ⟨st, final, h⟩ : ∃ st final, outcome (read catalog .paging q) {} = (.ok st, final) :=
    ⟨_, _, rfl⟩
  obtain ⟨source, t, r, entries, used, he⟩ := (tables_expose_iff hf).1 h
  have hcolumns := he.translates.columns
  rw [← Except.ok.inj he.copies] at hcolumns
  exact ⟨hf, st, final, h, source, t, r, entries, used, he, hcolumns.trans (by decide +kernel),
    he.exposes.mpr hlists⟩

/-- Tables that lack what is referred to: the common table of a page, which has neither the column
that is counted nor the one that the rows are sorted by, the derived table of a plain read, and
those in a join and in a comparison. -/
theorem tables_hide_columns :
    let catalog := ((({} : Catalog).insert "User"
      (((({} : Entity).withKey "id").withProperty "name").withProperty "age")).insert "Team"
      ((({} : Entity).withKey "id").withProperty "name")).insert "Member"
      ((({} : Entity).withProperty "user").withProperty "joined")
    let users := (Query.ofEntity "User").select ["name"]
    let sorted := users.orderBy "age"
    let united := sorted.combine .union (Query.ofEntity "User")
    let teams := ((Query.ofEntity "Team").select ["name"]).combine .union (Query.ofEntity "Team")
    let joined := users.withJoin { kind := .inner, fields := [("team", "id")], query := teams }
    let members := (((Query.ofEntity "Member").select ["user"]).orderBy "joined").combine .union
      (Query.ofEntity "Member")
    let compared := users.filterSubquery "id" .equal members
    let reads (mode : ReadMode) (q : Query) (st : Statement) (r : ResolvedQuery) :=
      ∃ (final : NameSupply) (w : Workspace), outcome (read catalog mode q) {} = (.ok st, final) ∧
        outcome (q.resolve catalog true NameSupply.mainAlias) {} = (.ok r, w)
    (∃ st r, reads .paging sorted st r ∧
      st.text = "WITH PagingTable AS (SELECT TB.`name` FROM `User` AS TB) SELECT (SELECT "
        ++ "COUNT(`id`) FROM PagingTable) AS QueryDataTotalCount,TB.`name` FROM PagingTable AS TB "
        ++ "ORDER BY TB.`age` ASC LIMIT 0,20" ∧
      ¬ Exposes r.statementSelect.columns "id" ∧ ¬ Exposes r.statementSelect.columns "age") ∧
    (∃ st r, reads .select united st r ∧
      st.text = "SELECT TB.`name` FROM (SELECT TB.`name` FROM `User` AS TB UNION SELECT S0.`name` "
        ++ "FROM `User` AS S0) AS TB ORDER BY TB.`age` ASC" ∧
      ¬ Exposes r.statementSelect.columns "age") ∧
    (∃ st r, reads .select joined st r ∧
      ∃ clause left operator right, r.statementSelect.joins = [clause] ∧
        clause.on = [.atom (.pair left operator right)] ∧
        right.tableAlias = clause.tableAlias ∧ ¬ Exposes clause.source.columns right.column) ∧
    ∃ st r, reads .select compared st r ∧
      ∃ reference sorts column select, r.statementSelect.condition =
          [.atom (.rows NameSupply.mainAlias reference .equal .firstRow sorts column select)] ∧
        sorts = [qualify select.tableAlias "joined" ++ " ASC"] ∧ select.arms ≠ [] ∧
        ¬ Exposes select.columns "joined" := by
  intro catalog users sorted united teams joined members compared reads
  refine ⟨⟨_, _, ⟨_, _, rfl, rfl⟩, by decide +kernel, by decide +kernel, by decide +kernel⟩,
    ⟨_, _, ⟨_, _, rfl, rfl⟩, by decide +kernel, by decide +kernel⟩,
    ⟨_, _, ⟨_, _, rfl, rfl⟩, _, _, _, _, rfl, rfl, ?_⟩,
    _, _, ⟨_, _, rfl, rfl⟩, _, _, _, _, rfl, ?_⟩
  · exact ⟨by decide +kernel, by decide +kernel⟩
  · exact ⟨by decide +kernel, List.cons_ne_nil _ _, by decide +kernel⟩

end Statement

end AbstractSql
