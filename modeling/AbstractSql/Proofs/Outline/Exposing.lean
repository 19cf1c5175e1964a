import AbstractSql.Proofs.Outline.Limits

/-!
# What derived tables expose

The text around a derived table can refer only to the columns that its select lists. A joined query
with set operations becomes one: the ON clause of its join refers to the columns that it is matched
on, and other ON clauses may test the condition on its rows. A compared query with set operations
becomes one too, and where it is limited the order refers to the columns that it is sorted by.
-/

namespace AbstractSql

/-- The columns that a test refers to, outside of the selects in it. -/
def Test.uses : Test → List ColumnUse
  | .missing tableAlias reference _ => [⟨tableAlias, reference.column⟩]
  | .value tableAlias reference _ _ => [⟨tableAlias, reference.column⟩]
  | .text tableAlias reference _ _ => [⟨tableAlias, reference.column⟩]
  | .rows tableAlias reference _ _ _ _ _ => [⟨tableAlias, reference.column⟩]
  | .pair left _ right => [left, right]
  | .member column _ => [column]

/-- A test uses the aliases of the columns that it refers to. -/
theorem Test.mem_aliases {test : Test} {use : ColumnUse} (h : use ∈ test.uses) :
    use.tableAlias ∈ test.aliases := by
  have haliases : test.aliases = test.uses.map ColumnUse.tableAlias := by cases test <;> rfl
  exact haliases ▸ List.mem_map_of_mem h

/-- Whether a column is among the listed ones. A select that lists none has all columns of its
table. -/
def Exposes (columns : List String) (column : String) : Prop := columns = [] ∨ column ∈ columns

instance (columns : List String) (column : String) : Decidable (Exposes columns column) :=
  inferInstanceAs (Decidable (_ ∨ _))

/-- The columns that joined rows are listed with; none when they are the rows of a table. -/
def JoinSource.columns : JoinSource → List String
  | .table _ => []
  | .derived select => select.columns

/-- The rows of a joined table have every column that ON clauses of these joins refer to under its
alias. -/
def JoinClause.ExposesUsed (clause : JoinClause) (joins : List JoinClause) : Prop :=
  ∀ other ∈ joins, ∀ test, .atom test ∈ other.on → ∀ use ∈ test.uses,
    use.tableAlias = clause.tableAlias → Exposes clause.source.columns use.column

namespace ResolvedJoin

variable {join : ResolvedJoin} {outer : String} {test : Test}

/-- The ON clause of a join tests its pairs of columns and, if the joined query is written into the
other one and not cross-joined, the condition of that query. -/
theorem atom_mem_on : .atom test ∈ (join.clause outer join.joined).on ↔
    test ∈ join.pairTests outer ∨
      join.inlined = true ∧ join.kind ≠ .cross ∧ .atom test ∈ join.joined.condition := by
  rw [clause, Lexeme.atom_mem_afterAtoms, join.tested_joined]
  refine or_congr Iff.rfl ?_
  cases join.inlined <;> by_cases hk : join.kind = .cross <;> simp [hk]

/-- A joined query with set operations is a derived table with its columns. -/
theorem columns_source (ha : join.query.hasArms = true) :
    (join.clause outer join.joined).source.columns = join.query.columns := by
  have harms : join.joined.hasArms = true := (join.query.hasArms_outline join.innerAlias).trans ha
  rw [clause, harms, if_pos rfl]
  rfl

end ResolvedJoin

namespace ResolvedQuery

variable {r : ResolvedQuery} {tableAlias : String} {join : ResolvedJoin}

/-- The joins after a written one are written too. -/
theorem nested_subset (r : ResolvedQuery) : ∀ join ∈ r.emitted, join.nested ⊆ r.emitted := by
  induction r using ResolvedQuery.induction with | step r within
  intro join hj other ho
  rw [emitted_eq] at hj
  obtain ⟨own, hown, hj⟩ := List.mem_flatMap.mp hj
  rcases List.mem_cons.mp hj with rfl | hj
  · exact mem_emitted hown (List.mem_cons_of_mem _ ho)
  · refine mem_emitted hown (List.mem_cons_of_mem _ ?_)
    rw [ResolvedJoin.nested] at hj ⊢
    split at hj
    · next hi =>
      rw [if_pos hi]
      exact within.joined own (r.ownJoins_sublist.subset hown) join hj ho
    · exact absurd hj List.not_mem_nil

/-- The clauses of a query are those of the joins written with it. Each is written under the alias
of the query or under that of a joined query without set operations. -/
theorem mem_joins_outline (r : ResolvedQuery) : ∀ tableAlias,
    ∀ clause ∈ (r.outline tableAlias).joins, ∃ join ∈ r.emitted, ∃ outer,
      clause = join.clause outer join.joined ∧ (outer = tableAlias ∨
        ∃ other ∈ r.emitted, other.query.hasArms = false ∧ other.targetAlias = outer) := by
  induction r using ResolvedQuery.induction with | step r within
  intro tableAlias clause hc
  rw [joins_outline] at hc
  obtain ⟨own, hown, hc⟩ := List.mem_flatMap.mp hc
  rcases List.mem_cons.mp hc with rfl | hc
  · exact ⟨own, mem_emitted hown List.mem_cons_self, tableAlias, rfl, .inl rfl⟩
  · rw [own.liftedJoins_joined] at hc
    split at hc
    · next hi =>
      have hnested : ∀ join ∈ own.query.emitted, join ∈ r.emitted := fun join hj =>
        mem_emitted hown (List.mem_cons_of_mem _ (by rwa [ResolvedJoin.nested, if_pos hi]))
      obtain ⟨join, hj, outer, rfl, houter⟩ :=
        within.joined own (r.ownJoins_sublist.subset hown) own.innerAlias clause hc
      refine ⟨join, hnested join hj, outer, rfl, .inr ?_⟩
      rcases houter with rfl | ⟨other, ho, harms⟩
      · exact ⟨own, mem_emitted hown List.mem_cons_self, ResolvedJoin.hasArms_of_inlined hi,
          ResolvedJoin.targetAlias_of_inlined hi⟩
      · exact ⟨other, hnested other ho, harms⟩
    · exact absurd hc List.not_mem_nil

/-- What is handed to a condition comes from joins written with the query. -/
theorem handed_subset (r : ResolvedQuery) : r.handed ⊆ r.emitted := by
  intro other ho
  obtain ⟨own, hown, ho⟩ := List.mem_flatMap.mp ho
  refine r.outward_subset ?_
  rw [outward_eq]
  exact List.mem_flatMap.mpr ⟨own, hown, List.mem_cons_of_mem _ ho⟩

/-- The alias of a join is not the one of the query. -/
theorem targetAlias_ne (hn : (tableAlias :: r.joinAliases).Nodup) (hj : join ∈ r.emitted) :
    tableAlias ≠ join.targetAlias := by
  rintro rfl
  exact (List.nodup_cons.mp hn).1 (ownAliases_subset hj List.mem_cons_self)

/-- Where an ON clause refers to the alias of a derived table, it compares a column that the table
is matched on, or tests the condition on its rows. -/
theorem used_in_on (hn : (tableAlias :: r.joinAliases).Nodup) (hj : join ∈ r.emitted)
    (ha : join.query.hasArms = true) {clause : JoinClause}
    (hc : clause ∈ (r.outline tableAlias).joins) {test : Test} (ht : .atom test ∈ clause.on)
    {use : ColumnUse} (hu : use ∈ test.uses) (he : use.tableAlias = join.targetAlias) :
    (∃ pair ∈ join.pairs, use.column = pair.2) ∨
      ∃ extra, join.extra = some extra ∧
        .atom test ∈ (extra.outline join.targetAlias).condition := by
  have hjoins := (List.nodup_cons.mp hn).2
  have hplain : ∀ other ∈ r.emitted, other.query.hasArms = false →
      other.targetAlias ≠ join.targetAlias := by
    intro other ho harms htarget
    obtain rfl := targetAlias_injective hjoins hj ho htarget
    exact absurd harms (by simp [ha])
  obtain ⟨other, ho, outer, rfl, houter⟩ := r.mem_joins_outline tableAlias clause hc
  rcases ResolvedJoin.atom_mem_on.mp ht with ht | ⟨hi, -, ht⟩
  · obtain ⟨pair, hp, rfl⟩ := List.mem_map.mp ht
    rcases List.mem_cons.mp hu with rfl | hu
    · rcases houter with rfl | ⟨third, hthird, harms, rfl⟩
      · exact absurd he (targetAlias_ne hn hj)
      · exact absurd he (hplain third hthird harms)
    · obtain rfl := List.mem_singleton.mp hu
      obtain rfl := targetAlias_injective hjoins hj ho he
      exact .inl ⟨pair, hp, rfl⟩
  · have hnested : other.query.emitted ⊆ r.emitted := by
      have hsub := r.nested_subset other ho
      rwa [ResolvedJoin.nested, if_pos hi] at hsub
    have halias := Test.mem_aliases hu
    rw [he] at halias
    rcases (other.query.atom_mem_condition (ResolvedJoin.keepsJoins_of_inlined hi)
      other.innerAlias).mp ht with ht | ⟨third, hthird, extra, hextra, ht⟩
    · rcases other.query.aliases_tests other.innerAlias test ht _ halias with
        htarget | ⟨third, hthird, harms, htarget⟩
      · refine absurd ?_ (hplain other ho (ResolvedJoin.hasArms_of_inlined hi))
        rw [ResolvedJoin.targetAlias_of_inlined hi, htarget]
      · exact absurd htarget (hplain third (hnested hthird) harms)
    · have hwritten := hnested (other.query.handed_subset hthird)
      rcases List.mem_cons.mp (extra.usesOnly_outline third.targetAlias _ List.mem_cons_self _
        (mem_usedAliases.mpr ⟨test, ht, halias⟩)) with htarget | hinner
      · obtain rfl := targetAlias_injective hjoins hj hwritten htarget.symm
        exact .inr ⟨extra, hextra, ht⟩
      · refine absurd ?_ (extraAliases_disjoint hjoins hwritten hj)
        rw [hextra]
        exact hinner

/-- The derived table of a joined query exposes all that ON clauses refer to exactly when the query
lists the columns that it is matched on, and those that its condition on joined rows refers to where
an ON clause tests it. -/
theorem exposesUsed_iff (hn : (tableAlias :: r.joinAliases).Nodup) (hj : join ∈ r.emitted)
    (ha : join.query.hasArms = true) (outer : String) :
    (join.clause outer join.joined).ExposesUsed (r.outline tableAlias).joins ↔
      (∀ pair ∈ join.pairs, Exposes join.query.columns pair.2) ∧
        ∀ extra, join.extra = some extra → ∀ test,
          .atom test ∈ (extra.outline join.targetAlias).condition →
          (∃ other ∈ (r.outline tableAlias).joins, .atom test ∈ other.on) →
          ∀ use ∈ test.uses, use.tableAlias = join.targetAlias →
            Exposes join.query.columns use.column := by
  unfold JoinClause.ExposesUsed
  rw [ResolvedJoin.columns_source ha]
  constructor
  · intro h
    refine ⟨fun pair hp => ?_, fun extra _ test _ ⟨other, ho, hon⟩ => h other ho test hon⟩
    obtain ⟨written, hc⟩ := r.clause_mem_joins tableAlias join hj
    have hpair := List.mem_map_of_mem (f := fun pair : String × String =>
      Test.pair ⟨written, pair.1⟩ join.operator ⟨join.targetAlias, pair.2⟩) hp
    exact h _ hc _ (ResolvedJoin.atom_mem_on.mpr (.inl hpair)) _
      (List.mem_cons_of_mem _ (List.mem_singleton_self _)) rfl
  · rintro ⟨hpairs, hextra⟩ clause hc test ht use hu he
    rcases used_in_on hn hj ha hc ht hu he with ⟨pair, hp, hcolumn⟩ | ⟨extra, hx, hm⟩
    · exact hcolumn ▸ hpairs pair hp
    · exact hextra extra hx test hm ⟨clause, hc, ht⟩ use hu he

end ResolvedQuery

open Translating

variable {catalog : Catalog} {q : Query}

/-- All of these columns are exposed. -/
def ExposesAll (columns used : List String) : Prop := ∀ column ∈ used, Exposes columns column

/-- The selection of a query lists a column. -/
def Query.Lists (catalog : Catalog) (q : Query) (column : String) : Prop :=
  Exposes (resolveColumns catalog q.entity q.fields) column

/-- The selection of a query lists the columns that it is sorted by. -/
def Query.ListsSorts (catalog : Catalog) (q : Query) : Prop :=
  ∀ key ∈ q.sorts, q.Lists catalog (catalog.column q.entity key.field)

/-- A column that rows are sorted by. -/
structure SortEntry where
  /-- The column. -/
  reference : Reference
  /-- Whether large values come first. -/
  desc : Bool

/-- How it is written. -/
def SortEntry.sql (tableAlias : String) (entry : SortEntry) : String :=
  entry.reference.sql tableAlias ++ if entry.desc then " DESC" else " ASC"

/-- The sort entries of a query refer to the columns that it is sorted by. -/
theorem sortEntries_eq_ok {entity tableAlias : String} :
    ∀ {keys : List SortKey} {sorts : List String},
      sortEntries catalog entity tableAlias keys = .ok sorts →
      ∃ entries : List SortEntry, sorts = entries.map (SortEntry.sql tableAlias) ∧
        entries.map (·.reference.column) = keys.map fun key => catalog.column entity key.field
  | [], sorts, h => by
    obtain rfl : [] = sorts := Except.ok.inj h
    exact ⟨[], rfl, rfl⟩
  | key :: rest, sorts, h => by
    rw [sortEntries, reference_eq] at h
    cases hr : resolveReference catalog entity key.field key.conversion with
    | error failure =>
      rw [hr] at h
      cases h
    | ok reference =>
      cases hrest : sortEntries catalog entity tableAlias rest with
      | error failure =>
        rw [hr, hrest] at h
        cases h
      | ok others =>
        rw [hr, hrest] at h
        obtain rfl := Except.ok.inj h
        obtain ⟨entries, rfl, hcolumns⟩ := sortEntries_eq_ok hrest
        have hcolumn : reference.column = catalog.column entity key.field := by
          unfold resolveReference at hr
          split at hr
          · split at hr
            · exact Except.ok.inj hr ▸ rfl
            · cases hr
          · exact Except.ok.inj hr ▸ rfl
        exact ⟨⟨reference, key.desc⟩ :: entries, rfl, by rw [List.map_cons, hcolumn, hcolumns]; rfl⟩

/-- The select that a comparison with a query is written with, where the query is a derived table if
it has set operations. -/
structure Select.Compared (catalog : Catalog) (operator : Comparison) (sub : Query)
    (column : String) (entries : List SortEntry) (select : Select) : Prop where
  /-- With set operations the rows are those of a derived table. -/
  rows : select.arms ≠ [] → select.rows = "(" ++ select.sql ++ ") AS " ++ select.tableAlias
  /-- It lists the selection of the query. -/
  columns : select.columns = resolveColumns catalog sub.entity sub.fields
  /-- It exposes the compared column, and the columns that the rows are sorted by where they are
  limited exactly when they are selected. -/
  exposes : ExposesAll select.columns (column :: entries.map (·.reference.column)) ↔
    operator.isMembership = true ∧ sub.size = 0 ∨ sub.ListsSorts catalog

/-- The clause of a join whose rows come from a derived table. -/
structure JoinClause.Matches (catalog : Catalog) (joins : List JoinClause) (part : Query)
    (join : Join) (j : ResolvedJoin) (clause : JoinClause) : Prop where
  /-- The join is one of the query, or stands for a set operation of it. -/
  joined : join ∈ part.joins ∨ ∃ entry ∈ part.combines, entry.Becomes catalog join
  /-- What it compares. -/
  resolves : ResolvesJoin catalog part.entity join j
  /-- The alias of the derived table. -/
  target : clause.tableAlias = j.targetAlias
  /-- It lists the selection of the joined query. -/
  columns : clause.source.columns = resolveColumns catalog join.query.entity join.query.fields
  /-- It exposes what ON clauses refer to exactly when the columns that it is matched on are
  selected, and those that its condition on joined rows refers to where an ON clause tests it. -/
  exposes : clause.ExposesUsed joins ↔
    (∀ pair ∈ resolvePairs catalog part.entity join, join.query.Lists catalog pair.2) ∧
      ∀ extra, j.extra = some extra → ∀ test,
        .atom test ∈ (extra.outline j.targetAlias).condition →
        (∃ other ∈ joins, .atom test ∈ other.on) →
        ∀ use ∈ test.uses, use.tableAlias = j.targetAlias → join.query.Lists catalog use.column

/-- What a test compares with is exposed as described. -/
def Test.Exposed (catalog : Catalog) (q : Query) : Test → Prop
  | .rows tableAlias reference operator limit sorts column select =>
    ∃ sub entries, q.Compares catalog operator column sub ∧
      (Test.rows tableAlias reference operator limit sorts column select).sql =
        reference.sql tableAlias ++ " " ++ operator.sql ++ " ("
          ++ comparedText limit (entries.map (SortEntry.sql select.tableAlias)) column
            select.tableAlias select.rows ++ ")" ∧
      select.Compared catalog operator sub column entries
  | .missing .. => True
  | .value .. => True
  | .text .. => True
  | .pair .. => True
  | .member .. => True

/-- The law that derived tables expose what is referred to, as described. -/
def exposureLaw (catalog : Catalog) (q : Query) : Law where
  test := Test.Exposed catalog q
  tables joins := ∀ clause ∈ joins, ∀ select, clause.source = .derived select →
    ∃ part join j, q.Part part ∧ clause.Matches catalog joins part join j
  alone := by simp

/-- A query that selects properties lists their columns. -/
theorem Query.lists_iff {column : String} (h : q.fields ≠ []) :
    q.Lists catalog column ↔ ∃ property ∈ q.fields, catalog.column q.entity property = column := by
  obtain ⟨property, rest, hfields⟩ := List.exists_cons_of_ne_nil h
  have hcolumns : resolveColumns catalog q.entity q.fields =
      q.fields.map (catalog.column q.entity) := by
    rw [resolveColumns, hfields]
    exact List.map_map
  rw [Lists, Exposes, hcolumns, List.mem_map, List.map_eq_nil_iff, or_iff_right h]

/-- Sort entries of columns are listed where the query selects the columns. -/
theorem lists_entries {entries : List SortEntry}
    (h : entries.map (·.reference.column) =
      q.sorts.map fun key => catalog.column q.entity key.field) :
    (∀ entry ∈ entries, q.Lists catalog entry.reference.column) ↔ q.ListsSorts catalog := by
  have hcolumns := List.forall_mem_map (f := fun entry : SortEntry => entry.reference.column)
    (l := entries) (P := q.Lists catalog)
  rw [← hcolumns, h, List.forall_mem_map, Query.ListsSorts]

/-- The sort entries of a compared query are those of a limited one. -/
theorem requestedSorts_compared {operator : Comparison} {sub : Query} {innerAlias : String}
    {sorts : List String}
    (h : requestedSorts catalog (SubqueryLimit.of operator sub.size != .none) sub.entity innerAlias
      sub.sorts = .ok sorts) :
    ∃ entries : List SortEntry, sorts = entries.map (SortEntry.sql innerAlias) ∧
      ((∀ entry ∈ entries, sub.Lists catalog entry.reference.column) ↔
        operator.isMembership = true ∧ sub.size = 0 ∨ sub.ListsSorts catalog) := by
  by_cases hall : operator.isMembership = true ∧ sub.size = 0
  · have hlimit : SubqueryLimit.of operator sub.size = .none := by simp [SubqueryLimit.of, hall]
    rw [hlimit] at h
    exact ⟨[], (Except.ok.inj h).symm, by simp [hall]⟩
  · have hlimit : (SubqueryLimit.of operator sub.size != .none) = true := by
      unfold SubqueryLimit.of
      cases hm : operator.isMembership with
      | false => simp
      | true =>
        have hsize : sub.size ≠ 0 := fun hsize => hall ⟨hm, hsize⟩
        simp [hsize]
    rw [hlimit, requestedSorts, if_pos rfl] at h
    obtain ⟨entries, hentries, hkeys⟩ := sortEntries_eq_ok h
    exact ⟨entries, hentries, by rw [or_iff_right hall, lists_entries hkeys]⟩

/-- The select of a compared query exposes its columns as described. -/
theorem compared_select {operator : Comparison} {sub : Query} {property : String}
    {rest : List String} {innerAlias : String} {r : ResolvedQuery} {w v : Workspace}
    (ht : sub.text = none) (hfields : sub.fields = property :: rest)
    (hr : outcome (sub.resolve catalog (SubqueryLimit.of operator sub.size != .none) innerAlias) w =
      (.ok r, v)) :
    ∃ entries : List SortEntry, r.sorts = entries.map (SortEntry.sql innerAlias) ∧
      ((r.outline innerAlias).select r.columns r.table innerAlias).Compared catalog operator sub
        (catalog.column sub.entity property) entries := by
  have hcolumns := (Query.resolve_resolves hr).columns
  obtain ⟨entries, hentries, hexposes⟩ :=
    requestedSorts_compared (Query.resolve_origins ht hr).sorts
  refine ⟨entries, hentries, fun harms => ?_, hcolumns, ?_⟩
  · have hwritten : (armTexts (r.outline innerAlias).arms).isEmpty = false := by
      rw [armTexts_isEmpty]
      exact List.isEmpty_eq_false_iff.mpr harms
    simp only [Outline.select, Select.rows, selectRows, hwritten, Bool.false_eq_true, if_false,
      Select.sql]
  · rw [← hexposes, ExposesAll, List.forall_mem_cons, List.forall_mem_map, Outline.select, hcolumns]
    refine and_iff_right ((Query.lists_iff (hfields ▸ List.cons_ne_nil _ _)).mpr
      ⟨property, hfields ▸ List.mem_cons_self, rfl⟩)

/-- What is written of the comparisons of a query in another one exposes what is referred to. -/
theorem exposed_test {part : Query} {criterion : Criterion} {c : ResolvedCriterion}
    (hp : q.Part part) (hm : criterion ∈ part.comparisons)
    (ho : CriterionOrigin catalog part.entity criterion c) (tableAlias : String) :
    (c.test tableAlias).Exposed catalog q := by
  cases ho with
  | missing hn => exact trivial
  | value hn hv => exact trivial
  | text hn hv ht => exact trivial
  | @rows reference sub property rest innerAlias r x y _ hn hv ht hfields hr =>
    have hsub : sub.text = none := Query.isText_eq_false.mp ht
    obtain ⟨entries, hentries, hselect⟩ := compared_select hsub hfields hr
    have htext := (Query.resolve_origins hsub hr).text
    rw [ResolvedCriterion.test, ResolvedQuery.sorts_outline htext, hentries]
    exact ⟨sub, entries, ⟨part, hp, criterion, hm, rfl, hv, property, rest, hfields, rfl⟩,
      Test.sql_rows .., hselect⟩

/-- A join that is written with a query is a join of the query or of one in it. -/
theorem ResolvedQuery.part_of_emitted (r : ResolvedQuery) : ∀ tableAlias, ∀ join ∈ r.emitted,
    ∃ part, ResolvedQuery.Part (tableAlias, r) part ∧ join ∈ part.2.joins := by
  induction r using ResolvedQuery.induction with | step r within
  intro tableAlias join hj
  rw [emitted_eq] at hj
  obtain ⟨own, hown, hj⟩ := List.mem_flatMap.mp hj
  have hm := r.ownJoins_sublist.subset hown
  rcases List.mem_cons.mp hj with rfl | hj
  · exact ⟨(tableAlias, r), .refl, hm⟩
  · rw [ResolvedJoin.nested] at hj
    split at hj
    · obtain ⟨part, hp, hjoin⟩ := within.joined own hm own.innerAlias join hj
      exact ⟨part, .head (.joined hm) hp, hjoin⟩
    · exact absurd hj List.not_mem_nil

/-- A query in a query that is given names is one in it with its names, or the test for a missing
match. -/
theorem Query.Becomes.part {tableAlias : String} {r : ResolvedQuery}
    {part : String × ResolvedQuery} (h : q.Becomes catalog tableAlias r)
    (hp : ResolvedQuery.Part (tableAlias, r) part) :
    (∃ sub, q.Part sub ∧ sub.Becomes catalog part.1 part.2) ∨
      ∃ entity property, part.2 = resolveMissing catalog entity property := by
  obtain ⟨_, _, _, -, hr⟩ := id h
  rcases Query.resolve_part hr hp with rfl | hpart
  · exact .inl ⟨q, .refl, h⟩
  · exact hpart

/-- A join that is written with a query is one of the query or of one in it, or stands for a set
operation there. -/
theorem Query.Becomes.emitted {tableAlias : String} {r : ResolvedQuery} {j : ResolvedJoin}
    (h : q.Becomes catalog tableAlias r) (hj : j ∈ r.emitted) :
    ∃ part join, q.Part part ∧
      (join ∈ part.joins ∨ ∃ entry ∈ part.combines, entry.Becomes catalog join) ∧
      ResolvesJoin catalog part.entity join j := by
  obtain ⟨part, hp, hj⟩ := r.part_of_emitted tableAlias j hj
  rcases h.part hp with ⟨sub, hsub, _, _, _, -, hr⟩ | ⟨_, _, hmissing⟩
  · cases ht : sub.text with
    | some raw =>
      rw [Query.resolve_text ht hr] at hj
      exact absurd hj List.not_mem_nil
    | none =>
      obtain ⟨matched, own, others, hmatched, hjoins, hown, hothers⟩ :=
        (Query.resolve_origins ht hr).joins
      rw [hjoins] at hj
      rcases List.mem_append.mp hj with hj | hj
      · obtain ⟨join, hm, horigin⟩ := exists_of_mem_right hown hj
        exact ⟨sub, join, hsub, .inl hm, horigin.compares⟩
      · obtain ⟨join, hm, horigin⟩ := exists_of_mem_right hothers hj
        obtain ⟨entry, hentry, hb⟩ :=
          exists_of_mem_right (Catalog.matchingJoins_becomes hmatched) hm
        exact ⟨sub, join, hsub, .inr ⟨entry, (List.mem_filter.mp hentry).1, hb⟩, horigin.compares⟩
  · rw [hmissing] at hj
    exact absurd hj List.not_mem_nil

/-- The derived tables that are joined to a query expose what ON clauses refer to as described. -/
theorem Query.Becomes.matches {tableAlias : String} {r : ResolvedQuery}
    (h : q.Becomes catalog tableAlias r) {clause : JoinClause}
    (hc : clause ∈ (r.outline tableAlias).joins) {select : Select}
    (hs : clause.source = .derived select) :
    ∃ part join j, q.Part part ∧
      clause.Matches catalog (r.outline tableAlias).joins part join j := by
  obtain ⟨j, hj, outer, rfl, -⟩ := r.mem_joins_outline tableAlias clause hc
  obtain ⟨part, join, hpart, hfrom, hresolves⟩ := h.emitted hj
  obtain ⟨_, _, _, hpast, hr⟩ := h
  have ha : j.query.hasArms = true := by
    rw [ResolvedJoin.clause] at hs
    split at hs
    · next harms => exact (j.query.hasArms_outline j.innerAlias).symm.trans harms
    · cases hs
  have hlists : ∀ column, Exposes j.query.columns column ↔ join.query.Lists catalog column :=
    fun column => by rw [hresolves.query.columns, Query.Lists]
  refine ⟨part, join, j, hpart, hfrom, hresolves, rfl,
    (ResolvedJoin.columns_source ha).trans hresolves.query.columns, ?_⟩
  rw [ResolvedQuery.exposesUsed_iff (ResolvedQuery.nodup_aliases (q.resolve_issued hr) hpast)
    hj ha, ← hresolves.pairs]
  simp only [hlists]

/-- Every query in a query that is given names exposes what is referred to. -/
theorem Query.Becomes.exposed {tableAlias : String} {r : ResolvedQuery}
    {part : String × ResolvedQuery} (hf : TextFree q.sites) (h : q.Becomes catalog tableAlias r)
    (hp : ResolvedQuery.Part (tableAlias, r) part) :
    part.2.Obeys (exposureLaw catalog q) part.1 where
  criterion c hc := by
    obtain ⟨_, _, _, -, hr⟩ := h
    rcases Query.resolve_criteria hf hr hp hc with ⟨sub, criterion, hsub, hm, ho⟩ | ⟨_, _, rfl⟩
    · exact exposed_test hsub hm ho part.1
    · exact trivial
  pair join _ test ht := by
    obtain ⟨pair, -, rfl⟩ := List.mem_map.mp ht
    exact trivial
  member closure _ := trivial
  tables clause hc select hs := by
    rcases h.part hp with ⟨sub, hsub, hb⟩ | ⟨_, _, hmissing⟩
    · obtain ⟨inner, join, j, hinner, hm⟩ := hb.matches hc hs
      exact ⟨inner, join, j, hsub.trans hinner, hm⟩
    · rw [hmissing] at hc
      exact absurd hc List.not_mem_nil

end AbstractSql
