import AbstractSql.Proofs.Command.Mentions
import AbstractSql.Proofs.Outline.Arms
import AbstractSql.Proofs.Statement.Binding

/-!
# The arms of a plain read

A plain read of a query with set operations selects from a derived table, in which every arm of the
query is written. Here is exactly when this is all that was asked for: when the arms that are written
are all arms of the tree, and when a placeholder is left for every value that is bound in the tree.
-/

namespace AbstractSql

open Segment (placeholders)

/-- Place in a plain read, among the places in a command: the set operations are written too. -/
def Place.selected : Place → Place
  | combines => joins
  | place => place

/-- The clauses of a plain read, once the conditions on joined rows are part of the condition. -/
theorem writtenMarks_selected (left right : NameSupply) (sites : List Site) :
    marksAt .definitions ((twins left right sites).map (.move .merged)) ∪
        (marksAt .joins ((twins left right sites).map (.move .merged)) ∪
          (marksAt .condition ((twins left right sites).map (.move .merged)) ∪
            marksAt .combines ((twins left right sites).map (.move .merged)))) =
      writtenMarks (twins left right (sites.map (.move .selected))) := by
  rw [writtenMarks_eq, twins_move]
  simp [marksAt_move, Place.merged, Place.selected, Set.union_comm, Set.union_left_comm]

namespace Query

variable {catalog : Catalog} {q : Query} {names names' : NameSupply} {t : Translation}

/-- What the arms of a query bind, behind what its conditions bind. -/
def armEntries (q : Query) (names : NameSupply) : List Entry :=
  (ledger (names.after (sourcesOf (clauseSites q.conditions))) (sourcesOf (armSites q.combines))).1

/-- The sites of the arms stand behind those of the conditions, and a plain read writes all of them
that are not lost. A closure changes nothing about that. -/
theorem sites_arms (hq : q.isText = false) :
    ∃ (f : Place → Place) (after : List Site),
      q.sites.map (.move .selected) =
        (clauseSites q.conditions).map (.move f) ++ ((armSites q.combines).map (.move f) ++ after) ∧
      ∀ site ∈ armSites q.combines, (f site.place).isWritten = true ↔ site.place ≠ .lost := by
  obtain ⟨entity, text, conditions, sorts, joins, combines, recurve, paging, size, fields,
    isolation⟩ := q
  obtain rfl : text = none := Option.isNone_iff_eq_none.mp (Option.isSome_eq_false_iff.mp hq)
  have hplace := armSites_place combines
  cases recurve with
  | none =>
    refine ⟨.selected, (joinSites joins ++ matchSites combines).map (.move .selected), ?_, ?_⟩
    · simp only [Query.sites, List.map_append, List.append_assoc]
    · intro site hs
      rcases hplace site hs with hp | hp | hp <;> simp [hp, Place.selected, Place.isWritten]
  | some closure =>
    refine ⟨fun place => place.closed.selected,
      (joinSites joins ++ matchSites combines).map (.move fun place => place.closed.selected), ?_, ?_⟩
    · simp only [Query.sites, List.map_append, List.map_map, List.append_assoc]
      rfl
    · intro site hs
      rcases hplace site hs with hp | hp | hp <;>
        simp [hp, Place.closed, Place.selected, Place.isWritten]

/-- What the arms bind is a part of what the query binds. -/
theorem mem_ledger_of_arms (hq : q.isText = false) {e : Entry} (he : e ∈ q.armEntries names) :
    e ∈ (ledger names (sourcesOf q.sites)).1 := by
  obtain ⟨f, after, hsites, -⟩ := sites_arms hq
  rw [← sourcesOf_move .selected q.sites, hsites, sourcesOf_append, sourcesOf_append, sourcesOf_move,
    sourcesOf_move, ledger_append, ledger_append]
  exact List.mem_append_right _ (List.mem_append_left _ he)

/-- All that the arms bind is mentioned exactly when none of it is lost. -/
theorem arms_mentioned_iff (hf : TextFree q.sites) (names : NameSupply) :
    (∀ e ∈ q.armEntries names, Mentioned names (q.sites.map (.move .selected)) e.parameter.name) ↔
      ∀ site ∈ armSites q.combines, site.place ≠ .lost := by
  obtain ⟨f, after, hsites, hplace⟩ := sites_arms (isText_of_textFree hf)
  have hmoved := (textFree_move (f := .selected)).mpr hf
  rw [hsites] at hmoved
  have hall := forall_mentioned_iff names hmoved
  rw [sourcesOf_move, sourcesOf_move, ← hsites, List.forall_mem_map] at hall
  exact hall.trans (forall₂_congr hplace)

/-- The placeholders of a plain read are the names that its sources mention, unless they are lost. -/
theorem selectText_placeholders (hc : catalog.Unformatted) (hr : Readable q.sites)
    (h : q.translate catalog names = (.ok t, names')) :
    ∃ ps, placeholders (Statement.selectText catalog q t) = .ok ps ∧
      ∀ name, name ∈ ps ↔ Mentioned names (q.sites.map (.move .selected)) name := by
  obtain ⟨t', right', ht', htwins⟩ := translate_twins hr names h
  obtain rfl : t = t' := Except.ok.inj (Prod.mk.inj (h.symm.trans ht')).1
  have halike := Statement.selectText_alike hc htwins.definitionClause
    (fun hl => Statement.baseSelect_alike htwins.joinClause htwins.whereClause htwins.combineClause
      hl q) htwins.orderClause.2
  obtain ⟨ps, hps, hmem⟩ := (halike.congr (writtenMarks_selected names names q.sites)).placeholders
    fun pair hp => (mem_writtenMarks_self.mp hp).1
  refine ⟨ps, hps, fun name => ?_⟩
  rw [hmem, mem_writtenMarks_self]
  exact and_iff_right rfl

end Query

/-- The select of a statement: of the rows that the query asks for, with its arms. -/
def ResolvedQuery.statementSelect (r : ResolvedQuery) : Select :=
  (r.outline NameSupply.mainAlias).mergeJoinExtras.select r.columns r.table NameSupply.mainAlias

/-- The arms of the query itself are written. -/
theorem ResolvedQuery.arms_statementSelect (r : ResolvedQuery) :
    r.statementSelect.arms = r.ownArms.map fun arm => Outline.armClause arm arm.outline :=
  r.arms_outline NameSupply.mainAlias

namespace Statement

variable {catalog : Catalog} {q : Query} {names names' : NameSupply} {t : Translation} {st : Statement}

/-- The select around the clauses of a translated query is that of the query with its names. -/
theorem baseSelect_sql (h : q.translate catalog names = (.ok t, names')) :
    ∃ r w, outcome (q.resolve catalog true NameSupply.mainAlias) { names := names.resetAliases } =
        (.ok r, w) ∧
      baseSelect catalog q t (innerList catalog q) = r.statementSelect.sql := by
  obtain ⟨r, w, hr, -, rfl⟩ := Query.translate_resolve h
  have hresolves := Query.resolve_resolves hr
  refine ⟨r, w, hr, ?_⟩
  rw [ResolvedQuery.statementSelect, Outline.select_sql, hresolves.columns, hresolves.table,
    selectColumns_resolveColumns]
  rfl

/-- A plain read of a query with set operations selects from a derived table. -/
theorem selectText_hasCombine (h : t.hasCombine = true) :
    selectText catalog q t =
      Text.joinParts [t.definitionClause, selectFromDerived catalog q t (outputList catalog q),
        t.orderClause, if q.size = 0 then "" else "LIMIT 0," ++ toString q.size.toNat] := by
  unfold selectText
  simp only [h, if_true]

open Translating in
/-- What a plain read writes of the tree of set operations of a query. In the select of its derived
table there is an arm for each set operation of the query itself, in order, with the joins and the
condition of its query. This is the whole tree exactly when none of these queries has set operations
of its own and none has conditions on joined rows, which a statement makes part of its condition. All
values that are bound in the tree are parameters of the statement, and all of them have a placeholder
exactly when none of their sources is lost. -/
theorem select_writesTree_iff (hq : q.isText = false)
    (h : outcome (read catalog .select q) names = (.ok st, names')) :
    ∃ r w, outcome (q.resolve catalog true NameSupply.mainAlias) { names := names.resetAliases } =
        (.ok r, w) ∧
      List.Forall₂ (ArmFrom catalog) q.unionTree r.armTree ∧
      (q.hasArms = true → ∃ definitions order limit,
        st.text = Text.joinParts [definitions, "SELECT " ++ outputList catalog q ++ " FROM ("
          ++ r.statementSelect.sql ++ ") AS " ++ NameSupply.mainAlias, order, limit]) ∧
      r.statementSelect.arms = r.ownArms.map (fun arm => Outline.armClause arm arm.outline) ∧
      (List.Forall₂ ResolvedArm.Writes r.armTree r.statementSelect.arms ↔
        (∀ entry ∈ q.unions, entry.query.hasArms = false) ∧
          ∀ arm ∈ r.ownArms, arm.outline.joinExtras = []) ∧
      (catalog.Unformatted → TextFree q.sites → Readable q.sites →
        (∀ e ∈ q.armEntries names,
          st.parameters.value? e.parameter.name = some e.parameter.value) ∧
        ∃ ps, placeholders st.text = .ok ps ∧
          ((∀ e ∈ q.armEntries names, e.parameter.name ∈ ps) ↔
            ∀ site ∈ armSites q.combines, site.place ≠ .lost)) := by
  obtain ⟨t, final, ht, hof⟩ := outcome_bind_eq_ok.mp h
  rw [outcome_translated_eq_ok] at ht
  obtain ⟨htext, hparameters, -⟩ := ofTranslation_eq_ok (Query.translate_text ht hq) hof
  replace htext : selectText catalog q t = st.text := Except.ok.inj htext
  obtain ⟨r, w, hr, hsql⟩ := baseSelect_sql ht
  refine ⟨r, w, hr, Query.resolve_armTree hr, fun harms => ?_, r.arms_statementSelect, ?_,
    fun hc hf hreadable => ⟨?_, ?_⟩⟩
  · rw [← htext, selectText_hasCombine ((q.translate_hasCombine ht).trans harms), selectFromDerived,
      hsql]
    exact ⟨_, _, _, rfl⟩
  · refine (r.writes_armTree_iff NameSupply.mainAlias).trans ?_
    rw [← Query.resolve_nested hr, forall₂_and]
  · intro e he
    rw [hparameters, (Query.translate_ledger ht).2]
    exact value?_collect_ledger hf.sources e (Query.mem_ledger_of_arms hq he)
  · obtain ⟨ps, hps, hmem⟩ := Query.selectText_placeholders hc hreadable ht
    refine ⟨ps, htext ▸ hps, ?_⟩
    simp only [hmem]
    exact Query.arms_mentioned_iff hf names

/-- Two arms, the first of them with a condition, are both written. -/
theorem select_writesTree_iff_union :
    let q := ((Query.ofEntity "User").combine .union
      ((Query.ofEntity "Guest").equal "level" (.int 1))).combine .unionAll (Query.ofEntity "Staff")
    q.isText = false ∧ ∃ (st : Statement) (final : NameSupply) (r : ResolvedQuery),
      outcome (read {} .select q) {} = (.ok st, final) ∧
      st.text = "SELECT TB.* FROM (SELECT TB.* FROM `User` AS TB UNION SELECT S0.* FROM `Guest` AS "
        ++ "S0 WHERE S0.`level` = ?level1 UNION ALL SELECT S1.* FROM `Staff` AS S1) AS TB" ∧
      q.unionTree.map (·.query.entity) = ["Guest", "Staff"] ∧
      List.Forall₂ (Translating.ArmFrom {}) q.unionTree r.armTree ∧
      List.Forall₂ ResolvedArm.Writes r.armTree r.statementSelect.arms ∧
      (q.armEntries {}).map (·.parameter.name) = ["level1"] ∧
      ∃ ps, placeholders st.text = .ok ps ∧ "level1" ∈ ps := by
  intro q
  obtain ⟨st, final, h, htext⟩ : ∃ st final, outcome (read {} .select q) {} = (.ok st, final) ∧
      st.text = "SELECT TB.* FROM (SELECT TB.* FROM `User` AS TB UNION SELECT S0.* FROM `Guest` AS "
        ++ "S0 WHERE S0.`level` = ?level1 UNION ALL SELECT S1.* FROM `Staff` AS S1) AS TB" :=
    ⟨_, _, rfl, by cbv⟩
  obtain ⟨r, w, hr, htree, -, -, hwrites, hbound⟩ := select_writesTree_iff rfl h
  have hsites : q.sites = [⟨.value "level" { name := "", value := .int 1 }, .combines⟩] := rfl
  have hf : TextFree q.sites := by simp [hsites, TextFree, Source.isText]
  have hreadable : Readable q.sites := by
    have hname : "level".toList.all Segment.isNameCharacter = true := by decide
    rw [hsites]
    intro site hs
    obtain rfl := List.mem_singleton.mp hs
    exact List.all_eq_true.mp hname
  obtain ⟨-, ps, hps, hiff⟩ := hbound (fun entry he => absurd he List.not_mem_nil) hf hreadable
  have hnames : (q.armEntries {}).map (·.parameter.name) = ["level1"] := by cbv
  obtain ⟨e, he, hname⟩ := List.mem_map.mp (hnames ▸ List.mem_cons_self)
  have hextras : ∀ arm ∈ r.ownArms, arm.outline.joinExtras = [] := by
    obtain ⟨hresult, -⟩ := Prod.mk.inj hr
    obtain rfl := Except.ok.inj hresult
    decide +kernel
  refine ⟨rfl, st, final, r, h, htext, by cbv, htree, hwrites.mpr ⟨by decide +kernel, hextras⟩, hnames,
    ps, hps, hname ▸ hiff.mpr ?_ e he⟩
  decide +kernel

/-- Plain reads that lose a part of the tree, with the only value that is bound: an arm of an arm, and a
condition on the rows that an arm joins. -/
theorem select_losesArms :
    let admins := (Query.ofEntity "Admin").equal "level" (.int 1)
    let nested := (Query.ofEntity "User").combine .union
      ((Query.ofEntity "Guest").combine .union admins)
    let team : Join :=
      { kind := .inner, fields := [("team", "id")], query := Query.ofEntity "Team"
        extra := some ((Query.ofEntity "Team").equal "open" (.bool true)) }
    let required := (Query.ofEntity "User").combine .union ((Query.ofEntity "Guest").withJoin team)
    let loses (q : Query) (tree : List String) (bound text : String) :=
      ∃ (st : Statement) (final : NameSupply) (r : ResolvedQuery) (w : Workspace),
        outcome (read {} .select q) {} = (.ok st, final) ∧ st.text = text ∧
        q.unionTree.map (·.query.entity) = tree ∧
        outcome (q.resolve {} true NameSupply.mainAlias) {} = (.ok r, w) ∧
        ¬ List.Forall₂ ResolvedArm.Writes r.armTree r.statementSelect.arms ∧
        (q.armEntries {}).map (·.parameter.name) = [bound] ∧ st.parameters.names = [bound] ∧
        placeholders text = .ok []
    loses nested ["Guest", "Admin"] "level1"
      "SELECT TB.* FROM (SELECT TB.* FROM `User` AS TB UNION SELECT S0.* FROM `Guest` AS S0) AS TB" ∧
    loses required ["Guest"] "open1"
      ("SELECT TB.* FROM (SELECT TB.* FROM `User` AS TB UNION SELECT S0.* FROM `Guest` AS S0 " ++
        "INNER JOIN `Team` AS S1 ON S0.`team` = S1.`id`) AS TB") := by
  intro admins nested team required loses
  refine ⟨⟨_, _, _, _, rfl, by cbv, by cbv, rfl, fun h => ?_, by cbv, by cbv, by decide +kernel⟩,
    ⟨_, _, _, _, rfl, by cbv, by cbv, rfl, fun h => ?_, by cbv, by cbv, by decide +kernel⟩⟩
  · exact absurd h.length_eq (by decide +kernel)
  · have hextras := (ResolvedQuery.writes_armTree_iff _ NameSupply.mainAlias).mp h
    exact absurd (fun arm harm => (hextras arm harm).2) (by decide +kernel)

end Statement

end AbstractSql
