import AbstractSql.Proofs.Statement.Framing
import AbstractSql.Proofs.Text.Parts

/-!
# The selection never filters

All ways to read a query translate it, or a copy of it in which other properties are wanted, and
write its clauses around what they select. So the joins, the condition, the definitions and the
parameters of a statement are those of the query, however it is read and whatever is selected.
-/

namespace AbstractSql

open Identifier (quote)

/-- The definition of a closure table ends with a parenthesis, and so does a list of them. -/
theorem ClosureRows.intercalate_sql (d : ClosureRows) (ds : List ClosureRows) :
    ∃ text, String.intercalate "," ((d :: ds).map ClosureRows.sql) = text ++ ")" := by
  induction ds generalizing d with
  | nil => exact ⟨_, by rw [List.map_singleton, String.intercalate_singleton, ClosureRows.sql]⟩
  | cons next ds ih =>
    obtain ⟨text, ht⟩ := ih next
    refine ⟨d.sql ++ "," ++ text, ?_⟩
    rw [List.map_cons, List.map_cons, String.intercalate_cons_cons, ← List.map_cons, ht]
    simp only [String.append_assoc]

/-- The definitions in front of a statement neither begin nor end with a blank. -/
theorem Query.trim_definitionClause {catalog : Catalog} {q : Query} {names names' : NameSupply}
    {t : Translation} (h : q.translate catalog names = (.ok t, names')) :
    Text.trim t.definitionClause = t.definitionClause := by
  obtain ⟨r, w, -, -, rfl⟩ := Query.translate_resolve h
  unfold Translation.definitionClause
  dsimp only [Outline.toTranslation]
  cases (r.outline NameSupply.mainAlias).mergeJoinExtras.definitions with
  | nil => rfl
  | cons d ds =>
    obtain ⟨text, ht⟩ := d.intercalate_sql ds
    have hkept : Text.trim ("WITH RECURSIVE " ++ text ++ ")") = "WITH RECURSIVE " ++ text ++ ")" :=
      Text.trim_around "WITH RECURSIVE " text ")" rfl rfl (by decide) (by decide)
    simp only [List.map_cons] at ht ⊢
    rw [ht, ← String.append_assoc]
    exact hkept

namespace Statement

/-- The select that every statement has around the clauses of a query: what it lists comes before
them and the set operations behind them. -/
def rowsText (catalog : Catalog) (entity list : String) (t : Translation) (arms : String) : String :=
  Text.joinParts
    ["SELECT " ++ list ++ " FROM " ++ quote (catalog.table entity) ++ " AS "
        ++ NameSupply.mainAlias,
      t.joinClause, t.whereClause, arms]

/-- The statement is put together around the clauses of a translated query: it begins with the
definitions, and its text is the one in which `mode` reads `q`, around a select of the rows with the
joins and the condition. Only what is listed of these rows, and their set operations, may be others
than those of the translation. -/
structure Carries (catalog : Catalog) (mode : ReadMode) (q : Query) (t : Translation)
    (list arms : String) (st : Statement) : Prop where
  /-- The parameters. -/
  parameters : st.parameters = t.parameters
  /-- The definitions. -/
  begins : ∃ rest, st.text = t.definitionClause ++ rest
  /-- The whole text. -/
  selects : ∃ entries used, t.sorts = entries.map (SortEntry.sql NameSupply.mainAlias) ∧
    Selects catalog q t (rowsText catalog q.entity list t arms) entries mode used st.text

variable {catalog : Catalog} {q source : Query} {mode : ReadMode} {names names' : NameSupply}
  {t u : Translation} {st : Statement} {rows text : String} {entries : List SortEntry}
  {used : List String}

/-- A text that is put together from its parts begins with the definitions. -/
theorem begins_joinParts (ht : Text.trim t.definitionClause = t.definitionClause)
    (parts : List String) :
    ∃ rest, Text.joinParts (t.definitionClause :: parts) = t.definitionClause ++ rest := by
  obtain ⟨separator, hs⟩ := Text.joinParts_cons t.definitionClause parts
  rw [hs, ht, String.append_assoc]
  exact ⟨_, rfl⟩

/-- The definition of a common table begins with those of the closure tables. -/
theorem begins_rangeDefinitions (t : Translation) (rows : String) :
    ∃ rest, rangeDefinitions t rows = t.definitionClause ++ rest := by
  unfold rangeDefinitions
  cases hd : t.definitions with
  | nil =>
    have hnone : t.hasDefinitions = false := by simp [Translation.hasDefinitions, hd]
    have hclause : t.definitionClause = "" := by simp [Translation.definitionClause, hd]
    rw [hnone, if_neg Bool.false_ne_true, hclause]
    exact ⟨_, String.empty_append.symm⟩
  | cons d ds =>
    have hsome : t.hasDefinitions = true := by simp [Translation.hasDefinitions, hd]
    rw [hsome, if_pos rfl, String.append_assoc, String.append_assoc]
    exact ⟨_, rfl⟩

/-- Every text begins with the definitions. -/
theorem Selects.begins (h : Selects catalog q t rows entries mode used text)
    (ht : Text.trim t.definitionClause = t.definitionClause) :
    ∃ rest, text = t.definitionClause ++ rest := by
  cases h with
  | plain _ => exact begins_joinParts ht _
  | combined _ => exact begins_joinParts ht _
  | range _ _ =>
    obtain ⟨rest, hrest⟩ := begins_rangeDefinitions t rows
    simp only [hrest, String.append_assoc]
    exact ⟨_, rfl⟩
  | existence => exact begins_joinParts ht _
  | aggregated _ _ => exact begins_joinParts ht _
  | aggregatedRows _ _ => exact begins_joinParts ht _

/-- Around the select of the rows a text only has what two translations share that differ in the set
operations. -/
theorem Selects.of_sameBut {R : String → String → Prop} (ht : t.SameBut R u)
    (harms : t.hasCombine = q.hasArms) (h : Selects catalog q u rows entries mode used text) :
    Selects catalog q t rows entries mode used text := by
  obtain ⟨combines, rfl, hc⟩ := ht
  cases h with
  | plain ha =>
    have hnone : t.combines = [] := by
      rw [ha, Translation.hasCombine, Bool.not_eq_false', List.isEmpty_iff] at harms
      exact harms
    rw [hnone, List.forall₂_nil_left_iff] at hc
    have hsame : Translation.withCombines combines t = t := by
      rw [hc, ← hnone]
      rfl
    rw [hsame]
    exact .plain ha
  | combined ha => exact .combined ha
  | range hm hp => exact .range hm hp
  | existence => exact .existence
  | aggregated ha hf => exact .aggregated ha hf
  | aggregatedRows ha hf => exact .aggregatedRows ha hf

/-- A query that is read has the clauses of each query that differs from it in what is selected. -/
theorem read_carries (hr : q.Reselects source) (hq : q.isText = false)
    (h : outcome (read catalog mode source) names = (.ok st, names')) :
    ∃ t copy u, q.translate catalog names = (.ok t, names') ∧
      mode.source catalog source = .ok copy ∧ copy.translate catalog names = (.ok u, names') ∧
      t.SameBut (SameButList catalog q.entity q.fields copy.fields) u ∧
      st.Carries catalog mode source t (innerList catalog copy) u.combineClause := by
  obtain ⟨copy, u, entries, used, hframed⟩ := read_framed (hr.isText_eq.trans hq) h
  -- What is translated differs from `q` in what is selected, by way of the query that is read.
  have hcopy := hr.trans (reselects_source hframed.copies)
  have hsame : SameOutcome _ (q.translate catalog names) (copy.translate catalog names) :=
    hcopy.translate names
  rw [hframed.translated] at hsame
  generalize hresult : q.translate catalog names = result at hsame
  cases hsame with
  | @success t _ final hsame =>
    have harms : t.hasCombine = source.hasArms :=
      (q.translate_hasCombine hresult).trans hr.hasArms_eq.symm
    have hselects := hframed.selects.of_sameBut hsame harms
    have hbegins := hselects.begins (q.trim_definitionClause hresult)
    have hentity : copy.entity = source.entity := hcopy.entity_eq.trans hr.entity_eq.symm
    obtain ⟨combines, rfl, hc⟩ := hsame
    have hrows : baseSelect catalog copy (t.withCombines combines) (innerList catalog copy) =
        rowsText catalog source.entity (innerList catalog copy) t
          (t.withCombines combines).combineClause := by
      rw [baseSelect, hentity]
      rfl
    rw [hrows] at hselects
    exact ⟨t, copy, _, rfl, hframed.copies, hframed.translated, ⟨combines, rfl, hc⟩,
      hframed.parameters, hbegins, entries, used, hframed.sorts, hselects⟩

end Statement

open Statement Translation

/-- Which properties are wanted of a query, and of the queries in its UNION and UNION ALL, decides
about nothing but the lists of the selects: the query is translated to the same clauses, definitions
and parameters, or fails in the same way, and leaves the same names. So whichever way one of the two
queries is read, the statement is put together around the joins, the condition, the definitions and
the parameters of that translation. -/
theorem Query.read_ignoresSelection {q q' : Query} (h : q.Reselects q') (catalog : Catalog)
    (names : NameSupply) :
    SameOutcome (SameBut (SameButList catalog q.entity q.fields q'.fields))
        (q.translate catalog names) (q'.translate catalog names) ∧
      (q.isText = false → ∀ source ∈ [q, q'], ∀ mode st names',
        outcome (read catalog mode source) names = (.ok st, names') →
          ∃ t copy u, q.translate catalog names = (.ok t, names') ∧
            mode.source catalog source = .ok copy ∧
            copy.translate catalog names = (.ok u, names') ∧
            t.SameBut (SameButList catalog q.entity q.fields copy.fields) u ∧
            st.Carries catalog mode source t (innerList catalog copy) u.combineClause) := by
  refine ⟨h.translate names, fun hq source hs mode st names' hread => ?_⟩
  have hsource : q.Reselects source := by
    rcases List.mem_cons.mp hs with rfl | hs
    · exact .refl source
    · exact List.mem_singleton.mp hs ▸ h
  exact read_carries hsource hq hread

/-- Users with a condition and the guests, once with one property wanted of the users, and once with
another and with one wanted of the guests. A test for rows, which wants the key, has the condition of
both. -/
theorem Query.read_ignoresSelection_union :
    let catalog := ({} : Catalog).insert "User"
      { fields := [{ property := "id", primaryKey := true }] }
    let q : Query :=
      { (Query.ofEntity "User").equal "level" (.int 1) with
        fields := ["name"], combines := [⟨.union, Query.ofEntity "Guest"⟩] }
    let q' : Query :=
      { q with fields := ["age"],
               combines := [⟨.union, { Query.ofEntity "Guest" with fields := ["id"] }⟩] }
    q.Reselects q' ∧ ∃ t t' final, q.translate catalog {} = (.ok t, final) ∧
      q'.translate catalog {} = (.ok t', final) ∧
      t.whereClause = "WHERE TB.\x60level\x60 = ?level1" ∧ t'.whereClause = t.whereClause ∧
      t.combines = ["UNION SELECT S0.\x60name\x60 FROM \x60Guest\x60 AS S0"] ∧
      t'.combines = ["UNION SELECT S0.\x60age\x60 FROM \x60Guest\x60 AS S0"] ∧
      ∃ st copy u, outcome (read catalog .existence q') {} = (.ok st, final) ∧
        st.text = "SELECT EXISTS(SELECT TB.\x60id\x60 FROM \x60User\x60 AS TB WHERE "
          ++ "TB.\x60level\x60 = ?level1 UNION SELECT S0.\x60id\x60 FROM \x60Guest\x60 AS S0)" ∧
        copy.translate catalog {} = (.ok u, final) ∧
        t.SameBut (SameButList catalog "User" ["name"] copy.fields) u ∧
        st.Carries catalog .existence q' t (innerList catalog copy) u.combineClause := by
  intro catalog q q'
  have h : q.Reselects q' := ⟨["age"], _, rfl, .cons (.inr ⟨rfl, ["id"], rfl⟩) .nil⟩
  obtain ⟨hsame, hreads⟩ := read_ignoresSelection h catalog {}
  obtain ⟨t, final, ht, hw, hc⟩ : ∃ t final, q.translate catalog {} = (.ok t, final) ∧
      t.whereClause = "WHERE TB.\x60level\x60 = ?level1" ∧
      t.combines = ["UNION SELECT S0.\x60name\x60 FROM \x60Guest\x60 AS S0"] :=
    ⟨_, _, rfl, by cbv, by cbv⟩
  obtain ⟨t', final', ht', hc'⟩ : ∃ t' final', q'.translate catalog {} = (.ok t', final') ∧
      t'.combines = ["UNION SELECT S0.\x60age\x60 FROM \x60Guest\x60 AS S0"] :=
    ⟨_, _, rfl, by cbv⟩
  obtain ⟨st, last, hst, htext⟩ : ∃ st last,
      outcome (read catalog .existence q') {} = (.ok st, last) ∧
        st.text = "SELECT EXISTS(SELECT TB.\x60id\x60 FROM \x60User\x60 AS TB WHERE "
          ++ "TB.\x60level\x60 = ?level1 UNION SELECT S0.\x60id\x60 FROM \x60Guest\x60 AS S0)" :=
    ⟨_, _, rfl, by cbv⟩
  obtain ⟨own, copy, u, hown, -, hu, hlists, hcarries⟩ :=
    hreads rfl q' (by simp) .existence st last hst
  obtain ⟨hsuccess, rfl⟩ := Prod.mk.inj (ht.symm.trans hown)
  obtain rfl := Except.ok.inj hsuccess
  rw [ht, ht'] at hsame
  cases hsame with
  | success _ hb =>
    obtain ⟨combines, rfl, -⟩ := hb
    exact ⟨h, t, _, final, ht, ht', hw, rfl, hc, hc', st, copy, u, hst, htext, hu, hlists, hcarries⟩

end AbstractSql
