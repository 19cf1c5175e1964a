import AbstractSql.Proofs.Binding.Tokens
import AbstractSql.Proofs.Command.Compiled
import AbstractSql.Proofs.Statement.Texts
import AbstractSql.Proofs.Translation.Selection
import Mathlib

/-!
# Read statements bind

Every read statement of a query without statement texts can be scanned to its end, and each of its
placeholders has a value. All ways to read a query translate one with the same sources; what these bind is
all that the statement can name.
-/

namespace AbstractSql

open Segment

/-- Without statement texts all that is bound can be looked up. -/
theorem value?_collect_ledger {names : NameSupply} {sources : List Source}
    (hf : ∀ source ∈ sources, source.isText = false) :
    ∀ e ∈ (ledger names sources).1,
      (ParameterSet.collect (Entry.parameters (ledger names sources).1)).value? e.parameter.name =
        some e.parameter.value := by
  intro e he
  rw [ParameterSet.value?, ParameterSet.get?_collect, latest_ledger hf e he, Option.map_some]

namespace Query

variable {catalog : Catalog} {q : Query} {names names' : NameSupply} {t : Translation}

/-- A translated query has the shape of the query. -/
theorem translate_shape (h : q.translate catalog names = (.ok t, names')) : t.shape = q.shape := by
  obtain ⟨u, w, hu, rfl, -⟩ := translate_eq_ok.mp h
  have hshape : u.mergeJoinExtras.shape = q.shape := by
    rw [Translation.mergeJoinExtras, Translating.foldl_andCondition_shape]
    exact (q.translateUnder_effect hu).2
  exact hshape

/-- There are set operations in the translation of a query exactly when it has some itself. -/
theorem translate_hasCombine (h : q.translate catalog names = (.ok t, names')) :
    t.hasCombine = q.hasArms :=
  congrArg Shape.hasCombine (translate_shape h)

/-- A query that is no statement text is translated to clauses. -/
theorem translate_text (h : q.translate catalog names = (.ok t, names')) (hq : q.isText = false) :
    t.text = none := by
  have htext : t.isText = q.isText := congrArg Shape.isText (translate_shape h)
  rw [hq, Translation.isText, Option.isSome_eq_false_iff, Option.isNone_iff_eq_none] at htext
  exact htext

/-- Translated twice with one supply, a query has clauses that name only its sources. -/
theorem translate_namesOnly (h : q.translate catalog names = (.ok t, names'))
    (hr : Readable q.sites) :
    t.NamesOnly {pair | ∃ twin ∈ twins names names q.sites, pair ∈ twin.marks} := by
  obtain ⟨t', right', ht', htwins⟩ := translate_twins hr names h
  obtain rfl : t = t' := Except.ok.inj (Prod.mk.inj (h.symm.trans ht')).1
  refine htwins.namesOnly fun twin ht names hn => ?_
  obtain ⟨own, ho, rfl⟩ := List.mem_map.mp ht
  exact ⟨own, ho, hn⟩

end Query

namespace Statement

variable {catalog : Catalog} {q : Query} {names names' : NameSupply} {st : Statement}

/-- The statement of clauses is their text with what they bind, and issues no names. -/
theorem ofTranslation_eq_ok {t : Translation} {text : Except Failure String} (ht : t.text = none)
    (h : outcome (ofTranslation t text) names = (.ok st, names')) :
    text = .ok st.text ∧ st.parameters = t.parameters ∧ names' = names := by
  unfold ofTranslation at h
  rw [ht] at h
  cases text with
  | error failure => exact absurd h (by simp)
  | ok text =>
    obtain ⟨hst, rfl⟩ := Prod.mk.inj h
    obtain rfl := Except.ok.inj hst
    exact ⟨rfl, rfl, rfl⟩

/-- A settled result is the result, and leaves the supply alone. -/
theorem outcome_settled_eq_ok {α : Type} {result : Except Failure α} {a : α} :
    outcome (settled result) names = (.ok a, names') ↔ result = .ok a ∧ names' = names := by
  cases result with
  | error failure => simp [settled]
  | ok b =>
    rw [settled, outcome_pure_eq_ok, Except.ok.injEq]
    exact and_congr_right' eq_comm

/-- Other properties are wanted of the query that an aggregate runs over. -/
theorem reselects_aggregateSource (catalog : Catalog) (field : Field) (q : Query) :
    q.Reselects (aggregateSource catalog field q) := by
  unfold aggregateSource
  split
  · exact .refl q
  · refine ⟨_, _, rfl, List.forall₂_map_right_iff.mpr (List.forall₂_same.mpr fun entry _ => ?_)⟩
    split
    · next hk => exact .inr ⟨hk, _, rfl⟩
    · exact .inl rfl

/-- The statement of a translated query without statement texts names what its clauses name. -/
theorem translated_namesOnly {source : Query} {text : Translation → Except Failure String}
    (hf : TextFree source.sites)
    (ht : ∀ t s marks, text t = .ok s → t.NamesOnly marks → NamesOnly marks s)
    (h : outcome (translated catalog source >>= fun t => ofTranslation t (text t)) names =
      (.ok st, names')) :
    ∃ t final, source.translate catalog names = (.ok t, final) ∧ st.parameters = t.parameters ∧
      ∀ marks, t.NamesOnly marks → NamesOnly marks st.text := by
  obtain ⟨t, final, htranslated, hof⟩ := outcome_bind_eq_ok.mp h
  rw [outcome_translated_eq_ok] at htranslated
  have hnone := source.translate_text htranslated (Query.isText_of_textFree hf)
  obtain ⟨htext, hparameters, -⟩ := ofTranslation_eq_ok hnone hof
  exact ⟨t, final, htranslated, hparameters, fun marks => ht t st.text marks htext⟩

/-- A range of rows of a query names what the clauses of the query name. -/
theorem range_namesOnly {offset size : Nat} (hc : catalog.Unformatted) (hf : TextFree q.sites)
    (h : outcome (range catalog q offset size) names = (.ok st, names')) :
    ∃ t final, q.translate catalog names = (.ok t, final) ∧ st.parameters = t.parameters ∧
      ∀ marks, t.NamesOnly marks → NamesOnly marks st.text := by
  refine translated_namesOnly hf (fun t s marks hs hm => ?_) h
  obtain ⟨probe, -, rfl⟩ := map_eq_ok.mp hs
  exact rangeText_namesOnly hc hm q offset size probe

/-- Whichever way a query is read, the statement has the parameters of one translated query with the same
sources, and names only what the clauses of that one name. -/
theorem read_namesOnly {mode : ReadMode} (hc : catalog.Unformatted) (hf : TextFree q.sites)
    (h : outcome (read catalog mode q) names = (.ok st, names')) :
    ∃ (source : Query) (t : Translation) (final : NameSupply), source.sites = q.sites ∧
      source.translate catalog names = (.ok t, final) ∧ st.parameters = t.parameters ∧
      ∀ marks, t.NamesOnly marks → NamesOnly marks st.text := by
  unfold read at h
  cases mode with
  | select =>
    refine ⟨q, ?_⟩
    obtain ⟨t, final, ht⟩ := translated_namesOnly hf (fun t s marks hs hm =>
      Except.ok.inj hs ▸ selectText_namesOnly hc hm q) h
    exact ⟨t, final, rfl, ht⟩
  | paging =>
    obtain ⟨t, final, ht⟩ := range_namesOnly hc hf h
    exact ⟨q, t, final, rfl, ht⟩
  | range offset size =>
    obtain ⟨t, final, ht⟩ := range_namesOnly hc hf h
    exact ⟨q, t, final, rfl, ht⟩
  | existence =>
    obtain ⟨fields, middle, hfields, hrest⟩ := outcome_bind_eq_ok.mp h
    obtain ⟨-, rfl⟩ := outcome_settled_eq_ok.mp hfields
    have hsites := q.sites_fields fields
    obtain ⟨t, final, ht⟩ := translated_namesOnly (hsites.symm ▸ hf) (fun t s marks hs hm =>
      Except.ok.inj hs ▸ existsText_namesOnly hm { q with fields }) hrest
    exact ⟨_, t, final, hsites, ht⟩
  | aggregate function =>
    obtain ⟨field, middle, hfield, hrest⟩ := outcome_bind_eq_ok.mp h
    obtain ⟨-, rfl⟩ := outcome_settled_eq_ok.mp hfield
    have hsites := (reselects_aggregateSource catalog field q).sites_eq
    obtain ⟨t, final, ht⟩ := translated_namesOnly (hsites.symm ▸ hf) (fun t s marks hs hm =>
      Except.ok.inj hs ▸ aggregateText_namesOnly hm function field _) hrest
    exact ⟨_, t, final, hsites, ht⟩

/-- Every read statement binds, whatever tables and columns are called. It can be scanned to its end, and
binding it to its own parameters succeeds. -/
theorem read_binds {mode : ReadMode} (hc : catalog.Unformatted) (hf : TextFree q.sites)
    (hr : Readable q.sites) (h : outcome (read catalog mode q) names = (.ok st, names')) :
    (∃ segments, scan st.text = .ok segments) ∧
      ∃ bound, AbstractSql.bind st.text st.parameters = .ok bound := by
  obtain ⟨source, t, final, hsites, ht, hparameters, hnames⟩ := read_namesOnly hc hf h
  -- Translated twice from one supply a query is its own twin, so each mark pairs two bound names.
  obtain ⟨used, hu, halike⟩ := hnames _ (Query.translate_namesOnly ht (hsites.symm ▸ hr))
  have hfree : ∀ s ∈ sourcesOf source.sites, s.isText = false := by
    intro s hs
    obtain ⟨site, hsite, rfl⟩ := List.mem_map.mp hs
    exact hf site (hsites ▸ hsite)
  have hvalues : ∀ pair ∈ used, ∃ v, st.parameters.value? pair.1 = some v ∧
      st.parameters.value? pair.2 = some v := by
    intro pair hpair
    obtain ⟨twin, htwin, hmark⟩ := hu hpair
    obtain ⟨d, hd, e, he, hname, hname', hvalue⟩ :=
      twins_entries (hsites.symm ▸ hf) twin htwin pair hmark
    rw [hparameters, (Query.translate_ledger ht).2]
    refine ⟨d.parameter.value, ?_, ?_⟩
    · rw [← hname]
      exact value?_collect_ledger hfree d hd
    · rw [← hname', hvalue]
      exact value?_collect_ledger hfree e he
  obtain ⟨bound, hbound, -⟩ := halike.bind_eq hvalues
  obtain ⟨gs, hread, -, -⟩ := halike
  obtain ⟨segments, hscan, -⟩ := scan_of_read hread
  exact ⟨⟨segments, hscan⟩, bound, hbound⟩

/-- A table and columns with backticks, quotes, backslashes and question marks in their names. -/
theorem read_binds_quoted :
    let catalog := ({} : Catalog).insert "User"
      { table := some "us\x60er ?x"
        fields :=
          [{ property := "id", mapped := some "i\x27d \x22?y\\", primaryKey := true },
            { property := "na\x60me ?z" }] }
    let q := (Query.ofEntity "User").equal "id" (.int 5)
    catalog.Unformatted ∧ TextFree q.sites ∧ Readable q.sites ∧ ∃ st final,
      outcome (read catalog .select q) {} = (.ok st, final) ∧
        st.text = "SELECT TB.\x60i\x27d \x22?y\\\x60 AS \x60id\x60,TB.\x60na\x60\x60me ?z\x60 "
          ++ "FROM \x60us\x60\x60er ?x\x60 AS TB WHERE TB.\x60i\x27d \x22?y\\\x60 = ?id1" ∧
        (∃ segments, scan st.text = .ok segments) ∧
          ∃ bound, AbstractSql.bind st.text st.parameters = .ok bound := by
  intro catalog q
  have hc : catalog.Unformatted := by
    intro entry he field hf
    obtain rfl := List.mem_singleton.mp he
    rcases List.mem_cons.mp hf with rfl | hf
    · rfl
    · rw [List.mem_singleton.mp hf]
  have hsites : q.sites = [⟨.value "id" { name := "", value := .int 5 }, .condition⟩] := by
    simp [q, Query.sites, clauseSites, Condition.sites, armSites, joinSites, matchSites,
      Query.ofEntity, Query.equal, Query.filter, Query.compare, Query.addClause,
      Comparison.needsParameter, Comparison.shapeValue]
  have hf : TextFree q.sites := by simp [hsites, TextFree, Source.isText]
  have hr : Readable q.sites := by
    rw [hsites]
    intro site hs
    obtain rfl := List.mem_singleton.mp hs
    have hname : "id".toList.all isNameCharacter = true := by decide
    exact List.all_eq_true.mp hname
  obtain ⟨st, final, h, htext⟩ : ∃ st final, outcome (read catalog .select q) {} = (.ok st, final) ∧
      st.text = "SELECT TB.\x60i\x27d \x22?y\\\x60 AS \x60id\x60,TB.\x60na\x60\x60me ?z\x60 "
        ++ "FROM \x60us\x60\x60er ?x\x60 AS TB WHERE TB.\x60i\x27d \x22?y\\\x60 = ?id1" :=
    ⟨_, _, rfl, by cbv⟩
  exact ⟨hc, hf, hr, st, final, h, htext, read_binds hc hf hr h⟩

end Statement

end AbstractSql
