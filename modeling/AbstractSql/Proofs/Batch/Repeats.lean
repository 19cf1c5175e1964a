import AbstractSql.Form.Command
import AbstractSql.Proofs.Batch.Partition
import AbstractSql.Proofs.Command.Sites
import AbstractSql.Proofs.ParameterSet.Repeats
import AbstractSql.Proofs.Statement.Binding

/-!
# Repeated names in statements and units

What a query binds is collected by insertions, so every read statement and every unit of an
insertion, an update or a deletion has parameters with distinct names. A statement text or a
procedure call takes its payload as it is. A payload that was read from a document which lists a
name twice is the one way in which a repeated name reaches a unit.
-/

namespace AbstractSql

open ParameterSet (Distinct)

variable {catalog : Catalog}

/-- However a translated query becomes a statement, the statement has its parameters. -/
theorem Statement.parameters_ofTranslation {t : Translation} {text : Except Failure String}
    {st : Statement} {names names' : NameSupply}
    (h : outcome (ofTranslation t text) names = (.ok st, names')) :
    st.parameters = t.parameters := by
  unfold ofTranslation at h
  split at h
  · obtain rfl := (outcome_pure_eq_ok.mp h).1
    rfl
  · split at h
    · obtain rfl := (outcome_pure_eq_ok.mp h).1
      rfl
    · cases h

/-- A statement made from a translated query has parameters with distinct names. -/
theorem Statement.translated_distinct {q : Query} {text : Translation → Except Failure String}
    {st : Statement} {names names' : NameSupply}
    (h : outcome (translated catalog q >>= fun t => ofTranslation t (text t)) names =
      (.ok st, names')) : st.parameters.Distinct := by
  obtain ⟨t, final, ht, hst⟩ := outcome_bind_eq_ok.mp h
  have hcollected := (Query.translate_ledger (outcome_translated_eq_ok.mp ht)).2
  rw [parameters_ofTranslation hst, hcollected]
  exact ParameterSet.distinct_collect _

/-- Whichever way a query is read, the parameters of the statement have distinct names. -/
theorem Statement.read_distinct {mode : ReadMode} {q : Query} {st : Statement}
    {names names' : NameSupply} (h : outcome (read catalog mode q) names = (.ok st, names')) :
    st.parameters.Distinct := by
  cases mode with
  | select => exact translated_distinct h
  | paging => exact translated_distinct h
  | range offset size => exact translated_distinct h
  | existence =>
    obtain ⟨fields, x, -, hrest⟩ := outcome_bind_eq_ok.mp h
    exact translated_distinct hrest
  | aggregate function =>
    obtain ⟨field, x, -, hrest⟩ := outcome_bind_eq_ok.mp h
    exact translated_distinct hrest

namespace Command

/-- The command is no statement text or procedure call with a repeated name in its payload. -/
def ListsOnce (c : Command) : Prop :=
  ∀ text isProcedure, c.kind = .text text isProcedure → c.values.Distinct

variable {c : Command} {names names' : NameSupply} {u : ExecutionUnit}

/-- A command that writes data repeats no name in its unit. -/
theorem IsData.distinct (hc : c.IsData) (h : outcome (c.toUnit catalog) names = (.ok u, names')) :
    u.parameters.Distinct := (toUnit_collected hc h).distinct

/-- A compiled unit repeats a name exactly when it is a text with a payload that does. -/
theorem toUnit_distinct_iff (h : outcome (c.toUnit catalog) names = (.ok u, names')) :
    u.parameters.Distinct ↔ c.ListsOnce := by
  rcases c.isData_or_text with hc | ⟨text, isProcedure, hk⟩
  · refine iff_of_true (hc.distinct h) fun text isProcedure hk => ?_
    rcases hc with hd | hd | hd <;> rw [hk] at hd <;> cases hd
  · rw [toUnit_text hk] at h
    obtain rfl := Except.ok.inj (Prod.mk.inj h).1
    exact ⟨fun hd _ _ _ => hd, fun hl => hl text isProcedure hk⟩

/-- A unit that may be merged repeats no name: a text always stays alone. -/
theorem toUnit_distinct_of_merged (h : outcome (c.toUnit catalog) names = (.ok u, names'))
    (ha : u.performAlone = false) : u.parameters.Distinct := by
  rcases c.isData_or_text with hc | ⟨text, isProcedure, hk⟩
  · exact hc.distinct h
  · rw [toUnit_text hk] at h
    obtain rfl := Except.ok.inj (Prod.mk.inj h).1
    cases ha

/-- Compiled units repeat no name exactly when no command brings a repetition along. -/
theorem Compiles.distinct_iff {final : NameSupply} {commands : List Command}
    {us : List ExecutionUnit} (h : Compiles catalog names commands us final) :
    (∀ u ∈ us, u.parameters.Distinct) ↔ ∀ c ∈ commands, c.ListsOnce := by
  induction h with
  | nil => simp
  | cons first _ ih => rw [List.forall_mem_cons, List.forall_mem_cons, toUnit_distinct_iff first, ih]

end Command

namespace ExecutionUnit

/-- Merged units repeat a name exactly when the first one does. -/
theorem distinct_mergeAll (u : ExecutionUnit) (rest : List ExecutionUnit) :
    (u.mergeAll rest).parameters.Distinct ↔ u.parameters.Distinct := by
  induction rest generalizing u with
  | nil => rfl
  | cons v rest ih =>
    have hrest := ih (u.merge v)
    exact hrest.trans (ParameterSet.distinct_union u.parameters v.parameters)

/-- A planned unit repeats no name exactly when no unit of its run does, as long as those that may
be merged do not. -/
theorem Merges.distinct_iff {run : List ExecutionUnit} {unit : ExecutionUnit} (h : Merges run unit)
    (hd : ∀ u ∈ run, u.performAlone = false → u.parameters.Distinct) :
    unit.parameters.Distinct ↔ ∀ u ∈ run, u.parameters.Distinct := by
  cases h with
  | alone => simp
  | merged admitted =>
    have hall := fun v hv => hd v hv (admitted v hv)
    exact iff_of_true ((distinct_mergeAll _ _).mpr (hall _ List.mem_cons_self)) hall

/-- Planned units repeat no name exactly when no unit of their runs does. -/
theorem Merges.forall_distinct_iff {runs : List (List ExecutionUnit)} {units : List ExecutionUnit}
    (h : List.Forall₂ Merges runs units)
    (hd : ∀ u ∈ runs.flatten, u.performAlone = false → u.parameters.Distinct) :
    (∀ unit ∈ units, unit.parameters.Distinct) ↔ ∀ u ∈ runs.flatten, u.parameters.Distinct := by
  induction h with
  | nil => simp
  | cons first _ ih =>
    rw [List.flatten_cons, List.forall_mem_append] at hd
    rw [List.forall_mem_cons, List.flatten_cons, List.forall_mem_append, first.distinct_iff hd.1,
      ih hd.2]

end ExecutionUnit

namespace Command

/-- A plan repeats no name in a unit exactly when no command of the list brings a repetition
along. -/
theorem planAll_distinct_iff {policy : BatchPolicy} {commands : List Command}
    {units : List ExecutionUnit} (h : planAll catalog policy commands = .ok units) :
    (∀ unit ∈ units, unit.parameters.Distinct) ↔ ∀ c ∈ commands, c.ListsOnce := by
  obtain ⟨us, final, hc, runs, hruns, hmerges⟩ := planAll_runs h
  have hmerged : ∀ u ∈ us, u.performAlone = false → u.parameters.Distinct :=
    hc.forall_mem toUnit_distinct_of_merged
  rw [← hruns] at hmerged
  rw [ExecutionUnit.Merges.forall_distinct_iff hmerges hmerged, hruns, hc.distinct_iff]

/-- Names are distinct in every parameter set but those that go back to a document which lists a
name twice. No change makes a repetition or takes one away. A set with distinct names finds under
each of them the one entry it has, and just so does any set it is copied into; it is its own copy
exactly when its names are distinct. The parameters of a read statement have distinct names. Those
of a unit have them exactly when its command is no text or procedure call with a repeating payload,
and those of all units of a plan exactly when no command is. -/
theorem names_distinct_iff (catalog : Catalog) :
    (∀ origin set changes, ParameterSet.Origin.set? origin = some set →
      ((set.changeAll changes).Distinct ↔ origin.ListsOnce)) ∧
      (∀ set : ParameterSet, ({} : ParameterSet).union set = set ↔ set.Distinct) ∧
      (∀ set : ParameterSet, set.Distinct →
        (∀ p ∈ set.items, set.get? p.name = some p) ∧
          ∀ (other : ParameterSet) name,
            (other.union set).get? name = (set.get? name).or (other.get? name)) ∧
      (∀ mode q names st names', outcome (Statement.read catalog mode q) names = (.ok st, names') →
        st.parameters.Distinct) ∧
      (∀ c names u names', outcome (toUnit c catalog) names = (.ok u, names') →
        (u.parameters.Distinct ↔ c.ListsOnce)) ∧
      ∀ policy commands units, planAll catalog policy commands = .ok units →
        ((∀ unit ∈ units, unit.parameters.Distinct) ↔ ∀ c ∈ commands, c.ListsOnce) := by
  refine ⟨fun origin set changes h => ParameterSet.Origin.distinct_iff h changes,
    fun set => ParameterSet.union_empty_iff, fun set hd => ⟨fun p hp => ?_, fun other name => ?_⟩,
    fun mode q names st names' => Statement.read_distinct,
    fun c names u names' => toUnit_distinct_iff, fun policy commands units => planAll_distinct_iff⟩
  · exact hd.get?_of_mem hp
  · exact hd.get?_union other name

/-- A document of two parameters, a text that is run with them, and an update of the same values. -/
theorem names_distinct_iff_update :
    let json : Json := .array
      [.object [("name", .string "a"), ("value", .int 1)],
        .object [("name", .string "b"), ("value", .int 2)]]
    ∃ set u units, ParameterSet.ofJson? json = some set ∧
      (set.changeAll [.add "a" (.int 3), .union set, .modify "b" .null]).Distinct ∧
      outcome (toUnit (ofText "SELECT ?a, ?b" set) {}) {} = (.ok u, {}) ∧ u.parameters.Distinct ∧
      planAll {} Thresholds.unbounded.toPolicy
        [ofText "SELECT ?a, ?b" set, (ofUpdate "User").set "a" (.int 1)] = .ok units ∧
      ∀ unit ∈ units, unit.parameters.Distinct := by
  intro json
  obtain ⟨hsets, -, -, -, hunits, hplans⟩ := names_distinct_iff {}
  obtain ⟨set, hset⟩ : ∃ set, ParameterSet.ofJson? json = some set := ⟨_, rfl⟩
  have honce : (ParameterSet.Origin.document json).ListsOnce := by
    change (ParameterSet.listedNames json).Nodup
    decide
  have hchanged := (hsets (.document json) set
    [.add "a" (.int 3), .union set, .modify "b" .null] hset).mpr honce
  have hd : set.Distinct := (hsets (.document json) set [] hset).mpr honce
  have htext : (ofText "SELECT ?a, ?b" set).ListsOnce := fun _ _ _ => hd
  have hupdate : ((ofUpdate "User").set "a" (.int 1)).ListsOnce := fun _ _ hk => by cases hk
  obtain ⟨u, hu⟩ : ∃ u, outcome (toUnit (ofText "SELECT ?a, ?b" set) {}) {} = (.ok u, {}) :=
    ⟨_, rfl⟩
  obtain ⟨units, hplan⟩ : ∃ units, planAll {} Thresholds.unbounded.toPolicy
      [ofText "SELECT ?a, ?b" set, (ofUpdate "User").set "a" (.int 1)] = .ok units := ⟨_, rfl⟩
  refine ⟨set, u, units, hset, hchanged, hu, (hunits _ _ _ _ hu).mpr htext, hplan,
    (hplans _ _ _ hplan).mpr ?_⟩
  simp [htext, hupdate]

/-- A payload read from a document that lists `a` twice keeps both entries, and so does the unit of
the text that is run with it. Looking up finds the first one, a copy of the set the second. -/
theorem toUnit_repeats_name :
    let json : Json := .array
      [.object [("name", .string "a"), ("value", .int 1)],
        .object [("name", .string "a"), ("value", .int 2)]]
    ∃ set u, ParameterSet.ofJson? json = some set ∧ ¬set.Distinct ∧
      set.value? "a" = some (.int 1) ∧
      (({} : ParameterSet).union set).value? "a" = some (.int 2) ∧
      outcome (toUnit (ofText "SELECT ?a" set) {}) {} = (.ok u, {}) ∧
      u.parameters.names = ["a", "a"] ∧ ¬u.parameters.Distinct := by
  refine ⟨_, _, rfl, ?_, rfl, rfl, rfl, rfl, ?_⟩ <;>
    · rw [ParameterSet.distinct_iff_nodup]
      decide

end Command

end AbstractSql
