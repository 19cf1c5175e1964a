import AbstractSql.Proofs.NameSupply.Freshness
import AbstractSql.Proofs.ParameterSet.Latest
import AbstractSql.Proofs.Query.Sites

/-!
# The ledger of a supply

The sources of a query are bound one after another. The ledger lists what they bind, under the names
that the supply gives them, together with the supply they leave.
-/

namespace AbstractSql

/-- A bound parameter. -/
structure Entry where
  /-- The parameter under its final name. -/
  parameter : Parameter
  /-- Whether a statement text brought it along. -/
  isText : Bool

/-- What a source binds, and the supply it leaves. A statement text keeps its names. -/
def Source.bind (names : NameSupply) : Source → List Entry × NameSupply
  | value base content =>
    let issued := names.nextParameter base
    ([⟨{ content with name := issued.1 }, false⟩], issued.2)
  | text raw =>
    (raw.parameters.items.map fun p => ⟨p, true⟩, names.reserveAll raw.parameters.names)

/-- What a list of sources binds, and the supply it leaves. -/
def ledger (names : NameSupply) : List Source → List Entry × NameSupply
  | [] => ([], names)
  | source :: rest =>
    let first := source.bind names
    let others := ledger first.2 rest
    (first.1 ++ others.1, others.2)

/-- The supply that a list of sources leaves. -/
abbrev NameSupply.after (names : NameSupply) (sources : List Source) : NameSupply :=
  (ledger names sources).2

/-- The parameters of entries. -/
abbrev Entry.parameters (entries : List Entry) : List Parameter := entries.map (·.parameter)

/-- Two lists of sources are bound one after the other. -/
theorem ledger_append (names : NameSupply) (first second : List Source) :
    ledger names (first ++ second) =
      ((ledger names first).1 ++ (ledger (names.after first) second).1,
        (names.after first).after second) := by
  induction first generalizing names with
  | nil => rfl
  | cons source rest ih =>
    simp only [List.cons_append, ledger, NameSupply.after] at ih ⊢
    simp only [ih, List.append_assoc]

/-- The supply that two lists of sources leave. -/
theorem NameSupply.after_append (names : NameSupply) (first second : List Source) :
    names.after (first ++ second) = (names.after first).after second := by
  rw [NameSupply.after, ledger_append]

/-- The parameters that two lists of sources bind. -/
theorem ledger_parameters_append (names : NameSupply) (first second : List Source) :
    Entry.parameters (ledger names (first ++ second)).1 =
      Entry.parameters (ledger names first).1
        ++ Entry.parameters (ledger (names.after first) second).1 := by
  rw [ledger_append, Entry.parameters, List.map_append]

/-- What is bound does not depend on the aliases. -/
theorem Source.bind_resetAliases (names : NameSupply) (source : Source) :
    source.bind names.resetAliases = ((source.bind names).1, (source.bind names).2.resetAliases) := by
  cases source with
  | value base content => rfl
  | text raw => simp only [Source.bind, NameSupply.resetAliases_reserveAll]

/-- What a source binds comes from a statement text exactly when the source is one. -/
theorem Source.isText_bind {names : NameSupply} {source : Source} :
    ∀ e ∈ (source.bind names).1, e.isText = source.isText := by
  cases source with
  | value base content => simp [Source.bind, Source.isText]
  | text raw => simp [Source.bind, Source.isText]

/-- What is bound does not depend on the aliases. -/
theorem ledger_resetAliases (names : NameSupply) (sources : List Source) :
    ledger names.resetAliases sources =
      ((ledger names sources).1, (names.after sources).resetAliases) := by
  induction sources generalizing names with
  | nil => rfl
  | cons source rest ih =>
    simp only [ledger, Source.bind_resetAliases, ih, NameSupply.after]

/-- Supplies that differ in their aliases only bind the same. -/
theorem ledger_congr {names names' : NameSupply} (h : names.resetAliases = names'.resetAliases)
    (sources : List Source) :
    (ledger names sources).1 = (ledger names' sources).1 ∧
      (names.after sources).resetAliases = (names'.after sources).resetAliases := by
  have hl := ledger_resetAliases names sources
  rw [h, ledger_resetAliases names' sources] at hl
  obtain ⟨he, ha⟩ := Prod.mk.inj hl
  exact ⟨he.symm, ha.symm⟩

/-- Exactly the names that a source binds are issued with it. -/
theorem Source.mem_issued_bind {names : NameSupply} {source : Source} {name : String} :
    name ∈ (source.bind names).2.issued ↔
      name ∈ names.issued ∨ ∃ e ∈ (source.bind names).1, e.parameter.name = name := by
  cases source with
  | value base content =>
    simp only [Source.bind, NameSupply.nextParameter_issued, List.mem_cons, List.not_mem_nil,
      or_false, exists_eq_left]
    rw [or_comm, eq_comm]
  | text raw =>
    simp only [Source.bind, NameSupply.mem_reserveAll, ParameterSet.names, List.mem_map]
    constructor
    · rintro (⟨p, hp, rfl⟩ | h)
      · exact .inr ⟨_, ⟨p, hp, rfl⟩, rfl⟩
      · exact .inl h
    · rintro (h | ⟨_, ⟨p, hp, rfl⟩, rfl⟩)
      · exact .inr h
      · exact .inl ⟨p, hp, rfl⟩

/-- Exactly the names that sources bind are issued with them. -/
theorem mem_issued_after {names : NameSupply} {sources : List Source} {name : String} :
    name ∈ (names.after sources).issued ↔
      name ∈ names.issued ∨ ∃ e ∈ (ledger names sources).1, e.parameter.name = name := by
  induction sources generalizing names with
  | nil => simp [NameSupply.after, ledger]
  | cons source rest ih =>
    simp only [NameSupply.after, ledger, List.mem_append] at ih ⊢
    simp only [ih, Source.mem_issued_bind, or_assoc, or_and_right, exists_or]

/-- Without statement texts nothing is bound by one. -/
theorem isText_ledger {names : NameSupply} {sources : List Source}
    (hf : ∀ source ∈ sources, source.isText = false) :
    ∀ e ∈ (ledger names sources).1, e.isText = false := by
  induction sources generalizing names with
  | nil => simp [ledger]
  | cons source rest ih =>
    intro e he
    rcases List.mem_append.mp he with he | he
    · rw [Source.isText_bind e he]
      exact hf source List.mem_cons_self
    · exact ih (fun s hs => hf s (List.mem_cons_of_mem source hs)) e he

/-- A generated name has not been issued before. -/
theorem ledger_fresh {names : NameSupply} {sources : List Source} :
    ∀ e ∈ (ledger names sources).1, e.isText = false → e.parameter.name ∉ names.issued := by
  induction sources generalizing names with
  | nil => simp [ledger]
  | cons source rest ih =>
    intro e he hg
    rcases List.mem_append.mp he with he | he
    · cases source with
      | value base content =>
        obtain rfl := List.mem_singleton.mp he
        exact names.nextParameter_fresh base
      | text raw =>
        obtain ⟨p, -, rfl⟩ := List.mem_map.mp he
        exact absurd hg (by simp)
    · exact fun hi => ih e he hg (Source.mem_issued_bind.mpr (.inl hi))

/-- A generated name differs from all names bound before it. -/
theorem ledger_pairwise (names : NameSupply) (sources : List Source) :
    (ledger names sources).1.Pairwise fun d e =>
      e.isText = false → d.parameter.name ≠ e.parameter.name := by
  induction sources generalizing names with
  | nil => exact .nil
  | cons source rest ih =>
    refine List.pairwise_append.mpr ⟨?_, ih _, ?_⟩
    · cases source with
      | value base content => exact List.pairwise_singleton _ _
      | text raw =>
        refine List.pairwise_of_forall_mem_list fun d _ e he hg => ?_
        obtain ⟨p, -, rfl⟩ := List.mem_map.mp he
        exact absurd hg (by simp)
    · intro d hd e he hg hn
      exact ledger_fresh e he hg (Source.mem_issued_bind.mpr (.inr ⟨d, hd, hn⟩))

/-- A value bound by one of the sources keeps its entry, as long as none of them is a statement
text. -/
theorem latest_ledger {names : NameSupply} {sources : List Source}
    (hf : ∀ source ∈ sources, source.isText = false) :
    ∀ e ∈ (ledger names sources).1,
      ParameterSet.latest (Entry.parameters (ledger names sources).1) e.parameter.name =
        some e.parameter := by
  induction sources generalizing names with
  | nil => simp [ledger]
  | cons source rest ih =>
    have hr := @ih (source.bind names).2 fun s hs => hf s (List.mem_cons_of_mem source hs)
    have hsplit : Entry.parameters (ledger names (source :: rest)).1 =
        Entry.parameters (source.bind names).1
          ++ Entry.parameters (ledger (source.bind names).2 rest).1 := List.map_append
    intro e he
    rw [hsplit, ParameterSet.latest_append]
    rcases List.mem_append.mp he with he | he
    · have hlater : ParameterSet.latest (Entry.parameters (ledger (source.bind names).2 rest).1)
          e.parameter.name = none := by
        refine ParameterSet.latest_eq_none.mpr fun p hp hn => ?_
        obtain ⟨d, hd, rfl⟩ := List.mem_map.mp hp
        have hg : d.isText = false := isText_ledger (fun s hs => hf s (List.mem_cons_of_mem _ hs)) d hd
        exact ledger_fresh d hd hg (Source.mem_issued_bind.mpr (.inr ⟨e, he, hn.symm⟩))
      cases source with
      | value base content =>
        obtain rfl := List.mem_singleton.mp he
        rw [hlater, Option.none_or]
        simp [Entry.parameters, Source.bind, ParameterSet.latest]
      | text raw => exact absurd (hf _ List.mem_cons_self) (by simp [Source.isText])
    · rw [hr e he, Option.some_or]

end AbstractSql
