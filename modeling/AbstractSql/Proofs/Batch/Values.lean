import AbstractSql.Proofs.Batch.Runs
import AbstractSql.Proofs.Command.Alike

/-!
# The values of a planned unit

The commands of a run are compiled one after another with one supply, and their units are merged in
the same order. So the parameters of a planned unit are those that the sources of its commands bind
in one ledger.
-/

namespace AbstractSql

open ExecutionUnit (Merges)
open ParameterSet (latest)

variable {catalog : Catalog} {names middle final : NameSupply} {commands : List Command}

namespace Command

/-- The sources of commands in order. -/
def sourcesAll (catalog : Catalog) (commands : List Command) : List Source :=
  commands.flatMap (·.sources catalog)

/-- The sources of a command come before those of the commands after it. -/
theorem sourcesAll_cons (c : Command) (rest : List Command) :
    sourcesAll catalog (c :: rest) = c.sources catalog ++ sourcesAll catalog rest :=
  List.flatMap_cons

/-- Commands whose units come in two parts come in two parts themselves. -/
theorem Compiles.split {first second : List ExecutionUnit}
    (h : Compiles catalog names commands (first ++ second) final) :
    ∃ before after middle, commands = before ++ after ∧
      Compiles catalog names before first middle ∧ Compiles catalog middle after second final := by
  induction first generalizing names commands with
  | nil => exact ⟨[], commands, names, rfl, .nil names, h⟩
  | cons u first ih =>
    cases h with
    | cons head others =>
      obtain ⟨before, after, middle, rfl, hb, ha⟩ := ih others
      exact ⟨_ :: before, after, middle, rfl, .cons head hb, ha⟩

/-- A union binds the sources of both sets. -/
theorem Collected.union {first second : List Source} {parameters others : ParameterSet}
    (h : Collected first names middle parameters) (k : Collected second middle final others) :
    Collected (first ++ second) names final (parameters.union others) where
  supply := by
    rw [k.supply, NameSupply.after_append, (ledger_congr h.supply second).2]
  distinct := h.distinct.union others
  get? := by
    intro name
    rw [ParameterSet.get?_union, k.distinct.latest_eq_get?, h.get?, k.get?,
      (ledger_congr h.supply second).1, ledger_parameters_append, ParameterSet.latest_append]

/-- Units merged into a unit bind the sources of their commands after those that it has bound. -/
theorem mergeAll_collected {us : List ExecutionUnit} {u : ExecutionUnit} {before : List Source}
    (hd : ∀ c ∈ commands, c.IsData) (hu : Collected before names middle u.parameters)
    (h : Compiles catalog middle commands us final) :
    Collected (before ++ sourcesAll catalog commands) names final (u.mergeAll us).parameters := by
  induction h generalizing u before with
  | nil middle => simpa [sourcesAll] using hu
  | @cons middle next final c v rest us first others ih =>
    have hv := toUnit_collected (hd c List.mem_cons_self) first
    have hm := hu.union hv
    have hr := @ih (u.merge v) _ (fun d hd' => hd d (List.mem_cons_of_mem c hd')) hm
    rw [sourcesAll_cons, ← List.append_assoc]
    exact hr

/-- A planned unit binds the sources of the commands of its run. -/
theorem Compiles.merged_collected {run : List ExecutionUnit} {unit : ExecutionUnit}
    (h : Compiles catalog names commands run final) (hd : ∀ c ∈ commands, c.IsData)
    (hm : Merges run unit) : Collected (sourcesAll catalog commands) names final unit.parameters := by
  have hall : ∀ {u : ExecutionUnit} {rest : List ExecutionUnit},
      Compiles catalog names commands (u :: rest) final →
      Collected (sourcesAll catalog commands) names final (u.mergeAll rest).parameters := by
    intro u rest h
    cases h with
    | cons head others =>
      have hu := toUnit_collected (hd _ List.mem_cons_self) head
      exact mergeAll_collected (fun c hc => hd c (List.mem_cons_of_mem _ hc)) hu others
  cases hm with
  | alone stays => exact hall h
  | merged admitted => exact hall h

end Command

end AbstractSql
