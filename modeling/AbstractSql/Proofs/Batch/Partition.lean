import AbstractSql.Proofs.Batch.Runs
import Mathlib

/-!
# The partition of a batch

What planning promises about the statements of a list of commands. The units of the commands, all
compiled with one supply of names, are cut into consecutive runs, and every run becomes one unit.
-/

namespace AbstractSql

open ExecutionUnit (Merges)

/-- The keywords in front of definitions of closure tables. -/
def recursivePrefix : List Char := "WITH RECURSIVE".toList

/-- A statement that begins with another letter has no definitions in front. -/
theorem not_recursivePrefix {text : String} {c : Char} (ht : text.toList.head? = some c)
    (hc : c ≠ 'W') : ¬ recursivePrefix <+: text.toList := by
  rintro ⟨tail, hp⟩
  have hw : recursivePrefix.head? = some 'W' := by decide
  rw [← hp, List.head?_append, hw] at ht
  exact hc (Option.some.inj ht).symm

namespace Command

variable {catalog : Catalog} {c : Command} {names names' : NameSupply} {u : ExecutionUnit}

/-- Text put together behind no definitions begins like the part that follows them. -/
private theorem joined_not_recursivePrefix {t : Translation} (hd : t.hasDefinitions = false)
    {part : String} {c : Char} (hp : part.toList.head? = some c)
    (hb : Text.isBlank c = false) (hw : c ≠ 'W') (parts : List String) (tail : String) :
    ¬ recursivePrefix <+: (Text.joinParts (t.definitionClause :: part :: parts) ++ tail).toList := by
  have he : t.definitionClause = "" := by
    simp only [Translation.hasDefinitions, Bool.not_eq_false', List.isEmpty_iff] at hd
    simp only [Translation.definitionClause, hd]
  refine not_recursivePrefix ?_ hw
  rw [he, Text.joinParts_empty_cons, String.toList_append, List.head?_append,
    Text.head?_joinParts_cons hb hp, Option.some_or]

/-- A text that begins with a literal begins like it. -/
private theorem head?_append_of_literal {literal : String} {c : Char}
    (hl : literal.toList.head? = some c) (rest : String) :
    (literal ++ rest).toList.head? = some c := by
  rw [String.toList_append, List.head?_append, hl, Option.some_or]

/-- A command compiles to one statement. Unless the unit has to stay alone, no definitions stand in
front of the statement, and the unit says so. -/
theorem toUnit_statement (h : outcome (c.toUnit catalog) names = (.ok u, names')) :
    (∃ text, u.statements = [text]) ∧ u.mustAffectRows = c.mustAffectRows ∧
      (u.performAlone = false →
        u.hasPreScript = false ∧ ∀ s ∈ u.statements, ¬ recursivePrefix <+: s.toList) := by
  cases hk : c.kind with
  | text text isProcedure =>
    rw [toUnit_text hk] at h
    obtain rfl : c.textUnit text isProcedure = u := by simpa using (Prod.mk.inj h).1
    exact ⟨⟨_, rfl⟩, rfl, fun ha => by simp [textUnit] at ha⟩
  | insert =>
    obtain ⟨-, -, rfl⟩ := (toUnit_insert hk rfl).mp h
    refine ⟨⟨_, rfl⟩, rfl, fun _ => ⟨rfl, ?_⟩⟩
    intro s hs
    obtain rfl := List.mem_singleton.mp hs
    unfold insertText
    simp only [String.append_assoc]
    exact not_recursivePrefix (head?_append_of_literal (c := 'I') (by decide) _) (by decide)
  | update =>
    obtain ⟨-, t, -, rfl⟩ := (toUnit_update hk).mp h
    refine ⟨⟨_, rfl⟩, rfl, fun hd => ⟨hd, ?_⟩⟩
    intro s hs
    obtain rfl := List.mem_singleton.mp hs
    simp only [updateText, String.append_assoc]
    exact joined_not_recursivePrefix hd (head?_append_of_literal (c := 'U') (by decide) _)
      (by decide) (by decide) _ _
  | delete =>
    obtain ⟨t, -, rfl⟩ := (toUnit_delete hk).mp h
    refine ⟨⟨_, rfl⟩, rfl, fun hd => ⟨hd, ?_⟩⟩
    intro s hs
    obtain rfl := List.mem_singleton.mp hs
    simp only [deleteText, String.append_assoc]
    exact joined_not_recursivePrefix hd (head?_append_of_literal (c := 'D') (by decide) _)
      (by decide) (by decide) _ _

/-- The one statement of each command, in the order of the commands. -/
theorem Compiles.statements {final : NameSupply} {commands : List Command}
    {us : List ExecutionUnit} (h : Compiles catalog names commands us final) :
    ∀ v ∈ us, v.statements.length = 1 := by
  refine h.forall_mem fun ho => ?_
  obtain ⟨⟨text, ht⟩, -⟩ := toUnit_statement ho
  rw [ht, List.length_singleton]

end Command

/-- What becomes of compiled units when they are planned. -/
structure Partition (compiled units : List ExecutionUnit) : Prop where
  /-- No statement is lost, repeated or moved. -/
  statements : units.flatMap (·.statements) = compiled.flatMap (·.statements)
  /-- The compiled units are cut into consecutive runs. A unit that has to stay alone is a run by
  itself and is planned as it is; the units of any other run are merged from left to right, and
  their merge must touch a row exactly when one of them must. -/
  runs : ∃ runs : List (List ExecutionUnit), runs.flatten = compiled ∧
    List.Forall₂ (fun run unit => Merges run unit ∧
      unit.mustAffectRows = run.any (·.mustAffectRows)) runs units
  /-- A unit of several statements need not stay alone, and no definitions stand in front of any of
  them. -/
  several : ∀ unit ∈ units, 2 ≤ unit.statements.length →
    unit.performAlone = false ∧ unit.hasPreScript = false ∧
      ∀ s ∈ unit.statements, ¬ recursivePrefix <+: s.toList

/-- The statements of all planned units are those of all runs. -/
theorem Merges.flatMap_statements {runs : List (List ExecutionUnit)} {units : List ExecutionUnit}
    (h : List.Forall₂ Merges runs units) :
    units.flatMap (·.statements) = runs.flatten.flatMap (·.statements) := by
  induction h with
  | nil => rfl
  | cons hm _ ih => simp only [List.flatMap_cons, List.flatten_cons, List.flatMap_append,
      hm.statements_eq, ih]

/-- Compiled commands are partitioned by every way to group them. -/
theorem Grouping.partition {catalog : Catalog} {names final : NameSupply}
    {commands : List Command} {compiled units : List ExecutionUnit}
    (hc : Command.Compiles catalog names commands compiled final)
    (hg : Grouping none compiled units) : Partition compiled units := by
  obtain ⟨runs, hr, hm⟩ := hg.runs .none
  rw [List.nil_append] at hr
  have hs : units.flatMap (·.statements) = compiled.flatMap (·.statements) :=
    (Merges.flatMap_statements hm).trans (by rw [hr])
  refine ⟨hs, ⟨runs, hr, hm.imp fun _ _ h => ⟨h, h.mustAffectRows_eq⟩⟩, ?_⟩
  intro unit hu hl
  obtain ⟨run, hrun, hmem⟩ : ∃ run ∈ runs, Merges run unit := by
    obtain ⟨i, hi, rfl⟩ := List.getElem_of_mem hu
    have hlen := hm.length_eq
    exact ⟨runs[i], List.getElem_mem _, hm.get (by omega) hi⟩
  have hin : ∀ v ∈ run, v ∈ compiled := fun v hv =>
    hr ▸ List.mem_flatten.mpr ⟨run, hrun, hv⟩
  have hone : ∀ v ∈ run, v.statements.length = 1 := fun v hv => hc.statements v (hin v hv)
  have hcount : unit.statements.length = run.length := by
    rw [hmem.statements_eq, List.length_flatMap, List.map_congr_left hone, List.map_const',
      List.sum_replicate_nat, Nat.mul_one]
  obtain ⟨ha, hall⟩ := hmem.admitted_of_two (by omega)
  have hfree : ∀ v ∈ compiled, v.performAlone = false →
      v.hasPreScript = false ∧ ∀ s ∈ v.statements, ¬ recursivePrefix <+: s.toList :=
    hc.forall_mem fun ho => (Command.toUnit_statement ho).2.2
  refine ⟨ha, ?_, ?_⟩
  · rw [hmem.hasPreScript_eq, List.any_eq_false]
    intro v hv
    simp [(hfree v (hin v hv) (hall v hv)).1]
  · rw [hmem.statements_eq]
    intro s hs
    obtain ⟨v, hv, hsv⟩ := List.mem_flatMap.mp hs
    exact (hfree v (hin v hv) (hall v hv)).2 s hsv

/-- Planning partitions the batch. The units of the commands, compiled in order with one supply of
names, are partitioned by the units planned under any policy, and just so by those that any other
answers at each of its questions would give. -/
theorem Command.planAll_partitions {catalog : Catalog} {policy : BatchPolicy}
    {commands : List Command} {units : List ExecutionUnit}
    (h : planAll catalog policy commands = .ok units) :
    ∃ compiled final, Compiles catalog {} commands compiled final ∧
      compiled.length = commands.length ∧ (∀ u ∈ compiled, u.statements.length = 1) ∧
      Partition compiled units ∧
      ∀ others, Grouping none compiled others → Partition compiled others := by
  obtain ⟨compiled, final, hc, rfl⟩ := planAll_eq_ok.mp h
  exact ⟨compiled, final, hc, hc.length_eq, hc.statements,
    (policy.group_grouping none compiled).partition hc, fun _ hg => hg.partition hc⟩

/-- A statement text between deletions ends the group before it and stays alone, and the deletions
after it are merged. -/
theorem Command.planAll_partitions_around_text :
    let commands := [ofDelete "A", ofText "CALL x" {}, ofDelete "B", ofDelete "C"]
    ∃ units compiled final, planAll {} Thresholds.unbounded.toPolicy commands = .ok units ∧
      Compiles {} {} commands compiled final ∧ Partition compiled units ∧
      units.map (·.statements) =
        [["DELETE TB FROM `A` AS TB;"], ["CALL x"],
          ["DELETE TB FROM `B` AS TB;", "DELETE TB FROM `C` AS TB;"]] := by
  intro commands
  have hp : ∃ units, planAll {} Thresholds.unbounded.toPolicy commands = .ok units ∧
      units.map (·.statements) =
        [["DELETE TB FROM `A` AS TB;"], ["CALL x"],
          ["DELETE TB FROM `B` AS TB;", "DELETE TB FROM `C` AS TB;"]] := ⟨_, rfl, by cbv⟩
  obtain ⟨units, hp, hs⟩ := hp
  obtain ⟨compiled, final, hc, -, -, hpart, -⟩ := planAll_partitions hp
  exact ⟨units, compiled, final, hp, hc, hpart, hs⟩

end AbstractSql
