import AbstractSql.Batch
import AbstractSql.Proofs.Command.Compiled
import AbstractSql.Proofs.Text.Parts
import Mathlib.Data.List.Forall2

/-!
# Planned units as runs of compiled units

Planning loses no statement, repeats none and keeps their order: the planned units are the merges of
consecutive runs of the compiled units. This holds whatever a policy answers, so the grouping is
first described with every answer left open. A unit of several statements holds none that has to
stand alone, and none that begins with the definition of closure tables.
-/

namespace AbstractSql

namespace ExecutionUnit

/-- A unit with the units of a list merged into it from left to right. -/
def mergeAll (u : ExecutionUnit) (rest : List ExecutionUnit) : ExecutionUnit := rest.foldl merge u

@[simp] theorem mergeAll_nil (u : ExecutionUnit) : u.mergeAll [] = u := rfl

/-- The unit merged first can be split off. -/
theorem mergeAll_cons (u v : ExecutionUnit) (rest : List ExecutionUnit) :
    u.mergeAll (v :: rest) = (u.merge v).mergeAll rest := rfl

/-- The unit merged last can be split off. -/
theorem mergeAll_concat (u v : ExecutionUnit) (rest : List ExecutionUnit) :
    u.mergeAll (rest ++ [v]) = (u.mergeAll rest).merge v := by simp [mergeAll]

/-- The statements are those of all units in order. -/
theorem mergeAll_statements (u : ExecutionUnit) (rest : List ExecutionUnit) :
    (u.mergeAll rest).statements = (u :: rest).flatMap (·.statements) := by
  induction rest generalizing u with
  | nil => simp
  | cons v rest ih =>
    rw [mergeAll_cons, ih]
    simp [merge]

/-- The group must touch a row when one of its units must. -/
theorem mergeAll_mustAffectRows (u : ExecutionUnit) (rest : List ExecutionUnit) :
    (u.mergeAll rest).mustAffectRows = (u :: rest).any (·.mustAffectRows) := by
  induction rest generalizing u with
  | nil => simp
  | cons v rest ih =>
    rw [mergeAll_cons, ih]
    simp [merge, Bool.or_assoc]

/-- The group may have definitions in front when one of its units may. -/
theorem mergeAll_hasPreScript (u : ExecutionUnit) (rest : List ExecutionUnit) :
    (u.mergeAll rest).hasPreScript = (u :: rest).any (·.hasPreScript) := by
  induction rest generalizing u with
  | nil => simp
  | cons v rest ih =>
    rw [mergeAll_cons, ih]
    simp [merge, Bool.or_assoc]

/-- Merging leaves the mark of standing alone to the first unit. -/
theorem mergeAll_performAlone (u : ExecutionUnit) (rest : List ExecutionUnit) :
    (u.mergeAll rest).performAlone = u.performAlone := by
  induction rest generalizing u with
  | nil => rfl
  | cons v rest ih =>
    rw [mergeAll_cons, ih]
    rfl

/-- A run of consecutive units and the planned unit it becomes: a unit that has to stay alone as
it is, or the merge of units none of which has to. -/
inductive Merges : List ExecutionUnit → ExecutionUnit → Prop where
  /-- A unit by itself. -/
  | alone {u : ExecutionUnit} (stays : u.performAlone = true) : Merges [u] u
  /-- Units merged from left to right. -/
  | merged {u : ExecutionUnit} {rest : List ExecutionUnit}
      (admitted : ∀ v ∈ u :: rest, v.performAlone = false) :
      Merges (u :: rest) (u.mergeAll rest)

namespace Merges

variable {run : List ExecutionUnit} {unit : ExecutionUnit}

/-- A planned unit has the statements of its run. -/
theorem statements_eq (h : Merges run unit) : unit.statements = run.flatMap (·.statements) := by
  cases h with
  | alone => simp
  | merged => exact mergeAll_statements _ _

/-- A planned unit must touch a row when one of its run must. -/
theorem mustAffectRows_eq (h : Merges run unit) :
    unit.mustAffectRows = run.any (·.mustAffectRows) := by
  cases h with
  | alone => simp
  | merged => exact mergeAll_mustAffectRows _ _

/-- A planned unit may have definitions in front when one of its run may. -/
theorem hasPreScript_eq (h : Merges run unit) :
    unit.hasPreScript = run.any (·.hasPreScript) := by
  cases h with
  | alone => simp
  | merged => exact mergeAll_hasPreScript _ _

/-- A run of several units holds only units that may be merged. -/
theorem admitted_of_two (h : Merges run unit) (hr : 2 ≤ run.length) :
    unit.performAlone = false ∧ ∀ u ∈ run, u.performAlone = false := by
  cases h with
  | alone => simp at hr
  | merged admitted =>
    rw [mergeAll_performAlone]
    exact ⟨admitted _ (by simp), admitted⟩

end Merges

end ExecutionUnit

open ExecutionUnit (Merges)

/-- The ways to group units after a group that is still open, with every decision of a policy left
open: a unit that may be merged starts a group or joins the open one, and after it the group is
closed or kept open. -/
inductive Grouping : Option ExecutionUnit → List ExecutionUnit → List ExecutionUnit → Prop where
  /-- The open group is the last one. -/
  | finish (pending : Option ExecutionUnit) : Grouping pending [] pending.toList
  /-- A unit that has to stay alone closes the open group. -/
  | alone {pending : Option ExecutionUnit} {u : ExecutionUnit} {rest units : List ExecutionUnit}
      (stays : u.performAlone = true) (after : Grouping none rest units) :
      Grouping pending (u :: rest) (pending.toList ++ u :: units)
  /-- A unit starts a group. -/
  | start {pending : Option ExecutionUnit} {u : ExecutionUnit} {rest units : List ExecutionUnit}
      (admitted : u.performAlone = false) (after : Grouping (some u) rest units) :
      Grouping pending (u :: rest) (pending.toList ++ units)
  /-- A unit starts a group and fills it. -/
  | fill {pending : Option ExecutionUnit} {u : ExecutionUnit} {rest units : List ExecutionUnit}
      (admitted : u.performAlone = false) (after : Grouping none rest units) :
      Grouping pending (u :: rest) (pending.toList ++ u :: units)
  /-- A unit joins the open group. -/
  | join {g u : ExecutionUnit} {rest units : List ExecutionUnit}
      (admitted : u.performAlone = false) (after : Grouping (some (g.merge u)) rest units) :
      Grouping (some g) (u :: rest) units
  /-- A unit joins the open group and fills it. -/
  | top {g u : ExecutionUnit} {rest units : List ExecutionUnit}
      (admitted : u.performAlone = false) (after : Grouping none rest units) :
      Grouping (some g) (u :: rest) (g.merge u :: units)

/-- Whatever a policy answers, it groups in one of these ways. -/
theorem BatchPolicy.group_grouping (policy : BatchPolicy) (pending : Option ExecutionUnit)
    (us : List ExecutionUnit) : Grouping pending us (policy.group pending us) := by
  induction us generalizing pending with
  | nil => exact .finish pending
  | cons u rest ih =>
    unfold group
    by_cases ha : u.performAlone = true
    · rw [if_pos ha]
      exact .alone ha (ih none)
    · have hf : u.performAlone = false := by simpa using ha
      rw [if_neg ha]
      cases pending with
      | none =>
        dsimp only
        split
        · exact .fill hf (ih none)
        · exact .start hf (ih (some u))
      | some g =>
        dsimp only
        split
        · split
          · exact .top hf (ih none)
          · exact .join hf (ih _)
        · split
          · exact .fill hf (ih none)
          · exact .start hf (ih (some u))

/-- The units of a run that have been merged into an open group so far. -/
inductive Opened : Option ExecutionUnit → List ExecutionUnit → Prop where
  /-- No group is open. -/
  | none : Opened none []
  /-- The open group is the merge of its units. -/
  | some {u : ExecutionUnit} {rest : List ExecutionUnit}
      (admitted : ∀ v ∈ u :: rest, v.performAlone = false) :
      Opened (some (u.mergeAll rest)) (u :: rest)

namespace Opened

/-- A unit that starts a group is its only unit. -/
theorem single {u : ExecutionUnit} (hu : u.performAlone = false) : Opened (.some u) [u] := by
  have admitted : ∀ v ∈ [u], v.performAlone = false := by simpa using hu
  exact .some admitted

/-- A unit that joins a group is its last unit. -/
theorem concat {g u : ExecutionUnit} {run : List ExecutionUnit} (h : Opened (.some g) run)
    (hu : u.performAlone = false) : Opened (.some (g.merge u)) (run ++ [u]) := by
  cases h with
  | @some first rest admitted =>
    rw [← ExecutionUnit.mergeAll_concat, List.cons_append]
    refine .some fun v hv => ?_
    rcases List.mem_append.mp (List.cons_append ▸ hv) with hv | hv
    · exact admitted v hv
    · rw [List.mem_singleton.mp hv]
      exact hu

/-- Closing the open group makes a planned unit of its units. -/
theorem closed {pending : Option ExecutionUnit} {run : List ExecutionUnit}
    (h : Opened pending run) :
    ∃ runs : List (List ExecutionUnit), runs.flatten = run ∧
      List.Forall₂ Merges runs pending.toList := by
  cases h with
  | none => exact ⟨[], rfl, .nil⟩
  | some admitted => exact ⟨[_], by simp, .cons (.merged admitted) .nil⟩

end Opened

/-- Grouping in any way cuts the units, with those of the open group in front of them, into
consecutive runs. The induction carries the units of the open group along. -/
theorem Grouping.runs {pending : Option ExecutionUnit} {us units : List ExecutionUnit}
    (h : Grouping pending us units) {opened : List ExecutionUnit} (ho : Opened pending opened) :
    ∃ runs : List (List ExecutionUnit), runs.flatten = opened ++ us ∧
      List.Forall₂ Merges runs units := by
  induction h generalizing opened with
  | finish pending =>
    obtain ⟨runs, hr, hm⟩ := ho.closed
    exact ⟨runs, by simpa using hr, hm⟩
  | alone stays _ ih =>
    obtain ⟨before, hb, hm⟩ := ho.closed
    obtain ⟨after, ha, hn⟩ := ih .none
    exact ⟨before ++ [_] :: after, by simp [hb, ha],
      List.rel_append hm (.cons (.alone stays) hn)⟩
  | start admitted _ ih =>
    obtain ⟨before, hb, hm⟩ := ho.closed
    obtain ⟨after, ha, hn⟩ := ih (.single admitted)
    exact ⟨before ++ after, by rw [List.flatten_append, hb, ha]; rfl, List.rel_append hm hn⟩
  | fill admitted _ ih =>
    obtain ⟨before, hb, hm⟩ := ho.closed
    obtain ⟨after, ha, hn⟩ := ih .none
    obtain ⟨own, ho, hu⟩ := (Opened.single admitted).closed
    exact ⟨before ++ (own ++ after), by simp [hb, ho, ha], List.rel_append hm (List.rel_append hu hn)⟩
  | join admitted _ ih =>
    obtain ⟨runs, hr, hm⟩ := ih (ho.concat admitted)
    exact ⟨runs, by simpa using hr, hm⟩
  | top admitted _ ih =>
    obtain ⟨before, hb, hm⟩ := (ho.concat admitted).closed
    obtain ⟨after, ha, hn⟩ := ih .none
    exact ⟨before ++ after, by simp [hb, ha], List.rel_append hm hn⟩

/-- A plan cuts the units of its commands into consecutive runs. -/
theorem Command.planAll_runs {catalog : Catalog} {policy : BatchPolicy} {commands : List Command}
    {units : List ExecutionUnit} (h : planAll catalog policy commands = .ok units) :
    ∃ compiled final, Compiles catalog {} commands compiled final ∧
      ∃ runs : List (List ExecutionUnit), runs.flatten = compiled ∧
        List.Forall₂ Merges runs units := by
  obtain ⟨compiled, final, hc, rfl⟩ := planAll_eq_ok.mp h
  obtain ⟨runs, hruns, hm⟩ := (policy.group_grouping none compiled).runs .none
  exact ⟨compiled, final, hc, runs, hruns, hm⟩

end AbstractSql
