import AbstractSql.Proofs.Batch.Repeats
import AbstractSql.Proofs.ParameterSet.Union

/-!
# Merges associated in any way

A union of parameter sets keeps the order of both and lets the second one win, and it can be
associated in any way as long as no set repeats a name. So can the merges of a group of units: the
neighbours that are merged first may be chosen freely. The units of a planned group repeat no name,
hence every way to merge them gives the planned unit.
-/

namespace AbstractSql

open ExecutionUnit (Merges)

namespace ExecutionUnit

variable {u v w : ExecutionUnit}

/-- Merges of units without repeated names can be associated either way. -/
theorem merge_assoc (hu : u.parameters.Distinct) (hv : v.parameters.Distinct)
    (hw : w.parameters.Distinct) : (u.merge v).merge w = u.merge (v.merge w) := by
  have hparameters := hu.union_assoc hv hw
  simp only [merge, hparameters, List.append_assoc, Bool.or_assoc]

/-- What is to be merged into two merged units can be merged into the second of them first. -/
theorem mergeAll_merge {rest : List ExecutionUnit} (hu : u.parameters.Distinct)
    (hv : v.parameters.Distinct) (hrest : ∀ w ∈ rest, w.parameters.Distinct) :
    (u.merge v).mergeAll rest = u.merge (v.mergeAll rest) := by
  induction rest generalizing v with
  | nil => rfl
  | cons w rest ih =>
    obtain ⟨hw, hrest⟩ := List.forall_mem_cons.mp hrest
    calc (u.merge v).mergeAll (w :: rest) = ((u.merge v).merge w).mergeAll rest :=
          mergeAll_cons (u.merge v) w rest
      _ = (u.merge (v.merge w)).mergeAll rest := by rw [merge_assoc hu hv hw]
      _ = u.merge ((v.merge w).mergeAll rest) := ih (hv.union w.parameters) hrest
      _ = u.merge (v.mergeAll (w :: rest)) := by rw [mergeAll_cons]

end ExecutionUnit

/-- A way to merge neighbours of a group until one unit is left. -/
inductive MergeTree where
  /-- A unit as it is. -/
  | unit (u : ExecutionUnit)
  /-- What is left of the second part is merged into what is left of the first. -/
  | merge (first second : MergeTree)

namespace MergeTree

/-- The units of the group in their order. -/
def units : MergeTree → List ExecutionUnit
  | unit u => [u]
  | merge first second => first.units ++ second.units

/-- The unit that is left. -/
def result : MergeTree → ExecutionUnit
  | unit u => u
  | merge first second => first.result.merge second.result

variable {s t : MergeTree} {u : ExecutionUnit}

/-- No group is empty. -/
theorem units_ne_nil (t : MergeTree) : t.units ≠ [] := by
  induction t with
  | unit u => exact List.cons_ne_nil u []
  | merge first second ihf _ => exact fun h => ihf (List.append_eq_nil_iff.mp h).1

/-- With a single unit there is nothing to merge. -/
theorem eq_unit_of_units (h : t.units = [u]) : t = unit u := by
  cases t with
  | unit v => rw [List.singleton_inj.mp h]
  | merge first second =>
    rcases List.append_eq_singleton_iff.mp h with ⟨hf, -⟩ | ⟨-, hs⟩
    · exact absurd hf first.units_ne_nil
    · exact absurd hs second.units_ne_nil

/-- However the units are merged, the result is that of merging them from left to right. -/
theorem result_eq_mergeAll (t : MergeTree) (h : ∀ u ∈ t.units, u.parameters.Distinct) :
    ∃ u rest, t.units = u :: rest ∧ t.result = u.mergeAll rest := by
  induction t with
  | unit u => exact ⟨u, [], rfl, rfl⟩
  | merge first second ihf ihs =>
    obtain ⟨hf, hs⟩ := List.forall_mem_append.mp h
    obtain ⟨u, left, hleft, hfirst⟩ := ihf hf
    obtain ⟨v, right, hright, hsecond⟩ := ihs hs
    rw [hleft, List.forall_mem_cons] at hf
    rw [hright, List.forall_mem_cons] at hs
    have hmerged : (u.mergeAll left).parameters.Distinct :=
      (ExecutionUnit.distinct_mergeAll u left).mpr hf.1
    refine ⟨u, left ++ v :: right, by rw [units, hleft, hright, List.cons_append], ?_⟩
    calc (merge first second).result = (u.mergeAll left).merge (v.mergeAll right) := by
          rw [result, hfirst, hsecond]
      _ = ((u.mergeAll left).merge v).mergeAll right :=
          (ExecutionUnit.mergeAll_merge hmerged hs.1 hs.2).symm
      _ = u.mergeAll (left ++ v :: right) := by
          simp only [ExecutionUnit.mergeAll, List.foldl_append, List.foldl_cons]

/-- The result depends on the units and their order only. -/
theorem result_eq_of_units_eq (hs : ∀ u ∈ s.units, u.parameters.Distinct)
    (h : s.units = t.units) : s.result = t.result := by
  obtain ⟨u, left, hu, hleft⟩ := s.result_eq_mergeAll hs
  obtain ⟨v, right, hv, hright⟩ := t.result_eq_mergeAll (h ▸ hs)
  obtain ⟨rfl, rfl⟩ := List.cons.inj (hu.symm.trans (h.trans hv))
  rw [hleft, hright]

/-- Every way to merge a run of units gives the planned unit, as long as those that may be merged
repeat no name. -/
theorem result_eq_of_merges {run : List ExecutionUnit} (h : Merges run u)
    (hd : ∀ v ∈ run, v.performAlone = false → v.parameters.Distinct) (ht : t.units = run) :
    t.result = u := by
  cases h with
  | alone => rw [eq_unit_of_units ht, result]
  | @merged v rest admitted =>
    have hall : ∀ v ∈ t.units, v.parameters.Distinct := fun v hv =>
      hd v (ht ▸ hv) (admitted v (ht ▸ hv))
    obtain ⟨w, others, hw, hresult⟩ := t.result_eq_mergeAll hall
    obtain ⟨rfl, rfl⟩ := List.cons.inj (hw.symm.trans ht)
    exact hresult

end MergeTree

/-- A run of units and the unit that is planned for it, which is left however the run is merged. -/
structure MergesAnyWay (run : List ExecutionUnit) (unit : ExecutionUnit) : Prop where
  /-- The run becomes the unit. -/
  planned : Merges run unit
  /-- Every way to merge the units of the run leaves it. -/
  anyWay : ∀ t : MergeTree, t.units = run → t.result = unit

/-- A plan cuts the units of its commands into runs that may be merged in any way. -/
theorem Command.planAll_merges {catalog : Catalog} {policy : BatchPolicy} {commands : List Command}
    {units : List ExecutionUnit} (h : planAll catalog policy commands = .ok units) :
    ∃ compiled final, Compiles catalog {} commands compiled final ∧
      ∃ runs : List (List ExecutionUnit), runs.flatten = compiled ∧
        List.Forall₂ MergesAnyWay runs units := by
  obtain ⟨compiled, final, hc, runs, hruns, hmerges⟩ := planAll_runs h
  have hmerged : ∀ u ∈ compiled, u.performAlone = false → u.parameters.Distinct :=
    hc.forall_mem toUnit_distinct_of_merged
  refine ⟨compiled, final, hc, runs, hruns, ?_⟩
  refine List.forall₂_iff_get.mpr ⟨hmerges.length_eq, fun i hi hu => ?_⟩
  have hrun := hmerges.get hi hu
  refine ⟨hrun, fun t ht => MergeTree.result_eq_of_merges hrun (fun v hv => ?_) ht⟩
  have hin : v ∈ runs.flatten := List.mem_flatten.mpr ⟨_, List.get_mem runs ⟨i, hi⟩, hv⟩
  exact hmerged v (hruns ▸ hin)

/-- Union is an associative merge in which the last set wins. A union of a set with one that repeats
no name finds what the second one finds, and else what the first one finds; its names are those of
the first one and then the new ones of the second, both in their own order. Among sets that repeat
no name union is associative, the empty set changes nothing on either side, and a set is its union
with itself. So two ways to merge units without repeated names leave the same unit when they merge
the same units in the same order. A plan cuts the units of its commands into runs, and every way to
merge a run leaves the unit that is planned for it. -/
theorem ParameterSet.union_lastWins :
    (∀ a b : ParameterSet, b.Distinct →
      (∀ name, (a.union b).get? name = (b.get? name).or (a.get? name)) ∧
        (a.union b).names = a.names ++ b.names.filter (· ∉ a.names)) ∧
      (∀ a b c : ParameterSet, a.Distinct → b.Distinct → c.Distinct →
        (a.union b).union c = a.union (b.union c)) ∧
      (∀ a : ParameterSet, a.Distinct →
        ({} : ParameterSet).union a = a ∧ a.union {} = a ∧ a.union a = a) ∧
      (∀ s t : MergeTree, (∀ u ∈ s.units, u.parameters.Distinct) → s.units = t.units →
        s.result = t.result) ∧
      ∀ catalog policy commands units, Command.planAll catalog policy commands = .ok units →
        ∃ compiled final, Command.Compiles catalog {} commands compiled final ∧
          ∃ runs : List (List ExecutionUnit), runs.flatten = compiled ∧
            List.Forall₂ MergesAnyWay runs units :=
  ⟨fun a _ hb => ⟨hb.get?_union a, hb.names_union a⟩,
    fun _ _ _ ha hb hc => ha.union_assoc hb hc,
    fun _ ha => ⟨ha.union_empty, rfl, ha.union_self⟩,
    fun _ _ hd h => MergeTree.result_eq_of_units_eq hd h,
    fun _ _ _ _ h => Command.planAll_merges h⟩

/-- Three sets that share names, three units with them merged in both orders, and a plan of three
deletions whose statement texts all name `x`. -/
theorem ParameterSet.union_lastWins_shared_names :
    let a := ofPairs [("x", .int 1), ("v", .null)]
    let b := ofPairs [("y", .string "b"), ("x", .int 9)]
    let c := ofPairs [("z", .bool true), ("y", .int 3)]
    let first := MergeTree.unit (.ofStatement "A" a)
    let second := MergeTree.unit (.ofStatement "B" b)
    let third := MergeTree.unit (.ofStatement "C" c)
    let commands := [(1 : Int64), 2, 3].map fun size =>
      (Command.ofDelete "User").filtered ((Query.ofEntity "User").filterSubquery "team" .isIn
        (Query.ofText "SELECT id FROM team WHERE size > ?x" (ofPairs [("x", .int size)])))
    a.Distinct ∧ b.Distinct ∧ c.Distinct ∧ (a.union b).value? "x" = some (.int 9) ∧
      (a.union b).names = ["x", "v", "y"] ∧ (a.union b).union c = a.union (b.union c) ∧
      ({} : ParameterSet).union a = a ∧ a.union {} = a ∧ a.union a = a ∧
      (MergeTree.merge (.merge first second) third).result =
        (MergeTree.merge first (.merge second third)).result ∧
      ∃ units, Command.planAll {} Thresholds.unbounded.toPolicy commands = .ok units ∧
        units.map (·.parameters.value? "x") = [some (.int 3)] ∧
        ∃ compiled final, Command.Compiles {} {} commands compiled final ∧
          ∃ runs : List (List ExecutionUnit), runs.flatten = compiled ∧
            List.Forall₂ MergesAnyWay runs units := by
  intro a b c first second third commands
  obtain ⟨hunion, hassoc, hneutral, htrees, hplans⟩ := union_lastWins
  have ha : a.Distinct := distinct_ofPairs _
  have hb : b.Distinct := distinct_ofPairs _
  have hc : c.Distinct := distinct_ofPairs _
  obtain ⟨hget, hnames⟩ := hunion a b hb
  obtain ⟨hleft, hright, hself⟩ := hneutral a ha
  have hvalue : (a.union b).value? "x" = some (.int 9) := by
    rw [value?, hget]
    rfl
  have hunits : ∀ u ∈ (MergeTree.merge (.merge first second) third).units,
      u.parameters.Distinct := by
    simp [MergeTree.units, first, second, third, ExecutionUnit.ofStatement, ha, hb, hc]
  obtain ⟨units, hplan, hlast⟩ : ∃ units,
      Command.planAll {} Thresholds.unbounded.toPolicy commands = .ok units ∧
        units.map (·.parameters.value? "x") = [some (.int 3)] := ⟨_, rfl, rfl⟩
  exact ⟨ha, hb, hc, hvalue, hnames.trans (by decide), hassoc a b c ha hb hc, hleft, hright, hself,
    htrees _ _ hunits rfl, units, hplan, hlast, hplans _ _ _ _ hplan⟩

end AbstractSql
