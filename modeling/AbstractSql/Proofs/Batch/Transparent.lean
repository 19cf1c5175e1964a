import AbstractSql.Proofs.Batch.Values
import AbstractSql.Proofs.Binding.Tokens
import Mathlib

/-!
# Batching does not show

Without statement texts every value of a batch has a name of its own, however the commands are
grouped. So each planned statement binds to what its command binds to when it is compiled alone.
-/

namespace AbstractSql

open Segment
open ExecutionUnit (Merges)

namespace Command

variable {catalog : Catalog} {names final : NameSupply} {commands : List Command}

/-- The statement of a command that is compiled alone, bound to its own values. -/
def boundAlone (c : Command) (catalog : Catalog) : Except Failure Bound :=
  match (outcome (c.toUnit catalog) {}).1 with
  | .ok u => AbstractSql.bind u.text u.parameters
  | .error failure => .error failure

/-- The entries of commands without statement texts keep their values. -/
theorem value?_of_mem {sources : List Source} {parameters : ParameterSet} {e : Entry}
    (hf : ∀ source ∈ sources, source.isText = false)
    (hb : Collected sources names final parameters) (he : e ∈ (ledger names sources).1) :
    parameters.value? e.parameter.name = some e.parameter.value := by
  rw [ParameterSet.value?, hb.get?, latest_ledger hf e he, Option.map_some]

/-- A statement binds to the same under the values of its unit as alone, when the unit keeps what
the command binds. -/
theorem toUnit_bind_eq {c : Command} {u : ExecutionUnit} {parameters : ParameterSet}
    (hc : c.IsData) (hf : TextFree (c.sites catalog)) (hr : Readable (c.sites catalog))
    (h : outcome (c.toUnit catalog) names = (.ok u, final))
    (hp : ∀ e ∈ (ledger names (c.sources catalog)).1,
      parameters.value? e.parameter.name = some e.parameter.value) :
    ∃ bound, c.boundAlone catalog = .ok bound ∧
      u.statements.map (fun s => AbstractSql.bind s parameters) = [.ok bound] := by
  obtain ⟨u', right', s, s', hu', hs, hs', halike⟩ := toUnit_alike hc hr {} h
  have hfree : ∀ source ∈ c.sources catalog, source.isText = false := hf.sources
  have hown := toUnit_collected hc hu'
  have hvalues : ∀ pair ∈ writtenMarks (twins names {} (c.sites catalog)),
      ∃ v, parameters.value? pair.1 = some v ∧ u'.parameters.value? pair.2 = some v := by
    intro pair hpair
    obtain ⟨t, ht, -, hn⟩ := hpair
    obtain ⟨d, hd, e, he, hname, hname', hvalue⟩ := twins_entries hf t ht pair hn
    refine ⟨d.parameter.value, ?_, ?_⟩
    · rw [← hname]
      exact hp d hd
    · rw [← hname', hvalue]
      exact value?_of_mem hfree hown he
  obtain ⟨bound, hleft, hright⟩ := halike.bind_eq hvalues
  refine ⟨bound, ?_, ?_⟩
  · rw [boundAlone, hu']
    change AbstractSql.bind u'.text u'.parameters = .ok bound
    have htext : u'.text = s' := by rw [ExecutionUnit.text, hs', String.intercalate_singleton]
    rw [htext]
    exact hright
  · rw [hs, List.map_singleton, hleft]

/-- Commands compiled one after another bind under the values of their unit as alone. The induction
carries that these values are those of all the commands. -/
theorem Compiles.bind_eq {us : List ExecutionUnit} {parameters : ParameterSet}
    (h : Compiles catalog names commands us final) (hc : ∀ c ∈ commands, c.IsData)
    (hf : ∀ c ∈ commands, TextFree (c.sites catalog))
    (hr : ∀ c ∈ commands, Readable (c.sites catalog))
    (hp : ∀ e ∈ (ledger names (sourcesAll catalog commands)).1,
      parameters.value? e.parameter.name = some e.parameter.value) :
    (∀ c ∈ commands, ∃ bound, c.boundAlone catalog = .ok bound) ∧
      (us.flatMap (·.statements)).map (fun s => AbstractSql.bind s parameters) =
        commands.map (·.boundAlone catalog) := by
  induction h with
  | nil names => exact ⟨by simp, rfl⟩
  | @cons names middle final c u rest us first others ih =>
    rw [sourcesAll_cons, ledger_append] at hp
    have hsupply := (toUnit_collected (hc c List.mem_cons_self) first).supply
    have hrest : ∀ e ∈ (ledger middle (sourcesAll catalog rest)).1,
        parameters.value? e.parameter.name = some e.parameter.value := by
      rw [(ledger_congr hsupply _).1]
      exact fun e he => hp e (List.mem_append_right _ he)
    obtain ⟨hothers, heq⟩ := ih (fun d hd => hc d (List.mem_cons_of_mem c hd))
      (fun d hd => hf d (List.mem_cons_of_mem c hd)) (fun d hd => hr d (List.mem_cons_of_mem c hd))
      hrest
    obtain ⟨bound, halone, hstatements⟩ := toUnit_bind_eq (hc c List.mem_cons_self)
      (hf c List.mem_cons_self) (hr c List.mem_cons_self) first
      (fun e he => hp e (List.mem_append_left _ he))
    refine ⟨fun d hd => ?_, ?_⟩
    · rcases List.mem_cons.mp hd with rfl | hd
      · exact ⟨bound, halone⟩
      · exact hothers d hd
    · rw [List.flatMap_cons, List.map_append, hstatements, heq, List.map_cons, halone,
        List.singleton_append]

/-- Commands in runs bind as alone, when the units of each run are merged. -/
theorem Compiles.transparent {runs : List (List ExecutionUnit)} {units : List ExecutionUnit}
    (hm : List.Forall₂ Merges runs units) (h : Compiles catalog names commands runs.flatten final)
    (hc : ∀ c ∈ commands, c.IsData) (hf : ∀ c ∈ commands, TextFree (c.sites catalog))
    (hr : ∀ c ∈ commands, Readable (c.sites catalog)) :
    (∀ c ∈ commands, ∃ bound, c.boundAlone catalog = .ok bound) ∧
      units.flatMap (fun u => u.statements.map fun s => AbstractSql.bind s u.parameters) =
        commands.map (·.boundAlone catalog) := by
  induction hm generalizing names commands with
  | nil =>
    cases h
    exact ⟨by simp, rfl⟩
  | @cons run unit runs units hmerge _ ih =>
    obtain ⟨before, after, middle, rfl, hb, ha⟩ := h.split
    have hfirst : ∀ c ∈ before, c ∈ before ++ after := fun c => List.mem_append_left after
    have hsecond : ∀ c ∈ after, c ∈ before ++ after := fun c => List.mem_append_right before
    have hbound := hb.merged_collected (fun c hin => hc c (hfirst c hin)) hmerge
    have hfree : ∀ source ∈ sourcesAll catalog before, source.isText = false := by
      intro source hsource
      obtain ⟨c, hin, hs⟩ := List.mem_flatMap.mp hsource
      obtain ⟨site, hsite, rfl⟩ := List.mem_map.mp hs
      exact hf c (hfirst c hin) site hsite
    obtain ⟨halone, heq⟩ := hb.bind_eq (fun c hin => hc c (hfirst c hin))
      (fun c hin => hf c (hfirst c hin)) (fun c hin => hr c (hfirst c hin))
      (fun e he => value?_of_mem hfree hbound he)
    obtain ⟨hothers, hrest⟩ := ih ha (fun c hin => hc c (hsecond c hin))
      (fun c hin => hf c (hsecond c hin)) (fun c hin => hr c (hsecond c hin))
    refine ⟨fun c hin => ?_, ?_⟩
    · rcases List.mem_append.mp hin with hin | hin
      · exact halone c hin
      · exact hothers c hin
    · rw [List.flatMap_cons, hmerge.statements_eq, heq, hrest, List.map_append]

/-- Batching does not show. Insertions, updates and deletions without statement texts, whose
property names the scanner can read, bind in the planned units to exactly what each of them binds to
when it is compiled alone with a new supply; and there every one of them binds. -/
theorem planAll_transparent {policy : BatchPolicy} {units : List ExecutionUnit}
    (h : planAll catalog policy commands = .ok units) (hc : ∀ c ∈ commands, c.IsData)
    (hf : ∀ c ∈ commands, TextFree (c.sites catalog))
    (hr : ∀ c ∈ commands, Readable (c.sites catalog)) :
    (∀ c ∈ commands, ∃ bound, c.boundAlone catalog = .ok bound) ∧
      units.flatMap (fun u => u.statements.map fun s => AbstractSql.bind s u.parameters) =
        commands.map (·.boundAlone catalog) := by
  obtain ⟨_, _, hcompiled, _, rfl, hm⟩ := planAll_runs h
  exact hcompiled.transparent hm hc hf hr

/-- The names `r1`, `r12` and `r3` of a merged update and deletion are kept apart, though the fields
are `r` and `r1`. -/
theorem planAll_transparent_digits :
    let commands :=
      [((ofUpdate "Meter").set "r" (.int 1)).filtered ((Query.ofEntity "Meter").equal "r1" (.int 2)),
        (ofDelete "Meter").filtered
          ((Query.ofEntity "Meter").inList "r" (.list [.int 3, .int 4]))]
    ∃ units, planAll {} Thresholds.unbounded.toPolicy commands = .ok units ∧
      units.map (·.parameters.names) = [["r1", "r12", "r3"]] ∧
      units.flatMap (fun u => u.statements.map fun s => AbstractSql.bind s u.parameters) =
        [.ok ⟨"UPDATE `Meter` AS TB SET TB.`r`=? WHERE TB.`r1` = ?;", [.int 1, .int 2]⟩,
          .ok ⟨"DELETE TB FROM `Meter` AS TB WHERE TB.`r` IN (?, ?);", [.int 3, .int 4]⟩] := by
  intro commands
  have hplan : ∃ units, planAll {} Thresholds.unbounded.toPolicy commands = .ok units ∧
      units.map (·.parameters.names) = [["r1", "r12", "r3"]] := ⟨_, rfl, by cbv⟩
  obtain ⟨units, hplan, hnames⟩ := hplan
  have hdata : ∀ c ∈ commands, c.IsData := by
    intro c hc
    rcases List.mem_cons.mp hc with rfl | hc
    · exact .inr (.inl rfl)
    · rw [List.mem_singleton.mp hc]
      exact .inr (.inr rfl)
  have hsites : ∀ c ∈ commands, ∀ site ∈ c.sites {}, ∃ base content,
      site.source = .value base content ∧ base ∈ ["r", "r1"] := by
    simp [commands, sites, ofUpdate, ofDelete, Command.set, filtered, touch, dropCalculation, target,
      assignedSites, Query.sites, clauseSites, Condition.sites, armSites, joinSites, matchSites,
      Query.ofEntity, Query.equal, Query.inList, Query.filter, Query.compare, Query.addClause,
      Comparison.needsParameter]
  have hfree : ∀ c ∈ commands, TextFree (c.sites {}) := by
    intro c hc site hs
    obtain ⟨base, content, hsource, -⟩ := hsites c hc site hs
    rw [hsource]
    rfl
  have hreadable : ∀ c ∈ commands, Readable (c.sites {}) := by
    intro c hc site hs
    obtain ⟨base, content, hsource, hbase⟩ := hsites c hc site hs
    have hnames : ∀ base ∈ ["r", "r1"], base.toList.all isNameCharacter = true := by decide
    rw [hsource]
    exact List.all_eq_true.mp (hnames base hbase)
  refine ⟨units, hplan, hnames, (planAll_transparent hplan hdata hfree hreadable).2.trans ?_⟩
  cbv

end Command

end AbstractSql
