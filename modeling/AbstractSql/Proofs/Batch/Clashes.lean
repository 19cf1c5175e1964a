import AbstractSql.Proofs.Batch.Partition
import AbstractSql.Proofs.Batch.Values
import AbstractSql.Proofs.Command.Mentions
import Mathlib

/-!
# Names that clash in a planned unit

The parameters of a statement text keep the names their caller chose. A generated name avoids all
names before it, but a statement text bound later may bring the same name along, and then its value
counts for the whole unit. Here is exactly which placeholders of a planned unit keep the value of
their own source.
-/

namespace AbstractSql

open Segment (placeholders)
open ExecutionUnit (Merges)
open ParameterSet (latest latest_append latest_eq_none)

/-- The parameters that statement texts among the sources bring along. -/
def textParameters (sources : List Source) : List Parameter :=
  sources.flatMap fun
    | .value _ _ => []
    | .text raw => raw.parameters.items

/-- A name issued before can only be bound again by a statement text. -/
theorem latest_of_issued {names : NameSupply} {sources : List Source} {name : String}
    (h : name ∈ names.issued) :
    latest (Entry.parameters (ledger names sources).1) name =
      latest (textParameters sources) name := by
  induction sources generalizing names with
  | nil => rfl
  | cons source rest ih =>
    have hissued : name ∈ (source.bind names).2.issued := Source.mem_issued_bind.mpr (.inl h)
    have hsplit : Entry.parameters (ledger names (source :: rest)).1 =
        Entry.parameters (source.bind names).1
          ++ Entry.parameters (ledger (source.bind names).2 rest).1 := List.map_append
    have htexts : textParameters (source :: rest) =
        textParameters [source] ++ textParameters rest := by
      simp [textParameters]
    rw [hsplit, latest_append, ih hissued, htexts, latest_append]
    congr 1
    cases source with
    | value base content =>
      refine latest_eq_none.mpr fun p hp hn => ?_
      obtain rfl := List.mem_singleton.mp hp
      have hname : (names.nextParameter base).1 = name := hn
      rw [← hname] at h
      exact names.nextParameter_fresh base h
    | text raw => simp [Source.bind, Entry.parameters, textParameters, Function.comp_def]

/-- What a source has for a name counts in a unit that also binds the sources before and after it.
If it has a value, the statement text that brings the name along last, among those bound later,
brings the same value. If it has none, nothing in the unit has the name. -/
def Undisturbed (names : NameSupply) (before : List Source) (source : Source) (after : List Source)
    (name : String) : Prop :=
  match source.own? (names.after before) name with
  | some v => ∀ p, latest (textParameters after) name = some p → p.value = v
  | none => ∀ e ∈ (ledger names (before ++ source :: after)).1, e.parameter.name ≠ name

namespace Command

variable {catalog : Catalog} {names names' middle final : NameSupply} {commands : List Command}

/-- A name has the value of a source exactly when it is not disturbed. -/
theorem Collected.value?_eq_own_iff {before after : List Source} {source : Source}
    {parameters : ParameterSet}
    (h : Collected (before ++ source :: after) names final parameters) (name : String) :
    parameters.value? name = source.own? (names.after before) name ↔
      Undisturbed names before source after name := by
  have hget := h.get? name
  have hcons : Entry.parameters (ledger (names.after before) (source :: after)).1 =
      Entry.parameters (source.bind (names.after before)).1
        ++ Entry.parameters (ledger (source.bind (names.after before)).2 after).1 := List.map_append
  unfold Undisturbed
  cases hown : source.own? (names.after before) name with
  | none =>
    rw [ParameterSet.value?, hget, Option.map_eq_none_iff, latest_eq_none]
    exact List.forall_mem_map
  | some v =>
    obtain ⟨q, hq, rfl⟩ := Option.map_eq_some_iff.mp hown
    have hissued : name ∈ (source.bind (names.after before)).2.issued := by
      obtain ⟨hmem, hname⟩ := ParameterSet.latest_eq_some hq
      obtain ⟨e, he, rfl⟩ := List.mem_map.mp hmem
      exact Source.mem_issued_bind.mpr (.inr ⟨e, he, hname⟩)
    rw [ParameterSet.value?, hget, ledger_parameters_append, latest_append, hcons, latest_append, hq,
      latest_of_issued hissued]
    cases latest (textParameters after) name with
    | none => simp
    | some p => simp

/-- The supply of a collection can be replaced by one that differs in its aliases only. -/
theorem Collected.congr {sources : List Source} {parameters : ParameterSet}
    (h : Collected sources names final parameters) (hn : names.resetAliases = names'.resetAliases) :
    Collected sources names' final parameters where
  supply := h.supply.trans (ledger_congr hn sources).2
  distinct := h.distinct
  get? := fun name => by rw [h.get?, (ledger_congr hn sources).1]

/-- What a command mentions does not depend on the aliases. -/
theorem mentions_congr (c : Command) (hn : names.resetAliases = names'.resetAliases)
    {name : String} : c.Mentions catalog names name ↔ c.Mentions catalog names' name := by
  have hsource : ∀ (source : Source) (names : NameSupply),
      source.mentions names.resetAliases = source.mentions names := by
    intro source names
    cases source <;> rfl
  have hsame : ∀ before : List Site, ∀ source : Source,
      source.mentions (names.after (sourcesOf before)) =
        source.mentions (names'.after (sourcesOf before)) := by
    intro before source
    rw [← hsource, (ledger_congr hn _).2, hsource]
  unfold Mentions Mentioned
  simp only [hsame]

/-- Under these parameters all that the statements of a run mention has the value of the source that
mentions it. -/
def KeepsValues (catalog : Catalog) (names : NameSupply) (run : List Command)
    (parameters : ParameterSet) : Prop :=
  ∀ past c rest before site after, run = past ++ c :: rest →
    c.sites catalog = before ++ site :: after → site.place.isWritten = true →
    ∀ name ∈ site.source.mentions (names.after (sourcesAll catalog past ++ sourcesOf before)),
      parameters.value? name =
        site.source.own? (names.after (sourcesAll catalog past ++ sourcesOf before)) name

/-- What the parameters of a unit are worth to the commands of its run. -/
structure UnitValues (catalog : Catalog) (names : NameSupply) (run : List Command)
    (unit : ExecutionUnit) : Prop where
  /-- There is one statement for each command, and its placeholders are the names that the written
  sources of that command mention, as long as the scanner can read what they put into it. -/
  statements : unit.statements.length = run.length ∧
    ∀ past c rest, run = past ++ c :: rest → Readable (c.sites catalog) →
      ∃ s ps, unit.statements[past.length]? = some s ∧ placeholders s = .ok ps ∧
        ∀ name, name ∈ ps ↔ c.Mentions catalog (names.after (sourcesAll catalog past)) name
  /-- A source of a command finds its own value under a name exactly when the sources after it, in
  the same command and in later ones of the run, do not disturb the name. -/
  values : ∀ past c rest before site after, run = past ++ c :: rest →
    c.sites catalog = before ++ site :: after → ∀ name,
      (unit.parameters.value? name =
          site.source.own? (names.after (sourcesAll catalog past ++ sourcesOf before)) name ↔
        Undisturbed names (sourcesAll catalog past ++ sourcesOf before) site.source
          (sourcesOf after ++ sourcesAll catalog rest) name)
  /-- All values are kept exactly when nothing that is mentioned is disturbed. -/
  keeps : KeepsValues catalog names run unit.parameters ↔
    ∀ past c rest before site after, run = past ++ c :: rest →
      c.sites catalog = before ++ site :: after → site.place.isWritten = true →
      ∀ name ∈ site.source.mentions (names.after (sourcesAll catalog past ++ sourcesOf before)),
        Undisturbed names (sourcesAll catalog past ++ sourcesOf before) site.source
          (sourcesOf after ++ sourcesAll catalog rest) name

/-- The planned units of a list of commands, with what their parameters are worth. -/
inductive Valued (catalog : Catalog) :
    NameSupply → List Command → List ExecutionUnit → Prop where
  /-- Nothing is planned. -/
  | nil (names : NameSupply) : Valued catalog names [] []
  /-- A statement text or a procedure call has a unit with its own parameters and no others. -/
  | text {names : NameSupply} {c : Command} {text : String} {isProcedure : Bool}
      {rest : List Command} {units : List ExecutionUnit} (kind : c.kind = .text text isProcedure)
      (others : Valued catalog names rest units) :
      Valued catalog names (c :: rest) (c.textUnit text isProcedure :: units)
  /-- A run of other commands has a unit together. -/
  | data {names : NameSupply} {run rest : List Command} {unit : ExecutionUnit}
      {units : List ExecutionUnit} (data : ∀ c ∈ run, c.IsData)
      (values : UnitValues catalog names run unit)
      (others : Valued catalog (names.after (sourcesAll catalog run)) rest units) :
      Valued catalog names (run ++ rest) (unit :: units)

/-- Units that need not stay alone come from commands that work on rows. -/
theorem Compiles.isData {us : List ExecutionUnit} (h : Compiles catalog names commands us final)
    (ha : ∀ u ∈ us, u.performAlone = false) : ∀ c ∈ commands, c.IsData := by
  induction h with
  | nil => simp
  | @cons names middle final c u rest us first others ih =>
    intro d hd
    rcases List.mem_cons.mp hd with rfl | hd
    · rcases d.isData_or_text with hdata | ⟨text, isProcedure, hk⟩
      · exact hdata
      · rw [toUnit_text hk] at first
        obtain ⟨hu, -⟩ := Prod.mk.inj first
        cases hu
        exact absurd (ha _ List.mem_cons_self) (by simp [textUnit])
    · exact ih (fun v hv => ha v (List.mem_cons_of_mem u hv)) d hd

/-- The statements of compiled commands and their placeholders. -/
theorem Compiles.placeholders {us : List ExecutionUnit}
    (h : Compiles catalog names commands us final) (hd : ∀ c ∈ commands, c.IsData) :
    ∀ past c rest, commands = past ++ c :: rest → Readable (c.sites catalog) →
      ∃ s ps, (us.flatMap (·.statements))[past.length]? = some s ∧
        Segment.placeholders s = .ok ps ∧
        ∀ name, name ∈ ps ↔ c.Mentions catalog (names.after (sourcesAll catalog past)) name := by
  induction h with
  | nil names =>
    intro past c rest he
    exact absurd he (by simp)
  | @cons names middle final c u others us first _ ih =>
    intro past d rest he hr
    rw [List.flatMap_cons]
    cases past with
    | nil =>
      obtain ⟨rfl, rfl⟩ := List.cons.inj he
      obtain ⟨s, ps, hs, hps, hmem⟩ := toUnit_placeholders (hd c List.mem_cons_self) hr first
      refine ⟨s, ps, ?_, hps, hmem⟩
      rw [hs]
      rfl
    | cons e past =>
      obtain ⟨rfl, rfl⟩ := List.cons.inj he
      obtain ⟨s, ps, hs, hps, hmem⟩ :=
        ih (fun e he => hd e (List.mem_cons_of_mem c he)) past d rest rfl hr
      have hone : u.statements.length = 1 := by
        obtain ⟨⟨text, ht⟩, -⟩ := toUnit_statement first
        rw [ht, List.length_singleton]
      have hsupply := (toUnit_collected (hd c List.mem_cons_self) first).supply
      refine ⟨s, ps, ?_, hps, fun name => ?_⟩
      · rw [List.length_cons, List.getElem?_append_right (by omega), hone, Nat.add_sub_cancel]
        exact hs
      · rw [hmem, sourcesAll_cons, NameSupply.after_append]
        exact d.mentions_congr (ledger_congr hsupply _).2

/-- Looking a name up in the unit of a run. The supply matters up to its aliases only. -/
theorem Compiles.value?_eq_own_iff {run : List ExecutionUnit} {unit : ExecutionUnit}
    (h : Compiles catalog names commands run final) (hd : ∀ c ∈ commands, c.IsData)
    (hm : Merges run unit) (hn : names.resetAliases = names'.resetAliases)
    {past rest : List Command} {c : Command} {before after : List Site} {site : Site}
    (hrun : commands = past ++ c :: rest) (hsites : c.sites catalog = before ++ site :: after)
    (name : String) :
    unit.parameters.value? name =
        site.source.own? (names'.after (sourcesAll catalog past ++ sourcesOf before)) name ↔
      Undisturbed names' (sourcesAll catalog past ++ sourcesOf before) site.source
        (sourcesOf after ++ sourcesAll catalog rest) name := by
  have hc := (h.merged_collected hd hm).congr hn
  have hall : sourcesAll catalog commands =
      (sourcesAll catalog past ++ sourcesOf before) ++
        site.source :: (sourcesOf after ++ sourcesAll catalog rest) := by
    simp [hrun, sourcesAll, sources, hsites, sourcesOf]
  rw [hall] at hc
  exact hc.value?_eq_own_iff name

/-- The unit of a run of commands that work on rows. -/
theorem Compiles.unitValues {run : List ExecutionUnit} {unit : ExecutionUnit}
    (h : Compiles catalog names commands run final) (hd : ∀ c ∈ commands, c.IsData)
    (hm : Merges run unit) (hn : names.resetAliases = names'.resetAliases) :
    UnitValues catalog names' commands unit where
  statements := by
    refine ⟨?_, fun past c rest he hr => ?_⟩
    · rw [hm.statements_eq, List.length_flatMap, List.map_congr_left h.statements, List.map_const',
        List.sum_replicate_nat, Nat.mul_one, h.length_eq]
    · obtain ⟨s, ps, hs, hps, hmem⟩ := h.placeholders hd past c rest he hr
      rw [hm.statements_eq]
      refine ⟨s, ps, hs, hps, fun name => ?_⟩
      rw [hmem]
      exact c.mentions_congr (ledger_congr hn _).2
  values := fun past c rest before site after hrun hsites name =>
    h.value?_eq_own_iff hd hm hn hrun hsites name
  keeps := by
    constructor
    · intro hk past c rest before site after hrun hsites hw name hname
      have hown := hk past c rest before site after hrun hsites hw name hname
      exact (h.value?_eq_own_iff hd hm hn hrun hsites name).mp hown
    · intro hu past c rest before site after hrun hsites hw name hname
      have hfree := hu past c rest before site after hrun hsites hw name hname
      exact (h.value?_eq_own_iff hd hm hn hrun hsites name).mpr hfree

/-- The units that runs of compiled commands are merged to. -/
theorem Compiles.valued {runs : List (List ExecutionUnit)} {units : List ExecutionUnit}
    (hm : List.Forall₂ Merges runs units) (h : Compiles catalog names commands runs.flatten final)
    (hn : names.resetAliases = names'.resetAliases) : Valued catalog names' commands units := by
  induction hm generalizing names names' commands with
  | nil =>
    cases h
    exact .nil names'
  | @cons run unit runs units hmerge _ ih =>
    obtain ⟨before, after, middle, rfl, hb, ha⟩ := h.split
    have hrun : (∀ c ∈ before, c.IsData) →
        Valued catalog names' (before ++ after) (unit :: units) := by
      intro hd
      have hsupply := (hb.merged_collected hd hmerge).supply.trans (ledger_congr hn _).2
      exact .data hd (hb.unitValues hd hmerge hn) (ih ha hsupply)
    cases hmerge with
    | merged admitted => exact hrun (hb.isData admitted)
    | alone stays =>
      cases hb with
      | @cons _ next _ c _ _ _ first others =>
        cases others
        rcases c.isData_or_text with hd | ⟨text, isProcedure, hk⟩
        · exact hrun fun d hin => List.mem_singleton.mp hin ▸ hd
        · rw [toUnit_text hk] at first
          obtain ⟨hu, rfl⟩ := Prod.mk.inj first
          cases hu
          exact .text hk (ih ha hn)

/-- Planned units and the values of their placeholders. A statement text or a procedure call has its
own parameters only. In the unit of any other run, the value of a source counts for a name unless a
statement text that is bound later, in the same command or in a later one of the run, brings the
name along with another value. -/
theorem planAll_valued {policy : BatchPolicy} {units : List ExecutionUnit}
    (h : planAll catalog policy commands = .ok units) : Valued catalog {} commands units := by
  obtain ⟨_, _, hcompiled, _, rfl, hm⟩ := planAll_runs h
  exact hcompiled.valued hm rfl

/-- Two deletions whose statement texts bring a name along with one value keep that value. -/
theorem planAll_valued_shared_name :
    let teams := Query.ofText "SELECT id FROM team WHERE size > ?x" (.ofPairs [("x", .int 1)])
    let commands :=
      [(ofDelete "User").filtered ((Query.ofEntity "User").filterSubquery "team" .isIn teams),
        (ofDelete "Member").filtered ((Query.ofEntity "Member").filterSubquery "team" .isIn teams)]
    ∃ units, planAll {} Thresholds.unbounded.toPolicy commands = .ok units ∧
      Valued {} {} commands units ∧
      units.map (fun u => u.statements.map fun s => AbstractSql.bind s u.parameters) =
        [[.ok ⟨"DELETE TB FROM `User` AS TB WHERE TB.`team` IN (SELECT id FROM team WHERE size > ?);",
              [.int 1]⟩,
            .ok ⟨"DELETE TB FROM `Member` AS TB WHERE TB.`team` IN (SELECT id FROM team WHERE size > ?);",
              [.int 1]⟩]] := by
  intro teams commands
  have hplan : ∃ units, planAll {} Thresholds.unbounded.toPolicy commands = .ok units ∧
      units.map (fun u => u.statements.map fun s => AbstractSql.bind s u.parameters) =
        [[.ok ⟨"DELETE TB FROM `User` AS TB WHERE TB.`team` IN (SELECT id FROM team WHERE size > ?);",
              [.int 1]⟩,
            .ok ⟨"DELETE TB FROM `Member` AS TB WHERE TB.`team` IN (SELECT id FROM team WHERE size > ?);",
              [.int 1]⟩]] := ⟨_, rfl, by cbv⟩
  obtain ⟨units, hplan, hbound⟩ := hplan
  exact ⟨units, hplan, planAll_valued hplan, hbound⟩

/-- A statement text takes over the name of a criterion before it, and of two merged deletions the
second one decides which rows the first one deletes. -/
theorem planAll_clobbers :
    let teams name size :=
      Query.ofText ("SELECT id FROM team WHERE size > ?" ++ name) (.ofPairs [(name, .int size)])
    let criterion :=
      [(ofDelete "User").filtered (((Query.ofEntity "User").equal "id" (.int 5)).filterSubquery
        "team" .isIn (teams "id1" 9))]
    let texts := [(1 : Int64), 2].map fun size =>
      (ofDelete "User").filtered ((Query.ofEntity "User").filterSubquery "team" .isIn (teams "x" size))
    (∃ unit, planAll {} Thresholds.unbounded.toPolicy criterion = .ok [unit] ∧
      unit.statements.map (fun s => AbstractSql.bind s unit.parameters) =
        [.ok ⟨"DELETE TB FROM `User` AS TB WHERE TB.`id` = ? AND TB.`team` IN "
            ++ "(SELECT id FROM team WHERE size > ?);", [.int 9, .int 9]⟩] ∧
      ¬ KeepsValues {} {} criterion unit.parameters) ∧
    ∃ unit, planAll {} Thresholds.unbounded.toPolicy texts = .ok [unit] ∧
      unit.statements.map (fun s => AbstractSql.bind s unit.parameters) =
        List.replicate 2 (.ok ⟨"DELETE TB FROM `User` AS TB WHERE TB.`team` IN "
          ++ "(SELECT id FROM team WHERE size > ?);", [.int 2]⟩) ∧
      ¬ KeepsValues {} {} texts unit.parameters := by
  intro teams criterion texts
  refine ⟨⟨_, rfl, by cbv, fun hk => ?_⟩, ⟨_, rfl, by cbv, fun hk => ?_⟩⟩
  · have hvalue := hk [] _ [] [] _ _ rfl rfl rfl "id1" List.mem_cons_self
    have hown : (some (.int 9) : Option Value) = some (.int 5) := hvalue
    exact absurd hown (by simp)
  · have hmentioned : "x" ∈ (Source.text ⟨"SELECT id FROM team WHERE size > ?x",
        .ofPairs [("x", .int 1)]⟩).mentions {} := by
      have hnames : (RawText.mentioned ⟨"SELECT id FROM team WHERE size > ?x",
        .ofPairs [("x", .int 1)]⟩) = ["x"] := by cbv
      simp [Source.mentions, hnames]
    have hvalue := hk [] _ _ [] _ _ rfl rfl rfl "x" hmentioned
    have hown : (some (.int 2) : Option Value) = some (.int 1) := hvalue
    exact absurd hown (by simp)

end Command

end AbstractSql
