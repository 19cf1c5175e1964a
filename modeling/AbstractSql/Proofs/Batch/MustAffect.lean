import AbstractSql.Proofs.Batch.Partition
import AbstractSql.Proofs.Plan.Protocol
import Mathlib

/-!
# Commands that must affect rows

A transaction looks at the rows of a unit, not at those of a command. When each command affects a fixed
number of rows and units return their sums, a transaction is rolled back exactly when one of its units
holds a command that must affect rows, and affects none with all of its commands. Which commands share a
unit is up to the policy.
-/

namespace AbstractSql

open ExecutionUnit (Merges)

/-- Rows that some commands affect together. -/
def totalRows (affected : List (Command × Nat)) : Nat := (affected.map Prod.snd).sum

/-- One of these commands must affect rows, and none of them does. -/
def Starved (share : List (Command × Nat)) : Prop :=
  (∃ c ∈ share, c.1.mustAffectRows = true) ∧ ∀ c ∈ share, c.2 = 0

/-- What each command of a list affects, dealt out in order to the units that carry the statements. -/
def shares (units : List ExecutionUnit) (affected : List (Command × Nat)) :
    List (List (Command × Nat)) :=
  (units.map (·.statements.length)).splitLengths affected

/-- The commands of one of the units are starved. -/
def Starves (units : List ExecutionUnit) (affected : List (Command × Nat)) : Prop :=
  ∃ share ∈ shares units affected, Starved share

/-- A session without failures, on which no check sees the wish to stop and each unit affects as many
rows as its commands do. -/
structure Session.Tallies (s : Session) (units : List ExecutionUnit)
    (affected : List (Command × Nat)) : Prop where
  /-- The transaction begins. -/
  begins : s.script.beginFailure = none
  /-- It can be committed. -/
  commits : s.script.commitFailure = none
  /-- It can be rolled back. -/
  rollsBack : s.script.rollbackFailure = none
  /-- No check sees the wish to stop. -/
  unstopped : ∀ i < units.length, ¬ s.StopSeen i
  /-- The answer to a unit is the sum over its commands. -/
  answered : ∀ (i : Nat) share, (shares units affected)[i]? = some share →
    s.answer i = .ok (.ofNat (totalRows share))

namespace ExecutionPlan

/-- A transaction that is rolled back and affects no rows. -/
def RollsBack (plan : ExecutionPlan) (s : Session) : Prop :=
  ∃ n v, outcome plan.run s = (.ok 0, v) ∧ v.events = s.events ++ plan.transacted n .rollback

/-- A transaction of all units that is committed and affects so many rows. -/
def Commits (plan : ExecutionPlan) (s : Session) (rows : Nat) : Prop :=
  ∃ (r : UInt64) (v : Session), outcome plan.run s = (.ok r, v) ∧ r.toNat = rows ∧
    v.events = s.events ++ plan.transacted plan.units.length .commit

/-- How a transaction enforces that commands affect rows. -/
structure Enforces (plan : ExecutionPlan) (s : Session) (affected : List (Command × Nat)) : Prop where
  /-- Without commands nothing is asked for. -/
  idle : affected = [] → outcome plan.run s = (.ok 0, s)
  /-- It is rolled back and affects no rows exactly when the commands of one of its units are
  starved. -/
  rolledBack : affected ≠ [] → (plan.RollsBack s ↔ Starves plan.units affected)
  /-- Otherwise it is committed, and affects the rows of all commands. -/
  committed : affected ≠ [] →
    (plan.Commits s (totalRows affected) ↔ ¬ Starves plan.units affected)
  /-- Starved commands are among them only if one that must affect rows affects none. -/
  starving : Starves plan.units affected → ∃ c ∈ affected, c.1.mustAffectRows = true ∧ c.2 = 0
  /-- Where the units of commands that must affect rows are not merged with others, one such command
  without rows is enough. -/
  apart : (∀ u ∈ plan.units, u.mustAffectRows = true → u.statements.length = 1) →
    (Starves plan.units affected ↔ ∃ c ∈ affected, c.1.mustAffectRows = true ∧ c.2 = 0)

/-- A transaction that is rolled back is not committed. -/
theorem RollsBack.not_commits {plan : ExecutionPlan} {s : Session} (h : plan.RollsBack s)
    (rows : Nat) : ¬ plan.Commits s rows := by
  rintro ⟨r, v, hv, -, hcommit⟩
  obtain ⟨n, w, hw, hrollback⟩ := h
  obtain rfl : w = v := (Prod.mk.inj (hw.symm.trans hv)).2
  have hcalls := List.append_cancel_left (hrollback.symm.trans hcommit)
  have hlast := congrArg List.getLast? hcalls
  simp [transacted, List.getLast?_cons] at hlast

end ExecutionPlan

/-- A unit carries the statements of these commands, and must affect rows when one of them must. -/
structure Carries (u : ExecutionUnit) (share : List (Command × Nat)) : Prop where
  /-- One statement for each command. -/
  length : u.statements.length = share.length
  /-- The flags of the commands, taken together. -/
  mustAffectRows : u.mustAffectRows = share.any (·.1.mustAffectRows)

/-- Rows of commands are counted unit by unit. -/
theorem totalRows_flatten (parts : List (List (Command × Nat))) :
    totalRows parts.flatten = (parts.map totalRows).sum := by
  rw [totalRows, List.map_flatten, List.sum_flatten, List.map_map]
  rfl

/-- Commands affect no rows together when none of them does. -/
theorem totalRows_eq_zero {share : List (Command × Nat)} :
    totalRows share = 0 ↔ ∀ c ∈ share, c.2 = 0 := by
  rw [totalRows, List.sum_eq_zero_iff_forall_eq_nat, List.forall_mem_map]

/-- Commands that are carried by a unit are starved when the unit must affect rows and they affect none
together. -/
theorem Carries.starved_iff {u : ExecutionUnit} {share : List (Command × Nat)}
    (h : Carries u share) :
    Starved share ↔ u.mustAffectRows = true ∧ totalRows share = 0 := by
  rw [Starved, h.mustAffectRows, List.any_eq_true, totalRows_eq_zero]

/-- Units that each carry one command are merged into a unit that carries them all. -/
theorem ExecutionUnit.Merges.carries {run : List ExecutionUnit} {unit : ExecutionUnit}
    (h : Merges run unit) {share : List (Command × Nat)}
    (hs : List.Forall₂ (fun u c => Carries u [c]) run share) : Carries unit share := by
  have hrun : (run.flatMap (·.statements)).length = share.length ∧
      run.any (·.mustAffectRows) = share.any (·.1.mustAffectRows) := by
    clear h
    induction hs with
    | nil => exact ⟨rfl, rfl⟩
    | cons hc _ ih =>
      refine ⟨?_, ?_⟩
      · rw [List.flatMap_cons, List.length_append, hc.length, ih.1, List.length_cons, Nat.add_comm]
        rfl
      · rw [List.any_cons, List.any_cons, hc.mustAffectRows, ih.2]
        simp
  exact ⟨h.statements_eq ▸ hrun.1, h.mustAffectRows_eq ▸ hrun.2⟩

/-- Merged units carry the commands of their runs, and no command is left out. -/
theorem Merges.carries_shares {runs : List (List ExecutionUnit)} {units : List ExecutionUnit}
    (h : List.Forall₂ Merges runs units) {affected : List (Command × Nat)}
    (ha : List.Forall₂ (fun u c => Carries u [c]) runs.flatten affected) :
    List.Forall₂ Carries units (shares units affected) ∧
      (shares units affected).flatten = affected := by
  induction h generalizing affected with
  | nil =>
    obtain rfl := List.forall₂_nil_left_iff.mp ha
    exact ⟨.nil, rfl⟩
  | @cons run unit runs units hm _ ih =>
    -- A unit has as many statements as its run has units, so its share is what its run affects.
    have hfirst := List.forall₂_take run.length ha
    have hrest := List.forall₂_drop run.length ha
    rw [List.flatten_cons, List.take_left] at hfirst
    rw [List.flatten_cons, List.drop_left] at hrest
    have hcarries := hm.carries hfirst
    have hlen : unit.statements.length = run.length :=
      hcarries.length.trans hfirst.length_eq.symm
    obtain ⟨hunits, hflat⟩ := ih hrest
    have hshares : shares (unit :: units) affected =
        affected.take run.length :: shares units (affected.drop run.length) := by
      rw [shares, List.map_cons, List.splitLengths_cons, hlen]
      rfl
    rw [hshares]
    exact ⟨.cons hcarries hunits, by rw [List.flatten_cons, hflat, List.take_append_drop]⟩

/-- Every command is carried by the unit it compiles to. -/
theorem Command.Compiles.carries {catalog : Catalog} {names final : NameSupply}
    {affected : List (Command × Nat)} {compiled : List ExecutionUnit}
    (h : Compiles catalog names (affected.map Prod.fst) compiled final) :
    List.Forall₂ (fun u c => Carries u [c]) compiled affected := by
  generalize hc : affected.map Prod.fst = commands at h
  induction h generalizing affected with
  | nil =>
    obtain rfl := List.map_eq_nil_iff.mp hc
    exact .nil
  | cons first _ ih =>
    obtain ⟨c, rest, rfl, rfl, rfl⟩ := List.map_eq_cons_iff.mp hc
    obtain ⟨⟨text, ht⟩, hflag, -⟩ := toUnit_statement first
    exact .cons ⟨by rw [ht]; rfl, by simp [hflag]⟩ (ih rfl)

/-- Planned units carry the commands in order, whatever the policy. -/
theorem Command.planAll_carries {catalog : Catalog} {policy : BatchPolicy}
    {affected : List (Command × Nat)} {units : List ExecutionUnit}
    (h : planAll catalog policy (affected.map Prod.fst) = .ok units) :
    List.Forall₂ Carries units (shares units affected) ∧
      (shares units affected).flatten = affected := by
  obtain ⟨compiled, final, hc, runs, hr, hm⟩ := planAll_runs h
  exact Merges.carries_shares hm (hr ▸ hc.carries)

/-- The session that tallies the rows of commands unit by unit. -/
def Session.tallying (units : List ExecutionUnit) (affected : List (Command × Nat)) : Session :=
  { script := { results := (shares units affected).map fun share => .ok (.ofNat (totalRows share)) } }

/-- It does tally them. -/
theorem Session.tallies_tallying (units : List ExecutionUnit) (affected : List (Command × Nat)) :
    (tallying units affected).Tallies units affected := by
  refine ⟨rfl, rfl, rfl, fun i _ => ?_, fun i share hs => ?_⟩
  · rintro (hc | ⟨k, hk, -⟩)
    · exact Bool.false_ne_true hc
    · exact Option.some_ne_none k hk.symm
  · rw [answer, tallying, List.getElem?_map, hs]
    rfl

namespace Session.Tallies

variable {s : Session} {units : List ExecutionUnit} {affected : List (Command × Nat)}
  (ht : s.Tallies units affected) (hc : List.Forall₂ Carries units (shares units affected))
  (hf : (shares units affected).flatten = affected) (hr : totalRows affected < UInt64.size)

include hf hr in
/-- The rows of one unit can be counted when those of all commands can. -/
theorem totalRows_lt {share : List (Command × Nat)} (hs : share ∈ shares units affected) :
    totalRows share < UInt64.size := by
  have hle : totalRows share ≤ totalRows affected := by
    rw [← hf, totalRows_flatten]
    exact List.le_sum_of_mem (List.mem_map_of_mem hs)
  exact Nat.lt_of_le_of_lt hle hr

include ht hf hr in
/-- Rows affected by the unit of some commands. -/
theorem rows_eq {i : Nat} {share : List (Command × Nat)}
    (hs : (shares units affected)[i]? = some share) : s.rows i = totalRows share := by
  rw [rows, ht.answered i share hs]
  exact UInt64.toNat_ofNat_of_lt' (totalRows_lt hf hr (List.mem_of_getElem? hs))

include ht hc hf hr in
/-- All units together affect the rows of all commands. -/
theorem affected_eq : s.affected units.length = totalRows affected := by
  have hrows : (List.range units.length).map s.rows = (shares units affected).map totalRows := by
    refine List.ext_getElem (by simp [hc.length_eq]) fun i _ hi => ?_
    have hi : i < (shares units affected).length := by simpa using hi
    rw [List.getElem_map, List.getElem_range, List.getElem_map]
    exact ht.rows_eq hf hr (List.getElem?_eq_getElem hi)
  rw [Session.affected, hrows, ← totalRows_flatten, hf]

include ht hc hf hr in
/-- A unit passes in a transaction unless its commands are starved. -/
theorem passes_iff {i : Nat} {u : ExecutionUnit} {share : List (Command × Nat)}
    (hu : units[i]? = some u) (hs : (shares units affected)[i]? = some share) :
    s.Passes true i u ↔ ¬ Starved share := by
  have hi : i < units.length := (List.getElem?_eq_some_iff.mp hu).1
  have hcarries : Carries u share := by
    obtain ⟨_, rfl⟩ := List.getElem?_eq_some_iff.mp hu
    obtain ⟨hj, rfl⟩ := List.getElem?_eq_some_iff.mp hs
    exact hc.get hi hj
  have hzero : (UInt64.ofNat (totalRows share) = 0) ↔ totalRows share = 0 := by
    rw [← UInt64.toNat_inj, UInt64.toNat_ofNat_of_lt'
      (totalRows_lt hf hr (List.mem_of_getElem? hs))]
    rfl
  rw [hcarries.starved_iff, not_and, ← hzero]
  constructor
  · rintro ⟨-, rows, hrows, hmust⟩ hu
    rw [ht.answered i share hs] at hrows
    exact Except.ok.inj hrows ▸ hmust rfl hu
  · exact fun h => ⟨ht.unstopped i hi, _, ht.answered i share hs, fun _ => h⟩

include ht hc hf hr in
/-- All units run exactly when the commands of none of them are starved. Otherwise one affects no rows
although it must. -/
theorem ending_eq :
    (¬ Starves units affected → s.ending true 0 units = (units.length, .finished)) ∧
      (Starves units affected → (s.ending true 0 units).2 = .noRows) := by
  have hclears : s.Clears true units units.length ↔ ¬ Starves units affected := by
    have hlen := hc.length_eq
    constructor
    · rintro h ⟨share, hs, hstarved⟩
      obtain ⟨i, hi, rfl⟩ := List.getElem_of_mem hs
      have hu := List.getElem?_eq_getElem (l := units) (i := i) (by omega)
      exact (ht.passes_iff hc hf hr hu (List.getElem?_eq_getElem hi)).mp
        (h i (by omega) _ hu) hstarved
    · intro h i hi u hu
      have hs := List.getElem?_eq_getElem (l := shares units affected) (i := i) (by omega)
      exact (ht.passes_iff hc hf hr hu hs).mpr fun hstarved =>
        h ⟨_, List.getElem_mem _, hstarved⟩
  refine ⟨fun h => (hclears.mpr h).ending, fun h => ?_⟩
  have hend : (s.ending true 0 units).2 = .finished ∨ (s.ending true 0 units).2 = .noRows :=
    Session.ending_finished_or_noRows fun j hj => by
      have hs := List.getElem?_eq_getElem (l := shares units affected) (i := j)
        (by have := hc.length_eq; omega)
      rw [Nat.zero_add]
      exact ⟨ht.unstopped j hj, _, ht.answered j _ hs⟩
  exact hend.resolve_left fun hfin => hclears.mp (Session.clears_length_iff.mpr hfin) h

end Session.Tallies

/-- The commands of one share are carried by one unit. -/
theorem exists_carries_of_mem {units : List ExecutionUnit} {parts : List (List (Command × Nat))}
    (hc : List.Forall₂ Carries units parts) {share : List (Command × Nat)} (hs : share ∈ parts) :
    ∃ u ∈ units, Carries u share := by
  induction hc with
  | nil => simp at hs
  | @cons u _ _ _ hu _ ih =>
    rcases List.mem_cons.mp hs with rfl | hs
    · exact ⟨u, List.mem_cons_self, hu⟩
    · obtain ⟨v, hv, hcarries⟩ := ih hs
      exact ⟨v, List.mem_cons_of_mem _ hv, hcarries⟩

/-- A plan whose units carry commands enforces their rows unit by unit, on a session that tallies
them. -/
theorem ExecutionPlan.enforces_of_carries {plan : ExecutionPlan} {s : Session}
    {affected : List (Command × Nat)} (hu : plan.useTransaction = true)
    (ht : s.Tallies plan.units affected)
    (hc : List.Forall₂ Carries plan.units (shares plan.units affected))
    (hf : (shares plan.units affected).flatten = affected)
    (hnil : affected = [] → plan.units = []) (hr : totalRows affected < UInt64.size) :
    plan.Enforces s affected := by
  have hin : ∀ share ∈ shares plan.units affected, ∀ c ∈ share, c ∈ affected :=
    fun share hs c hcs => hf ▸ List.mem_flatten.mpr ⟨share, hs, hcs⟩
  have hstarving : Starves plan.units affected →
      ∃ c ∈ affected, c.1.mustAffectRows = true ∧ c.2 = 0 := by
    rintro ⟨share, hs, ⟨c, hcs, hmust⟩, hzero⟩
    exact ⟨c, hin share hs c hcs, hmust, hzero c hcs⟩
  have hrun : affected ≠ [] → ∃ v, outcome plan.run s =
        ((s.ending true 0 plan.units).2.settled s.script plan.units.length
          (s.ending true 0 plan.units).1 (.ofNat (s.affected (s.ending true 0 plan.units).1)), v) ∧
      v.events = s.events ++ plan.transacted (s.ending true 0 plan.units).1
        (s.ending true 0 plan.units).2.closing := by
    intro hn
    have hunits : plan.units ≠ [] := fun he => hn (by rw [← hf, shares, he]; rfl)
    rw [plan.run_of_transaction hunits hu]
    exact plan.outcome_runTransaction ht.begins
  obtain ⟨hfin, hzero⟩ := ht.ending_eq hc hf hr
  have hcommits : affected ≠ [] → ¬ Starves plan.units affected →
      plan.Commits s (totalRows affected) := by
    intro hn hs
    obtain ⟨v, hv, hevents⟩ := hrun hn
    rw [hfin hs] at hv hevents
    simp only [UnitsEnd.settled, ht.commits, Option.elim_none] at hv
    refine ⟨_, v, hv, ?_, hevents⟩
    rw [ht.affected_eq hc hf hr]
    exact UInt64.toNat_ofNat_of_lt' hr
  have hrolls : affected ≠ [] → Starves plan.units affected → plan.RollsBack s := by
    intro hn hs
    obtain ⟨v, hv, hevents⟩ := hrun hn
    rw [hzero hs] at hv hevents
    simp only [UnitsEnd.settled, ht.rollsBack, Option.elim_none] at hv
    exact ⟨_, v, hv, hevents⟩
  refine ⟨fun hn => ?_, fun hn => ⟨fun hb => ?_, hrolls hn⟩, fun hn => ⟨fun hm hs => ?_, hcommits hn⟩,
    hstarving, fun hone => ⟨hstarving, ?_⟩⟩
  · exact plan.outcome_run_of_nil (hnil hn) s
  · by_contra hs
    exact hb.not_commits _ (hcommits hn hs)
  · exact (hrolls hn hs).not_commits _ hm
  · rintro ⟨c, hca, hmust, hrows⟩
    obtain ⟨share, hs, hcs⟩ := List.mem_flatten.mp (hf.symm ▸ hca)
    obtain ⟨u, hu, hcarries⟩ := exists_carries_of_mem hc hs
    have hflag : u.mustAffectRows = true := by
      rw [hcarries.mustAffectRows, List.any_eq_true]
      exact ⟨c, hcs, hmust⟩
    obtain ⟨d, rfl⟩ := List.length_eq_one_iff.mp (hcarries.length ▸ hone u hu hflag)
    obtain rfl := List.mem_singleton.mp hcs
    exact ⟨_, hs, ⟨c, hcs, hmust⟩, fun e he => List.mem_singleton.mp he ▸ hrows⟩

namespace Command

/-- Whatever the policy, a transaction of the planned units enforces the rows of its commands. -/
theorem planAll_enforces_units {catalog : Catalog} {policy : BatchPolicy}
    {affected : List (Command × Nat)} {units : List ExecutionUnit}
    (h : planAll catalog policy (affected.map Prod.fst) = .ok units) {s : Session}
    (ht : s.Tallies units affected) (hr : totalRows affected < UInt64.size)
    (isolation : Option Isolation) :
    ExecutionPlan.Enforces { units, useTransaction := true, isolation } s affected := by
  obtain ⟨hc, hf⟩ := planAll_carries h
  refine ExecutionPlan.enforces_of_carries rfl ht hc hf (fun hn => ?_) hr
  subst hn
  exact (Except.ok.inj h).symm

/-- Deletions from two tables, of which the first has to delete a row and deletes none: apart they are
rolled back, but as one unit they are committed. -/
theorem planAll_hides_zero :
    let affected := [({ ofDelete "User" with mustAffectRows := true }, 0), (ofDelete "Log", 3)]
    (∃ c ∈ affected, c.1.mustAffectRows = true ∧ c.2 = 0) ∧ ∃ us vs,
      planAll {} (Thresholds.ofRequest (some 1) none).toPolicy (affected.map Prod.fst) = .ok us ∧
      planAll {} Thresholds.unbounded.toPolicy (affected.map Prod.fst) = .ok vs ∧
      ExecutionPlan.RollsBack { units := us, useTransaction := true } (.tallying us affected) ∧
      ExecutionPlan.Commits { units := vs, useTransaction := true } (.tallying vs affected) 3 := by
  intro affected
  have hr : totalRows affected < UInt64.size := by decide
  have happly : ∀ policy : BatchPolicy, ∀ units,
      planAll {} policy (affected.map Prod.fst) = .ok units →
      ExecutionPlan.Enforces { units, useTransaction := true } (.tallying units affected) affected :=
    fun policy units h => planAll_enforces_units h (Session.tallies_tallying units affected) hr none
  obtain ⟨us, hus, hapart⟩ : ∃ us,
      planAll {} (Thresholds.ofRequest (some 1) none).toPolicy (affected.map Prod.fst) = .ok us ∧
      shares us affected = affected.map ([·]) := ⟨_, rfl, rfl⟩
  obtain ⟨vs, hvs, htogether⟩ : ∃ vs,
      planAll {} Thresholds.unbounded.toPolicy (affected.map Prod.fst) = .ok vs ∧
      shares vs affected = [affected] := ⟨_, rfl, rfl⟩
  refine ⟨⟨_, List.mem_cons_self, rfl, rfl⟩, us, vs, hus, hvs, ?_, ?_⟩
  · refine ((happly _ us hus).rolledBack (by simp [affected])).mpr ?_
    refine ⟨_, by rw [hapart]; exact List.mem_cons_self, ⟨_, List.mem_cons_self, rfl⟩, ?_⟩
    exact fun c hc => List.mem_singleton.mp hc ▸ rfl
  · refine ((happly _ vs hvs).committed (by simp [affected])).mpr ?_
    rintro ⟨share, hs, -, hzero⟩
    rw [htogether, List.mem_singleton] at hs
    subst hs
    exact absurd (hzero (ofDelete "Log", 3) (by simp [affected])) (by decide)

/-- A transaction is rolled back, and returns no rows, exactly when one of its units holds a command
that must affect rows and no command of this unit affects any; otherwise it is committed, and returns the
rows of all commands. Two policies agree exactly when both plans have such a unit, or neither. -/
theorem planAll_enforces {catalog : Catalog} {left right : BatchPolicy}
    {affected : List (Command × Nat)} (hr : totalRows affected < UInt64.size)
    {us vs : List ExecutionUnit}
    (hu : planAll catalog left (affected.map Prod.fst) = .ok us)
    (hv : planAll catalog right (affected.map Prod.fst) = .ok vs)
    {s t : Session} (hs : s.Tallies us affected) (ht : t.Tallies vs affected)
    (isolation : Option Isolation) :
    let first : ExecutionPlan := { units := us, useTransaction := true, isolation }
    let second : ExecutionPlan := { units := vs, useTransaction := true, isolation }
    first.Enforces s affected ∧ second.Enforces t affected ∧
      (affected ≠ [] →
        ((first.RollsBack s ∧ second.RollsBack t ∨
            first.Commits s (totalRows affected) ∧ second.Commits t (totalRows affected)) ↔
          (Starves us affected ↔ Starves vs affected))) := by
  intro first second
  have hfirst : first.Enforces s affected := planAll_enforces_units hu hs hr isolation
  have hsecond : second.Enforces t affected := planAll_enforces_units hv ht hr isolation
  refine ⟨hfirst, hsecond, fun hn => ?_⟩
  rw [hfirst.rolledBack hn, hsecond.rolledBack hn, hfirst.committed hn, hsecond.committed hn]
  exact iff_iff_and_or_not_and_not.symm

/-- The same two deletions with rows for the first one: both plans are committed, and return the rows of
both. -/
theorem planAll_enforces_deletions :
    let affected := [({ ofDelete "User" with mustAffectRows := true }, 2), (ofDelete "Log", 0)]
    ∃ us vs, totalRows affected < UInt64.size ∧
      planAll {} (Thresholds.ofRequest (some 1) none).toPolicy (affected.map Prod.fst) = .ok us ∧
      planAll {} Thresholds.unbounded.toPolicy (affected.map Prod.fst) = .ok vs ∧
      us.length = 2 ∧ vs.length = 1 ∧
      ExecutionPlan.Commits { units := us, useTransaction := true } (.tallying us affected) 2 ∧
      ExecutionPlan.Commits { units := vs, useTransaction := true } (.tallying vs affected) 2 := by
  intro affected
  have hr : totalRows affected < UInt64.size := by decide
  obtain ⟨us, hus, hul⟩ : ∃ us, planAll {} (Thresholds.ofRequest (some 1) none).toPolicy
      (affected.map Prod.fst) = .ok us ∧ us.length = 2 := ⟨_, rfl, rfl⟩
  obtain ⟨vs, hvs, hvl⟩ : ∃ vs, planAll {} Thresholds.unbounded.toPolicy
      (affected.map Prod.fst) = .ok vs ∧ vs.length = 1 := ⟨_, rfl, rfl⟩
  obtain ⟨hfirst, hsecond, -⟩ := planAll_enforces hr hus hvs
    (Session.tallies_tallying us affected) (Session.tallies_tallying vs affected) none
  have hzero : ¬ ∃ c ∈ affected, c.1.mustAffectRows = true ∧ c.2 = 0 := by
    rintro ⟨c, hc, hmust, hrows⟩
    rcases List.mem_cons.mp hc with rfl | hc
    · exact absurd hrows (by decide)
    · rw [List.mem_singleton.mp hc] at hmust
      exact absurd hmust (by decide)
  exact ⟨us, vs, hr, hus, hvs, hul, hvl,
    (hfirst.committed (by simp [affected])).mpr fun h => hzero (hfirst.starving h),
    (hsecond.committed (by simp [affected])).mpr fun h => hzero (hsecond.starving h)⟩

end Command

end AbstractSql
