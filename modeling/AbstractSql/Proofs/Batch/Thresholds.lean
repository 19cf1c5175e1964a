import AbstractSql.Proofs.Batch.Clashes
import Mathlib

/-!
# Groups within thresholds

A group that thresholds are put on is open only below both of them, so one more statement keeps it
within the number of statements, and it admits no unit that would bring it above the number of
parameters. Where one group ends and another follows, the first has reached a threshold or has no
room for the next unit. Without statement texts the parameters of merged units never share a name,
so for units of one size the number of groups can be computed.
-/

namespace AbstractSql

open ExecutionUnit (Merges)

/-- Inserting makes a set larger by one entry at most. -/
theorem ParameterSet.size_insert_le (set : ParameterSet) (p : Parameter) :
    (set.insert p).size ≤ set.size + 1 := by
  obtain ⟨items⟩ := set
  unfold size insert
  induction items with
  | nil => exact Nat.le_refl 1
  | cons q rest ih =>
    unfold insertItem
    split
    · exact Nat.le_succ _
    · rw [List.length_cons, List.length_cons]
      exact Nat.succ_le_succ ih

/-- A union is not larger than both sets together. -/
theorem ParameterSet.size_union_le (set other : ParameterSet) :
    (set.union other).size ≤ set.size + other.size := by
  obtain ⟨items⟩ := other
  induction items generalizing set with
  | nil => exact Nat.le_refl _
  | cons p rest ih =>
    have hinsert := set.size_insert_le p
    have hrest := ih (set.insert p)
    have hunion : set.union ⟨p :: rest⟩ = (set.insert p).union ⟨rest⟩ := rfl
    rw [hunion]
    simp only [size, List.length_cons] at hinsert hrest ⊢
    omega

namespace ExecutionUnit.Merges

variable {run : List ExecutionUnit} {unit : ExecutionUnit}

/-- A run holds some unit. -/
theorem ne_nil (h : Merges run unit) : run ≠ [] := by
  cases h <;> exact List.cons_ne_nil _ _

/-- Where the planned unit need not stay alone, no unit of the run has to. -/
theorem admitted (h : Merges run unit) (ha : unit.performAlone = false) :
    ∀ v ∈ run, v.performAlone = false := by
  cases h with
  | alone stays => exact absurd (stays.symm.trans ha) Bool.noConfusion
  | merged admitted => exact admitted

/-- Units of one statement each are merged to a unit of as many statements. -/
theorem statements_length (h : Merges run unit) (hone : ∀ v ∈ run, v.statements.length = 1) :
    unit.statements.length = run.length := by
  rw [h.statements_eq, List.length_flatMap, List.map_congr_left hone, List.map_const',
    List.sum_replicate_nat, Nat.mul_one]

end ExecutionUnit.Merges

namespace Thresholds

variable {t : Thresholds} {u next : ExecutionUnit}

/-- A threshold is at least 1. -/
theorem one_le_clamp (asked : Option Int64) : 1 ≤ clamp asked := by
  cases asked with
  | none => decide
  | some n => exact Nat.le_max_left 1 _

/-- A threshold that is asked for is below the largest size. -/
theorem clamp_lt (n : Int64) : clamp (some n) < sizeLimit := by
  have hn : n.toInt < 2 ^ 63 := n.toInt_lt
  have hl : sizeLimit = 2 ^ 64 - 1 := by decide
  rw [clamp, hl]
  omega

/-- A unit within the thresholds. A single statement may bring more parameters than a group may
have. Parameters are counted up to the largest size. -/
structure Holds (t : Thresholds) (u : ExecutionUnit) : Prop where
  /-- There are not too many statements. -/
  statements : u.statements.length ≤ t.statements
  /-- There are not too many parameters. -/
  parameters : u.statements.length = 1 ∨ min u.parameters.size sizeLimit ≤ t.parameters

/-- A unit with no room for the next one: it has reached one of the thresholds, or the parameters of
both together are too many. -/
def Closes (t : Thresholds) (u next : ExecutionUnit) : Prop :=
  u.statements.length = t.statements ∨ t.parameters ≤ u.parameters.size ∨
    t.parameters < u.parameters.size + next.parameters.size

/-- A unit of one statement is within the thresholds. -/
theorem Holds.single (hs : 1 ≤ t.statements) (hu : u.statements.length = 1) : t.Holds u :=
  ⟨hu ▸ hs, .inl hu⟩

/-- A group that is not full and admits a unit of one statement holds it. -/
theorem Holds.merge (hu : t.toPolicy.isFull u.size = false)
    (hn : next.statements.length = 1) (ha : t.toPolicy.admits u.size next.size = true) :
    t.Holds (u.merge next) := by
  have hopen : u.statements.length < t.statements := by
    simp only [toPolicy, ExecutionUnit.size, Bool.or_eq_false_iff, decide_eq_false_iff_not] at hu
    exact Nat.lt_of_not_le hu.1
  have hsum : min (u.parameters.size + next.parameters.size) sizeLimit ≤ t.parameters :=
    of_decide_eq_true ha
  have hunion := u.parameters.size_union_le next.parameters
  constructor
  · simp only [ExecutionUnit.merge, List.length_append]
    omega
  · exact .inr ((min_le_min_right sizeLimit hunion).trans hsum)

/-- A full unit has no room. -/
theorem Closes.of_isFull (h : t.Holds u) (hu : t.toPolicy.isFull u.size = true) : t.Closes u next := by
  simp only [toPolicy, ExecutionUnit.size, Bool.or_eq_true, decide_eq_true_eq] at hu
  exact hu.imp (Nat.le_antisymm h.statements) .inl

/-- A unit that does not admit the next one has no room. -/
theorem Closes.of_not_admits (ha : t.toPolicy.admits u.size next.size = false) :
    t.Closes u next := by
  have hsum : ¬ min (u.parameters.size + next.parameters.size) sizeLimit ≤ t.parameters :=
    of_decide_eq_false ha
  exact .inr (.inr (lt_of_not_ge fun hle => hsum (min_le_of_left_le hle)))

/-- Planned units of runs, within thresholds and as large as these allow. -/
structure Groups (t : Thresholds) (runs : List (List ExecutionUnit)) (units : List ExecutionUnit) :
    Prop where
  /-- Every unit is that of its run. -/
  merges : List.Forall₂ Merges runs units
  /-- Units that need not stay alone are within the thresholds. -/
  holds : ∀ u ∈ units, u.performAlone = false → t.Holds u
  /-- Of two consecutive ones, the first has no room for the unit that the run of the second begins
  with. -/
  maximal : (runs.zip units).IsChain fun first second =>
    first.2.performAlone = false → second.2.performAlone = false →
      ∃ next ∈ second.1.head?, t.Closes first.2 next

namespace Groups

variable {run : List ExecutionUnit} {runs : List (List ExecutionUnit)} {units : List ExecutionUnit}

/-- No units at all. -/
theorem nil : t.Groups [] [] := ⟨.nil, by simp, .nil⟩

/-- One more unit in front, which has no room for the unit after it. -/
theorem cons (hm : Merges run u) (hu : u.performAlone = false → t.Holds u)
    (hc : u.performAlone = false → ∀ next ∈ runs.flatten.head?, next.performAlone = false →
      t.Closes u next) (h : t.Groups runs units) : t.Groups (run :: runs) (u :: units) where
  merges := .cons hm h.merges
  holds := List.forall_mem_cons.mpr ⟨hu, h.holds⟩
  maximal := by
    rw [List.zip_cons_cons, List.isChain_cons]
    refine ⟨fun second hsecond ha hb => ?_, h.maximal⟩
    cases h.merges with
    | nil => exact absurd hsecond (by simp)
    | @cons after v runs units hfirst others =>
      obtain rfl : (after, v) = second := by simpa using hsecond
      obtain ⟨next, rest, rfl⟩ := List.exists_cons_of_ne_nil hfirst.ne_nil
      exact ⟨next, rfl, hc ha next rfl (hfirst.admitted hb next List.mem_cons_self)⟩

/-- An open group is closed in front of units that it has no room for. -/
theorem close {pending : Option ExecutionUnit} {opened : List ExecutionUnit}
    (ho : Opened pending opened) (hp : ∀ g ∈ pending, t.Holds g)
    (hc : ∀ g ∈ pending, ∀ next ∈ runs.flatten.head?, next.performAlone = false → t.Closes g next)
    (h : t.Groups runs units) :
    ∃ all : List (List ExecutionUnit), all.flatten = opened ++ runs.flatten ∧
      t.Groups all (pending.toList ++ units) := by
  cases ho with
  | none => exact ⟨runs, rfl, h⟩
  | some admitted =>
    exact ⟨_ :: runs, List.flatten_cons,
      h.cons (.merged admitted) (fun _ => hp _ rfl) fun _ => hc _ rfl⟩

end Groups

/-- A group is closed when it is full, and kept open for the next units otherwise. -/
def place (t : Thresholds) (g : ExecutionUnit) (rest : List ExecutionUnit) : List ExecutionUnit :=
  if t.toPolicy.isFull g.size then g :: t.toPolicy.group none rest
  else t.toPolicy.group (some g) rest

/-- Thresholds are respected in grouping units of one statement each, after a group that is still
open. The induction carries that the open group is within the thresholds and below both. -/
theorem group_groups (hs : 1 ≤ t.statements) {us : List ExecutionUnit}
    (hone : ∀ u ∈ us, u.statements.length = 1) {pending : Option ExecutionUnit}
    {opened : List ExecutionUnit} (ho : Opened pending opened)
    (hp : ∀ g ∈ pending, t.Holds g ∧ t.toPolicy.isFull g.size = false) :
    ∃ runs : List (List ExecutionUnit), runs.flatten = opened ++ us ∧
      t.Groups runs (t.toPolicy.group pending us) := by
  induction us generalizing pending opened with
  | nil =>
    obtain ⟨runs, hruns, hg⟩ := Groups.nil.close ho (fun g hg => (hp g hg).1) (by simp)
    exact ⟨runs, hruns, by simpa [BatchPolicy.group] using hg⟩
  | cons u rest ih =>
    obtain ⟨hu, hrest⟩ := List.forall_mem_cons.mp hone
    have hplace : ∀ {g : ExecutionUnit} {run : List ExecutionUnit}, Opened (some g) run →
        t.Holds g → ∃ runs : List (List ExecutionUnit), runs.flatten = run ++ rest ∧
          t.Groups runs (t.place g rest) := by
      intro g run hrun hg
      unfold place
      split
      · next hfull =>
        obtain ⟨runs, rfl, hafter⟩ := ih hrest .none (by simp)
        exact hafter.close hrun (by simpa using hg) (by simpa using fun _ _ _ => .of_isFull hg hfull)
      · next hopen => exact ih hrest hrun (by simpa using ⟨hg, by simpa using hopen⟩)
    by_cases ha : u.performAlone = true
    · obtain ⟨runs, hruns, hafter⟩ := ih hrest .none (by simp)
      have halone : t.Groups ([u] :: runs) (u :: t.toPolicy.group none rest) :=
        hafter.cons (.alone ha) (by simp [ha]) (by simp [ha])
      obtain ⟨all, hall, hg⟩ := halone.close ho (fun g hg => (hp g hg).1) (by simp [ha])
      refine ⟨all, by simpa [hruns] using hall, ?_⟩
      unfold BatchPolicy.group
      rw [if_pos ha]
      exact hg
    · have hadmitted : u.performAlone = false := by simpa using ha
      obtain ⟨runs, hruns, hsingle⟩ := hplace (.single hadmitted) (.single hs hu)
      have hstart : ∀ g ∈ pending, t.toPolicy.admits g.size u.size = false →
          ∃ all : List (List ExecutionUnit), all.flatten = opened ++ u :: rest ∧
            t.Groups all (g :: t.place u rest) := by
        intro g hg hadmits
        obtain rfl : pending = some g := hg
        obtain ⟨all, hall, hgroups⟩ := hsingle.close ho (fun g hg => (hp g hg).1)
          (by simpa [hruns] using fun _ => Closes.of_not_admits hadmits)
        exact ⟨all, hall.trans (by rw [hruns]; rfl), hgroups⟩
      cases pending with
      | none =>
        cases ho
        refine ⟨runs, hruns, ?_⟩
        rw [BatchPolicy.group, if_neg ha]
        exact hsingle
      | some g =>
        obtain ⟨hg, hopen⟩ := hp g rfl
        rw [BatchPolicy.group, if_neg ha]
        by_cases hadmits : t.toPolicy.admits g.size u.size = true
        · obtain ⟨all, hall, hgroups⟩ := hplace (ho.concat hadmitted) (.merge hopen hu hadmits)
          rw [if_pos hadmits]
          exact ⟨all, by simpa using hall, hgroups⟩
        · obtain ⟨all, hall, hgroups⟩ := hstart g rfl (by simpa using hadmits)
          rw [if_neg hadmits]
          refine ⟨all, hall, ?_⟩
          unfold place at hgroups
          split at hgroups
          · next hfull => rwa [if_pos hfull]
          · next hopen => rwa [if_neg hopen]

/-- Groups of equal units: all but the last have as many statements as they may. -/
structure Filled (k : Nat) (sizes : List Nat) : Prop where
  /-- No group is empty. -/
  pos : ∀ n ∈ sizes, 1 ≤ n
  /-- No group has more. -/
  le : ∀ n ∈ sizes, n ≤ k
  /-- A group with another one after it has no less. -/
  chain : sizes.IsChain fun n _ => n = k

/-- The number of groups that fill up one after another. -/
theorem Filled.length_eq {k : Nat} {sizes : List Nat} (hk : 1 ≤ k) (h : Filled k sizes) :
    sizes.length = sizes.sum ⌈/⌉ k := by
  induction sizes with
  | nil => exact (zero_ceilDiv k).symm
  | cons n rest ih =>
    obtain ⟨hn, hpos⟩ := List.forall_mem_cons.mp h.pos
    obtain ⟨hle, hrest⟩ := List.forall_mem_cons.mp h.le
    have hcount := ih ⟨hpos, hrest, h.chain.tail⟩
    rw [List.length_cons, List.sum_cons, hcount, Nat.ceilDiv_eq_add_pred_div,
      Nat.ceilDiv_eq_add_pred_div]
    cases rest with
    | nil =>
      rw [List.sum_nil, Nat.zero_add, Nat.add_zero, Nat.div_eq_of_lt (Nat.sub_lt hk Nat.one_pos),
        Nat.div_eq_of_lt_le (k := 0 + 1)] <;> omega
    | cons m others =>
      obtain ⟨rfl, -⟩ := List.isChain_cons_cons.mp h.chain
      rw [Nat.add_assoc, Nat.add_sub_assoc (Nat.le_add_left_of_le hn) n, Nat.add_div_left _ hk]

namespace Groups

variable {P : Nat} {runs : List (List ExecutionUnit)} {units : List ExecutionUnit}

/-- Units of one size are put together to as many as there is room for. -/
theorem filled (h : t.Groups runs units) (hp : 1 ≤ P)
    (hpos : ∀ u ∈ units, 1 ≤ u.statements.length)
    (hone : ∀ u ∈ runs.flatten, u.parameters.size = P)
    (hsizes : ∀ u ∈ units, u.performAlone = false ∧ u.parameters.size = u.statements.length * P)
    (hbelow : ∀ u ∈ units, u.parameters.size ≤ t.parameters) :
    Filled (min t.statements (t.parameters / P)) (units.map (·.statements.length)) := by
  have hle : ∀ u ∈ units, u.statements.length ≤ min t.statements (t.parameters / P) := by
    intro u hu
    obtain ⟨ha, hsize⟩ := hsizes u hu
    exact le_min (h.holds u hu ha).statements ((Nat.le_div_iff_mul_le hp).mpr (hsize ▸ hbelow u hu))
  refine ⟨List.forall_mem_map.mpr hpos, List.forall_mem_map.mpr hle, ?_⟩
  have hpairs : units.map (·.statements.length) =
      (runs.zip units).map fun pair => pair.2.statements.length := by
    have hunits := congrArg (List.map (·.statements.length))
      (List.map_snd_zip h.merges.length_eq.ge)
    rw [← hunits, List.map_map]
    rfl
  rw [hpairs, List.isChain_map]
  refine List.IsChain.imp_of_mem_imp (fun first second hfirst hsecond hroom => ?_) h.maximal
  obtain ⟨hrun, hunit⟩ := List.of_mem_zip (a := second.1) (b := second.2) hsecond
  obtain ⟨-, hu⟩ := List.of_mem_zip (a := first.1) (b := first.2) hfirst
  obtain ⟨ha, hsize⟩ := hsizes first.2 hu
  obtain ⟨next, hnext, hclosed⟩ := hroom ha (hsizes second.2 hunit).1
  have hown : next.parameters.size = P :=
    hone next (List.mem_flatten.mpr ⟨second.1, hrun, List.mem_of_mem_head? hnext⟩)
  refine Nat.le_antisymm (hle first.2 hu) ?_
  rcases hclosed with hfull | hfull | hmore
  · exact hfull ▸ Nat.min_le_left _ _
  · refine (Nat.min_le_right _ _).trans (Nat.div_le_of_le_mul ?_)
    rwa [Nat.mul_comm, ← hsize]
  · refine (Nat.min_le_right _ _).trans (Nat.le_of_lt_succ (Nat.div_lt_of_lt_mul ?_))
    rw [Nat.succ_eq_add_one, Nat.mul_comm, Nat.add_mul, Nat.one_mul, ← hsize, ← hown]
    exact hmore

/-- The number of units, when all are of one size. Without a threshold on the parameters, all of
them have to be countable. -/
theorem length_eq (h : t.Groups runs units) (hs : 1 ≤ t.statements) (hp : 1 ≤ P)
    (hstatements : ∀ u ∈ runs.flatten, u.statements.length = 1)
    (hone : ∀ u ∈ runs.flatten, u.parameters.size = P)
    (hsizes : ∀ u ∈ units, u.performAlone = false ∧ u.parameters.size = u.statements.length * P)
    (hlimit : t.parameters < sizeLimit ∨ runs.flatten.length * P ≤ sizeLimit) :
    units.length = if P ≤ t.parameters then
      runs.flatten.length ⌈/⌉ min t.statements (t.parameters / P) else runs.flatten.length := by
  have hsum : (units.map (·.statements.length)).sum = runs.flatten.length := by
    have hall := congrArg List.length (Merges.flatMap_statements h.merges)
    rwa [List.length_flatMap, List.length_flatMap, List.map_congr_left hstatements,
      List.map_const', List.sum_replicate_nat, Nat.mul_one] at hall
  have hpos : ∀ u ∈ units, 1 ≤ u.statements.length := by
    intro u hu
    obtain ⟨i, hi, rfl⟩ := List.getElem_of_mem hu
    have hrun : i < runs.length := h.merges.length_eq ▸ hi
    have hm : Merges runs[i] units[i] := h.merges.get hrun hi
    have hin : ∀ v ∈ runs[i], v.statements.length = 1 := fun v hv =>
      hstatements v (List.mem_flatten.mpr ⟨runs[i], List.getElem_mem hrun, hv⟩)
    rw [hm.statements_length hin]
    exact List.length_pos_iff.mpr hm.ne_nil
  have hcount : ∀ u ∈ units, u.parameters.size ≤ sizeLimit ∨ t.parameters < sizeLimit := by
    intro u hu
    refine hlimit.symm.imp_left fun hall => ?_
    rw [(hsizes u hu).2]
    refine (Nat.mul_le_mul_right P ?_).trans hall
    rw [← hsum]
    exact List.single_le_sum (by simp) _ (List.mem_map_of_mem hu)
  split
  · next ht =>
    have hbelow : ∀ u ∈ units, u.parameters.size ≤ t.parameters := by
      intro u hu
      obtain ⟨ha, hsize⟩ := hsizes u hu
      rcases (h.holds u hu ha).parameters with hsingle | hmin
      · rwa [hsize, hsingle, Nat.one_mul]
      · have := hcount u hu
        omega
    have hk : 1 ≤ min t.statements (t.parameters / P) := le_min hs (Nat.div_pos ht hp)
    rw [← List.length_map, (h.filled hp hpos hone hsizes hbelow).length_eq hk, hsum]
  · next ht =>
    have hsingle : ∀ u ∈ units, u.statements.length = 1 := by
      intro u hu
      obtain ⟨ha, hsize⟩ := hsizes u hu
      refine (h.holds u hu ha).parameters.resolve_right fun hmin => ht ?_
      have hmany : P ≤ u.parameters.size := hsize ▸ Nat.le_mul_of_pos_left P (hpos u hu)
      have := hcount u hu
      omega
    rw [← hsum, List.map_congr_left hsingle, List.map_const', List.sum_replicate_nat, Nat.mul_one]

end Groups

end Thresholds

/-- Sources without statement texts bind one entry each. -/
theorem ledger_length {names : NameSupply} {sources : List Source}
    (hf : ∀ source ∈ sources, source.isText = false) :
    (ledger names sources).1.length = sources.length := by
  induction sources generalizing names with
  | nil => rfl
  | cons source rest ih =>
    obtain ⟨hs, hrest⟩ := List.forall_mem_cons.mp hf
    cases source with
    | value base content => simp [ledger, Source.bind, ih hrest]
    | text raw => exact absurd hs (by simp [Source.isText])

namespace Command

variable {catalog : Catalog} {names final : NameSupply} {commands : List Command}

/-- Without statement texts every source has a parameter of its own. -/
theorem Collected.size {sources : List Source} {parameters : ParameterSet}
    (h : Collected sources names final parameters)
    (hf : ∀ source ∈ sources, source.isText = false) : parameters.size = sources.length := by
  have hbound : (Entry.parameters (ledger names sources).1).Pairwise fun p q => p.name ≠ q.name :=
    List.pairwise_map.mpr ((ledger_pairwise names sources).imp_of_mem
      fun _ he hne => hne (isText_ledger hf _ he))
  have hnames : parameters.names.Perm ((Entry.parameters (ledger names sources).1).map (·.name)) := by
    refine (List.perm_ext_iff_of_nodup (List.pairwise_map.mpr h.distinct)
      (List.pairwise_map.mpr hbound)).mpr fun name => ?_
    have hnone : parameters.get? name = none ↔
        ∀ p ∈ Entry.parameters (ledger names sources).1, p.name ≠ name := by
      rw [h.get? name, ParameterSet.latest_eq_none]
    have hmem := not_congr hnone
    simpa [ParameterSet.names, ParameterSet.get?] using hmem
  have hlength := hnames.length_eq
  rw [List.length_map, List.length_map, ledger_length hf] at hlength
  simpa [ParameterSet.names, ParameterSet.size] using hlength

/-- Sources of commands without statement texts. -/
theorem isText_sourcesAll (hf : ∀ c ∈ commands, TextFree (c.sites catalog)) :
    ∀ source ∈ sourcesAll catalog commands, source.isText = false := by
  intro source hs
  obtain ⟨c, hc, hin⟩ := List.mem_flatMap.mp hs
  obtain ⟨site, hsite, rfl⟩ := List.mem_map.mp hin
  exact hf c hc site hsite

/-- The parameters of compiled units without statement texts are counted by their sources. -/
theorem Compiles.sum_size {us : List ExecutionUnit} (h : Compiles catalog names commands us final)
    (hd : ∀ c ∈ commands, c.IsData) (hf : ∀ c ∈ commands, TextFree (c.sites catalog)) :
    (us.map fun u => u.parameters.size).sum = (sourcesAll catalog commands).length := by
  induction h with
  | nil => rfl
  | @cons names middle final c u rest us first _ ih =>
    obtain ⟨hdata, hdatas⟩ := List.forall_mem_cons.mp hd
    obtain ⟨hfree, hfrees⟩ := List.forall_mem_cons.mp hf
    have hown : ∀ source ∈ c.sources catalog, source.isText = false := by
      have hone : ∀ d ∈ [c], TextFree (d.sites catalog) := by simpa using hfree
      simpa [sourcesAll] using isText_sourcesAll hone
    rw [List.map_cons, List.sum_cons, ih hdatas hfrees, (toUnit_collected hdata first).size hown,
      sourcesAll_cons, List.length_append]

/-- Merged units without statement texts share no parameter, so units of one size are merged to a
unit of as many times that size as it has statements. -/
theorem Compiles.merged_size {P : Nat} {run : List ExecutionUnit} {unit : ExecutionUnit}
    (h : Compiles catalog names commands run final)
    (hf : ∀ c ∈ commands, TextFree (c.sites catalog))
    (hp : ∀ u ∈ run, u.performAlone = false ∧ u.parameters.size = P) (hm : Merges run unit) :
    unit.parameters.size = unit.statements.length * P := by
  have hd : ∀ c ∈ commands, c.IsData := h.isData fun u hu => (hp u hu).1
  have hsizes : run.map (fun u => u.parameters.size) = List.replicate run.length P :=
    List.map_congr_left (fun u hu => (hp u hu).2) |>.trans (List.map_const' ..)
  rw [(h.merged_collected hd hm).size (isText_sourcesAll hf), ← h.sum_size hd hf, hsizes,
    List.sum_replicate_nat, hm.statements_length h.statements]

/-- The sizes of all planned units of runs. -/
theorem Compiles.planned_sizes {P : Nat} {runs : List (List ExecutionUnit)}
    {units : List ExecutionUnit} (hm : List.Forall₂ Merges runs units)
    (h : Compiles catalog names commands runs.flatten final)
    (hf : ∀ c ∈ commands, TextFree (c.sites catalog))
    (hp : ∀ u ∈ runs.flatten, u.performAlone = false ∧ u.parameters.size = P) :
    ∀ unit ∈ units, unit.performAlone = false ∧
      unit.parameters.size = unit.statements.length * P := by
  induction hm generalizing names commands with
  | nil => simp
  | @cons run unit runs units hmerge _ ih =>
    obtain ⟨before, after, middle, rfl, hb, ha⟩ := h.split
    obtain ⟨hpb, hpa⟩ := List.forall_mem_append.mp hp
    obtain ⟨hfb, hfa⟩ := List.forall_mem_append.mp hf
    refine List.forall_mem_cons.mpr ⟨⟨?_, hb.merged_size hfb hpb hmerge⟩, ih ha hfa hpa⟩
    cases hmerge with
    | alone stays => exact (hpb _ List.mem_cons_self).1
    | merged admitted =>
      exact (ExecutionUnit.mergeAll_performAlone _ _).trans (admitted _ List.mem_cons_self)

/-- Thresholds are respected, and a group ends only where it has no room for the next command.
Commands without statement texts, each compiled to a unit of `P` parameters, are planned into groups
of as many as both thresholds allow. Sums of parameters stop at the largest size, so without a
threshold on them their number has to be below it. -/
theorem planAll_respects_thresholds {statements parameters : Option Int64}
    {units : List ExecutionUnit}
    (h : planAll catalog (Thresholds.ofRequest statements parameters).toPolicy commands =
      .ok units) :
    let t := Thresholds.ofRequest statements parameters
    ∃ runs final, Compiles catalog {} commands runs.flatten final ∧ t.Groups runs units ∧
      ∀ P, 1 ≤ P → (∀ c ∈ commands, TextFree (c.sites catalog)) →
        (∀ u ∈ runs.flatten, u.performAlone = false ∧ u.parameters.size = P) →
        (parameters = none → commands.length * P ≤ sizeLimit) →
        units.length = if P ≤ t.parameters then
          commands.length ⌈/⌉ min t.statements (t.parameters / P) else commands.length := by
  intro t
  obtain ⟨compiled, final, hc, rfl⟩ := planAll_eq_ok.mp h
  have hs : 1 ≤ t.statements := Thresholds.one_le_clamp statements
  obtain ⟨runs, rfl, hg⟩ := Thresholds.group_groups hs hc.statements .none (by simp)
  refine ⟨runs, final, hc, hg, fun P hp hf hone hlimit => ?_⟩
  rw [← hc.length_eq]
  refine hg.length_eq hs hp hc.statements (fun u hu => (hone u hu).2)
    (hc.planned_sizes hg.merges hf hone) ?_
  cases parameters with
  | none => exact .inr (hc.length_eq ▸ hlimit rfl)
  | some n => exact .inl (Thresholds.clamp_lt n)

/-- Seven updates with two parameters each, of which a unit has room for three: the threshold on the
parameters is reached before the one on the statements. -/
theorem planAll_respects_thresholds_seven :
    let update (id : Int64) := ((ofUpdate "User").set "name" (.string "x")).filtered
      ((Query.ofEntity "User").equal "id" (.int id))
    let commands := [update 1, update 2, update 3, update 4, update 5, update 6, update 7]
    ∃ units runs, planAll {} (Thresholds.ofRequest (some 5) (some 6)).toPolicy commands =
        .ok units ∧
      (Thresholds.ofRequest (some 5) (some 6)).Groups runs units ∧
      units.length = 7 ⌈/⌉ min 5 (6 / 2) ∧ units.map (·.statements.length) = [3, 3, 1] := by
  intro update commands
  have hplan : ∃ units, planAll {} (Thresholds.ofRequest (some 5) (some 6)).toPolicy commands =
      .ok units ∧ units.map (·.statements.length) = [3, 3, 1] := ⟨_, rfl, by decide +kernel⟩
  obtain ⟨units, hplan, hlengths⟩ := hplan
  obtain ⟨runs, final, hc, hg, hcount⟩ := planAll_respects_thresholds hplan
  have hfree : ∀ c ∈ commands, TextFree (c.sites {}) := by
    simp [commands, update, sites, ofUpdate, Command.set, filtered, touch, dropCalculation, target,
      assignedSites, Query.sites, clauseSites, Condition.sites, armSites, joinSites, matchSites,
      Query.ofEntity, Query.equal, Query.filter, Query.compare, Query.addClause,
      Comparison.needsParameter, TextFree, Source.isText]
  have hcompiled := compileAll_eq_none.mpr ⟨final, hc⟩
  have hown : ∀ u ∈ (compileAll {} commands {}).1, u.performAlone = false ∧ u.parameters.size = 2 := by
    decide +kernel
  rw [hcompiled] at hown
  have hunits := hcount 2 (by decide) hfree hown fun hnone => absurd hnone (Option.some_ne_none 6)
  exact ⟨units, runs, hplan, hg, hunits, hlengths⟩

end Command

end AbstractSql
