import AbstractSql.Proofs.Outline.Flattening
import AbstractSql.Proofs.Outline.Matching
import AbstractSql.Proofs.Outline.Translated

/-!
# Conditions on joined rows

The conditions on joined rows of a query are kept apart from its own condition, and what becomes of
them is up to whoever embeds the query. A statement and a closure require them. A query that is
joined hands them to the outer condition. A query that is compared, combined or put into a derived
table is written without those of its own joins.
-/

namespace AbstractSql

/-- Whether what a join requires of the outer condition has no alternative outside of all
parentheses. -/
def ResolvedJoin.unsplit (join : ResolvedJoin) : Bool :=
  (join.joined.lifted join.kind ++ join.required.required).all fun row => !Lexeme.alternates 0 row

namespace ResolvedJoin

variable {join : ResolvedJoin}

/-- A joined query that is written into the other one hands on its conditions on joined rows. -/
theorem joinExtras_subset_lifted (h : join.inlined = true) :
    join.joined.joinExtras ⊆ join.joined.lifted join.kind := by
  unfold Outline.lifted joined
  rw [ResolvedQuery.hasArms_outline, hasArms_of_inlined h, if_neg Bool.false_ne_true]
  exact List.subset_append_right _ _

/-- If it is cross-joined, it hands on its condition. -/
theorem condition_mem_lifted (h : join.inlined = true) (hk : join.kind = .cross) :
    join.joined.condition ∈ join.joined.lifted join.kind := by
  unfold Outline.lifted Outline.testsInJoin joined
  rw [ResolvedQuery.hasArms_outline, hasArms_of_inlined h, hk]
  simp

end ResolvedJoin

namespace Outline

/-- When the condition holds. Whether it has an alternative outside of all parentheses is known. -/
structure Asks (o : Outline) (required : (Test → Bool) → Prop) : Prop where
  /-- The condition is a row of terms. -/
  sum : Lexeme.IsSum o.condition
  /-- Whether it has an alternative is known. -/
  alternates : o.hasOr = Lexeme.alternates 0 o.condition
  /-- It holds when this does. -/
  admits : ∀ holds, Lexeme.Admits holds o.condition ↔ required holds

variable {o : Outline} {required : (Test → Bool) → Prop} {rows : List (List (Lexeme Test))}

/-- Other conditions without alternatives are required. -/
theorem Asks.requireAll (h : o.Asks required)
    (hrows : ∀ row ∈ rows, Lexeme.IsSum row ∧ Lexeme.alternates 0 row = false) :
    (o.requireAll rows).Asks fun holds =>
      required holds ∧ ∀ row ∈ rows, Lexeme.Admits holds row := by
  obtain ⟨halternates, hadmits⟩ := Lexeme.admits_requireAll h.sum hrows
  unfold Outline.requireAll
  rw [h.alternates]
  refine ⟨h.sum.requireAll (fun row hrow => (hrows row hrow).1) _, halternates.symm, fun holds => ?_⟩
  rw [hadmits, h.admits]

/-- Joins are added that hand on no alternatives. -/
theorem Asks.foldl_addTo {joins : List ResolvedJoin} {tableAlias : String} (h : o.Asks required)
    (hjoins : ∀ join ∈ joins, ∀ row ∈ join.joined.lifted join.kind,
      Lexeme.IsSum row ∧ Lexeme.alternates 0 row = false) :
    (joins.foldl (ResolvedJoin.addTo tableAlias) o).Asks fun holds =>
      required holds ∧ ∀ join ∈ joins, ∀ row ∈ join.joined.lifted join.kind,
        Lexeme.Admits holds row := by
  induction joins generalizing o required with
  | nil => simpa using h
  | cons join rest ih =>
    obtain ⟨hfirst, hrest⟩ := List.forall_mem_cons.mp hjoins
    have hadded := h.requireAll hfirst
    have hstep : (join.addTo tableAlias o).Asks _ :=
      ⟨hadded.sum, hadded.alternates, hadded.admits⟩
    have hall := ih hstep hrest
    refine ⟨hall.sum, hall.alternates, fun holds => ?_⟩
    rw [List.foldl_cons, hall.admits, List.forall_mem_cons, and_assoc]

end Outline

namespace ResolvedQuery

variable {r : ResolvedQuery}

/-- The rows that a join hands on and requires have no alternatives. -/
theorem unsplit_rows {join : ResolvedJoin} (h : join.unsplit = true) :
    (∀ row ∈ join.joined.lifted join.kind,
        Lexeme.IsSum row ∧ Lexeme.alternates 0 row = false) ∧
      ∀ row ∈ join.required.required, Lexeme.IsSum row ∧ Lexeme.alternates 0 row = false := by
  rw [ResolvedJoin.unsplit, List.all_append, Bool.and_eq_true, List.all_eq_true,
    List.all_eq_true] at h
  refine ⟨fun row hrow => ⟨?_, by simpa using h.1 row hrow⟩,
    fun row hrow => ⟨?_, by simpa using h.2 row hrow⟩⟩
  · exact (join.query.plain_outline join.innerAlias row (Outline.mem_rows_of_lifted hrow)).1
  · unfold ResolvedJoin.required extraOutline at hrow
    split at hrow
    · exact absurd hrow List.not_mem_nil
    · next extra _ =>
      exact (extra.plain_outline join.targetAlias row (Outline.mem_rows_of_required hrow)).1

/-- The condition of a query whose joins hand on no alternatives holds when its own conditions do
and all that its joins hand on. -/
theorem asks_gathered (hjoins : ∀ join ∈ r.joins, join.unsplit = true) (tableAlias : String) :
    (r.gathered tableAlias).Asks fun holds =>
      Lexeme.Admits holds (clausesOutline tableAlias r.conditions {}).row ∧
        ∀ join ∈ r.joins, ∀ row ∈ join.joined.lifted join.kind, Lexeme.Admits holds row := by
  have hwrites := r.start_writes tableAlias
  obtain ⟨hcondition, -, -, hor⟩ := Outline.foldl_addArm_clauses r.arms (r.start tableAlias)
  have hstart : (r.arms.foldl ResolvedArm.addTo (r.start tableAlias)).Asks fun holds =>
      Lexeme.Admits holds (clausesOutline tableAlias r.conditions {}).row :=
    ⟨hcondition ▸ hwrites.sum, by rw [hcondition, hor]; exact hwrites.alternates,
      fun holds => by rw [hcondition]; rfl⟩
  exact hstart.foldl_addTo fun join hj => (unsplit_rows (hjoins join hj)).1

end ResolvedQuery

/-- The condition on the joined rows of a join holds. -/
def ResolvedJoin.ExtraHolds (holds : Test → Bool) (join : ResolvedJoin) : Prop :=
  ∀ extra ∈ join.extra, Lexeme.Admits holds (extra.outline join.targetAlias).condition

/-- It holds when what is required of the joined rows does. -/
theorem ResolvedJoin.extraHolds_iff {holds : Test → Bool} {join : ResolvedJoin} :
    (∀ row ∈ join.required.required, Lexeme.Admits holds row) ↔ join.ExtraHolds holds := by
  unfold ResolvedJoin.ExtraHolds ResolvedJoin.required extraOutline
  cases join.extra with
  | none => simp [Outline.required]
  | some extra =>
    unfold Outline.required
    cases hc : (extra.outline join.targetAlias).condition with
    | nil => simp [hc, Lexeme.Admits]
    | cons => simp [hc]

namespace ResolvedQuery

variable {r : ResolvedQuery} {holds : Test → Bool}

/-- The conditions on joined rows hold when those of the own joins do. -/
theorem joinExtras_hold (hk : r.keepsJoins = true) (tableAlias : String) :
    (∀ row ∈ (r.outline tableAlias).joinExtras, Lexeme.Admits holds row) ↔
      ∀ join ∈ r.ownJoins, join.ExtraHolds holds := by
  simp only [joinExtras_outline hk, List.mem_flatMap, ← ResolvedJoin.extraHolds_iff]
  constructor
  · exact fun h join hj row hrow => h row ⟨join, hj, hrow⟩
  · rintro h row ⟨join, hj, hrow⟩
    exact h join hj row hrow

/-- The own joins are written, and so are those after them. -/
theorem mem_emitted {join other : ResolvedJoin} (hj : join ∈ r.ownJoins)
    (ho : other ∈ join :: join.nested) : other ∈ r.emitted := by
  rw [emitted_eq]
  exact List.mem_flatMap.mpr ⟨join, hj, ho⟩

/-- What a joined query hands on holds only if all conditions on joined rows that it hands on do,
provided that this is so of what the query is written as. -/
theorem handedOn_hold {join : ResolvedJoin}
    (hrows : ∀ row ∈ join.joined.lifted join.kind, Lexeme.Admits holds row)
    (h : join.inlined = true → Lexeme.Admits holds join.joined.condition →
      (∀ row ∈ join.joined.joinExtras, Lexeme.Admits holds row) →
        ∀ other ∈ join.query.outward, other.ExtraHolds holds) :
    ∀ other ∈ join.handedOn, other.ExtraHolds holds := by
  unfold ResolvedJoin.handedOn
  intro other ho
  split at ho
  · next hi =>
    have hextras : ∀ row ∈ join.joined.joinExtras, Lexeme.Admits holds row := fun row hrow =>
      hrows row (ResolvedJoin.joinExtras_subset_lifted hi hrow)
    split at ho
    · next hk =>
      exact h hi (hrows _ (ResolvedJoin.condition_mem_lifted hi hk)) hextras other ho
    · exact (joinExtras_hold (ResolvedJoin.keepsJoins_of_inlined hi) join.innerAlias).mp hextras
        other ho
  · exact absurd ho List.not_mem_nil

/-- Where the joins of a query hand on and require no alternatives, its condition holds only if the
conditions on joined rows do that are handed to it, and together with its conditions on joined rows
only if all do that are required. -/
theorem outward_hold (r : ResolvedQuery) : ∀ tableAlias, r.keepsJoins = true →
    (∀ join ∈ r.emitted, join.unsplit = true) →
    Lexeme.Admits holds (r.outline tableAlias).condition →
      (∀ join ∈ r.handed, join.ExtraHolds holds) ∧
        ((∀ row ∈ (r.outline tableAlias).joinExtras, Lexeme.Admits holds row) →
          ∀ join ∈ r.outward, join.ExtraHolds holds) := by
  induction r using ResolvedQuery.induction with | step r within
  intro tableAlias hk hunsplit hadmits
  have hlifted : ∀ join ∈ r.ownJoins, ∀ row ∈ join.joined.lifted join.kind,
      Lexeme.Admits holds row := by
    cases ht : r.text with
    | some raw => simp [ownJoins, ht]
    | none =>
      rw [outline_eq ht, closure_eq_none hk ht, Outline.close?] at hadmits
      rw [ownJoins_eq ht]
      refine (((asks_gathered (fun join hj => ?_) tableAlias).admits holds).mp hadmits).2
      exact hunsplit join (mem_emitted (ownJoins_eq ht ▸ hj) List.mem_cons_self)
  have hhanded : ∀ join ∈ r.ownJoins, ∀ other ∈ join.handedOn, other.ExtraHolds holds := by
    intro join hj
    refine handedOn_hold (hlifted join hj) fun hi hcondition hextras => ?_
    refine (within.joined join (r.ownJoins_sublist.subset hj) join.innerAlias
      (ResolvedJoin.keepsJoins_of_inlined hi) (fun other ho => ?_) hcondition).2 hextras
    refine hunsplit other (mem_emitted hj (List.mem_cons_of_mem _ ?_))
    rw [ResolvedJoin.nested, hi]
    exact ho
  constructor
  · intro other ho
    obtain ⟨join, hj, ho⟩ := List.mem_flatMap.mp ho
    exact hhanded join hj other ho
  · intro hextras other ho
    rw [outward_eq] at ho
    obtain ⟨join, hj, ho⟩ := List.mem_flatMap.mp ho
    rcases List.mem_cons.mp ho with rfl | ho
    · exact (joinExtras_hold hk tableAlias).mp hextras other hj
    · exact hhanded join hj other ho

/-- Whether the condition has an alternative outside of all parentheses is known. -/
theorem hasOr_outline (hk : r.keepsJoins = true) (hjoins : ∀ join ∈ r.ownJoins, join.unsplit = true)
    (tableAlias : String) :
    (r.outline tableAlias).hasOr = Lexeme.alternates 0 (r.outline tableAlias).condition := by
  cases ht : r.text with
  | some raw => rw [outline_text ht]; rfl
  | none =>
    rw [ownJoins_eq ht] at hjoins
    rw [outline_eq ht, closure_eq_none hk ht]
    exact (asks_gathered hjoins tableAlias).alternates

/-- Moved into the condition, all conditions on joined rows that are required have to hold. -/
theorem merged_hold (hk : r.keepsJoins = true) (hunsplit : ∀ join ∈ r.emitted, join.unsplit = true)
    (tableAlias : String)
    (h : Lexeme.Admits holds (r.outline tableAlias).mergeJoinExtras.condition) :
    ∀ join ∈ r.outward, join.ExtraHolds holds := by
  have hown : ∀ join ∈ r.ownJoins, join.unsplit = true := fun join hj =>
    hunsplit join (mem_emitted hj List.mem_cons_self)
  have hrows : ∀ row ∈ (r.outline tableAlias).joinExtras,
      Lexeme.IsSum row ∧ Lexeme.alternates 0 row = false := by
    rw [joinExtras_outline hk]
    intro row hrow
    obtain ⟨join, hj, hrow⟩ := List.mem_flatMap.mp hrow
    exact (unsplit_rows (hown join hj)).2 row hrow
  have hsum := (r.plain_outline tableAlias _ List.mem_cons_self).1
  change Lexeme.Admits holds (Lexeme.requireAll (r.outline tableAlias).hasOr
    (r.outline tableAlias).condition (r.outline tableAlias).joinExtras) at h
  rw [hasOr_outline hk hown, (Lexeme.admits_requireAll hsum hrows).2] at h
  exact (r.outward_hold tableAlias hk hunsplit h.1).2 h.2

/-- The clause of every join that is written with a query is among the clauses of the query. -/
theorem clause_mem_joins (r : ResolvedQuery) : ∀ tableAlias, ∀ join ∈ r.emitted,
    ∃ outer, join.clause outer join.joined ∈ (r.outline tableAlias).joins := by
  induction r using ResolvedQuery.induction with | step r within
  intro tableAlias other ho
  rw [emitted_eq] at ho
  rw [joins_outline]
  obtain ⟨join, hj, ho⟩ := List.mem_flatMap.mp ho
  rcases List.mem_cons.mp ho with rfl | ho
  · exact ⟨tableAlias, List.mem_flatMap.mpr ⟨other, hj, List.mem_cons_self⟩⟩
  · unfold ResolvedJoin.nested at ho
    split at ho
    · next hi =>
      obtain ⟨outer, hm⟩ :=
        within.joined join (r.ownJoins_sublist.subset hj) join.innerAlias other ho
      refine ⟨outer, List.mem_flatMap.mpr ⟨join, hj, List.mem_cons_of_mem _ ?_⟩⟩
      rw [join.liftedJoins_joined, hi]
      exact hm
    · exact absurd ho List.not_mem_nil

/-- The query without its closure. -/
def unclosed (r : ResolvedQuery) : ResolvedQuery := { r with closure := none }

/-- The clauses of a query before a closure takes them are those of the query without it. -/
theorem outline_unclosed (ht : r.text = none) (tableAlias : String) :
    r.unclosed.outline tableAlias = r.gathered tableAlias :=
  outline_eq (r := r.unclosed) ht tableAlias

/-- A closure changes nothing about the joins that are written and required, nor about the tests. -/
theorem unclosed_joins (r : ResolvedQuery) : r.unclosed.keepsJoins = true ∧
    r.unclosed.emitted = r.emitted ∧ r.unclosed.outward = r.outward ∧
      r.unclosed.tests = r.tests := by
  obtain ⟨table, columns, text, conditions, sorts, arms, joins, closure⟩ := r
  cases text with
  | none =>
    refine ⟨rfl, by simp only [unclosed, emitted], by simp only [unclosed, outward], ?_⟩
    funext tableAlias
    simp only [unclosed, tests]
  | some raw =>
    refine ⟨rfl, by simp only [unclosed, emitted], by simp only [unclosed, outward], ?_⟩
    funext tableAlias
    simp only [unclosed, tests]

end ResolvedQuery

/-- A select with the joins of a query requires the conditions on the joined rows of some of them.
-/
structure Select.Requires (s : Select) (r : ResolvedQuery) (joins : List ResolvedJoin) : Prop where
  /-- The clauses of all joins are written. -/
  clauses : ∀ join ∈ r.emitted, ∃ outer, join.clause outer join.joined ∈ s.joins
  /-- The condition tests what the query does, and the conditions on joined rows of these joins, and
  nothing else. -/
  tests : ∀ test, .atom test ∈ s.condition ↔
    test ∈ r.tests s.tableAlias ∨ RequiredOf joins test
  /-- Where nothing that is handed on or required has an alternative outside of all parentheses, it
  holds only if all of these conditions do. -/
  conjuncts : (∀ join ∈ r.emitted, join.unsplit = true) →
    ∀ holds, Lexeme.Admits holds s.condition → ∀ join ∈ joins, join.ExtraHolds holds

namespace ResolvedQuery

variable {r : ResolvedQuery}

/-- The select of a statement requires all conditions on joined rows. -/
theorem requires_merged (hk : r.keepsJoins = true) (tableAlias : String) {s : Select}
    (ha : s.tableAlias = tableAlias) (hj : s.joins = (r.outline tableAlias).joins)
    (hc : s.condition = (r.outline tableAlias).mergeJoinExtras.condition) :
    s.Requires r r.outward where
  clauses join hm := hj ▸ r.clause_mem_joins tableAlias join hm
  tests test := by
    rw [hc, ha, ← r.atom_mem_rows tableAlias hk]
    exact Lexeme.atom_mem_requireAll
  conjuncts hunsplit holds h := r.merged_hold hk hunsplit tableAlias (hc ▸ h)

/-- Any other select of a query requires those that are handed to the query. -/
theorem requires_select (hk : r.keepsJoins = true) (tableAlias : String) {s : Select}
    (ha : s.tableAlias = tableAlias) (hj : s.joins = (r.outline tableAlias).writtenJoins)
    (hc : s.condition = (r.outline tableAlias).condition) : s.Requires r r.handed where
  clauses join hm := by
    rw [hj, Outline.writtenJoins, allowJoin_outline, hk, if_pos rfl]
    exact r.clause_mem_joins tableAlias join hm
  tests test := by rw [hc, ha, atom_mem_condition hk]
  conjuncts hunsplit holds h := (r.outward_hold tableAlias hk hunsplit (hc ▸ h)).1

/-- The first rows of a closure require all conditions on joined rows. -/
theorem requires_closureRows (ht : r.text = none) (tableAlias : String) (closure : ResolvedClosure) :
    ((r.gathered tableAlias).closureRows r.table tableAlias closure).first.Requires r r.outward := by
  obtain ⟨hk, hemitted, houtward, htests⟩ := r.unclosed_joins
  have hrequires := r.unclosed.requires_merged hk tableAlias
    (s := ((r.gathered tableAlias).closureRows r.table tableAlias closure).first) rfl
    (by rw [outline_unclosed ht]; rfl) (by rw [outline_unclosed ht]; rfl)
  exact ⟨hemitted ▸ hrequires.clauses, htests ▸ houtward ▸ hrequires.tests,
    hemitted ▸ houtward ▸ hrequires.conjuncts⟩

end ResolvedQuery

/-- What becomes of the conditions on joined rows of a query under an alias, wherever it stands. -/
structure ResolvedQuery.PlacesExtras (r : ResolvedQuery) (tableAlias : String) : Prop where
  /-- A statement requires all of them. -/
  statement : r.keepsJoins = true →
    ((r.outline tableAlias).mergeJoinExtras.select r.columns r.table tableAlias).Requires r r.outward
  /-- So do the first rows of a closure. -/
  recursion : ∀ closure, r.text = none → r.closure = some closure →
    ∃ (earlier : List ClosureRows) (d : ClosureRows),
      (r.outline tableAlias).definitions = earlier ++ [d] ∧ d.first.Requires r r.outward
  /-- A compared query requires those that are handed to it, and none of its own joins. -/
  compared : r.keepsJoins = true → ∀ reference operator limit column outer,
    ∃ select : Select,
      (ResolvedCriterion.rows reference operator limit column tableAlias r).test outer =
        .rows outer reference operator limit (r.outline tableAlias).sorts column select ∧
      select.Requires r r.handed
  /-- So does a query that others are combined with. -/
  arm : r.keepsJoins = true → ∀ operator columns (select : Select),
    Outline.armClause ⟨operator, columns, tableAlias, r⟩ (r.outline tableAlias) =
      .select operator select → select.Requires r r.handed
  /-- So does a query in a derived table. -/
  derived : r.keepsJoins = true → ∀ (join : ResolvedJoin) (outer : String) (select : Select),
    join.query = r → join.innerAlias = tableAlias →
      (join.clause outer join.joined).source = .derived select → select.Requires r r.handed
  /-- A joined query that is written into the other one hands on those of its own joins. Those that
  are handed to it are tested in the ON clause, unless it is cross-joined. -/
  joined : ∀ (join : ResolvedJoin) (outer : String) (test : Test), join.query = r →
    join.innerAlias = tableAlias → join.inlined = true →
    (.atom test ∈ (join.clause outer join.joined).on ↔ test ∈ join.pairTests outer ∨
        join.kind ≠ .cross ∧ (test ∈ r.tests tableAlias ∨ RequiredOf r.handed test)) ∧
      ((∃ row ∈ join.joined.lifted join.kind, .atom test ∈ row) ↔
        if join.kind = .cross then test ∈ r.tests tableAlias ∨ RequiredOf r.outward test
        else RequiredOf r.ownJoins test)

namespace ResolvedQuery

/-- What a joined query that is written into the other one tests and hands on. -/
theorem places_joined {join : ResolvedJoin} (outer : String) (test : Test)
    (hi : join.inlined = true) :
    (.atom test ∈ (join.clause outer join.joined).on ↔ test ∈ join.pairTests outer ∨
        join.kind ≠ .cross ∧
          (test ∈ join.query.tests join.innerAlias ∨ RequiredOf join.query.handed test)) ∧
      ((∃ row ∈ join.joined.lifted join.kind, .atom test ∈ row) ↔
        if join.kind = .cross then
          test ∈ join.query.tests join.innerAlias ∨ RequiredOf join.query.outward test
        else RequiredOf join.query.ownJoins test) := by
  have hk := ResolvedJoin.keepsJoins_of_inlined hi
  constructor
  · rw [ResolvedJoin.clause, Lexeme.atom_mem_afterAtoms, join.tested_joined, hi, Bool.true_and]
    refine or_congr Iff.rfl ?_
    by_cases hc : join.kind = .cross
    · simp [hc]
    · rw [if_pos (by simpa using hc), and_iff_right hc]
      exact atom_mem_condition hk join.innerAlias
  · rw [join.atom_mem_handed fun _ => join.query.atom_mem_rows join.innerAlias hk,
      ResolvedJoin.handedTests, ResolvedJoin.handedOn, if_pos hi, if_pos hi]
    split
    · rfl
    · simp

/-- What becomes of the conditions on joined rows of a query, wherever it stands. -/
theorem placesExtras (r : ResolvedQuery) (tableAlias : String) : r.PlacesExtras tableAlias where
  statement hk := r.requires_merged hk tableAlias rfl
    (if_pos ((r.allowJoin_outline tableAlias).trans hk)) rfl
  recursion closure ht hc := by
    refine ⟨(r.gathered tableAlias).definitions, _, ?_, r.requires_closureRows ht tableAlias closure⟩
    rw [outline_eq ht, hc]
    rfl
  compared hk reference operator limit column outer :=
    ⟨_, rfl, r.requires_select hk tableAlias rfl rfl rfl⟩
  arm hk operator columns select h := by
    unfold Outline.armClause at h
    split at h
    · exact absurd h (by simp)
    · injection h with _ h
      subst h
      exact r.requires_select hk tableAlias rfl rfl rfl
  derived hk join outer select hr ha h := by
    subst hr ha
    unfold ResolvedJoin.clause at h
    dsimp only at h
    split at h
    · injection h with h
      subst h
      exact join.query.requires_select hk join.innerAlias rfl rfl rfl
    · exact absurd h (by simp)
  joined join outer test hr ha hi := by
    subst hr ha
    exact places_joined outer test hi

end ResolvedQuery

namespace Translating

variable {catalog : Catalog} {w v : Workspace}

/-- The query of a join, and the condition on the joined rows, are those of the join. -/
theorem resolveJoin_parts {source : String} {join : Join} {j : ResolvedJoin}
    {resolve : String → Translating ResolvedQuery}
    {resolveExtra? : Option (String → Translating ResolvedQuery)}
    (h : outcome (resolveJoin catalog source join resolve resolveExtra?) w = (.ok j, v)) :
    j.kind = join.kind ∧ (∃ x y, outcome (resolve j.innerAlias) x = (.ok j.query, y)) ∧
      ∃ x, outcome (resolveExtra resolveExtra? j.targetAlias) x = (.ok j.extra, v) := by
  simp only [resolveJoin, outcome_bind_eq_ok, outcome_pure_eq_ok] at h
  obtain ⟨_, x, -, innerAlias, y, -, query, z, hq, outerAlias, s, ha, extra, u, he, rfl, rfl⟩ := h
  refine ⟨rfl, ⟨y, z, hq⟩, s, ?_⟩
  rw [ResolvedJoin.targetAlias, target_of_resolveAlias ha]
  exact he

/-- What a join of a query is resolved to. -/
def JoinFrom (catalog : Catalog) (join : Join) (j : ResolvedJoin) : Prop :=
  j.kind = join.kind ∧
    (∃ x y, outcome (join.query.resolve catalog false j.innerAlias) x = (.ok j.query, y)) ∧
    ∀ required ∈ join.extra, ∃ extra ∈ j.extra,
      ∃ x y, outcome (required.resolve catalog false j.targetAlias) x = (.ok extra, y)

/-- Every join is resolved. -/
theorem resolveJoins_from : ∀ {joins : List Join} {source : String} {resolved : List ResolvedJoin}
    {w v : Workspace}, outcome (resolveJoins catalog source joins) w = (.ok resolved, v) →
    ∀ join ∈ joins, ∃ j ∈ resolved, JoinFrom catalog join j
  | [], _, _, _, _, _, _, hm => absurd hm List.not_mem_nil
  | { kind, operator, fields, query, extra := none } :: rest, source, resolved, w, v, h, join, hm => by
    simp only [resolveJoins, outcome_bind_eq_ok, outcome_pure_eq_ok] at h
    obtain ⟨j, x, hj, others, y, hothers, rfl, -⟩ := h
    rcases List.mem_cons.mp hm with rfl | hm
    · obtain ⟨hk, hq, -⟩ := resolveJoin_parts hj
      exact ⟨j, List.mem_cons_self, hk, hq, fun _ he => absurd he (Option.not_mem_none _)⟩
    · obtain ⟨other, ho, hfrom⟩ := resolveJoins_from hothers join hm
      exact ⟨other, List.mem_cons_of_mem _ ho, hfrom⟩
  | { kind, operator, fields, query, extra := some required } :: rest, source, resolved, w, v, h,
      join, hm => by
    simp only [resolveJoins, outcome_bind_eq_ok, outcome_pure_eq_ok] at h
    obtain ⟨j, x, hj, others, y, hothers, rfl, -⟩ := h
    rcases List.mem_cons.mp hm with rfl | hm
    · obtain ⟨hk, hq, z, he⟩ := resolveJoin_parts hj
      simp only [resolveExtra, outcome_bind_eq_ok, outcome_pure_eq_ok] at he
      obtain ⟨extra, u, hextra, hreturned, rfl⟩ := he
      refine ⟨j, List.mem_cons_self, hk, hq, fun other ho => ?_⟩
      obtain rfl := Option.some.inj ho
      exact ⟨extra, hreturned.symm, z, u, hextra⟩
    · obtain ⟨other, ho, hfrom⟩ := resolveJoins_from hothers join hm
      exact ⟨other, List.mem_cons_of_mem _ ho, hfrom⟩

/-- What EXCEPT of a query is resolved to: a left join with a test for a missing match. -/
def ExceptFrom (catalog : Catalog) (query : Query) (j : ResolvedJoin) : Prop :=
  j.kind = .left ∧
    (∃ x y, outcome (query.resolve catalog false j.innerAlias) x = (.ok j.query, y)) ∧
    ∃ extra ∈ j.extra, ∃ reference,
      (extra.outline j.targetAlias).condition = [.atom (.missing j.targetAlias reference .isNull)]

/-- EXCEPT stands for a left join with a condition on the joined rows. -/
theorem asJoin_except {query : Query} {join? : Option Join}
    (h : Combine.asJoin ⟨.except, query⟩ catalog = .ok join?) :
    ∃ join, join? = some join ∧ join.kind = .left ∧ join.extra.isSome = true := by
  rcases Combine.asJoin_eq_ok h with ⟨hnative, -⟩ | ⟨join, rfl, hjoin⟩
  · cases hnative
  · cases hjoin
    exact ⟨_, rfl, rfl, rfl⟩

/-- A test for a missing value is the whole condition. -/
theorem outline_resolveMissing (entity property tableAlias : String) :
    ((resolveMissing catalog entity property).outline tableAlias).condition =
      [.atom (.missing tableAlias { column := catalog.column entity property } .isNull)] := by
  rw [resolveMissing, ResolvedQuery.outline, clausesOutline, clausesOutline, armsOutline,
    joinsOutline, ResolvedCondition.outline, ResolvedCriterion.outline]
  rfl

/-- Every EXCEPT is resolved. -/
theorem resolveMatches_from : ∀ {combines : List Combine} {source : String}
    {resolved : List ResolvedJoin} {w v : Workspace},
    outcome (resolveMatches catalog source combines) w = (.ok resolved, v) →
    ∀ entry ∈ combines, entry.kind = .except → ∃ j ∈ resolved, ExceptFrom catalog entry.query j
  | [], _, _, _, _, _, _, hm, _ => absurd hm List.not_mem_nil
  | ⟨kind, query⟩ :: rest, source, resolved, w, v, h, entry, hm, hk => by
    simp only [resolveMatches, outcome_bind_eq_ok, outcome_pure_eq_ok] at h
    obtain ⟨matched, x, hmatched, others, y, hothers, rfl, -⟩ := h
    rcases List.mem_cons.mp hm with rfl | hm
    · obtain rfl : kind = .except := hk
      simp only [resolveMatch, outcome_bind_eq_ok] at hmatched
      obtain ⟨join?, z, hl, hmatched⟩ := hmatched
      obtain ⟨join, rfl, hkind, hsome⟩ := asJoin_except (outcome_lift_eq_ok.mp hl).1
      obtain ⟨required, hrequired⟩ := Option.isSome_iff_exists.mp hsome
      simp only [outcome_bind_eq_ok, outcome_pure_eq_ok] at hmatched
      obtain ⟨j, u, hj, rfl, -⟩ := hmatched
      obtain ⟨hk, hq, s, he⟩ := resolveJoin_parts hj
      refine ⟨j, List.mem_append_left _ (List.mem_singleton_self j), hk.trans hkind, hq, ?_⟩
      rw [hrequired] at he
      simp only [Option.map_some, resolveExtra, outcome_bind_eq_ok, outcome_pure_eq_ok] at he
      obtain ⟨_, _, ⟨rfl, -⟩, hreturned, -⟩ := he
      exact ⟨_, hreturned.symm, _, outline_resolveMissing ..⟩
    · obtain ⟨other, ho, hfrom⟩ := resolveMatches_from hothers entry hm hk
      exact ⟨other, List.mem_append_right _ ho, hfrom⟩

end Translating

/-- What becomes of conditions on joined rows. A join with such a condition, and an EXCEPT, which is
a left join with a test for a missing match, is one of the joins of the query with its names. Where
the query is a statement or has a closure, the select with the clauses of its joins requires the
conditions of these joins, of joins that are written into it from one level further in, and through
cross joins of deeper ones. Where it is compared, combined with others or put into a derived table,
the conditions of its own joins are not required at all, and where it is joined they go one level
up, unless its condition has been taken into an ON clause before. What is required is a conjunct
where none of what is required has an alternative outside of all parentheses. -/
theorem Query.translateUnder_placesExtras {catalog : Catalog} {useSort : Bool} {q : Query}
    {tableAlias : String} {w v : Workspace} {t : Translation}
    (h : outcome (q.translateUnder catalog useSort tableAlias) w = (.ok t, v)) :
    ∃ r, outcome (q.resolve catalog useSort tableAlias) w = (.ok r, v) ∧
      t = (r.outline tableAlias).toTranslation ∧
      t.mergeJoinExtras = (r.outline tableAlias).mergeJoinExtras.toTranslation ∧
      (q.text = none →
        (∀ join ∈ q.joins, ∃ j ∈ r.ownJoins, Translating.JoinFrom catalog join j) ∧
        ∀ entry ∈ q.combines, entry.kind = .except →
          ∃ j ∈ r.ownJoins, Translating.ExceptFrom catalog entry.query j) ∧
      r.PlacesExtras tableAlias := by
  obtain ⟨r, hr, rfl⟩ := q.translateUnder_resolve h
  refine ⟨r, hr, rfl, (Outline.toTranslation_mergeJoinExtras _).symm, fun ht => ?_,
    r.placesExtras tableAlias⟩
  obtain ⟨own, others, _, _, _, _, hs⟩ := Query.resolve_steps ht hr
  rw [ResolvedQuery.ownJoins_eq hs.text, hs.joins]
  constructor
  · intro join hjoin
    obtain ⟨j, hmem, hfrom⟩ := Translating.resolveJoins_from hs.own join hjoin
    exact ⟨j, List.mem_append_left _ hmem, hfrom⟩
  · intro entry hentry hk
    obtain ⟨j, hmem, hfrom⟩ := Translating.resolveMatches_from hs.others entry hentry hk
    exact ⟨j, List.mem_append_right _ hmem, hfrom⟩

/-- A statement with a condition on joined rows and an EXCEPT requires both. -/
theorem Query.translateUnder_placesExtras_statement :
    let team : Join :=
      { kind := .inner, fields := [("team", "id")], query := Query.ofEntity "Team"
        extra := some ((Query.ofEntity "Team").equal "open" (.bool true)) }
    let q := ((Query.ofEntity "User").withJoin team).combine .except
      ((Query.ofEntity "Banned").select ["id"])
    ∃ (t : Translation) (v : Workspace) (s : Select) (required : List (List (Lexeme Test))),
      outcome (q.translateUnder {} true "TB") {} = (.ok t, v) ∧
      t.joins = joinTexts s.joins ∧ t.mergeJoinExtras.condition = conditionText s.condition ∧
      joinTexts s.joins = ["INNER JOIN `Team` AS S0 ON TB.`team` = S0.`id`",
        "LEFT JOIN `Banned` AS S1 ON TB.`id` = S1.`id`"] ∧
      conditionText s.condition = "S0.`open` = ?open1 AND S1.`id` IS NULL" ∧
      required.map conditionText = ["S0.`open` = ?open1", "S1.`id` IS NULL"] ∧
      ∀ holds, Lexeme.Admits holds s.condition → ∀ row ∈ required, Lexeme.Admits holds row := by
  intro team q
  have hrun : ∃ t v, outcome (q.translateUnder {} true "TB") {} = (.ok t, v) := ⟨_, _, rfl⟩
  obtain ⟨t, v, hrun⟩ := hrun
  obtain ⟨r, hr, ht, hmerged, -, hplaces⟩ := Query.translateUnder_placesExtras hrun
  refine ⟨t, v, (r.outline "TB").mergeJoinExtras.select r.columns r.table "TB",
    r.outward.filterMap fun join => join.extra.map fun extra =>
      (extra.outline join.targetAlias).condition, hrun, ?_⟩
  obtain ⟨hf, -⟩ := Prod.mk.inj hr
  obtain rfl := Except.ok.inj hf
  refine ⟨by rw [ht]; rfl, by rw [hmerged]; rfl, by decide +kernel, by decide +kernel,
    by decide +kernel, fun holds hadmits row hrow => ?_⟩
  obtain ⟨join, hj, hrow⟩ := List.mem_filterMap.mp hrow
  obtain ⟨extra, hextra, rfl⟩ := Option.map_eq_some_iff.mp hrow
  exact (hplaces.statement rfl).conjuncts (by decide +kernel) holds hadmits join hj extra hextra

/-- An EXCEPT in a compared query, in a query that another is combined with and in a derived table
is written as a left join alone. Two levels further in, its test stands in an ON clause. Behind a
condition on joined rows with an alternative, its test is one of the second alternative only. -/
theorem Query.translateUnder_loses_except :
    let banned (q : Query) : Query := q.combine .except ((Query.ofEntity "Banned").select ["id"])
    let joining (field : String) (query q : Query) : Query :=
      q.withJoin { kind := .inner, fields := [(field, "id")], query }
    let user := banned (Query.ofEntity "User")
    let compared := (Query.ofEntity "Order").filterSubquery "user" .isIn (user.select ["id"])
    let arm := (Query.ofEntity "User").combine .union (banned (Query.ofEntity "Guest"))
    let derived := joining "user" (user.combine .union (Query.ofEntity "Guest"))
      (Query.ofEntity "Order")
    let nested := joining "order" (joining "user" user (Query.ofEntity "Order"))
      (Query.ofEntity "Item")
    let choice : Join :=
      { kind := .inner, fields := [("team", "id")], query := Query.ofEntity "Team"
        extra := some (((Query.ofEntity "Team").equal "open" (.bool true)).orFilter "public" .equal
          (.bool true)) }
    let missing : Test := .missing "S1" ⟨"id", false⟩ .isNull
    let split : List (Lexeme Test) :=
      [.atom (.value "S0" ⟨"open", false⟩ .equal "open1"), .connector .or,
        .atom (.value "S0" ⟨"public", false⟩ .equal "public2"), .connector .and, .atom missing]
    let banned? : Test → Bool := fun
      | .missing .. => false
      | _ => true
    (∃ t v, outcome (compared.translateUnder {} true "TB") {} = (.ok t, v) ∧
      t.mergeJoinExtras.condition = "TB.`user` IN (SELECT S0.`id` FROM `User` AS S0 " ++
        "LEFT JOIN `Banned` AS S1 ON S0.`id` = S1.`id`)" ∧ t.joins = [] ∧ t.combines = []) ∧
    (∃ t v, outcome (arm.translateUnder {} true "TB") {} = (.ok t, v) ∧
      t.mergeJoinExtras.condition = "" ∧ t.joins = [] ∧
      t.combines = ["UNION SELECT S0.* FROM `Guest` AS S0 " ++
        "LEFT JOIN `Banned` AS S1 ON S0.`id` = S1.`id`"]) ∧
    (∃ t v, outcome (derived.translateUnder {} true "TB") {} = (.ok t, v) ∧
      t.mergeJoinExtras.condition = "" ∧ t.combines = [] ∧
      t.joins = ["INNER JOIN (SELECT S0.* FROM `User` AS S0 " ++
        "LEFT JOIN `Banned` AS S2 ON S0.`id` = S2.`id` UNION SELECT S1.* FROM `Guest` AS S1) AS S3 " ++
        "ON TB.`user` = S3.`id`"]) ∧
    (∃ t v, outcome (nested.translateUnder {} true "TB") {} = (.ok t, v) ∧
      t.mergeJoinExtras.condition = "" ∧ t.combines = [] ∧
      t.joins = ["INNER JOIN `Order` AS S0 ON TB.`order` = S0.`id` AND S2.`id` IS NULL",
        "INNER JOIN `User` AS S1 ON S0.`user` = S1.`id`",
        "LEFT JOIN `Banned` AS S2 ON S1.`id` = S2.`id`"]) ∧
    ∃ t v, outcome ((banned ((Query.ofEntity "User").withJoin choice)).translateUnder {} true "TB")
        {} = (.ok t, v) ∧
      t.mergeJoinExtras.condition = conditionText split ∧
      conditionText split =
        "S0.`open` = ?open1 OR S0.`public` = ?public2 AND S1.`id` IS NULL" ∧
      Lexeme.read banned? split = some true ∧ banned? missing = false := by
  intro banned joining user compared arm derived nested choice missing split banned?
  refine ⟨⟨_, _, rfl, ?_⟩, ⟨_, _, rfl, ?_⟩, ⟨_, _, rfl, ?_⟩, ⟨_, _, rfl, ?_⟩, ⟨_, _, rfl, ?_⟩⟩
  · exact ⟨by decide +kernel, by decide +kernel, by decide +kernel⟩
  · exact ⟨by decide +kernel, by decide +kernel, by decide +kernel⟩
  · exact ⟨by decide +kernel, by decide +kernel, by decide +kernel⟩
  · exact ⟨by decide +kernel, by decide +kernel, by decide +kernel⟩
  · exact ⟨by decide +kernel, by decide +kernel, rfl, rfl⟩

end AbstractSql
