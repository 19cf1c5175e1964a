import AbstractSql.Proofs.Outline.Induction
import AbstractSql.Proofs.Outline.Order

/-!
# References to closure tables

A condition refers to a closure table when it tests membership in it, at any depth of selects. Each
definition that a query pulls up refers to its own table and to tables defined before it, and
whatever is written of a query refers to tables that are defined.
-/

namespace AbstractSql

mutual

/-- Closure tables that a test refers to. -/
def Test.closures : Test → List ClosureTable
  | .missing .. => []
  | .value .. => []
  | .text .. => []
  | .rows _ _ _ _ _ _ select => select.closures
  | .pair .. => []
  | .member _ table => [table]

/-- Closure tables that a condition refers to. -/
def rowClosures : List (Lexeme Test) → List ClosureTable
  | [] => []
  | lexeme :: rest => lexemeClosures lexeme ++ rowClosures rest

/-- Closure tables that a part of a condition refers to. -/
def lexemeClosures : Lexeme Test → List ClosureTable
  | .atom test => test.closures
  | .connector _ => []
  | .opening => []
  | .closing => []

/-- Closure tables that a select refers to. -/
def Select.closures : Select → List ClosureTable
  | ⟨_, _, _, joins, condition, arms⟩ =>
    joinClosures joins ++ rowClosures condition ++ armClosures arms

/-- Closure tables that joined tables refer to. -/
def joinClosures : List JoinClause → List ClosureTable
  | [] => []
  | join :: rest => join.closures ++ joinClosures rest

/-- Closure tables that a joined table refers to. -/
def JoinClause.closures : JoinClause → List ClosureTable
  | ⟨_, source, _, on⟩ => source.closures ++ rowClosures on

/-- Closure tables that the rows of a joined table refer to. -/
def JoinSource.closures : JoinSource → List ClosureTable
  | .table _ => []
  | .derived select => select.closures

/-- Closure tables that set operations refer to. -/
def armClosures : List Arm → List ClosureTable
  | [] => []
  | arm :: rest => arm.closures ++ armClosures rest

/-- Closure tables that a set operation refers to. -/
def Arm.closures : Arm → List ClosureTable
  | .select _ select => select.closures
  | .text .. => []

end

/-- A condition refers to what its tests refer to. -/
theorem mem_rowClosures {table : ClosureTable} {row : List (Lexeme Test)} :
    table ∈ rowClosures row ↔ ∃ test, .atom test ∈ row ∧ table ∈ test.closures := by
  induction row with
  | nil => simp [rowClosures]
  | cons lexeme rest ih =>
    rw [rowClosures, List.mem_append, ih]
    cases lexeme with
    | atom test =>
      rw [lexemeClosures]
      simp only [List.mem_cons, Lexeme.atom.injEq, or_and_right, exists_or, exists_eq_left]
    | connector => simp [lexemeClosures]
    | opening => simp [lexemeClosures]
    | closing => simp [lexemeClosures]

/-- Joined tables refer to what each of them refers to. -/
theorem joinClosures_append (first second : List JoinClause) :
    joinClosures (first ++ second) = joinClosures first ++ joinClosures second := by
  induction first with
  | nil => rfl
  | cons join rest ih =>
    rw [List.cons_append, joinClosures, joinClosures, ih, List.append_assoc]

/-- Set operations refer to what each of them refers to. -/
theorem armClosures_append (first second : List Arm) :
    armClosures (first ++ second) = armClosures first ++ armClosures second := by
  induction first with
  | nil => rfl
  | cons arm rest ih => rw [List.cons_append, armClosures, armClosures, ih, List.append_assoc]

namespace ClosureRows

/-- Closure tables that a definition refers to: its own, which its rows are compared with, and those
of its first rows. -/
def references (d : ClosureRows) : List ClosureTable := d.table :: d.first.closures

end ClosureRows

/-- Each definition refers only to its own table and to those before it. -/
abbrev Ordered (definitions : List ClosureRows) : Prop :=
  RefersBack (fun d => d.table) ClosureRows.references [] definitions

/-- A definition whose first rows refer to tables that are defined. -/
theorem Ordered.concat {definitions : List ClosureRows} {d : ClosureRows} (h : Ordered definitions)
    (hd : ∀ table ∈ d.first.closures, table ∈ definitions.map (·.table)) :
    Ordered (definitions ++ [d]) :=
  RefersBack.append_iff.mpr ⟨h, List.forall_mem_cons.mpr
    ⟨.inl rfl, fun table ht => .inr (hd table ht)⟩, trivial⟩

namespace Outline

/-- Closure tables that the clauses of a query refer to. -/
def references (o : Outline) : List ClosureTable :=
  (o.condition :: o.joinExtras).flatMap rowClosures ++ joinClosures o.joins ++ armClosures o.arms

/-- Tables that a query has defined. -/
def defined (o : Outline) : List ClosureTable := o.definitions.map (·.table)

/-- Definitions stand in order, and the clauses refer only to tables that are defined. -/
structure Closed (o : Outline) : Prop where
  /-- Each definition refers to its own table and to those before it. -/
  ordered : Ordered o.definitions
  /-- Every table that is referred to is defined. -/
  defined : ∀ table ∈ o.references, table ∈ o.defined

variable {o joined extra : Outline} {table : ClosureTable}

/-- What the clauses refer to, clause by clause. -/
theorem mem_references : table ∈ o.references ↔
    (∃ row ∈ o.condition :: o.joinExtras, table ∈ rowClosures row) ∨
      table ∈ joinClosures o.joins ∨ table ∈ armClosures o.arms := by
  simp only [references, List.mem_append, List.mem_flatMap, or_assoc]

/-- The select of a query refers to what its clauses refer to. -/
theorem mem_references_of_select {columns : List String} {name tableAlias : String}
    (h : table ∈ (o.select columns name tableAlias).closures) : table ∈ o.references := by
  rw [select, Select.closures, List.mem_append, List.mem_append, writtenJoins] at h
  rw [mem_references]
  rcases h with (h | h) | h
  · split at h
    · exact .inr (.inl h)
    · exact absurd h (by simp [joinClosures])
  · exact .inl ⟨_, List.mem_cons_self, h⟩
  · exact .inr (.inr h)

/-- So does the select that a set operation combines with. -/
theorem mem_references_of_armClause {arm : ResolvedArm}
    (h : table ∈ (armClause arm o).closures) : table ∈ o.references := by
  unfold armClause at h
  split at h
  · exact absurd h (by simp [Arm.closures])
  · have hselect : table ∈ (o.select arm.columns arm.query.table arm.tableAlias).closures := by
      rw [Arm.closures, Select.closures, armClosures, List.append_nil] at h
      rw [select, Select.closures]
      exact List.mem_append_left _ h
    exact mem_references_of_select hselect

/-- What is handed to the outer condition refers to what the joined query refers to. -/
theorem mem_references_of_lifted {kind : JoinKind} {row : List (Lexeme Test)}
    (hr : row ∈ joined.lifted kind) (h : table ∈ rowClosures row) : table ∈ joined.references := by
  rw [mem_references]
  unfold lifted at hr
  split at hr
  · exact absurd hr List.not_mem_nil
  · rcases List.mem_append.mp hr with hr | hr
    · split at hr
      · exact absurd hr List.not_mem_nil
      · exact .inl ⟨_, List.mem_cons_self, List.mem_singleton.mp hr ▸ h⟩
    · exact .inl ⟨row, List.mem_cons_of_mem _ hr, h⟩

/-- The clause of a join refers to what the joined query refers to. -/
theorem mem_references_of_clause {tableAlias : String} {join : ResolvedJoin}
    (h : table ∈ (join.clause tableAlias joined).closures) : table ∈ joined.references := by
  rw [ResolvedJoin.clause, JoinClause.closures, List.mem_append] at h
  rcases h with h | h
  · split at h
    · rw [JoinSource.closures] at h
      exact mem_references_of_select h
    · exact absurd h (by simp [JoinSource.closures])
  · obtain ⟨test, ht, h⟩ := mem_rowClosures.mp h
    rcases Lexeme.atom_mem_afterAtoms.mp ht with ht | ht
    · obtain ⟨pair, -, rfl⟩ := List.mem_map.mp ht
      exact absurd h (by simp [Test.closures])
    · unfold tested at ht
      split at ht
      · exact mem_references.mpr
          (.inl ⟨_, List.mem_cons_self, mem_rowClosures.mpr ⟨test, ht, h⟩⟩)
      · exact absurd ht List.not_mem_nil

/-- The joins of a joined query refer to what it refers to. -/
theorem mem_references_of_liftedJoins (h : table ∈ joinClosures joined.liftedJoins) :
    table ∈ joined.references := by
  unfold liftedJoins writtenJoins at h
  split at h
  · exact absurd h (by simp [joinClosures])
  · split at h
    · exact mem_references.mpr (.inr (.inl h))
    · exact absurd h (by simp [joinClosures])

/-- What is required of joined rows refers to what its query refers to. -/
theorem mem_references_of_required {row : List (Lexeme Test)} (hr : row ∈ extra.required)
    (h : table ∈ rowClosures row) : table ∈ extra.references := by
  unfold required at hr
  split at hr
  · exact absurd hr List.not_mem_nil
  · exact mem_references.mpr (.inl ⟨_, List.mem_cons_self, List.mem_singleton.mp hr ▸ h⟩)

/-- Required conditions refer to what each of them refers to. -/
theorem mem_rowClosures_requireAll {hasOr : Bool} {row : List (Lexeme Test)}
    {rows : List (List (Lexeme Test))} :
    table ∈ rowClosures (Lexeme.requireAll hasOr row rows) ↔
      ∃ r ∈ row :: rows, table ∈ rowClosures r := by
  simp only [mem_rowClosures, Lexeme.atom_mem_requireAll, List.mem_cons]
  constructor
  · rintro ⟨test, hm | ⟨extra, he, hm⟩, ht⟩
    · exact ⟨row, .inl rfl, test, hm, ht⟩
    · exact ⟨extra, .inr he, test, hm, ht⟩
  · rintro ⟨r, rfl | hr, test, hm, ht⟩
    · exact ⟨test, .inl hm, ht⟩
    · exact ⟨test, .inr ⟨r, hr, hm⟩, ht⟩

namespace Closed

/-- A query without clauses. -/
theorem empty (text : Option String) : Closed { text } :=
  ⟨trivial, fun table h => by simp [references, rowClosures, joinClosures, armClosures] at h⟩

/-- Adding a set operation. -/
theorem addArm (ho : o.Closed) (hj : joined.Closed) (arm : ResolvedArm) :
    (o.addArm arm joined).Closed where
  ordered := ho.ordered.append hj.ordered
  defined table h := by
    have hdefined : (o.addArm arm joined).defined = o.defined ++ joined.defined := List.map_append
    rw [mem_references, Outline.addArm, armClosures_append, armClosures, armClosures,
      List.append_nil, List.mem_append] at h
    rw [hdefined, List.mem_append]
    rcases h with h | h | h | h
    · exact .inl (ho.defined table (mem_references.mpr (.inl h)))
    · exact .inl (ho.defined table (mem_references.mpr (.inr (.inl h))))
    · exact .inl (ho.defined table (mem_references.mpr (.inr (.inr h))))
    · exact .inr (hj.defined table (mem_references_of_armClause h))

/-- Adding a join. -/
theorem addJoin (ho : o.Closed) (hj : joined.Closed) (he : extra.Closed) (tableAlias : String)
    (join : ResolvedJoin) : (o.addJoin tableAlias join joined extra).Closed where
  ordered := (ho.ordered.append he.ordered).append hj.ordered
  defined table h := by
    have hdefined : (o.addJoin tableAlias join joined extra).defined =
        o.defined ++ extra.defined ++ joined.defined := by
      simp [Outline.defined, Outline.addJoin]
    rw [hdefined, List.mem_append, List.mem_append, or_assoc]
    rcases mem_references.mp h with ⟨row, hrow, h⟩ | h | h
    · rcases List.mem_cons.mp hrow with rfl | hrow
      · obtain ⟨r, hr, h⟩ := mem_rowClosures_requireAll.mp h
        rcases List.mem_cons.mp hr with rfl | hr
        · exact .inl (ho.defined table (mem_references.mpr (.inl ⟨_, List.mem_cons_self, h⟩)))
        · exact .inr (.inr (hj.defined table (mem_references_of_lifted hr h)))
      · rcases List.mem_append.mp hrow with hrow | hrow
        · exact .inl (ho.defined table
            (mem_references.mpr (.inl ⟨row, List.mem_cons_of_mem _ hrow, h⟩)))
        · exact .inr (.inl (he.defined table (mem_references_of_required hrow h)))
    · rw [Outline.addJoin, joinClosures_append, joinClosures, List.mem_append, List.mem_append] at h
      rcases h with h | h | h
      · exact .inl (ho.defined table (mem_references.mpr (.inr (.inl h))))
      · exact .inr (.inr (hj.defined table (mem_references_of_clause h)))
      · exact .inr (.inr (hj.defined table (mem_references_of_liftedJoins h)))
    · exact .inl (ho.defined table (mem_references.mpr (.inr (.inr h))))

/-- Moving the conditions on joined rows into the condition. -/
theorem mergeJoinExtras (ho : o.Closed) : o.mergeJoinExtras.Closed where
  ordered := ho.ordered
  defined table h := by
    refine ho.defined table (mem_references.mpr ?_)
    rcases mem_references.mp h with ⟨row, hrow, h⟩ | h
    · obtain rfl := List.mem_singleton.mp hrow
      exact .inl (mem_rowClosures_requireAll.mp h)
    · exact .inr h

/-- Closing the rows. The first rows take all that the clauses refer to. -/
theorem close (ho : o.Closed) (name tableAlias : String) (closure : ResolvedClosure) :
    (o.close name tableAlias closure).Closed where
  ordered := by
    refine ho.ordered.concat fun table h => ho.mergeJoinExtras.defined table ?_
    rw [closureRows, Select.closures, armClosures, List.append_nil, List.mem_append] at h
    exact mem_references.mpr (h.symm.imp (fun h => ⟨_, List.mem_cons_self, h⟩) .inl)
  defined table h := by
    have hdefined : (o.close name tableAlias closure).defined = o.defined ++ [closure.table] := by
      simp [Outline.defined, Outline.close, closureRows]
    rw [hdefined, List.mem_append, List.mem_singleton]
    rcases mem_references.mp h with ⟨row, hrow, h⟩ | h
    · obtain rfl := List.mem_singleton.mp hrow
      obtain ⟨test, ht, h⟩ := mem_rowClosures.mp h
      obtain rfl := Lexeme.atom.inj (List.mem_singleton.mp ht)
      rw [Test.closures] at h
      exact .inr (List.mem_singleton.mp h)
    · exact .inl (ho.defined table (mem_references.mpr (.inr h)))

end Closed

end Outline

end AbstractSql
