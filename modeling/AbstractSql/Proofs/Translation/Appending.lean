import AbstractSql.Proofs.Translation.Effect
import Mathlib.Data.List.Forall2

/-!
# Values are only added

A translation binds the values of the comparisons it comes by, each once and under a name that was
free. So it leaves the parameters it finds as they are and adds new ones behind them, and it takes
no name back. The comparisons are listed in the order in which a translation comes by them.
-/

namespace AbstractSql

open Translating

/-- A comparison with a value that is bound. -/
structure Scalar where
  /-- The compared property. -/
  field : String
  /-- The comparison. -/
  operator : Comparison
  /-- The value it is compared with. -/
  value : Value

namespace Scalar

/-- The value in the form in which it is bound. -/
def bound (s : Scalar) : Value := s.operator.shapeValue s.value

/-- The comparison as a source of a value. -/
def source (s : Scalar) : Source := .value s.field { name := "", value := s.bound }

/-- A parameter binds the value of a comparison under a name made from its property, with nothing
declared about it. -/
def BoundBy (s : Scalar) (p : Parameter) : Prop :=
  ∃ number : Nat, p = { name := s.field ++ toString number, value := s.bound }

end Scalar

mutual

/-- The comparisons with bound values of a query: those of its conditions, of the queries it is
combined with, of its joins, and of the queries that it is matched with. -/
def Query.scalars : Query → List Scalar
  | { text := some _, .. } => []
  | { text := none, conditions, joins, combines, .. } =>
    clauseScalars conditions ++ armScalars combines ++ joinScalars joins ++ matchScalars combines

/-- The comparisons with bound values of conditions. -/
def clauseScalars : List Clause → List Scalar
  | [] => []
  | ⟨_, condition⟩ :: rest => condition.scalars ++ clauseScalars rest

/-- The comparisons with bound values of a condition. What a test for a missing value compares with
does not count. -/
def Condition.scalars : Condition → List Scalar
  | .group { conditions, .. } => clauseScalars conditions
  | .criterion { field, operator, value := .value value, .. } =>
    if operator.needsParameter then [⟨field, operator, value⟩] else []
  | .criterion { operator, value := .query query, .. } =>
    if operator.needsParameter then query.scalars else []

/-- The comparisons with bound values of the set operations that the server has. -/
def armScalars : List Combine → List Scalar
  | [] => []
  | ⟨kind, query⟩ :: rest => (if kind.isNative then query.scalars else []) ++ armScalars rest

/-- The comparisons with bound values of joins, those of a joined query in front of those of the
condition on its rows. -/
def joinScalars : List Join → List Scalar
  | [] => []
  | { query, extra := none, .. } :: rest => query.scalars ++ joinScalars rest
  | { query, extra := some extra, .. } :: rest =>
    query.scalars ++ extra.scalars ++ joinScalars rest

/-- The comparisons with bound values of the set operations that become joins. -/
def matchScalars : List Combine → List Scalar
  | [] => []
  | ⟨kind, query⟩ :: rest => (if kind.isNative then [] else query.scalars) ++ matchScalars rest

end

mutual

/-- Without statement texts the sources of a query are its comparisons with bound values. -/
theorem Query.sources_eq : ∀ q : Query, TextFree q.sites →
    sourcesOf q.sites = q.scalars.map Scalar.source
  | { text := some raw, .. }, h => by
    have hraw := h ⟨.text raw, .statement⟩ (by simp [Query.sites])
    exact absurd hraw (by simp [Source.isText])
  | { text := none, conditions, joins, combines, recurve, .. }, h => by
    have hgathered : TextFree (clauseSites conditions ++ armSites combines ++ joinSites joins
        ++ matchSites combines) := by
      cases recurve with
      | none => rwa [Query.sites] at h
      | some closure => rwa [Query.sites, textFree_move] at h
    simp only [textFree_append] at hgathered
    obtain ⟨⟨⟨hclauses, harms⟩, hjoins⟩, hmatches⟩ := hgathered
    have hsources : sourcesOf (clauseSites conditions ++ armSites combines ++ joinSites joins
        ++ matchSites combines) = (clauseScalars conditions ++ armScalars combines
          ++ joinScalars joins ++ matchScalars combines).map Scalar.source := by
      simp only [sourcesOf_append, List.map_append, clauseSources_eq conditions hclauses,
        armSources_eq combines harms, joinSources_eq joins hjoins,
        matchSources_eq combines hmatches]
    cases recurve with
    | none => rw [Query.sites, Query.scalars, hsources]
    | some closure => rw [Query.sites, Query.scalars, sourcesOf_move, hsources]

/-- Without statement texts the sources of conditions are their comparisons with bound values. -/
theorem clauseSources_eq : ∀ clauses : List Clause, TextFree (clauseSites clauses) →
    sourcesOf (clauseSites clauses) = (clauseScalars clauses).map Scalar.source
  | [], _ => by simp [clauseSites, clauseScalars]
  | ⟨_, condition⟩ :: rest, h => by
    rw [clauseSites, textFree_append] at h
    rw [clauseSites, clauseScalars, sourcesOf_append, List.map_append, condition.sources_eq h.1,
      clauseSources_eq rest h.2]

/-- Without statement texts the sources of a condition are its comparisons with bound values. -/
theorem Condition.sources_eq : ∀ condition : Condition, TextFree condition.sites →
    sourcesOf condition.sites = condition.scalars.map Scalar.source
  | .group { conditions, .. }, h => by
    rw [Condition.sites] at h
    rw [Condition.sites, Condition.scalars, clauseSources_eq conditions h]
  | .criterion { field, operator, value := .value value, .. }, _ => by
    rw [Condition.sites, Condition.scalars]
    split <;> rfl
  | .criterion { operator, value := .query query, .. }, h => by
    rw [Condition.sites] at h
    rw [Condition.sites, Condition.scalars]
    by_cases hn : operator.needsParameter
    · rw [if_pos hn, textFree_move] at h
      rw [if_pos hn, if_pos hn, sourcesOf_move, query.sources_eq h]
    · rw [if_neg hn, if_neg hn, sourcesOf_nil, List.map_nil]

/-- Without statement texts the sources of the set operations that the server has are their
comparisons with bound values. -/
theorem armSources_eq : ∀ combines : List Combine, TextFree (armSites combines) →
    sourcesOf (armSites combines) = (armScalars combines).map Scalar.source
  | [], _ => by simp [armSites, armScalars]
  | ⟨kind, query⟩ :: rest, h => by
    rw [armSites, textFree_append] at h
    rw [armSites, armScalars, sourcesOf_append, List.map_append, armSources_eq rest h.2]
    by_cases hk : kind.isNative
    · rw [if_pos hk, textFree_move] at h
      rw [if_pos hk, if_pos hk, sourcesOf_move, query.sources_eq h.1]
    · rw [if_neg hk, if_neg hk, sourcesOf_nil, List.map_nil]

/-- Without statement texts the sources of joins are their comparisons with bound values. -/
theorem joinSources_eq : ∀ joins : List Join, TextFree (joinSites joins) →
    sourcesOf (joinSites joins) = (joinScalars joins).map Scalar.source
  | [], _ => by simp [joinSites, joinScalars]
  | { query, extra := none, .. } :: rest, h => by
    rw [joinSites, textFree_append, textFree_move] at h
    rw [joinSites, joinScalars, sourcesOf_append, sourcesOf_move, List.map_append,
      query.sources_eq h.1, joinSources_eq rest h.2]
  | { query, extra := some extra, .. } :: rest, h => by
    rw [joinSites, textFree_append, textFree_append, textFree_move, textFree_move] at h
    rw [joinSites, joinScalars, sourcesOf_append, sourcesOf_append, sourcesOf_move, sourcesOf_move,
      List.map_append, List.map_append, query.sources_eq h.1.1, extra.sources_eq h.1.2,
      joinSources_eq rest h.2]

/-- Without statement texts the sources of the set operations that become joins are their
comparisons with bound values. -/
theorem matchSources_eq : ∀ combines : List Combine, TextFree (matchSites combines) →
    sourcesOf (matchSites combines) = (matchScalars combines).map Scalar.source
  | [], _ => by simp [matchSites, matchScalars]
  | ⟨kind, query⟩ :: rest, h => by
    rw [matchSites, textFree_append] at h
    rw [matchSites, matchScalars, sourcesOf_append, List.map_append, matchSources_eq rest h.2]
    by_cases hk : kind.isNative
    · rw [if_pos hk, if_pos hk, sourcesOf_nil, List.map_nil]
    · rw [if_neg hk, textFree_move] at h
      rw [if_neg hk, if_neg hk, sourcesOf_move, query.sources_eq h.1]

end

/-- Binding a value raises the number in the names, and a statement text leaves it alone. -/
theorem Source.sequence_le_bind (names : NameSupply) (source : Source) :
    names.sequence ≤ (source.bind names).2.sequence := by
  cases source with
  | value base content => exact Nat.le_of_lt (names.sequence_nextParameter base)
  | text raw => exact Nat.le_of_eq (names.sequence_reserveAll raw.parameters.names).symm

/-- Binding sources never lowers the number in the names. -/
theorem sequence_le_after (names : NameSupply) (sources : List Source) :
    names.sequence ≤ (names.after sources).sequence := by
  induction sources generalizing names with
  | nil => exact Nat.le_refl names.sequence
  | cons source rest ih =>
    exact Nat.le_trans (source.sequence_le_bind names) (ih (source.bind names).2)

/-- The ledger of comparisons binds each of them, in order. -/
theorem ledger_boundBy (names : NameSupply) (scalars : List Scalar) :
    List.Forall₂ Scalar.BoundBy scalars
      (Entry.parameters (ledger names (scalars.map Scalar.source)).1) := by
  induction scalars generalizing names with
  | nil => exact .nil
  | cons scalar rest ih => exact .cons ⟨_, rfl⟩ (ih _)

/-- Between two workspaces the values of the given comparisons are bound by new parameters, and
nothing else happens to the parameters and their names. -/
structure Appends (scalars : List Scalar) (w v : Workspace) (added : List Parameter) : Prop where
  /-- The new parameters stand behind those that were there, which stay as they are. -/
  items : v.parameters.items = w.parameters.items ++ added
  /-- There is one new parameter for each comparison, in order, and it binds the value of that. -/
  bound : List.Forall₂ Scalar.BoundBy scalars added
  /-- No two new parameters have the same name. -/
  distinct : (added.map (·.name)).Nodup
  /-- No new parameter has a name that had been issued. -/
  fresh : ∀ p ∈ added, p.name ∉ w.names.issued
  /-- The names of the new parameters are issued, and those that had been stay so. -/
  issued : ∀ name, name ∈ v.names.issued ↔ name ∈ w.names.issued ∨ ∃ p ∈ added, p.name = name
  /-- The number in the names does not fall. -/
  sequence : w.names.sequence ≤ v.names.sequence

/-- Binding comparisons appends their values, as long as the names in use are issued. -/
theorem Effect.appends {scalars : List Scalar} {w v : Workspace}
    (h : Effect (scalars.map Scalar.source) w v)
    (hissued : ∀ p ∈ w.parameters.items, p.name ∈ w.names.issued) :
    Appends scalars w v (Entry.parameters (ledger w.supply (scalars.map Scalar.source)).1) := by
  have htext : ∀ source ∈ scalars.map Scalar.source, source.isText = false :=
    List.forall_mem_map.mpr fun _ _ => rfl
  have hplain : ∀ e ∈ (ledger w.supply (scalars.map Scalar.source)).1, e.isText = false :=
    isText_ledger htext
  have hfresh : ∀ p ∈ Entry.parameters (ledger w.supply (scalars.map Scalar.source)).1,
      p.name ∉ w.supply.issued :=
    List.forall_mem_map.mpr fun e he => ledger_fresh e he (hplain e he)
  have hdistinct : ((Entry.parameters (ledger w.supply (scalars.map Scalar.source)).1).map
      (·.name)).Nodup := by
    rw [Entry.parameters, List.map_map]
    refine List.pairwise_map.mpr ?_
    exact (ledger_pairwise w.supply _).imp_of_mem fun _ he hne => hne (hplain _ he)
  refine ⟨?_, ledger_boundBy w.supply scalars, hdistinct, hfresh, fun name => ?_, ?_⟩
  · rw [h.parameters]
    exact ParameterSet.items_union_of_fresh
      (fun p hp q hq he => hfresh p hp (he ▸ hissued q hq)) hdistinct
  · have hnames : v.supply.issued = (w.supply.after (scalars.map Scalar.source)).issued :=
      congrArg NameSupply.issued h.supply
    have hmem : name ∈ v.supply.issued ↔ name ∈ w.supply.issued ∨
        ∃ e ∈ (ledger w.supply (scalars.map Scalar.source)).1, e.parameter.name = name := by
      rw [hnames, mem_issued_after]
    simp only [Entry.parameters, List.mem_map, exists_exists_and_eq_and]
    exact hmem
  · calc w.names.sequence
        ≤ (w.supply.after (scalars.map Scalar.source)).sequence := sequence_le_after w.supply _
      _ = v.names.sequence := (congrArg NameSupply.sequence h.supply).symm

/-- Translating a query without statement texts appends the values of its comparisons. -/
theorem Query.translateUnder_appends {catalog : Catalog} {useSort : Bool} {tableAlias : String}
    {q : Query} {w v : Workspace} {t : Translation} (hf : TextFree q.sites)
    (hissued : ∀ p ∈ w.parameters.items, p.name ∈ w.names.issued)
    (h : outcome (q.translateUnder catalog useSort tableAlias) w = (.ok t, v)) :
    ∃ added, Appends q.scalars w v added := by
  have heffect := (q.translateUnder_effect h).1
  rw [q.sources_eq hf] at heffect
  exact ⟨_, heffect.appends hissued⟩

/-- Conditions, a query in parentheses, a set operation, a join with a condition of its own and a
query to be left out bind their values in this order, next to a name that is taken. -/
theorem Query.translateUnder_appends_everywhere :
    let members : Query := ((Query.ofEntity "Member").equal "role" (.int 2)).select ["user"]
    let open_ : Query := (Query.ofEntity "Team").equal "open" (.bool true)
    let q : Query :=
      { entity := "User"
        conditions :=
          [⟨.and, .criterion { field := "level", operator := .like, value := .value (.int 1) }⟩,
            ⟨.or, .criterion { field := "deleted", operator := .isNull, value := .query members }⟩,
            ⟨.or, .criterion { field := "id", operator := .isIn, value := .query members }⟩]
        joins := [{ kind := .left, fields := [("team", "id")], query := open_
                    extra := some ((Query.ofEntity "Team").equal "size" (.int 9)) }]
        combines :=
          [⟨.except, ((Query.ofEntity "Banned").equal "level" (.int 3)).select ["id"]⟩,
            ⟨.union, (Query.ofEntity "Guest").equal "age" (.int 4)⟩] }
    let w : Workspace :=
      { names := { issued := ["level1"] }
        parameters := ⟨[{ name := "level1", value := .int 7 }]⟩ }
    TextFree q.sites ∧ (∀ p ∈ w.parameters.items, p.name ∈ w.names.issued) ∧
      ∃ t v, outcome (q.translateUnder {} true NameSupply.mainAlias) w = (.ok t, v) ∧
        v.parameters.names = ["level1", "level2", "role3", "age4", "open5", "size6", "level7"] ∧
        ∃ added, Appends q.scalars w v added := by
  intro members open_ q w
  have hf : TextFree q.sites := by decide +kernel
  have hissued : ∀ p ∈ w.parameters.items, p.name ∈ w.names.issued := by
    intro p hp
    rw [List.mem_singleton.mp hp]
    exact List.mem_cons_self
  have hnames : (outcome (q.translateUnder {} true NameSupply.mainAlias) w).2.parameters.names =
      ["level1", "level2", "role3", "age4", "open5", "size6", "level7"] := by decide +kernel
  have hok : (outcome (q.translateUnder {} true NameSupply.mainAlias) w).1.isOk = true := by
    decide +kernel
  match hrun : outcome (q.translateUnder {} true NameSupply.mainAlias) w with
  | (.ok t, v) =>
    rw [hrun] at hnames
    exact ⟨hf, hissued, t, v, rfl, hnames, Query.translateUnder_appends hf hissued hrun⟩
  | (.error failure, v) =>
    rw [hrun] at hok
    exact absurd hok (by simp [Except.isOk, Except.toBool])

end AbstractSql
