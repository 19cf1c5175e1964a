import Mathlib.Logic.ExistsUnique
import Mathlib.Tactic.ByContra
import AbstractSql.Translation.OfQuery

/-!
# Inferred joins

The columns that a join compares come from the pairs it lists, else from the key of an entity that is
joined to itself, else from a declared relation, which also serves against its direction. So a
relation that is declared one way joins two entities by the same comparisons from either side.
-/

namespace AbstractSql

open Identifier (qualify)
open Translating (joinPairs joinConditions)

/-- The first relation that `source` declares to `target` lists these pairs. A relation that lists
none relates nothing. -/
def Catalog.Relates (catalog : Catalog) (source target : String)
    (pairs : List (String × String)) : Prop :=
  pairs ≠ [] ∧ ∃ entity before after, catalog.get? source = some entity ∧
    entity.relations = before ++ ⟨target, pairs⟩ :: after ∧ ∀ r ∈ before, r.target ≠ target

/-- Where the pairs of a join come from. -/
inductive Join.Paired (catalog : Catalog) (source : String) (join : Join) :
    List (String × String) → Prop where
  /-- The join lists them. -/
  | listed (hf : join.fields ≠ []) : Paired catalog source join join.fields
  /-- An entity is joined to itself: every property of its key is paired with itself. -/
  | key (hf : join.fields = []) (he : source = join.query.entity) :
      Paired catalog source join ((catalog.primaryKeys source).map fun property =>
        (property, property))
  /-- Two entities are related from the source to the target. -/
  | forward (hf : join.fields = []) (he : source ≠ join.query.entity)
      {pairs : List (String × String)} (hr : catalog.Relates source join.query.entity pairs) :
      Paired catalog source join pairs
  /-- Two entities are related from the target to the source only. -/
  | backward (hf : join.fields = []) (he : source ≠ join.query.entity)
      (hn : ∀ pairs, ¬catalog.Relates source join.query.entity pairs)
      {pairs : List (String × String)} (hr : catalog.Relates join.query.entity source pairs) :
      Paired catalog source join (pairs.map Prod.swap)
  /-- Two entities are not related. -/
  | unrelated (hf : join.fields = []) (he : source ≠ join.query.entity)
      (hn : ∀ pairs, ¬catalog.Relates source join.query.entity pairs)
      (hm : ∀ pairs, ¬catalog.Relates join.query.entity source pairs) :
      Paired catalog source join []

/-- Whether both sides of a pair are given. -/
def namesBoth (pair : String × String) : Bool := pair.1 != "" && pair.2 != ""

/-- The columns that a pair compares, each of its own entity and under the alias of that entity. -/
def Catalog.columnsOf (catalog : Catalog) (source target sourceAlias targetAlias : String)
    (pair : String × String) : String × String :=
  (qualify sourceAlias (catalog.column source pair.1),
    qualify targetAlias (catalog.column target pair.2))

/-- Text of a comparison of two columns. -/
def JoinOperator.comparison (operator : JoinOperator) (columns : String × String) : String :=
  columns.1 ++ " " ++ operator.sql ++ " " ++ columns.2

variable {catalog : Catalog} {source target : String} {join : Join}

/-- Two entities are related by given pairs exactly when the catalog finds these, and some. -/
theorem Catalog.relates_iff {pairs : List (String × String)} :
    catalog.Relates source target pairs ↔
      catalog.relationFields source target = pairs ∧ pairs ≠ [] := by
  unfold Relates relationFields
  cases he : catalog.get? source with
  | none =>
    constructor
    · rintro ⟨-, entity, before, after, hentity, -⟩
      cases hentity
    · rintro ⟨hpairs, hne⟩
      exact absurd hpairs.symm hne
  | some entity =>
    rw [Option.bind_some]
    constructor
    · rintro ⟨hne, _, before, after, hentity, hsplit, hbefore⟩
      obtain rfl := Option.some.inj hentity
      have hnone : before.find? (fun r => r.target == target) = none :=
        List.find?_eq_none.mpr fun r hr => by simpa using hbefore r hr
      have hfound : entity.relations.find? (fun r => r.target == target) =
          some ⟨target, pairs⟩ := by
        rw [hsplit, List.find?_append, hnone, Option.none_or, List.find?_cons_of_pos (by simp)]
      rw [hfound]
      exact ⟨rfl, hne⟩
    · rintro ⟨hpairs, hne⟩
      cases hfound : entity.relations.find? fun r => r.target == target with
      | none =>
        rw [hfound] at hpairs
        exact absurd hpairs.symm hne
      | some relation =>
        rw [hfound] at hpairs
        obtain ⟨htarget, before, after, hsplit, hbefore⟩ := List.find?_eq_some_iff_append.mp hfound
        have hrelation : relation = ⟨target, pairs⟩ := by
          cases relation
          simp_all
        refine ⟨hne, entity, before, after, rfl, hrelation ▸ hsplit, fun r hr => ?_⟩
        simpa using hbefore r hr

/-- Two entities are not related exactly when the catalog finds no pairs. -/
theorem Catalog.not_relates_iff :
    (∀ pairs, ¬catalog.Relates source target pairs) ↔ catalog.relationFields source target = [] := by
  constructor
  · intro hnone
    by_contra hne
    exact hnone _ (relates_iff.mpr ⟨rfl, hne⟩)
  · intro hempty pairs hr
    obtain ⟨hpairs, hne⟩ := relates_iff.mp hr
    exact hne (hpairs.symm.trans hempty)

/-- The pairs that are looked up are those that the join is paired by. -/
theorem Join.paired_joinPairs (join : Join) (catalog : Catalog) (source : String) :
    join.Paired catalog source (joinPairs catalog source join) := by
  unfold joinPairs
  cases hf : join.fields with
  | cons pair rest =>
    have hlisted : join.Paired catalog source join.fields := .listed (by simp [hf])
    rwa [hf] at hlisted
  | nil =>
    dsimp only
    split
    · next he => exact .key hf he
    · next he =>
      cases hforward : catalog.relationFields source join.query.entity with
      | cons pair rest =>
        have hr := Catalog.relates_iff.mpr ⟨hforward, List.cons_ne_nil pair rest⟩
        exact .forward hf he hr
      | nil =>
        have hn := Catalog.not_relates_iff.mpr hforward
        by_cases hback : catalog.relationFields join.query.entity source = []
        · have hm := Catalog.not_relates_iff.mpr hback
          rw [hback]
          exact .unrelated hf he hn hm
        · have hr := Catalog.relates_iff.mpr ⟨rfl, hback⟩
          exact .backward hf he hn hr

/-- The sources of pairs exclude one another, so a join is paired in one way. -/
theorem Join.Paired.eq_joinPairs {pairs : List (String × String)}
    (h : join.Paired catalog source pairs) : pairs = joinPairs catalog source join := by
  unfold joinPairs
  cases h with
  | listed hf =>
    cases hl : join.fields with
    | nil => exact absurd hl hf
    | cons pair rest => rfl
  | key hf he => simp only [hf, if_pos he]
  | forward hf he hr =>
    obtain ⟨hpairs, hne⟩ := Catalog.relates_iff.mp hr
    obtain ⟨pair, rest, rfl⟩ := List.exists_cons_of_ne_nil hne
    simp only [hf, if_neg he, hpairs]
  | backward hf he hn hr =>
    obtain ⟨hpairs, -⟩ := Catalog.relates_iff.mp hr
    have hforward := Catalog.not_relates_iff.mp hn
    simp only [hf, if_neg he, hforward, hpairs]
    rfl
  | unrelated hf he hn hm =>
    have hforward := Catalog.not_relates_iff.mp hn
    have hback := Catalog.not_relates_iff.mp hm
    simp only [hf, if_neg he, hforward, hback, List.map_nil]

/-- The comparisons of a join that is no cross join. -/
theorem Join.conditions_eq_comparisons (catalog : Catalog) (source : String)
    (hk : join.kind ≠ .cross) (sourceAlias targetAlias : String) :
    joinConditions catalog source join sourceAlias targetAlias =
      (((joinPairs catalog source join).filter namesBoth).map
        (catalog.columnsOf source join.query.entity sourceAlias targetAlias)).map
          join.operator.comparison := by
  rw [joinConditions, if_neg hk, List.map_map]
  rfl

/-- Two entities of which one at most declares a relation to the other are joined by the same pairs
from both sides. -/
theorem Join.pairs_swap {back : Join} (hb : back.query.entity = source)
    (he : source ≠ join.query.entity) (hf : join.fields = []) (hg : back.fields = [])
    (hone : catalog.relationFields source join.query.entity = [] ∨
      catalog.relationFields join.query.entity source = []) :
    joinPairs catalog join.query.entity back =
      (joinPairs catalog source join).map Prod.swap := by
  unfold joinPairs
  simp only [hf, hg, hb, if_neg he, if_neg he.symm]
  rcases hone with hforward | hback
  · -- Seen from the target the relation is declared forwards, or not at all.
    rw [hforward]
    cases hback : catalog.relationFields join.query.entity source with
    | nil => rfl
    | cons pair rest =>
      have htwice : ∀ pairs : List (String × String),
          (pairs.map fun pair => (pair.2, pair.1)).map Prod.swap = pairs := fun pairs => by
        simp [Function.comp_def]
      exact (htwice _).symm
  · rw [hback]
    cases hforward : catalog.relationFields source join.query.entity with
    | nil => rfl
    | cons pair rest => rfl

/-- Exchanging the sides of pairs exchanges the compared columns. -/
theorem Catalog.columnsOf_swap (pairs : List (String × String))
    (source target sourceAlias targetAlias : String) :
    ((pairs.map Prod.swap).filter namesBoth).map
        (catalog.columnsOf target source targetAlias sourceAlias) =
      ((pairs.filter namesBoth).map
        (catalog.columnsOf source target sourceAlias targetAlias)).map Prod.swap := by
  have hnames : namesBoth ∘ Prod.swap = namesBoth := by
    funext pair
    exact Bool.and_comm _ _
  rw [List.filter_map, hnames, List.map_map, List.map_map]
  rfl

/-- A join that is no cross join compares the columns of its pairs, in their order and each under
the alias of its entity, and passes over pairs with an empty side. The pairs have one source: the
join itself, else the key of an entity joined to itself, else the relation from source to target,
else the one from target to source with its sides exchanged, else there are none. Two entities that
are not related both ways and list no pairs are joined from either side by the same comparisons with
their sides exchanged. -/
theorem Join.conditions_inferred (catalog : Catalog) (source : String) {join : Join}
    (hk : join.kind ≠ .cross) (sourceAlias targetAlias : String) :
    (∃! pairs, join.Paired catalog source pairs) ∧
      (∀ pairs, join.Paired catalog source pairs →
        joinConditions catalog source join sourceAlias targetAlias =
          ((pairs.filter namesBoth).map
            (catalog.columnsOf source join.query.entity sourceAlias targetAlias)).map
              join.operator.comparison) ∧
      ∀ back : Join, back.kind ≠ .cross → back.query.entity = source →
        source ≠ join.query.entity → join.fields = [] → back.fields = [] →
        (∀ pairs, ¬catalog.Relates source join.query.entity pairs) ∨
          (∀ pairs, ¬catalog.Relates join.query.entity source pairs) →
        ∃ columns : List (String × String),
          joinConditions catalog source join sourceAlias targetAlias =
            columns.map join.operator.comparison ∧
          joinConditions catalog join.query.entity back targetAlias sourceAlias =
            (columns.map Prod.swap).map back.operator.comparison := by
  have hpaired := join.paired_joinPairs catalog source
  have hwritten := Join.conditions_eq_comparisons catalog source hk sourceAlias targetAlias
  refine ⟨⟨_, hpaired, fun pairs h => h.eq_joinPairs⟩, fun pairs h => ?_, ?_⟩
  · rw [hwritten, h.eq_joinPairs]
  · intro back hkb hb he hf hg hone
    rw [Catalog.not_relates_iff, Catalog.not_relates_iff] at hone
    refine ⟨_, hwritten, ?_⟩
    rw [Join.conditions_eq_comparisons _ _ hkb, Join.pairs_swap hb he hf hg hone, hb,
      Catalog.columnsOf_swap]

/-- Orders and customers, related from the order only, under names that no column has. The customer
joined to the order and the order to the customer compare the same two columns. -/
theorem Join.conditions_inferred_order :
    let catalog : Catalog := (({} : Catalog).insert "Order"
        { fields := [{ property := "customer", mapped := some "customer_no" }],
          relations := [⟨"Customer", [("", "id"), ("customer", "id")]⟩] }).insert "Customer"
        { fields := [{ property := "id", mapped := some "no", primaryKey := true }] }
    let join : Join := { kind := .inner, query := { entity := "Customer" } }
    let back : Join := { kind := .left, query := { entity := "Order" } }
    join.kind ≠ .cross ∧
      join.Paired catalog "Order" [("", "id"), ("customer", "id")] ∧
      joinConditions catalog "Order" join "O" "C" = ["O.`customer_no` = C.`no`"] ∧
      joinConditions catalog "Customer" back "C" "O" = ["C.`no` = O.`customer_no`"] ∧
      ∃ columns : List (String × String),
        joinConditions catalog "Order" join "O" "C" = columns.map JoinOperator.equal.comparison ∧
        joinConditions catalog "Customer" back "C" "O" =
          (columns.map Prod.swap).map JoinOperator.equal.comparison := by
  intro catalog join back
  have hk : join.kind ≠ .cross := by decide
  obtain ⟨-, -, hmirror⟩ := Join.conditions_inferred catalog "Order" hk "O" "C"
  have hrelation : catalog.Relates "Order" "Customer" [("", "id"), ("customer", "id")] :=
    Catalog.relates_iff.mpr ⟨by decide, by decide⟩
  have hnone : ∀ pairs, ¬catalog.Relates "Customer" "Order" pairs :=
    Catalog.not_relates_iff.mpr (by decide)
  refine ⟨hk, .forward rfl (by decide) hrelation, by decide, by decide, ?_⟩
  exact hmirror back (by decide) rfl (by decide) rfl rfl (.inr hnone)

end AbstractSql
