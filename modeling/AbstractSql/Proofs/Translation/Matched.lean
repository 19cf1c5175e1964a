import AbstractSql.Translation.SetOperation
import Mathlib.Data.List.Forall2

/-!
# Set operations and the joins that stand for them

A set operation that the server lacks becomes one join, which is given here in full: the rows are
matched on at least one property, INTERSECT keeps those with a match, and EXCEPT keeps those for
which the first matched property is missing. The operations of a list become joins in their order.
-/

namespace AbstractSql

variable {catalog : Catalog} {entry : Combine} {join : Join}

/-- The properties that make two rows equal are never none. -/
theorem Catalog.matchedFields_ne_nil {target : Query} {fields : List String}
    (h : catalog.matchedFields target = .ok fields) : fields ≠ [] := by
  rintro rfl
  unfold matchedFields at h
  split at h
  · cases h
  · split at h
    · cases h
    · split at h <;> cases h

namespace Combine

/-- The join that stands for a set operation. -/
inductive Becomes (catalog : Catalog) : Combine → Join → Prop where
  /-- The rows of both are the pairs of rows that match. -/
  | intersect {query : Query} {first : String} {rest : List String} (entity : query.entity ≠ "")
      (matched : catalog.matchedFields query = .ok (first :: rest)) :
      Becomes catalog ⟨.intersect, query⟩
        { kind := .inner, fields := (first :: rest).map fun f => (f, f), query }
  /-- The rows that the other query lacks are those that have no match. -/
  | except {query : Query} {first : String} {rest : List String} (entity : query.entity ≠ "")
      (matched : catalog.matchedFields query = .ok (first :: rest)) :
      Becomes catalog ⟨.except, query⟩
        { kind := .left, fields := (first :: rest).map fun f => (f, f), query
          extra := some ((Query.ofEntity query.entity).isNull first) }

namespace Becomes

/-- Only an operation that the server lacks becomes a join. -/
theorem not_native (h : entry.Becomes catalog join) : entry.kind.isNative = false := by
  cases h <;> rfl

/-- The other query is joined. -/
theorem query_eq (h : entry.Becomes catalog join) : join.query = entry.query := by
  cases h <;> rfl

end Becomes

/-- Either the server has a set operation, or one join stands for it. -/
theorem asJoin_eq_ok {join? : Option Join} (h : entry.asJoin catalog = .ok join?) :
    entry.kind.isNative = true ∧ join? = none ∨
      ∃ join, join? = some join ∧ entry.Becomes catalog join := by
  obtain ⟨kind, query⟩ := entry
  unfold asJoin at h
  split at h
  · next hk => exact .inl ⟨hk, (Except.ok.inj h).symm⟩
  · next hk =>
    split at h
    · cases h
    · next hentity =>
      refine .inr ?_
      cases hfields : catalog.matchedFields query with
      | error failure =>
        rw [hfields] at h
        cases h
      | ok fields =>
        rw [hfields] at h
        obtain rfl := Except.ok.inj h
        cases fields with
        | nil => exact absurd rfl (Catalog.matchedFields_ne_nil hfields)
        | cons first rest =>
          cases kind with
          | union => exact absurd rfl hk
          | unionAll => exact absurd rfl hk
          | intersect => exact ⟨_, rfl, .intersect hentity hfields⟩
          | except => exact ⟨_, rfl, .except hentity hfields⟩

/-- A join stands for a set operation as described. -/
theorem becomes_of_asJoin (h : entry.asJoin catalog = .ok (some join)) :
    entry.Becomes catalog join := by
  rcases asJoin_eq_ok h with ⟨-, hn⟩ | ⟨_, hs, hb⟩
  · cases hn
  · exact Option.some.inj hs ▸ hb

/-- A set operation for which no join stands is one that the server has. -/
theorem isNative_of_asJoin (h : entry.asJoin catalog = .ok none) : entry.kind.isNative = true := by
  rcases asJoin_eq_ok h with ⟨hk, -⟩ | ⟨_, hs, -⟩
  · exact hk
  · cases hs

end Combine

/-- The joins that stand for a list of set operations are those of its members, in order. -/
theorem Catalog.matchingJoins_becomes {combines : List Combine} {joins : List Join}
    (h : catalog.matchingJoins combines = .ok joins) :
    List.Forall₂ (Combine.Becomes catalog)
      (combines.filter fun entry => !entry.kind.isNative) joins := by
  induction combines generalizing joins with
  | nil =>
    obtain rfl := Except.ok.inj h
    exact .nil
  | cons entry rest ih =>
    rw [matchingJoins] at h
    cases hentry : entry.asJoin catalog with
    | error failure =>
      rw [hentry] at h
      cases h
    | ok join? =>
      rw [hentry] at h
      cases hrest : catalog.matchingJoins rest with
      | error failure =>
        rw [hrest] at h
        cases h
      | ok others =>
        rw [hrest] at h
        obtain rfl := Except.ok.inj h
        have hothers := ih hrest
        rcases Combine.asJoin_eq_ok hentry with ⟨hk, rfl⟩ | ⟨join, rfl, hb⟩
        · rw [List.filter_cons_of_neg (by simp [hk])]
          exact hothers
        · rw [List.filter_cons_of_pos (by simp [hb.not_native])]
          exact .cons hb hothers

end AbstractSql
