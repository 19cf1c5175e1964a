import AbstractSql.Proofs.ParameterSet.Repeats
import Mathlib.Data.List.Basic

/-!
# The algebra of unions

A set with distinct names is known by its names in their order and by what is found under each of
them. In a union the names of the first set come first and what the second set finds counts first.
So unions of such sets can be associated in any way, the empty set changes nothing on either side,
and a set is its union with itself.
-/

namespace AbstractSql.ParameterSet

variable {set other third : ParameterSet}

/-- The names of a union are those of the first set, and then those that only the second one has,
both in their own order. -/
theorem Distinct.names_union (h : other.Distinct) (set : ParameterSet) :
    (set.union other).names = set.names ++ other.names.filter (· ∉ set.names) := by
  obtain ⟨items⟩ := other
  induction items generalizing set with
  | nil => exact (List.append_nil _).symm
  | cons p rest ih =>
    obtain ⟨hp, hrest⟩ := List.pairwise_cons.mp h
    have hunion : set.union ⟨p :: rest⟩ = (set.insert p).union ⟨rest⟩ := rfl
    have hnames : (ParameterSet.mk (p :: rest)).names = p.name :: rest.map (·.name) := rfl
    have htail : (ParameterSet.mk rest).names = rest.map (·.name) := rfl
    rw [hunion, ih _ hrest, names_insert, hnames, htail]
    by_cases hmem : p.name ∈ set.names
    · rw [if_pos hmem, List.filter_cons_of_neg (by simpa using hmem)]
    · -- No later entry has the name of `p`, so the same ones of them are new with and without it.
      have hnew : (rest.map (·.name)).filter (· ∉ set.names ++ [p.name]) =
          (rest.map (·.name)).filter (· ∉ set.names) := by
        refine List.filter_congr fun name hname => ?_
        obtain ⟨q, hq, rfl⟩ := List.mem_map.mp hname
        have hne : q.name ≠ p.name := (hp q hq).symm
        simp [hne]
      rw [if_neg hmem, List.filter_cons_of_pos (by simpa using hmem), hnew, List.append_assoc,
        List.singleton_append]

/-- The entries of a set with distinct names are what is found under its names, one after
another. -/
theorem Distinct.items_eq (h : set.Distinct) : set.items = set.names.filterMap set.get? := by
  calc set.items = set.items.filterMap some := List.filterMap_some.symm
    _ = set.items.filterMap fun p => set.get? p.name :=
      List.filterMap_congr fun p hp => (h.get?_of_mem hp).symm
    _ = set.names.filterMap set.get? := by rw [names, List.filterMap_map]; rfl

/-- Sets with distinct names are equal when they have the same names in the same order and find the
same under each of them. -/
theorem Distinct.ext (h : set.Distinct) (ho : other.Distinct) (hnames : set.names = other.names)
    (hget : ∀ name, set.get? name = other.get? name) : set = other := by
  have hitems : set.items = other.items := by
    rw [h.items_eq, ho.items_eq, hnames, funext hget]
  exact congrArg ParameterSet.mk hitems

/-- Unions can be associated either way. -/
theorem Distinct.union_assoc (h : set.Distinct) (ho : other.Distinct) (ht : third.Distinct) :
    (set.union other).union third = set.union (other.union third) := by
  refine ((h.union other).union third).ext (h.union _) ?_ fun name => ?_
  · -- A name of the third set is new to the first two exactly when it is new to each of them.
    have hnew : third.names.filter (· ∉ set.names ++ other.names.filter (· ∉ set.names)) =
        (third.names.filter (· ∉ other.names)).filter (· ∉ set.names) := by
      rw [List.filter_filter]
      refine List.filter_congr fun name _ => ?_
      by_cases hs : name ∈ set.names <;> simp [hs]
    rw [ht.names_union, ho.names_union, (ho.union third).names_union, ht.names_union, hnew,
      List.filter_append, List.append_assoc]
  · rw [ht.get?_union, ho.get?_union, (ho.union third).get?_union, ht.get?_union, Option.or_assoc]

/-- A set is its union with itself. -/
theorem Distinct.union_self (h : set.Distinct) : set.union set = set := by
  refine (h.union set).ext h ?_ fun name => ?_
  · rw [h.names_union, List.filter_eq_nil_iff.mpr (by simp), List.append_nil]
  · rw [h.get?_union, Option.or_self]

end AbstractSql.ParameterSet
