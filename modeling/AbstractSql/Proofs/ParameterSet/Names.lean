import AbstractSql.Proofs.ParameterSet.Latest

/-!
# The names of a changed set

Which names a parameter set has, and in what order, after a parameter was inserted or a value
changed, and what is found under them.
-/

namespace AbstractSql.ParameterSet

variable {set : ParameterSet}

/-- A name is taken exactly when it is one of the names. -/
theorem contains_iff {name : String} : set.contains name = true ↔ name ∈ set.names := by
  simp [contains, names]

/-- A name is taken exactly when something is found under it. -/
theorem contains_eq_isSome (set : ParameterSet) (name : String) :
    set.contains name = (set.get? name).isSome := List.isSome_find?.symm

/-- An insertion keeps the names in their order; a new one goes to the end. -/
theorem names_insert (set : ParameterSet) (p : Parameter) :
    (set.insert p).names = if p.name ∈ set.names then set.names else set.names ++ [p.name] := by
  by_cases hp : p.name ∈ set.names
  · rw [if_pos hp]
    obtain ⟨items⟩ := set
    unfold insert
    -- The entry of that name is replaced where it stands.
    induction items with
    | nil => simp [names] at hp
    | cons q rest ih =>
      unfold insertItem
      by_cases hq : q.name = p.name
      · rw [if_pos hq]
        simp [names, hq]
      · have hrest : p.name ∈ (ParameterSet.mk rest).names := by
          simpa [names, Ne.symm hq] using hp
        have hnames := ih hrest
        rw [if_neg hq]
        simpa [names] using hnames
  · have hfresh : ∀ q ∈ set.items, q.name ≠ p.name := by
      intro q hq he
      exact hp (he ▸ List.mem_map_of_mem hq)
    rw [if_neg hp, names, items_insert_of_fresh hfresh, List.map_append]
    rfl

/-- A changed value leaves the names as they are. -/
@[simp] theorem names_modify (set : ParameterSet) (name : String) (value : Value) :
    (set.modify name value).names = set.names := by
  obtain ⟨items⟩ := set
  unfold modify
  induction items with
  | nil => rfl
  | cons p rest ih =>
    unfold modifyItem
    split
    · rfl
    · simpa [names] using ih

/-- Looking up after a value was changed. What else is declared stays. -/
theorem get?_modify (set : ParameterSet) (name other : String) (value : Value) :
    (set.modify name value).get? other =
      if name = other then (set.get? other).map fun p => { p with value } else set.get? other := by
  obtain ⟨items⟩ := set
  unfold modify get?
  induction items with
  | nil => simp [modifyItem]
  | cons p rest ih =>
    unfold modifyItem
    by_cases hp : p.name = name
    · rw [if_pos hp, find?_name_cons, find?_name_cons]
      by_cases hn : name = other
      · simp [hp, hn]
      · simp [hp, hn]
    · rw [if_neg hp, find?_name_cons, find?_name_cons, ih]
      by_cases ho : p.name = other
      · have hn : name ≠ other := fun he => hp (ho.trans he.symm)
        simp [ho, hn]
      · simp [ho]

/-- The names after a value was changed, or added where there was none. -/
theorem names_modifyOrAdd (set : ParameterSet) (name : String) (value : Value) :
    (if set.contains name then set.modify name value else set.add name value).names =
      if name ∈ set.names then set.names else set.names ++ [name] := by
  by_cases hc : set.contains name = true
  · rw [if_pos hc, if_pos (contains_iff.mp hc), names_modify]
  · rw [if_neg hc]
    exact names_insert set _

/-- Looking up after a value was changed, or added where there was none, in a set that declares
nothing about it. -/
theorem get?_modifyOrAdd {name : String} (value : Value)
    (hplain : ∀ p, set.get? name = some p → p = { name, value := p.value }) (other : String) :
    (if set.contains name then set.modify name value else set.add name value).get? other =
      if name = other then some { name, value } else set.get? other := by
  by_cases hc : set.contains name = true
  · rw [if_pos hc, get?_modify]
    by_cases ho : name = other
    · subst ho
      rw [contains_eq_isSome, Option.isSome_iff_exists] at hc
      obtain ⟨p, hp⟩ := hc
      rw [if_pos rfl, if_pos rfl, hp, Option.map_some, hplain p hp]
    · rw [if_neg ho, if_neg ho]
  · rw [if_neg hc]
    exact get?_insert set _ other

end AbstractSql.ParameterSet
