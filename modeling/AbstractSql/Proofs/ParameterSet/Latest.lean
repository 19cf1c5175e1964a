import AbstractSql.ParameterSet

/-!
# The latest entry of a name

A parameter set that is put together by insertions holds under every name the entry that was
inserted last. So what a set holds can be read off the list of all insertions, and a union of two
sets off both lists.
-/

namespace AbstractSql.ParameterSet

/-- The last of the entries with the given name. -/
def latest (items : List Parameter) (name : String) : Option Parameter :=
  items.reverse.find? fun p => p.name == name

/-- The set that the given entries make when they are inserted one after another. -/
def collect (items : List Parameter) : ParameterSet := union {} ⟨items⟩

/-- Looking for a name from the front of a list. -/
theorem find?_name_cons (p : Parameter) (rest : List Parameter) (name : String) :
    (p :: rest).find? (fun q => q.name == name) =
      if p.name = name then some p else rest.find? fun q => q.name == name := by
  by_cases hp : p.name = name
  · rw [List.find?_cons_of_pos (by simpa using hp), if_pos hp]
  · rw [List.find?_cons_of_neg (by simpa using hp), if_neg hp]

@[simp] theorem latest_nil (name : String) : latest [] name = none := rfl

/-- The last entry of two lists is that of the second, if it has one. -/
theorem latest_append (first second : List Parameter) (name : String) :
    latest (first ++ second) name = (latest second name).or (latest first name) := by
  unfold latest
  rw [List.reverse_append, List.find?_append]

/-- An entry counts only when no later one has its name. -/
theorem latest_cons (p : Parameter) (rest : List Parameter) (name : String) :
    latest (p :: rest) name =
      (latest rest name).or (if p.name = name then some p else none) := by
  have hs : latest [p] name = if p.name = name then some p else none :=
    find?_name_cons p [] name
  rw [← hs, ← latest_append]
  rfl

/-- The last entry of a name is one of the entries and has that name. -/
theorem latest_eq_some {items : List Parameter} {name : String} {p : Parameter}
    (h : latest items name = some p) : p ∈ items ∧ p.name = name := by
  have hm := List.mem_of_find?_eq_some h
  have hn := List.find?_some h
  exact ⟨List.mem_reverse.mp hm, by simpa using hn⟩

/-- There is no last entry exactly when no entry has the name. -/
theorem latest_eq_none {items : List Parameter} {name : String} :
    latest items name = none ↔ ∀ p ∈ items, p.name ≠ name := by
  simp [latest]

/-- Looking up after an insertion. -/
theorem get?_insert (set : ParameterSet) (p : Parameter) (name : String) :
    (set.insert p).get? name = if p.name = name then some p else set.get? name := by
  obtain ⟨items⟩ := set
  unfold get? insert
  induction items with
  | nil => exact find?_name_cons p [] name
  | cons q rest ih =>
    unfold insertItem
    by_cases hq : q.name = p.name
    · rw [if_pos hq, find?_name_cons, find?_name_cons, hq]
      by_cases hp : p.name = name <;> simp [hp]
    · rw [if_neg hq, find?_name_cons, find?_name_cons, ih]
      by_cases hn : q.name = name
      · have hp : p.name ≠ name := fun he => hq (hn.trans he.symm)
        simp [hn, hp]
      · simp [hn]

/-- Looking up in a union. The last entry of the second set wins. -/
theorem get?_union (set other : ParameterSet) (name : String) :
    (set.union other).get? name = (latest other.items name).or (set.get? name) := by
  obtain ⟨items⟩ := other
  induction items generalizing set with
  | nil => rfl
  | cons p rest ih =>
    have hu : set.union ⟨p :: rest⟩ = (set.insert p).union ⟨rest⟩ := rfl
    rw [hu, ih, get?_insert, latest_cons]
    by_cases hp : p.name = name <;> cases latest rest name <;> simp [hp]

/-- A collected set holds under every name the last entry. -/
theorem get?_collect (items : List Parameter) (name : String) :
    (collect items).get? name = latest items name := by
  rw [collect, get?_union]
  exact Option.or_none

/-- No two entries have the same name. -/
def Distinct (set : ParameterSet) : Prop := set.items.Pairwise fun p q => p.name ≠ q.name

/-- In a set without repeated names the last entry of a name is the first. -/
theorem Distinct.latest_eq_get? {set : ParameterSet} (h : set.Distinct) (name : String) :
    latest set.items name = set.get? name := by
  obtain ⟨items⟩ := set
  unfold Distinct at h
  unfold get?
  induction items with
  | nil => rfl
  | cons p rest ih =>
    obtain ⟨hp, hr⟩ := List.pairwise_cons.mp h
    rw [latest_cons, find?_name_cons]
    by_cases hn : p.name = name
    · have hl : latest rest name = none :=
        latest_eq_none.mpr fun q hq he => hp q hq (hn.trans he.symm)
      rw [hl, Option.none_or, if_pos hn, if_pos hn]
    · rw [if_neg hn, if_neg hn, Option.or_none]
      exact ih hr

/-- The entries after an insertion are the new one and some of those before. -/
theorem mem_insertItem {items : List Parameter} {p q : Parameter} (h : q ∈ insertItem items p) :
    q = p ∨ q ∈ items := by
  induction items with
  | nil => simpa [insertItem] using h
  | cons r rest ih =>
    unfold insertItem at h
    split at h
    · rcases List.mem_cons.mp h with rfl | h
      · exact .inl rfl
      · exact .inr (List.mem_cons_of_mem r h)
    · rcases List.mem_cons.mp h with rfl | h
      · exact .inr List.mem_cons_self
      · exact (ih h).imp_right (List.mem_cons_of_mem r)

/-- Insertions do not repeat a name. -/
theorem Distinct.insert {set : ParameterSet} (h : set.Distinct) (p : Parameter) :
    (set.insert p).Distinct := by
  obtain ⟨items⟩ := set
  unfold Distinct at h ⊢
  unfold ParameterSet.insert
  induction items with
  | nil => exact List.pairwise_singleton _ p
  | cons q rest ih =>
    obtain ⟨hq, hr⟩ := List.pairwise_cons.mp h
    unfold insertItem
    by_cases hn : q.name = p.name
    · rw [if_pos hn]
      exact List.pairwise_cons.mpr ⟨fun r hr' => hn ▸ hq r hr', hr⟩
    · rw [if_neg hn]
      refine List.pairwise_cons.mpr ⟨fun r hr' => ?_, ih hr⟩
      rcases mem_insertItem hr' with rfl | hr'
      · exact hn
      · exact hq r hr'

/-- Unions do not repeat a name of the first set. -/
theorem Distinct.union {set : ParameterSet} (h : set.Distinct) (other : ParameterSet) :
    (set.union other).Distinct := by
  obtain ⟨items⟩ := other
  induction items generalizing set with
  | nil => exact h
  | cons p rest ih => exact ih (h.insert p)

/-- Collected sets have no repeated names. -/
theorem distinct_collect (items : List Parameter) : (collect items).Distinct :=
  Distinct.union .nil ⟨items⟩

/-- Collecting keeps the last entry of every name. -/
@[simp] theorem latest_collect (items : List Parameter) (name : String) :
    latest (collect items).items name = latest items name := by
  rw [(distinct_collect items).latest_eq_get?, get?_collect]

/-- A collected set has exactly the names of the entries. -/
theorem mem_names_collect {items : List Parameter} {name : String} :
    name ∈ (collect items).names ↔ ∃ p ∈ items, p.name = name := by
  have hsame : latest (collect items).items name = none ↔ latest items name = none := by
    rw [latest_collect]
  rw [latest_eq_none, latest_eq_none] at hsame
  have hnot := not_congr hsame
  simpa [names] using hnot

/-- Inserting the entries of two lists one after another. -/
theorem union_append (set : ParameterSet) (first second : List Parameter) :
    set.union ⟨first ++ second⟩ = (set.union ⟨first⟩).union ⟨second⟩ := List.foldl_append

/-- A parameter whose name is not taken goes to the end. -/
theorem items_insert_of_fresh {set : ParameterSet} {p : Parameter}
    (h : ∀ q ∈ set.items, q.name ≠ p.name) : (set.insert p).items = set.items ++ [p] := by
  obtain ⟨items⟩ := set
  unfold insert
  induction items with
  | nil => rfl
  | cons q rest ih =>
    have hq : q.name ≠ p.name := h q List.mem_cons_self
    have hrest := ih fun r hr => h r (List.mem_cons_of_mem q hr)
    simp only [insertItem, if_neg hq, List.cons_append] at hrest ⊢
    rw [hrest]

/-- Parameters with names of their own, none of them taken, go to the end in their order. -/
theorem items_union_of_fresh {set : ParameterSet} {items : List Parameter}
    (hfresh : ∀ p ∈ items, ∀ q ∈ set.items, q.name ≠ p.name)
    (hdistinct : (items.map (·.name)).Nodup) : (set.union ⟨items⟩).items = set.items ++ items := by
  induction items generalizing set with
  | nil => exact (List.append_nil _).symm
  | cons p rest ih =>
    have hp : (set.insert p).items = set.items ++ [p] :=
      items_insert_of_fresh (hfresh p List.mem_cons_self)
    have hsplit := List.nodup_cons.mp hdistinct
    have hrest : ∀ r ∈ rest, ∀ q ∈ (set.insert p).items, q.name ≠ r.name := by
      intro r hr q hq he
      rw [hp] at hq
      rcases List.mem_append.mp hq with hq | hq
      · exact hfresh r (List.mem_cons_of_mem p hr) q hq he
      · have hn : r.name ∈ rest.map (·.name) := List.mem_map_of_mem hr
        rw [← he, List.mem_singleton.mp hq] at hn
        exact hsplit.1 hn
    have hunion : set.union ⟨p :: rest⟩ = (set.insert p).union ⟨rest⟩ := rfl
    rw [hunion, ih hrest hsplit.2, hp, List.append_assoc, List.singleton_append]

/-- Parameters with names of their own stay as they are when nothing was bound before. -/
theorem Distinct.union_empty {set : ParameterSet} (h : set.Distinct) :
    ({} : ParameterSet).union set = set := by
  have hnodup : (set.items.map (·.name)).Nodup := List.pairwise_map.mpr h
  have hitems : (({} : ParameterSet).union set).items = [] ++ set.items :=
    items_union_of_fresh (by simp) hnodup
  exact congrArg ParameterSet.mk hitems

end AbstractSql.ParameterSet
