import AbstractSql.Form.Value
import AbstractSql.Proofs.ParameterSet.Names

/-!
# Repeated names

No insertion, union or changed value makes a name of a parameter set come twice, and none of them
takes away a repetition. Sets that are put together by insertions therefore have distinct names, and
a set that is read from a document has distinct names exactly when the document lists no name twice.
Only with distinct names is a set its own copy, and finds the same under a name as its copy.
-/

namespace AbstractSql

/-- A change of a parameter set. -/
inductive ParameterChange where
  /-- Insert a parameter. -/
  | insert (p : Parameter)
  /-- Insert a value under a name. -/
  | add (name : String) (value : Value)
  /-- Insert the parameters of another set. -/
  | union (other : ParameterSet)
  /-- Give the parameter of a name a new value. -/
  | modify (name : String) (value : Value)

/-- Name that a document lists for a parameter. -/
def Parameter.listedName? (json : Json) : Option String :=
  (JsonRecord.of? .json partNames json).bind fun r => r.required "name" Json.toText?

/-- A parameter has the name that its document lists. -/
theorem Parameter.listedName?_of_ofJson? {json : Json} {p : Parameter}
    (h : Parameter.ofJson? json = some p) : Parameter.listedName? json = some p.name := by
  simp only [Parameter.ofJson?, Option.bind_eq_bind, Option.bind_eq_some_iff] at h
  obtain ⟨r, hr, name, hname, value, -, direction, -, size, -, precision, -, scale, -, sqlType, -,
    hp⟩ := h
  obtain rfl := Option.some.inj hp
  rw [Parameter.listedName?, hr, Option.bind_some, hname]

/-- Parameters have the names that their documents list, in the same order. -/
theorem Parameter.map_name_of_mapM {elements : List Json} {items : List Parameter}
    (h : elements.mapM Parameter.ofJson? = some items) :
    items.map (·.name) = elements.filterMap listedName? := by
  induction elements generalizing items with
  | nil =>
    obtain rfl := Option.some.inj h
    rfl
  | cons element rest ih =>
    simp only [List.mapM_cons, Option.bind_eq_bind, Option.pure_def, Option.bind_eq_some_iff,
      Option.some.injEq] at h
    obtain ⟨p, hp, others, hothers, rfl⟩ := h
    have hname := listedName?_of_ofJson? hp
    have hrest := ih hothers
    rw [List.filterMap_cons_some hname, List.map_cons, hrest]

namespace ParameterSet

/-- The set after a change. -/
def change (set : ParameterSet) : ParameterChange → ParameterSet
  | .insert p => set.insert p
  | .add name value => set.add name value
  | .union other => set.union other
  | .modify name value => set.modify name value

/-- The set after changes, one after another. -/
def changeAll (set : ParameterSet) (changes : List ParameterChange) : ParameterSet :=
  changes.foldl change set

/-- Names that a document lists for the parameters of a set. -/
def listedNames : Json → List String
  | .array items => items.filterMap Parameter.listedName?
  | _ => []

/-- Where a parameter set comes from. -/
inductive Origin where
  /-- It is new. -/
  | new
  /-- It is put together from names and values. -/
  | pairs (entries : List (String × Value))
  /-- It is read from a document. -/
  | document (json : Json)

/-- The set that comes from an origin, unless it is a document that cannot be read. -/
def Origin.set? : Origin → Option ParameterSet
  | new => some {}
  | pairs entries => some (.ofPairs entries)
  | document json => ParameterSet.ofJson? json

/-- The origin is no document that lists a name twice. -/
def Origin.ListsOnce : Origin → Prop
  | new | pairs _ => True
  | document json => (listedNames json).Nodup

variable {set : ParameterSet}

/-- No two entries have one name exactly when no name comes twice among the names. -/
theorem distinct_iff_nodup : set.Distinct ↔ set.names.Nodup := List.pairwise_map.symm

/-- An insertion neither makes nor takes away a repeated name. -/
theorem distinct_insert (set : ParameterSet) (p : Parameter) :
    (set.insert p).Distinct ↔ set.Distinct := by
  refine ⟨fun h => ?_, fun h => h.insert p⟩
  rw [distinct_iff_nodup, names_insert] at h
  rw [distinct_iff_nodup]
  split at h
  · exact h
  · exact (List.nodup_append.mp h).1

/-- A union neither makes a repeated name, whatever the second set repeats, nor takes one away. -/
theorem distinct_union (set other : ParameterSet) :
    (set.union other).Distinct ↔ set.Distinct := by
  obtain ⟨items⟩ := other
  induction items generalizing set with
  | nil => rfl
  | cons p rest ih => exact (ih (set.insert p)).trans (distinct_insert set p)

/-- A changed value neither makes nor takes away a repeated name. -/
theorem distinct_modify (set : ParameterSet) (name : String) (value : Value) :
    (set.modify name value).Distinct ↔ set.Distinct := by
  rw [distinct_iff_nodup, names_modify, distinct_iff_nodup]

/-- A change neither makes nor takes away a repeated name. -/
theorem distinct_change (set : ParameterSet) (change : ParameterChange) :
    (set.change change).Distinct ↔ set.Distinct := by
  cases change with
  | insert p => exact distinct_insert set p
  | add name value => exact distinct_insert set { name, value }
  | union other => exact distinct_union set other
  | modify name value => exact distinct_modify set name value

/-- Changes neither make nor take away a repeated name. -/
theorem distinct_changeAll (set : ParameterSet) (changes : List ParameterChange) :
    (set.changeAll changes).Distinct ↔ set.Distinct := by
  induction changes generalizing set with
  | nil => rfl
  | cons first rest ih =>
    have hrest := ih (set.change first)
    exact hrest.trans (distinct_change set first)

/-- A set of pairs has distinct names. -/
theorem distinct_ofPairs (pairs : List (String × Value)) : (ofPairs pairs).Distinct := by
  have hchanges : ofPairs pairs =
      ({} : ParameterSet).changeAll (pairs.map fun pair => .add pair.1 pair.2) := by
    rw [changeAll, List.foldl_map]
    rfl
  rw [hchanges, distinct_changeAll]
  exact .nil

/-- A set has the names that its document lists, in their order. -/
theorem names_of_ofJson? {json : Json} (h : ofJson? json = some set) :
    set.names = listedNames json := by
  obtain ⟨items, hitems, rfl⟩ := Option.map_eq_some_iff.mp h
  cases json with
  | array elements =>
    exact Parameter.map_name_of_mapM hitems
  | _ => cases hitems

/-- A set has distinct names, whatever was done to it, exactly when it does not come from a document
that lists a name twice. -/
theorem Origin.distinct_iff {origin : Origin} (h : origin.set? = some set)
    (changes : List ParameterChange) : (set.changeAll changes).Distinct ↔ origin.ListsOnce := by
  rw [distinct_changeAll]
  cases origin with
  | new =>
    obtain rfl := Option.some.inj h
    exact iff_of_true .nil trivial
  | pairs entries =>
    obtain rfl := Option.some.inj h
    exact iff_of_true (distinct_ofPairs entries) trivial
  | document json =>
    have hnames : set.names = listedNames json := names_of_ofJson? h
    rw [distinct_iff_nodup, hnames]
    rfl

/-- Copied into a new set, a set stays as it is exactly when no name repeats. -/
theorem union_empty_iff : ({} : ParameterSet).union set = set ↔ set.Distinct := by
  constructor
  · intro hcopy
    have hdistinct : (({} : ParameterSet).union set).Distinct := Distinct.union .nil set
    rwa [hcopy] at hdistinct
  · exact Distinct.union_empty

/-- A set without repeated names finds each of its entries. -/
theorem Distinct.get?_of_mem (h : set.Distinct) {p : Parameter} (hp : p ∈ set.items) :
    set.get? p.name = some p := by
  obtain ⟨before, after, hsplit⟩ := List.append_of_mem hp
  have hpairs : (before ++ p :: after).Pairwise fun q r => q.name ≠ r.name := hsplit ▸ h
  have hbefore : before.find? (fun q => q.name == p.name) = none := by
    refine List.find?_eq_none.mpr fun q hq => ?_
    have hne := (List.pairwise_append.mp hpairs).2.2 q hq p List.mem_cons_self
    simpa using hne
  rw [get?, hsplit, List.find?_append, hbefore, Option.none_or, find?_name_cons, if_pos rfl]

/-- A union finds under a name what its second set finds, when that repeats no name, and else what
the first one finds. -/
theorem Distinct.get?_union {other : ParameterSet} (h : other.Distinct) (set : ParameterSet)
    (name : String) : (set.union other).get? name = (other.get? name).or (set.get? name) := by
  rw [ParameterSet.get?_union, h.latest_eq_get?]

end ParameterSet

end AbstractSql
