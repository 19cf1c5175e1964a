import AbstractSql.Query
import AbstractSql.Translation

/-!
# Where the values of a query go

A query binds values in its criteria and in the statement texts it holds. Translating it visits
these sources in a fixed order and puts what refers to them into one of the clauses. What embeds a
translated query does not take over all of its clauses, so a source may also end up nowhere.
-/

namespace AbstractSql

/-- What binds values. -/
inductive Source where
  /-- A value under a new name made from `base`. -/
  | value (base : String) (content : Parameter)
  /-- A statement text with parameters of its own. -/
  | text (raw : RawText)

/-- A clause of a translated query, or none. -/
inductive Place where
  /-- The text that stands in for all clauses. -/
  | statement
  /-- The condition. -/
  | condition
  /-- The joins. -/
  | joins
  /-- The set operations. -/
  | combines
  /-- The definitions of closure tables. -/
  | definitions
  /-- The conditions on joined rows that belong to the outer statement. -/
  | extras
  /-- Nowhere. -/
  | lost
  deriving DecidableEq

namespace Place

/-- Place in a condition that compares a field with the rows of a query. The conditions on joined
rows are not written. -/
def compared : Place → Place
  | statement | condition | joins | combines => condition
  | definitions => definitions
  | extras | lost => lost

/-- Place in a query that is combined with another. Of the other only its joins and its condition
are written. -/
def combined : Place → Place
  | statement | condition | joins => combines
  | definitions => definitions
  | combines | extras | lost => lost

/-- Place in a query that joins another. With set operations of its own the other one is a derived
table; without them its condition is tested in the join or outside, and its conditions on joined
rows outside. -/
def joined (derived tested : Bool) : Place → Place
  | condition => if derived || tested then joins else condition
  | joins => joins
  | combines => if derived then joins else lost
  | definitions => definitions
  | extras => if derived then lost else condition
  | statement | lost => lost

/-- Place in a query that requires a condition of joined rows. -/
def required : Place → Place
  | condition => extras
  | definitions => definitions
  | statement | joins | combines | extras | lost => lost

/-- Place after a closure has taken the condition and the joins into its first rows. -/
def closed : Place → Place
  | condition | joins | extras | definitions => definitions
  | statement => statement
  | combines => combines
  | lost => lost

end Place

/-- A source with its place. -/
structure Site where
  /-- What binds values. -/
  source : Source
  /-- Where it goes. -/
  place : Place

/-- Whether a statement text binds the values. -/
def Source.isText : Source → Bool
  | value _ _ => false
  | text _ => true

/-- None of the sites is a statement text. -/
def TextFree (sites : List Site) : Prop := ∀ site ∈ sites, site.source.isText = false

instance (sites : List Site) : Decidable (TextFree sites) :=
  inferInstanceAs (Decidable (∀ site ∈ sites, site.source.isText = false))

/-- The same source at another place. -/
def Site.move (f : Place → Place) (site : Site) : Site := { site with place := f site.place }

/-- The sources of sites. -/
def sourcesOf (sites : List Site) : List Source := sites.map (·.source)

@[simp] theorem sourcesOf_nil : sourcesOf [] = [] := rfl

/-- The sources of two lists of sites. -/
@[simp] theorem sourcesOf_append (first second : List Site) :
    sourcesOf (first ++ second) = sourcesOf first ++ sourcesOf second := List.map_append

/-- Moving sites does not change their sources. -/
@[simp] theorem sourcesOf_move (f : Place → Place) (sites : List Site) :
    sourcesOf (sites.map (.move f)) = sourcesOf sites := by
  simp [sourcesOf, Site.move, Function.comp_def]

/-- No source of such sites is a statement text. -/
theorem TextFree.sources {sites : List Site} (h : TextFree sites) :
    ∀ source ∈ sourcesOf sites, source.isText = false := by
  intro source hs
  obtain ⟨site, hsite, rfl⟩ := List.mem_map.mp hs
  exact h site hsite

/-- Sites of two lists are free of statement texts when those of each list are. -/
theorem textFree_append {first second : List Site} :
    TextFree (first ++ second) ↔ TextFree first ∧ TextFree second := List.forall_mem_append

/-- Moving sites changes none of their sources. -/
theorem textFree_move {f : Place → Place} {sites : List Site} :
    TextFree (sites.map (.move f)) ↔ TextFree sites := List.forall_mem_map

/-- The sources of sites that are visited only under a condition. -/
theorem sourcesOf_if (holds : Bool) (first second : List Site) :
    sourcesOf (if holds then first else second) =
      if holds then sourcesOf first else sourcesOf second := by
  split <;> rfl

namespace Query

/-- Whether a query has set operations that the server has too. -/
def hasArms (q : Query) : Bool := q.text.isNone && q.combines.any fun entry => entry.kind.isNative

/-- Whether the joins of a translated query are still to be written. -/
def keepsJoins (q : Query) : Bool := q.text.isSome || q.recurve.isNone

end Query

/-- What whoever embeds a translated query asks about it. -/
structure Shape where
  /-- Whether there are set operations. -/
  hasCombine : Bool
  /-- Whether the joins are still to be written. -/
  allowJoin : Bool
  /-- Whether a statement text stands in for the clauses. -/
  isText : Bool

/-- The shape of a translation. -/
def Translation.shape (t : Translation) : Shape := ⟨t.hasCombine, t.allowJoin, t.isText⟩

/-- The shape of what a query is translated to. -/
def Query.shape (q : Query) : Shape := ⟨q.hasArms, q.keepsJoins, q.isText⟩

/-- Place in a query that joins the given one. -/
def Query.joinedPlace (q : Query) (kind : JoinKind) : Place → Place :=
  Place.joined q.hasArms (q.keepsJoins && kind != .cross)

mutual

/-- The sources of a query in the order in which they are bound. -/
def Query.sites : Query → List Site
  | { text := some raw, .. } => [⟨.text raw, .statement⟩]
  | { text := none, conditions, joins, combines, recurve, .. } =>
    let gathered :=
      clauseSites conditions ++ armSites combines ++ joinSites joins ++ matchSites combines
    match recurve with
    | none => gathered
    | some _ => gathered.map (.move .closed)

/-- The sources of conditions. -/
def clauseSites : List Clause → List Site
  | [] => []
  | ⟨_, condition⟩ :: rest => condition.sites ++ clauseSites rest

/-- The sources of one condition. -/
def Condition.sites : Condition → List Site
  | .group { conditions, .. } => clauseSites conditions
  | .criterion { field, operator, value := .value value, .. } =>
    if operator.needsParameter then
      [⟨.value field { name := "", value := operator.shapeValue value }, .condition⟩]
    else []
  | .criterion { operator, value := .query query, .. } =>
    if operator.needsParameter then query.sites.map (.move .compared) else []

/-- The sources of the set operations that the server has. -/
def armSites : List Combine → List Site
  | [] => []
  | ⟨kind, query⟩ :: rest =>
    (if kind.isNative then query.sites.map (.move .combined) else []) ++ armSites rest

/-- The sources of joins. -/
def joinSites : List Join → List Site
  | [] => []
  | { kind, query, extra := none, .. } :: rest =>
    query.sites.map (.move (query.joinedPlace kind)) ++ joinSites rest
  | { kind, query, extra := some extra, .. } :: rest =>
    query.sites.map (.move (query.joinedPlace kind)) ++ extra.sites.map (.move .required)
      ++ joinSites rest

/-- The sources of the set operations that become joins; none of these is a cross join. -/
def matchSites : List Combine → List Site
  | [] => []
  | ⟨kind, query⟩ :: rest =>
    (if kind.isNative then [] else query.sites.map (.move (query.joinedPlace .inner)))
      ++ matchSites rest

end

/-- The places that a condition can put a source in. -/
def Place.ofCondition (place : Place) : Prop :=
  place = .condition ∨ place = .definitions ∨ place = .lost

/-- A comparison puts what another query binds into the condition, a definition or nowhere. -/
theorem Place.compared_ofCondition (place : Place) : place.compared.ofCondition := by
  cases place <;> simp [Place.compared, Place.ofCondition]

mutual

/-- Conditions put their sources into the condition, a definition or nowhere. -/
theorem clauseSites_place : ∀ clauses : List Clause, ∀ site ∈ clauseSites clauses,
    site.place.ofCondition
  | [] => by simp [clauseSites]
  | ⟨_, condition⟩ :: rest => by
    intro site hs
    rw [clauseSites] at hs
    rcases List.mem_append.mp hs with hs | hs
    · exact condition.sites_place site hs
    · exact clauseSites_place rest site hs

/-- A condition puts its sources into the condition, a definition or nowhere. -/
theorem Condition.sites_place : ∀ condition : Condition, ∀ site ∈ condition.sites,
    site.place.ofCondition
  | .group { conditions, .. } => by
    rw [Condition.sites]
    exact clauseSites_place conditions
  | .criterion { field, operator, value := .value value, .. } => by
    intro site hs
    rw [Condition.sites] at hs
    split at hs
    · obtain rfl := List.mem_singleton.mp hs
      exact .inl rfl
    · exact absurd hs List.not_mem_nil
  | .criterion { operator, value := .query query, .. } => by
    intro site hs
    rw [Condition.sites] at hs
    split at hs
    · obtain ⟨s, -, rfl⟩ := List.mem_map.mp hs
      exact s.place.compared_ofCondition
    · exact absurd hs List.not_mem_nil

end

/-- The sources of set operations that the server has are in a set operation, a definition or
nowhere. -/
theorem armSites_place (combines : List Combine) : ∀ site ∈ armSites combines,
    site.place = .combines ∨ site.place = .definitions ∨ site.place = .lost := by
  induction combines with
  | nil => simp [armSites]
  | cons entry rest ih =>
    obtain ⟨kind, query⟩ := entry
    intro site hs
    rw [armSites] at hs
    rcases List.mem_append.mp hs with hs | hs
    · split at hs
      · obtain ⟨s, -, rfl⟩ := List.mem_map.mp hs
        cases hp : s.place <;> simp [Site.move, hp, Place.combined]
      · exact absurd hs List.not_mem_nil
    · exact ih site hs

/-- A joined query takes the place of no statement. -/
theorem Query.joinedPlace_ne_statement (q : Query) (kind : JoinKind) (place : Place) :
    q.joinedPlace kind place ≠ .statement := by
  unfold Query.joinedPlace
  cases q.hasArms <;> cases q.keepsJoins && kind != .cross <;> cases place <;> simp [Place.joined]

/-- Joins put no source in place of the whole statement. -/
theorem joinSites_place (joins : List Join) : ∀ site ∈ joinSites joins,
    site.place ≠ .statement := by
  induction joins with
  | nil => simp [joinSites]
  | cons join rest ih =>
    obtain ⟨kind, operator, fields, query, extra⟩ := join
    have hq : ∀ site ∈ query.sites.map (Site.move (query.joinedPlace kind)),
        site.place ≠ .statement := by
      intro site hs
      obtain ⟨s, -, rfl⟩ := List.mem_map.mp hs
      exact query.joinedPlace_ne_statement kind s.place
    intro site hs
    cases extra with
    | none =>
      rw [joinSites] at hs
      rcases List.mem_append.mp hs with hs | hs
      · exact hq site hs
      · exact ih site hs
    | some extra =>
      rw [joinSites] at hs
      rcases List.mem_append.mp hs with hs | hs
      · rcases List.mem_append.mp hs with hs | hs
        · exact hq site hs
        · obtain ⟨s, -, rfl⟩ := List.mem_map.mp hs
          cases hp : s.place <;> simp [Site.move, hp, Place.required]
      · exact ih site hs

/-- Set operations that become joins put no source in place of the whole statement. -/
theorem matchSites_place (combines : List Combine) : ∀ site ∈ matchSites combines,
    site.place ≠ .statement := by
  induction combines with
  | nil => simp [matchSites]
  | cons entry rest ih =>
    obtain ⟨kind, query⟩ := entry
    intro site hs
    rw [matchSites] at hs
    rcases List.mem_append.mp hs with hs | hs
    · split at hs
      · exact absurd hs List.not_mem_nil
      · obtain ⟨s, -, rfl⟩ := List.mem_map.mp hs
        exact query.joinedPlace_ne_statement .inner s.place
    · exact ih site hs

/-- Only a statement text takes the place of the whole statement. -/
theorem Query.sites_place {q : Query} (h : q.text = none) : ∀ site ∈ q.sites,
    site.place ≠ .statement := by
  obtain ⟨entity, text, conditions, sorts, joins, combines, recurve, paging, size, fields,
    isolation⟩ := q
  obtain rfl : text = none := h
  have hg : ∀ site ∈ clauseSites conditions ++ armSites combines ++ joinSites joins
      ++ matchSites combines, site.place ≠ .statement := by
    intro site hs
    rcases List.mem_append.mp hs with hs | hs
    · rcases List.mem_append.mp hs with hs | hs
      · rcases List.mem_append.mp hs with hs | hs
        · rcases clauseSites_place conditions site hs with hp | hp | hp <;> simp [hp]
        · rcases armSites_place combines site hs with hp | hp | hp <;> simp [hp]
      · exact joinSites_place joins site hs
    · exact matchSites_place combines site hs
  cases recurve with
  | none =>
    rw [Query.sites]
    exact hg
  | some closure =>
    rw [Query.sites]
    intro site hs
    obtain ⟨s, hm, rfl⟩ := List.mem_map.mp hs
    have hn := hg s hm
    cases hp : s.place <;> simp_all [Site.move, Place.closed]

/-- A query that is no statement text has none. -/
theorem Query.isText_eq_false {q : Query} : q.isText = false ↔ q.text = none := by
  rw [isText, Option.isSome_eq_false_iff, Option.isNone_iff_eq_none]

/-- A query without statement texts is none itself. -/
theorem Query.isText_of_textFree {q : Query} (h : TextFree q.sites) : q.isText = false := by
  obtain ⟨entity, text, conditions, sorts, joins, combines, recurve, paging, size, fields,
    isolation⟩ := q
  cases text with
  | none => rfl
  | some raw =>
    rw [Query.sites] at h
    exact absurd (h _ List.mem_cons_self) (by simp [Source.isText])

/-- So it has clauses. -/
theorem Query.text_of_textFree {q : Query} (h : TextFree q.sites) : q.text = none :=
  isText_eq_false.mp (isText_of_textFree h)

end AbstractSql
