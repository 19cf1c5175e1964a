import AbstractSql.Proofs.Query.Ledger
import AbstractSql.Proofs.Segment.Alike

/-!
# The names of two translations

One query translated with two supplies leaves placeholders at the same places. The twins of its
sources are the pairs of names that stand there, each with the clause it is found in.
-/

namespace AbstractSql

open Segment

/-- The names that a statement text refers to. -/
def RawText.mentioned (raw : RawText) : List String :=
  match placeholders raw.text with
  | .ok names => names
  | .error _ => []

namespace Source

/-- The pairs of names that two supplies give to a source. A statement text keeps its own. -/
def marks (left right : NameSupply) : Source → Marks
  | value base _ => {((left.nextParameter base).1, (right.nextParameter base).1)}
  | text raw => {names | names.1 = names.2 ∧ names.1 ∈ raw.mentioned}

/-- The scanner can read what a source puts into a statement: the base of a name has only characters
of names, and a statement text closes its literals. -/
def Readable : Source → Prop
  | value base _ => ∀ c ∈ base.toList, isNameCharacter c = true
  | text raw => ∃ names, placeholders raw.text = .ok names

end Source

/-- The scanner can read what all these sites put into a statement. -/
def Readable (sites : List Site) : Prop := ∀ site ∈ sites, site.source.Readable

/-- Pairs of names with the clause they are found in. -/
structure Twin where
  /-- The clause. -/
  place : Place
  /-- The pairs of names. -/
  marks : Marks

/-- The same pairs of names in another clause. -/
def Twin.move (f : Place → Place) (twin : Twin) : Twin := { twin with place := f twin.place }

/-- The twins of sites whose sources are bound with two supplies. -/
def twins (left right : NameSupply) : List Site → List Twin
  | [] => []
  | site :: rest =>
    ⟨site.place, site.source.marks left right⟩
      :: twins (site.source.bind left).2 (site.source.bind right).2 rest

/-- The pairs of names found in one clause. -/
def marksAt (place : Place) (ts : List Twin) : Marks :=
  {names | ∃ t ∈ ts, t.place = place ∧ names ∈ t.marks}

/-- The twins of sites bound one list after the other. -/
theorem twins_append (left right : NameSupply) (first second : List Site) :
    twins left right (first ++ second) =
      twins left right first
        ++ twins (left.after (sourcesOf first)) (right.after (sourcesOf first)) second := by
  induction first generalizing left right with
  | nil => rfl
  | cons site rest ih => exact congrArg (List.cons _) (ih _ _)

/-- Twins move with their sites. -/
theorem twins_move (left right : NameSupply) (f : Place → Place) (sites : List Site) :
    twins left right (sites.map (.move f)) = (twins left right sites).map (.move f) := by
  induction sites generalizing left right with
  | nil => rfl
  | cons site rest ih => exact congrArg (List.cons _) (ih _ _)

/-- Twins do not depend on the aliases. -/
theorem twins_resetAliases (left right : NameSupply) (sites : List Site) :
    twins left.resetAliases right.resetAliases sites = twins left right sites := by
  have hm : ∀ (left right : NameSupply) (source : Source),
      source.marks left.resetAliases right.resetAliases = source.marks left right := by
    intro left right source
    cases source <;> rfl
  induction sites generalizing left right with
  | nil => rfl
  | cons site rest ih => simp only [twins, Source.bind_resetAliases, hm, ih]

@[simp] theorem marksAt_nil (place : Place) : marksAt place [] = ∅ := by
  ext names
  simp [marksAt]

/-- The names found in a clause come from one of two lists. -/
@[simp] theorem marksAt_append (place : Place) (first second : List Twin) :
    marksAt place (first ++ second) = marksAt place first ∪ marksAt place second := by
  ext names
  simp only [marksAt, List.mem_append, Set.mem_ofPred_eq, Set.mem_union, or_and_right, exists_or]

/-- The names found in a clause come from the first twin or from another. -/
@[simp] theorem marksAt_cons (place : Place) (t : Twin) (ts : List Twin) :
    marksAt place (t :: ts) = (if t.place = place then t.marks else ∅) ∪ marksAt place ts := by
  ext names
  split
  · next h => simp [marksAt, h]
  · next h => simp [marksAt, h]

/-- What one twin has in a clause. -/
theorem marksAt_singleton (place : Place) (t : Twin) :
    marksAt place [t] = if t.place = place then t.marks else ∅ := by
  rw [marksAt_cons, marksAt_nil, Set.union_empty]

/-- What is found in a clause after a move was in one of those that are moved to it. -/
theorem marksAt_move (place : Place) (f : Place → Place) (ts : List Twin) :
    marksAt place (ts.map (.move f)) =
      (if f .statement = place then marksAt .statement ts else ∅) ∪
      (if f .condition = place then marksAt .condition ts else ∅) ∪
      (if f .joins = place then marksAt .joins ts else ∅) ∪
      (if f .combines = place then marksAt .combines ts else ∅) ∪
      (if f .definitions = place then marksAt .definitions ts else ∅) ∪
      (if f .extras = place then marksAt .extras ts else ∅) ∪
      (if f .lost = place then marksAt .lost ts else ∅) := by
  have hp : ∀ (p : Place) (names : String × String),
      names ∈ (if f p = place then marksAt p ts else ∅) ↔ f p = place ∧ names ∈ marksAt p ts := by
    intro p names
    split
    · next h => simp [h]
    · next h => simp [h]
  ext names
  simp only [Set.mem_union, hp, or_assoc]
  simp only [marksAt, Set.mem_ofPred_eq, List.mem_map]
  constructor
  · rintro ⟨_, ⟨t, ht, rfl⟩, hm, hn⟩
    have h : f t.place = place ∧ ∃ u ∈ ts, u.place = t.place ∧ names ∈ u.marks :=
      ⟨hm, t, ht, rfl, hn⟩
    cases hq : t.place <;> rw [hq] at h <;> simp only [h, true_or, or_true, and_self]
  · have hback : ∀ p, (f p = place ∧ ∃ t ∈ ts, t.place = p ∧ names ∈ t.marks) →
        ∃ t, (∃ u ∈ ts, u.move f = t) ∧ t.place = place ∧ names ∈ t.marks := by
      rintro p ⟨hm, t, ht, rfl, hn⟩
      exact ⟨t.move f, ⟨t, ht, rfl⟩, hm, hn⟩
    rintro (h | h | h | h | h | h | h) <;> exact hback _ h

/-- Nothing is found in a clause that none of the sites is in. -/
theorem marksAt_twins_eq_empty {place : Place} {sites : List Site}
    (h : ∀ site ∈ sites, site.place ≠ place) (left right : NameSupply) :
    marksAt place (twins left right sites) = ∅ := by
  induction sites generalizing left right with
  | nil => exact marksAt_nil place
  | cons site rest ih =>
    have hr := ih (fun s hs => h s (List.mem_cons_of_mem site hs)) (site.source.bind left).2
      (site.source.bind right).2
    have hs := h site List.mem_cons_self
    ext names
    rw [← hr]
    simp [marksAt, twins, hs]

/-- At the same place of two texts stand names of the same value, when no statement text names
anything. -/
theorem twins_entries {left right : NameSupply} {sites : List Site} (hf : TextFree sites) :
    ∀ t ∈ twins left right sites, ∀ names ∈ t.marks,
      ∃ d ∈ (ledger left (sourcesOf sites)).1, ∃ e ∈ (ledger right (sourcesOf sites)).1,
        d.parameter.name = names.1 ∧ e.parameter.name = names.2 ∧
          d.parameter.value = e.parameter.value := by
  induction sites generalizing left right with
  | nil => exact fun t ht => absurd ht List.not_mem_nil
  | cons site rest ih =>
    obtain ⟨source, place⟩ := site
    intro t ht names hn
    rcases List.mem_cons.mp ht with rfl | ht
    · cases source with
      | value base content =>
        obtain rfl : names = _ := hn
        exact ⟨_, List.mem_append_left _ List.mem_cons_self, _,
          List.mem_append_left _ List.mem_cons_self, rfl, rfl, rfl⟩
      | text raw => exact absurd (hf _ List.mem_cons_self) (by simp [Source.isText])
    · obtain ⟨d, hd, e, he, hde⟩ := ih (fun s hs => hf s (List.mem_cons_of_mem _ hs)) t ht names hn
      exact ⟨d, List.mem_append_right _ hd, e, List.mem_append_right _ he, hde⟩

end AbstractSql
