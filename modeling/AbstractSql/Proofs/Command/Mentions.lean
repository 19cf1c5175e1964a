import AbstractSql.Proofs.Command.Alike

/-!
# The placeholders of a statement

The statement of a command names exactly what the written sources of the command mention. A source
has values of its own for what it mentions; a statement text may also mention a name that it has no
value for.
-/

namespace AbstractSql

open Segment (Token placeholders mem_filterMap_name placeholders_of_read)
open ParameterSet (latest)

/-- The names that a source puts into a statement. -/
def Source.mentions (names : NameSupply) : Source → List String
  | value base _ => [(names.nextParameter base).1]
  | text raw => raw.mentioned

/-- The value that a source itself has for a name. -/
def Source.own? (names : NameSupply) (source : Source) (name : String) : Option Value :=
  (latest (Entry.parameters (source.bind names).1) name).map (·.value)

/-- A written source among these sites mentions the name. -/
def Mentioned (names : NameSupply) (sites : List Site) (name : String) : Prop :=
  ∃ before site after, sites = before ++ site :: after ∧ site.place.isWritten = true ∧
    name ∈ site.source.mentions (names.after (sourcesOf before))

/-- A name is mentioned by the first site or by another. -/
theorem mentioned_cons {names : NameSupply} {first : Site} {rest : List Site} {name : String} :
    Mentioned names (first :: rest) name ↔
      (first.place.isWritten = true ∧ name ∈ first.source.mentions names) ∨
        Mentioned (first.source.bind names).2 rest name := by
  constructor
  · rintro ⟨before, site, after, he, hw, hm⟩
    cases before with
    | nil =>
      obtain ⟨rfl, rfl⟩ := List.cons.inj he
      exact .inl ⟨hw, hm⟩
    | cons head before =>
      obtain ⟨rfl, hrest⟩ := List.cons.inj he
      exact .inr ⟨before, site, after, hrest, hw, hm⟩
  · rintro (⟨hw, hm⟩ | ⟨before, site, after, rfl, hw, hm⟩)
    · exact ⟨[], first, rest, rfl, hw, hm⟩
    · exact ⟨first :: before, site, after, rfl, hw, hm⟩

/-- Bound twice with one supply, the written sources mention what they mention. -/
theorem mem_writtenMarks_self {names : NameSupply} {sites : List Site} {pair : String × String} :
    pair ∈ writtenMarks (twins names names sites) ↔
      pair.1 = pair.2 ∧ Mentioned names sites pair.1 := by
  induction sites generalizing names with
  | nil => simp [writtenMarks, twins, Mentioned]
  | cons first rest ih =>
    have hfirst : pair ∈ first.source.marks names names ↔
        pair.1 = pair.2 ∧ pair.1 ∈ first.source.mentions names := by
      obtain ⟨left, right⟩ := pair
      cases hs : first.source with
      | value base content =>
        simp only [Source.marks, Source.mentions, Set.mem_singleton_iff, Prod.mk.injEq,
          List.mem_singleton]
        constructor
        · rintro ⟨rfl, rfl⟩
          exact ⟨rfl, rfl⟩
        · rintro ⟨rfl, rfl⟩
          exact ⟨rfl, rfl⟩
      | text raw => rfl
    have hsplit : pair ∈ writtenMarks (twins names names (first :: rest)) ↔
        (first.place.isWritten = true ∧ pair ∈ first.source.marks names names) ∨
          pair ∈ writtenMarks (twins (first.source.bind names).2 (first.source.bind names).2 rest) := by
      simp only [writtenMarks, twins, Set.mem_ofPred_eq, List.mem_cons, or_and_right, exists_or,
        exists_eq_left]
    rw [hsplit, hfirst, ih, mentioned_cons]
    constructor
    · rintro (⟨hw, he, hm⟩ | ⟨he, hm⟩)
      · exact ⟨he, .inl ⟨hw, hm⟩⟩
      · exact ⟨he, .inr hm⟩
    · rintro ⟨he, ⟨hw, hm⟩ | hm⟩
      · exact .inl ⟨hw, he, hm⟩
      · exact .inr ⟨he, hm⟩

/-- A name that is mentioned without statement texts has been bound. -/
theorem Mentioned.bound {names : NameSupply} {sites : List Site} {name : String}
    (h : Mentioned names sites name) (hf : TextFree sites) :
    ∃ e ∈ (ledger names (sourcesOf sites)).1, e.parameter.name = name := by
  induction sites generalizing names with
  | nil =>
    obtain ⟨before, site, after, he, -⟩ := h
    exact absurd he (by simp)
  | cons first rest ih =>
    rcases mentioned_cons.mp h with ⟨-, hm⟩ | hrest
    · obtain ⟨source, place⟩ := first
      cases source with
      | value base content =>
        obtain rfl := List.mem_singleton.mp hm
        exact ⟨_, List.mem_append_left _ List.mem_cons_self, rfl⟩
      | text raw => exact absurd (hf _ List.mem_cons_self) (by simp [Source.isText])
    · obtain ⟨e, he, hn⟩ := ih hrest fun site hs => hf site (List.mem_cons_of_mem first hs)
      exact ⟨e, List.mem_append_right _ he, hn⟩

/-- What later sources bind is not mentioned by a source in front, when none is a statement text. -/
theorem mentioned_cons_later {names : NameSupply} {first : Site} {rest : List Site}
    (hf : TextFree (first :: rest)) :
    ∀ e ∈ (ledger (first.source.bind names).2 (sourcesOf rest)).1,
      Mentioned names (first :: rest) e.parameter.name ↔
        Mentioned (first.source.bind names).2 rest e.parameter.name := by
  intro e he
  have hgenerated : e.isText = false :=
    isText_ledger (fun source hs => hf.sources source (List.mem_cons_of_mem _ hs)) e he
  rw [mentioned_cons, or_iff_right]
  rintro ⟨-, hm⟩
  obtain ⟨source, place⟩ := first
  cases source with
  | text raw => exact absurd (hf _ List.mem_cons_self) (by simp [Source.isText])
  | value base content =>
    exact absurd (List.mem_singleton.mp hm ▸ List.mem_cons_self) (ledger_fresh e he hgenerated)

/-- What a source binds is mentioned exactly when the source is written, when none is a statement
text: its name is not mentioned anywhere else. -/
theorem mentioned_cons_first {names : NameSupply} {first : Site} {rest : List Site}
    (hf : TextFree (first :: rest)) :
    (∀ e ∈ (first.source.bind names).1, Mentioned names (first :: rest) e.parameter.name) ↔
      first.place.isWritten = true := by
  have hrest : TextFree rest := fun site hs => hf site (List.mem_cons_of_mem first hs)
  obtain ⟨source, place⟩ := first
  cases source with
  | text raw => exact absurd (hf _ List.mem_cons_self) (by simp [Source.isText])
  | value base content =>
    constructor
    · intro h
      rcases mentioned_cons.mp (h _ List.mem_cons_self) with ⟨hw, -⟩ | hm
      · exact hw
      · obtain ⟨e, he, hn⟩ := hm.bound hrest
        have hfresh := ledger_fresh e he (isText_ledger hrest.sources e he)
        exact absurd (hn ▸ List.mem_cons_self) hfresh
    · intro hw e he
      obtain rfl := List.mem_singleton.mp he
      exact mentioned_cons.mpr (.inl ⟨hw, List.mem_cons_self⟩)

/-- Without statement texts, all that the first sources bind is mentioned exactly when these are
written. -/
theorem forall_mentioned_front_iff (names : NameSupply) {sites after : List Site}
    (hf : TextFree (sites ++ after)) :
    (∀ e ∈ (ledger names (sourcesOf sites)).1, Mentioned names (sites ++ after) e.parameter.name) ↔
      ∀ site ∈ sites, site.place.isWritten = true := by
  induction sites generalizing names with
  | nil => simp [ledger]
  | cons site rest ih =>
    rw [List.cons_append] at hf
    have hlater : ∀ e ∈ (ledger (site.source.bind names).2 (sourcesOf rest)).1,
        Mentioned names (site :: (rest ++ after)) e.parameter.name ↔
          Mentioned (site.source.bind names).2 (rest ++ after) e.parameter.name := by
      intro e he
      refine mentioned_cons_later hf e ?_
      rw [sourcesOf_append, ledger_append]
      exact List.mem_append_left _ he
    rw [List.forall_mem_cons, ← mentioned_cons_first hf,
      ← ih (site.source.bind names).2 fun s hs => hf s (List.mem_cons_of_mem site hs),
      ← forall₂_congr hlater]
    exact List.forall_mem_append

/-- Without statement texts, all that some of the sources bind is mentioned exactly when these are
written. -/
theorem forall_mentioned_iff (names : NameSupply) {before sites after : List Site}
    (hf : TextFree (before ++ (sites ++ after))) :
    (∀ e ∈ (ledger (names.after (sourcesOf before)) (sourcesOf sites)).1,
        Mentioned names (before ++ (sites ++ after)) e.parameter.name) ↔
      ∀ site ∈ sites, site.place.isWritten = true := by
  induction before generalizing names with
  | nil => exact forall_mentioned_front_iff names hf
  | cons first before ih =>
    rw [List.cons_append] at hf
    have hlater : ∀ e ∈ (ledger (names.after (sourcesOf (first :: before))) (sourcesOf sites)).1,
        Mentioned names (first :: (before ++ (sites ++ after))) e.parameter.name ↔
          Mentioned (first.source.bind names).2 (before ++ (sites ++ after)) e.parameter.name := by
      intro e he
      refine mentioned_cons_later hf e ?_
      rw [sourcesOf_append, ledger_append, sourcesOf_append, ledger_append]
      exact List.mem_append_right _ (List.mem_append_left _ he)
    exact (forall₂_congr hlater).trans
      (ih (first.source.bind names).2 fun s hs => hf s (List.mem_cons_of_mem first hs))

/-- The placeholders of a text that is alike to itself. -/
theorem Alike.placeholders {marks : Marks} {s : String} (h : Alike marks s s)
    (hm : ∀ pair ∈ marks, pair.1 = pair.2) :
    ∃ names, Segment.placeholders s = .ok names ∧ ∀ name, name ∈ names ↔ (name, name) ∈ marks := by
  obtain ⟨gs, hl, -, rfl⟩ := h
  refine ⟨_, placeholders_of_read hl, fun name => ?_⟩
  rw [mem_filterMap_name, List.mem_map]
  constructor
  · rintro ⟨g, hg, he⟩
    cases g with
    | character c => cases he
    | mark pair =>
      obtain ⟨left, right⟩ := pair
      obtain rfl : left = name := Token.mark.inj he
      obtain rfl : left = right := hm _ hg
      exact hg
  · intro hg
    exact ⟨_, hg, rfl⟩

namespace Command

variable {catalog : Catalog} {c : Command} {names names' : NameSupply} {u : ExecutionUnit}

/-- A name that a written source of the command mentions. -/
abbrev Mentions (c : Command) (catalog : Catalog) (names : NameSupply) (name : String) : Prop :=
  Mentioned names (c.sites catalog) name

/-- The placeholders of a compiled statement are the names that the written sources mention. -/
theorem toUnit_placeholders (hc : c.IsData) (hr : Readable (c.sites catalog))
    (h : outcome (c.toUnit catalog) names = (.ok u, names')) :
    ∃ s ps, u.statements = [s] ∧ placeholders s = .ok ps ∧
      ∀ name, name ∈ ps ↔ c.Mentions catalog names name := by
  obtain ⟨u', right', s, s', hu', hs, hs', halike⟩ := toUnit_alike hc hr names h
  obtain ⟨hsame, -⟩ := Prod.mk.inj (h.symm.trans hu')
  obtain rfl : u = u' := Except.ok.inj hsame
  obtain rfl : s = s' := by
    rw [hs] at hs'
    exact (List.cons.inj hs').1
  obtain ⟨ps, hps, hmem⟩ := halike.placeholders fun pair hp => (mem_writtenMarks_self.mp hp).1
  refine ⟨s, ps, hs, hps, fun name => ?_⟩
  rw [hmem, mem_writtenMarks_self]
  constructor
  · rintro ⟨-, hm⟩
    exact hm
  · intro hm
    exact ⟨rfl, hm⟩

end Command

end AbstractSql
