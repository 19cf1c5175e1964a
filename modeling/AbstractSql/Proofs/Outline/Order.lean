/-!
# References that go back

Items with names stand in order when none of them refers to a later one.
-/

namespace AbstractSql

variable {α β : Type} {name : α → β} {references : α → List β}

/-- Each item refers only to its own name, to the names of items before it and to earlier ones. -/
def RefersBack (name : α → β) (references : α → List β) (earlier : List β) : List α → Prop
  | [] => True
  | item :: rest =>
    (∀ b ∈ references item, b = name item ∨ b ∈ earlier)
      ∧ RefersBack name references (earlier ++ [name item]) rest

namespace RefersBack

variable {earlier : List β} {first second items : List α}

/-- Items after others have the names of these earlier. -/
theorem append_iff : RefersBack name references earlier (first ++ second) ↔
    RefersBack name references earlier first ∧
      RefersBack name references (earlier ++ first.map name) second := by
  induction first generalizing earlier with
  | nil => simp [RefersBack]
  | cons item rest ih => simp [RefersBack, ih, and_assoc]

/-- More names may be there earlier. -/
theorem mono {more : List β} (h : RefersBack name references earlier items)
    (hm : earlier ⊆ more) : RefersBack name references more items := by
  induction items generalizing earlier more with
  | nil => trivial
  | cons item rest ih =>
    exact ⟨fun b hb => (h.1 b hb).imp_right (@hm b),
      ih h.2 (List.append_subset.mpr
        ⟨List.Subset.trans hm (List.subset_append_left _ _), List.subset_append_right _ _⟩)⟩

/-- Items after others that they do not need. -/
theorem append (hf : RefersBack name references [] first)
    (hs : RefersBack name references [] second) :
    RefersBack name references [] (first ++ second) :=
  append_iff.mpr ⟨hf, hs.mono (List.nil_subset _)⟩

/-- What any one of the items refers to. -/
theorem iff_split : RefersBack name references earlier items ↔
    ∀ before item after, items = before ++ item :: after →
      ∀ b ∈ references item, b = name item ∨ b ∈ earlier ++ before.map name := by
  constructor
  · rintro h before item after rfl
    exact (append_iff.mp h).2.1
  · intro h
    induction items generalizing earlier with
    | nil => trivial
    | cons item rest ih =>
      have hfirst := h [] item rest rfl
      rw [List.map_nil, List.append_nil] at hfirst
      refine ⟨hfirst, ih fun before other after hsplit => ?_⟩
      have hother := h (item :: before) other after (by rw [hsplit, List.cons_append])
      rwa [List.map_cons, List.append_cons] at hother

end RefersBack

end AbstractSql
