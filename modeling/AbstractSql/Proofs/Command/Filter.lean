import AbstractSql.Proofs.Command.Mentions
import Mathlib

/-!
# The filter of an update or a deletion

An update or a deletion writes some of the clauses of its translated filter. Here is exactly when
this drops nothing: the filter is no statement text, it has no set operations, and no value of it is
bound for a clause that is not written.
-/

namespace AbstractSql

open Segment (placeholders)

variable {catalog : Catalog} {c : Command} {names names' : NameSupply} {u : ExecutionUnit}

namespace Command

/-- Properties that an update assigns; a deletion assigns none. -/
def assigned (c : Command) : List String :=
  match c.kind with
  | .update => c.fields
  | _ => []

/-- The supply that the filter of a command is translated with. -/
def filterSupply (c : Command) (names : NameSupply) : NameSupply :=
  (names.nextParameters c.assigned).2

/-- The statement of an update or a deletion around a translated filter. -/
def around (c : Command) (catalog : Catalog) (names : NameSupply) (t : Translation) : String :=
  match c.kind with
  | .update => c.updateText catalog (names.nextParameters c.fields).1 t
  | _ => c.deleteText catalog t

/-- The same command for all rows. -/
def unfiltered (c : Command) : Command := { c with query := none }

/-- What a filter is translated to goes into the statement without its text and its set
operations. -/
theorem around_clauses (c : Command) (t : Translation) (text : Option String)
    (combines : List String) :
    c.around catalog names { t with text, combines } = c.around catalog names t := by
  unfold around
  split <;> rfl

/-- The statement of a compiled update or deletion. -/
theorem toUnit_around (hk : c.kind = .update ∨ c.kind = .delete)
    (h : outcome (c.toUnit catalog) names = (.ok u, names')) :
    ∃ t, c.target.translate catalog (c.filterSupply names) = (.ok t, names') ∧
      u.statements = [c.around catalog names t] := by
  unfold filterSupply assigned around
  rcases hk with hk | hk
  · obtain ⟨-, t, ht, rfl⟩ := (toUnit_update hk).mp h
    simp only [hk]
    exact ⟨t, ht, rfl⟩
  · obtain ⟨t, ht, rfl⟩ := (toUnit_delete hk).mp h
    simp only [hk]
    exact ⟨t, ht, rfl⟩

/-- The sources of the filter follow those of the assigned values. -/
theorem sites_eq (hk : c.kind = .update ∨ c.kind = .delete) :
    c.sites catalog = c.assignedSites c.assigned ++ c.target.sites := by
  unfold sites assigned
  rcases hk with hk | hk
  · simp only [hk]
  · simp only [hk]
    rfl

/-- Without its filter a command compiles whenever it does with a statement text for a filter, and to
the same statement. -/
theorem toUnit_unfiltered (hk : c.kind = .update ∨ c.kind = .delete)
    (h : outcome (c.toUnit catalog) names = (.ok u, names')) (hq : c.target.isText = true) :
    ∃ v final, outcome (c.unfiltered.toUnit catalog) names = (.ok v, final) ∧
      v.statements = u.statements := by
  obtain ⟨t, ht, hs⟩ := toUnit_around hk h
  have htranslated : c.around catalog names t = c.around catalog names {} := by
    obtain ⟨w, x, hw, rfl, -⟩ := Query.translate_eq_ok.mp ht
    generalize c.target = q at hw hq
    obtain ⟨entity, text, conditions, sorts, joins, combines, recurve, paging, size, fields,
      isolation⟩ := q
    cases text with
    | none => exact absurd hq (by simp [Query.isText])
    | some raw =>
      simp only [Query.translateUnder, outcome_bind, Translating.outcome_bindText, outcome_pure] at hw
      obtain ⟨hresult, -⟩ := Prod.mk.inj hw
      obtain rfl := Except.ok.inj hresult
      unfold around
      split <;> rfl
  rw [hs, htranslated]
  have hempty := Query.translate_ofEntity catalog c.entity
  unfold around
  rcases hk with hk | hk
  · have hunfiltered : c.unfiltered.kind = .update := hk
    obtain ⟨hf, -, -, -⟩ := (toUnit_update hk).mp h
    simp only [hk]
    exact ⟨_, _, (toUnit_update hunfiltered).mpr ⟨hf, _, hempty _, rfl⟩, rfl⟩
  · have hunfiltered : c.unfiltered.kind = .delete := hk
    simp only [hk]
    exact ⟨_, _, (toUnit_delete hunfiltered).mpr ⟨_, hempty _, rfl⟩, rfl⟩

/-- The statement drops nothing of the translated filter: it refers to all that the filter binds, and
a statement text or set operations make a difference to it. -/
structure KeepsFilter (c : Command) (catalog : Catalog) (names : NameSupply) (t : Translation)
    (statement : String) : Prop where
  /-- Every parameter of the filter has a placeholder. -/
  referenced : ∃ ps, placeholders statement = .ok ps ∧ ∀ name ∈ t.parameters.names, name ∈ ps
  /-- With another text or other set operations the statement would be another one. -/
  rendered : c.target.isText = true ∨ c.target.hasArms = true →
    ∃ text combines, c.around catalog names { t with text, combines } ≠ statement

/-- All that a filter without statement texts binds is mentioned exactly when all its sources are
written. Assigned values are written in any case, so they decide nothing. -/
theorem filter_mentioned_iff (hk : c.kind = .update ∨ c.kind = .delete)
    (hf : TextFree c.target.sites) :
    (∀ e ∈ (ledger (c.filterSupply names) (sourcesOf c.target.sites)).1,
        c.Mentions catalog names e.parameter.name) ↔
      ∀ site ∈ c.target.sites, site.place.isWritten = true := by
  have hassigned : TextFree (c.assignedSites c.assigned) := by
    intro site hs
    obtain ⟨property, -, rfl⟩ := List.mem_map.mp hs
    rfl
  have hfree : TextFree (c.assignedSites c.assigned ++ (c.target.sites ++ [])) := by
    intro site hs
    rw [List.append_nil] at hs
    rcases List.mem_append.mp hs with hs | hs
    · exact hassigned site hs
    · exact hf site hs
  have hall := forall_mentioned_iff names hfree
  have hsupply : names.after (sourcesOf (c.assignedSites c.assigned)) = c.filterSupply names :=
    (c.ledger_assigned names c.assigned).2
  rw [hsupply, List.append_nil] at hall
  simp only [Mentions, sites_eq hk]
  exact hall

/-- When an update or a deletion keeps its filter: exactly when the filter is no statement text, has
no set operations that the server has, and all it binds is mentioned by what is written. Without
statement texts inside the filter the last means that all its sources are written. A statement text
as the filter leaves the statement of the command without a filter. -/
theorem toUnit_keepsFilter_iff (hk : c.kind = .update ∨ c.kind = .delete)
    (hr : Readable (c.sites catalog))
    (h : outcome (c.toUnit catalog) names = (.ok u, names')) :
    ∃ t s, c.target.translate catalog (c.filterSupply names) = (.ok t, names') ∧
      u.statements = [s] ∧
      (c.KeepsFilter catalog names t s ↔
        c.target.isText = false ∧ c.target.hasArms = false ∧
          ∀ e ∈ (ledger (c.filterSupply names) (sourcesOf c.target.sites)).1,
            c.Mentions catalog names e.parameter.name) ∧
      (TextFree c.target.sites →
        ((∀ e ∈ (ledger (c.filterSupply names) (sourcesOf c.target.sites)).1,
            c.Mentions catalog names e.parameter.name) ↔
          ∀ site ∈ c.target.sites, site.place.isWritten = true)) ∧
      (c.target.isText = true →
        ∃ v final, outcome (c.unfiltered.toUnit catalog) names = (.ok v, final) ∧
          v.statements = [s]) := by
  have hdata : c.IsData := hk.elim (fun hk => .inr (.inl hk)) fun hk => .inr (.inr hk)
  obtain ⟨t, ht, hs⟩ := toUnit_around hk h
  obtain ⟨s, ps, hs', hps, hmem⟩ := toUnit_placeholders hdata hr h
  obtain rfl : c.around catalog names t = s := (List.cons.inj (hs.symm.trans hs')).1
  have hparameters := (Query.translate_ledger ht).2
  refine ⟨t, _, ht, hs, ?_, fun hf => filter_mentioned_iff hk hf, fun hq => ?_⟩
  · constructor
    · rintro ⟨⟨qs, hqs, hreferenced⟩, hrendered⟩
      obtain rfl : ps = qs := Except.ok.inj (hps.symm.trans hqs)
      have hnone : ¬ (c.target.isText = true ∨ c.target.hasArms = true) := by
        intro hq
        obtain ⟨text, combines, hne⟩ := hrendered hq
        exact hne (c.around_clauses t text combines)
      refine ⟨by simpa using fun hq => hnone (.inl hq), by simpa using fun hq => hnone (.inr hq), ?_⟩
      intro e he
      refine (hmem _).mp (hreferenced _ ?_)
      rw [hparameters, ParameterSet.mem_names_collect]
      exact ⟨e.parameter, List.mem_map_of_mem he, rfl⟩
    · rintro ⟨htext, harms, hmentioned⟩
      refine ⟨⟨ps, hps, fun name hn => ?_⟩, fun hq => ?_⟩
      · rw [hparameters, ParameterSet.mem_names_collect] at hn
        obtain ⟨p, hp, rfl⟩ := hn
        obtain ⟨e, he, rfl⟩ := List.mem_map.mp hp
        exact (hmem _).mpr (hmentioned e he)
      · rw [htext, harms] at hq
        exact absurd hq (by simp)
  · rw [← hs]
    exact toUnit_unfiltered hk h hq

/-- An update keeps the condition it is restricted by. -/
theorem toUnit_keepsFilter_condition :
    let c := ((ofUpdate "User").set "name" (.string "Ada")).filtered
      ((Query.ofEntity "User").equal "id" (.int 5))
    ∃ u names' t, outcome (c.toUnit {}) {} = (.ok u, names') ∧
      c.target.translate {} (c.filterSupply {}) = (.ok t, names') ∧
      u.statements = ["UPDATE `User` AS TB SET TB.`name`=?name1 WHERE TB.`id` = ?id2;"] ∧
      c.KeepsFilter {} {} t "UPDATE `User` AS TB SET TB.`name`=?name1 WHERE TB.`id` = ?id2;" := by
  intro c
  have hunit : ∃ u names', outcome (c.toUnit {}) {} = (.ok u, names') ∧
      u.statements = ["UPDATE `User` AS TB SET TB.`name`=?name1 WHERE TB.`id` = ?id2;"] :=
    ⟨_, _, rfl, by cbv⟩
  obtain ⟨u, names', hu, hstatements⟩ := hunit
  have hfilter : c.target.sites = [⟨.value "id" { name := "", value := .int 5 }, .condition⟩] := rfl
  have hsites : c.sites {} = [⟨.value "name" { name := "", value := .string "Ada" }, .condition⟩,
      ⟨.value "id" { name := "", value := .int 5 }, .condition⟩] := rfl
  have hreadable : Readable (c.sites {}) := by
    have hnames : ∀ base ∈ ["name", "id"], base.toList.all Segment.isNameCharacter = true := by
      decide
    rw [hsites]
    intro site hs
    rcases List.mem_cons.mp hs with rfl | hs
    · exact List.all_eq_true.mp (hnames "name" (by decide))
    · rw [List.mem_singleton.mp hs]
      exact List.all_eq_true.mp (hnames "id" (by decide))
  have hfree : TextFree c.target.sites := by simp [TextFree, hfilter, Source.isText]
  have hwritten : ∀ site ∈ c.target.sites, site.place.isWritten = true := by
    simp [hfilter, Place.isWritten]
  obtain ⟨t, s, ht, hs, hiff, hmentioned, -⟩ := toUnit_keepsFilter_iff (.inl rfl) hreadable hu
  obtain rfl := (List.cons.inj (hs.symm.trans hstatements)).1
  exact ⟨u, names', t, hu, ht, hs, hiff.mpr ⟨rfl, rfl, (hmentioned hfree).mpr hwritten⟩⟩

/-- Deletions that drop a part of their filter: a statement text, a set operation, and a condition on
the rows that a compared query joins. -/
theorem toUnit_dropsFilter :
    let text := Query.ofText "SELECT id FROM user WHERE age > ?age" (.ofPairs [("age", .int 30)])
    let union := (Query.ofEntity "User").combine .union ((Query.ofEntity "User").equal "id" (.int 7))
    let joined := (Query.ofEntity "User").filterSubquery "id" .isIn
      (((Query.ofEntity "Member").select ["user"]).withJoin
        { kind := .inner, fields := [("team", "id")], query := .ofEntity "Team",
          extra := some ((Query.ofEntity "Team").equal "closed" (.bool true)) })
    let drops (q : Query) (bound statement : String) :=
      ∃ u t names', outcome (((ofDelete "User").filtered q).toUnit {}) {} = (.ok u, names') ∧
        q.translate {} {} = (.ok t, names') ∧ u.statements = [statement] ∧
        u.parameters.names = [bound] ∧
        ¬ ((ofDelete "User").filtered q).KeepsFilter {} {} t statement
    drops text "age" "DELETE TB FROM `User` AS TB;" ∧
    drops union "id1" "DELETE TB FROM `User` AS TB;" ∧
    drops joined "closed1" ("DELETE TB FROM `User` AS TB WHERE TB.`id` IN (SELECT S0.`user` FROM "
      ++ "`Member` AS S0 INNER JOIN `Team` AS S1 ON S0.`team` = S1.`id`);") := by
  intro text union joined drops
  have hdrops : ∀ (bound : String) {q : Query} {t : Translation} {statement : String},
      placeholders statement = .ok [] → t.parameters.names = [bound] →
      ¬ ((ofDelete "User").filtered q).KeepsFilter {} {} t statement := by
    rintro bound q t statement hnone hbound ⟨⟨ps, hps, hreferenced⟩, -⟩
    obtain rfl : [] = ps := Except.ok.inj (hnone.symm.trans hps)
    exact absurd (hreferenced bound (by simp [hbound])) (by simp)
  refine ⟨⟨_, _, _, rfl, rfl, by decide +kernel, by decide +kernel, ?_⟩,
    ⟨_, _, _, rfl, rfl, by decide +kernel, by decide +kernel, ?_⟩,
    ⟨_, _, _, rfl, rfl, by decide +kernel, by decide +kernel, ?_⟩⟩
  · exact hdrops "age" (by decide +kernel) (by decide +kernel)
  · exact hdrops "id1" (by decide +kernel) (by decide +kernel)
  · exact hdrops "closed1" (by decide +kernel) (by decide +kernel)

end Command

end AbstractSql
