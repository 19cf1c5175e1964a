import AbstractSql.Proofs.Translation.Joining

/-!
# Two translations of one query

One query is translated from two workspaces that only differ in their parameter names. Both
translations fail in the same way, or both succeed with alike clauses. A step of the translator is
coupled when its parts are; the recursion then follows the query.
-/

namespace AbstractSql

open Segment Identifier Translating

variable {α β γ δ : Type} {w w' v v' : Workspace}

/-- The same aliases come next in two workspaces. -/
def SameAliases (w w' : Workspace) : Prop :=
  w.names.aliases = w'.names.aliases ∧ w.names.closures = w'.names.closures

/-- Both outcomes are the same failure, or both are results that are related, and the same aliases
come next. -/
inductive Coupled (R : α → β → Prop) :
    Except Failure α × Workspace → Except Failure β × Workspace → Prop where
  /-- Both steps fail in the same way. -/
  | failure (e : Failure) (v v' : Workspace) : Coupled R (.error e, v) (.error e, v')
  /-- Both steps succeed. -/
  | success {a : α} {b : β} {v v' : Workspace} (same : SameAliases v v') (related : R a b) :
      Coupled R (.ok a, v) (.ok b, v')

namespace Coupled

variable {R : α → β → Prop} {Q : γ → δ → Prop}

/-- Results that are related in one way are related in another. -/
theorem imp {S : α → β → Prop} {r : Except Failure α × Workspace}
    {r' : Except Failure β × Workspace} (h : Coupled R r r')
    (hi : ∀ a b v v', r = (.ok a, v) → r' = (.ok b, v') → R a b → S a b) : Coupled S r r' := by
  cases h with
  | failure e v v' => exact .failure e v v'
  | success same related => exact .success same (hi _ _ _ _ rfl rfl related)

/-- Returning related results. -/
theorem pure {a : α} {b : β} (hs : SameAliases w w') (hr : R a b) :
    Coupled R (outcome (Pure.pure a) w) (outcome (Pure.pure b) w') := .success hs hr

/-- Steps composed of coupled steps are coupled. -/
theorem bind {first : Translating α} {first' : Translating β} {next : α → Translating γ}
    {next' : β → Translating δ} (h : Coupled R (outcome first w) (outcome first' w'))
    (k : ∀ a b v v', outcome first w = (.ok a, v) → outcome first' w' = (.ok b, v') →
      SameAliases v v' → R a b → Coupled Q (outcome (next a) v) (outcome (next' b) v')) :
    Coupled Q (outcome (first >>= next) w) (outcome (first' >>= next') w') := by
  rw [outcome_bind, outcome_bind]
  generalize hf : outcome first w = r at h k
  generalize hf' : outcome first' w' = r' at h k
  cases h with
  | failure e v v' => exact .failure e v v'
  | success same related => exact k _ _ _ _ rfl rfl same related

/-- A step that has nothing to do with the workspace is coupled with itself. -/
theorem lift (result : Except Failure α) (hs : SameAliases w w') :
    Coupled (fun a b => a = b ∧ result = .ok a) (outcome (Translating.lift result) w)
      (outcome (Translating.lift result) w') := by
  rw [outcome_lift, outcome_lift]
  cases result with
  | error e => exact .failure e w w'
  | ok a => exact .success hs ⟨rfl, rfl⟩

/-- A check is coupled with itself. -/
theorem ensure (holds : Bool) (failure : Failure) (hs : SameAliases w w') :
    Coupled (fun _ _ => True) (outcome (Translating.ensure holds failure) w)
      (outcome (Translating.ensure holds failure) w') :=
  (lift _ hs).imp fun _ _ _ _ _ _ _ => trivial

/-- The same alias is issued. -/
theorem nextAlias (hs : SameAliases w w') :
    Coupled (fun a b => a = b ∧ Plain a) (outcome Translating.nextAlias w)
      (outcome Translating.nextAlias w') := by
  rw [outcome_nextAlias, outcome_nextAlias]
  refine .success ⟨congrArg (· + 1) hs.1, hs.2⟩ ⟨?_, plain_nextAlias w.names⟩
  rw [NameSupply.nextAlias, NameSupply.nextAlias, hs.1]

/-- The same closure table is issued. -/
theorem nextClosure (hs : SameAliases w w') :
    Coupled (fun a b => a = b ∧ Plain a.name ∧ Plain a.shortName)
      (outcome Translating.nextClosure w) (outcome Translating.nextClosure w') := by
  rw [outcome_nextClosure, outcome_nextClosure]
  refine .success ⟨hs.1, congrArg (· + 1) hs.2⟩ ⟨?_, plain_nextClosure w.names⟩
  rw [NameSupply.nextClosure, NameSupply.nextClosure, hs.2]

end Coupled

/-- A step that translates a query is coupled with itself from all workspaces with the given
supplies. -/
def Couples (q : Query) (left right : NameSupply) (translate : String → Translating Translation) :
    Prop :=
  ∀ tableAlias w w', Plain tableAlias → SameAliases w w' → w.supply = left → w'.supply = right →
    Coupled (Nested q (twins left right q.sites)) (outcome (translate tableAlias) w)
      (outcome (translate tableAlias) w')

/-- A step that is coupled with itself from all workspaces. -/
theorem Couples.of_coupled {q : Query} {left right : NameSupply}
    {translate : String → Translating Translation}
    (h : ∀ {tableAlias w w'}, Plain tableAlias → SameAliases w w' →
      Coupled (Nested q (twins w.supply w'.supply q.sites)) (outcome (translate tableAlias) w)
        (outcome (translate tableAlias) w')) : Couples q left right translate := by
  intro tableAlias w w' ha hs hl hr
  rw [← hl, ← hr]
  exact h ha hs

/-- A name that a supply gives to a base can be read back. -/
theorem nextParameter_readable {base : String} (h : ∀ c ∈ base.toList, isNameCharacter c = true)
    (names : NameSupply) :
    (names.nextParameter base).1 ≠ "" ∧
      ∀ c ∈ (names.nextParameter base).1.toList, isNameCharacter c = true := by
  obtain ⟨number, hn⟩ : ∃ number : Nat, (names.nextParameter base).1 = base ++ toString number :=
    ⟨_, rfl⟩
  rw [hn]
  have hd := isNameCharacter_digits number
  refine ⟨fun he => ?_, fun c hc => ?_⟩
  · have hl := congrArg String.toList he
    rw [String.toList_append, Nat.toString_eq_ofList_toDigits, String.toList_ofList] at hl
    exact Nat.toDigits_ne_nil (List.append_eq_nil_iff.mp hl).2
  · rw [String.toList_append] at hc
    rcases List.mem_append.mp hc with hc | hc
    · exact h c hc
    · exact hd c hc

/-- Comparisons with a value are coupled. -/
theorem valueComparison_coupled {field : String} (criterion : Criterion) {value : Value}
    (hf : Literal field) (hs : SameAliases w w')
    (hr : ∀ c ∈ criterion.field.toList, isNameCharacter c = true) :
    Coupled (fun f f' => f.Twins (twins w.supply w'.supply
        [⟨.value criterion.field { name := "", value := criterion.operator.shapeValue value },
          .condition⟩]) f')
      (outcome (valueComparison field criterion value) w)
      (outcome (valueComparison field criterion value) w') := by
  have ho : Plain criterion.operator.sql := by cases criterion.operator <;> decide
  obtain ⟨hne, hall⟩ := nextParameter_readable hr w.names
  obtain ⟨hne', hall'⟩ := nextParameter_readable hr w'.names
  unfold valueComparison
  rw [outcome_bind, outcome_bind, outcome_bindFresh, outcome_bindFresh]
  refine .success hs ⟨?_, ?_, rfl⟩
  · simp only [String.append_assoc]
    refine (Alike.literal_append hf (.plain_append (by decide) (.plain_append ho
      (.plain_append (by decide) (.placeholder hne hne' hall hall'))))
      (delimits_append (by decide) _)).congr ?_
    simp [twins, Source.marks]
  · refine AlikeAll.nil.congr ?_
    simp [twins]

/-- A comparison with another query is coupled when that query is. -/
theorem queryComparison_coupled (catalog : Catalog) {field : String} (operator : Comparison)
    {q : Query} {translate : Bool → String → Translating Translation} (hf : Literal field)
    (hs : SameAliases w w')
    (ht : ∀ useSort, Couples q w.supply w'.supply (translate useSort)) :
    Coupled (fun f f' => f.Twins ((twins w.supply w'.supply q.sites).map (.move .compared)) f')
      (outcome (queryComparison catalog field operator q translate) w)
      (outcome (queryComparison catalog field operator q translate) w') := by
  unfold queryComparison
  cases hq : q.isText with
  | true =>
    simp only [if_true]
    refine .bind (ht false "" w w' (by decide) hs rfl rfl) fun n n' v v' hn hn' hv hr => ?_
    exact .pure hv (textComparison_twins hf operator hr.twins fun place hp _ =>
      hr.statement hq place hp)
  | false =>
    simp only [Bool.false_eq_true, if_false]
    cases q.fields with
    | nil => exact .failure _ w w'
    | cons property rest =>
      refine .bind (.nextAlias hs) fun a a' v v' hn hn' hv ha => ?_
      obtain ⟨rfl, hp⟩ := ha
      refine .bind (ht _ a v v' hp hv (nextAlias_effect hn).supply (nextAlias_effect hn').supply)
        fun n n' u u' _ _ hu hr => ?_
      exact .pure hu (subqueryComparison_twins catalog hf hp operator q property hr.twins
        (hr.clauses hq))

/-- Set operations that the server has are coupled when their queries are. -/
theorem addNative_coupled (catalog : Catalog) (source : Query) {entry : Combine}
    {translate : String → Translating Translation} {out out' : Translation} {ts : List Twin}
    (hs : SameAliases w w')
    (ht : entry.kind.isNative = true → Couples entry.query w.supply w'.supply translate)
    (ho : out.Twins ts out') :
    Coupled (fun t t' => t.Twins (ts ++ twins w.supply w'.supply
        (if entry.kind.isNative then entry.query.sites.map (.move .combined) else [])) t')
      (outcome (addNative catalog source entry translate out) w)
      (outcome (addNative catalog source entry translate out') w') := by
  unfold addNative
  by_cases hk : entry.kind.isNative = true
  · simp only [hk, if_true]
    refine .bind (.ensure _ _ hs) fun _ _ x x' hx hx' hxs _ => ?_
    refine .bind (.lift _ hxs) fun operator _ y y' hy hy' hys hop => ?_
    obtain ⟨rfl, hop⟩ := hop
    refine .bind (.nextAlias hys) fun tableAlias _ z z' hz hz' hzs ha => ?_
    obtain ⟨rfl, hp⟩ := ha
    have hsupply := ((ensure_effect hx).after_none
      ((lift_effect hy).after_none (nextAlias_effect hz))).supply
    have hsupply' := ((ensure_effect hx').after_none
      ((lift_effect hy').after_none (nextAlias_effect hz'))).supply
    refine .bind (ht hk tableAlias z z' hp hzs hsupply hsupply') fun n n' u u' _ _ hu hr => ?_
    rw [twins_move]
    exact .pure hu (hr.combined catalog ho hp (plain_native hop) source)
  · rw [Bool.not_eq_true] at hk
    simp only [hk, Bool.false_eq_true, if_false, twins, List.append_nil]
    exact .pure hs ho

/-- What is required of joined rows is coupled with itself from all workspaces with the given
supplies, when something is required. -/
def CouplesExtra (left right : NameSupply) (es : List Twin) :
    Option (String → Translating Translation) → Prop
  | none => es = []
  | some translate => ∃ us, es = us.map (Twin.move .required) ∧
      ∀ tableAlias w w', Plain tableAlias → SameAliases w w' → w.supply = left →
        w'.supply = right →
        Coupled (fun t t' => t.Twins us t') (outcome (translate tableAlias) w)
          (outcome (translate tableAlias) w')

/-- Requiring a condition of joined rows is coupled. -/
theorem requireExtra_coupled {extra : Option (String → Translating Translation)}
    {targetAlias : String} {out out' : Translation} {ts es : List Twin} (hs : SameAliases w w')
    (ha : Plain targetAlias) (he : CouplesExtra w.supply w'.supply es extra)
    (ho : out.Twins ts out') :
    Coupled (fun t t' => t.Twins (ts ++ es) t' ∧ t.shape = out.shape)
      (outcome (requireExtra extra targetAlias out) w)
      (outcome (requireExtra extra targetAlias out') w') := by
  unfold requireExtra
  cases extra with
  | none =>
    obtain rfl : es = [] := he
    exact .pure hs ⟨ho.congr (by simp), rfl⟩
  | some translate =>
    obtain ⟨us, rfl, ht⟩ := he
    refine .bind (ht targetAlias w w' ha hs rfl rfl) fun n n' v v' _ _ hv hr => ?_
    exact .pure hv ⟨addExtra_twins ho hr, addExtra_shape _ _⟩

/-- The alias of joined rows is the same. -/
theorem joinedAlias_coupled {n n' : Translation} {us : List Twin} {joinAlias : String}
    (hs : SameAliases w w') (ha : Plain joinAlias) (h : n.Twins us n') :
    Coupled (fun a b => a = b ∧ Plain a) (outcome (joinedAlias n joinAlias) w)
      (outcome (joinedAlias n' joinAlias) w') := by
  unfold joinedAlias
  rw [← h.hasCombine]
  split
  · exact .nextAlias hs
  · exact .pure hs ⟨rfl, ha⟩

/-- Joins are coupled when the joined query and what is required of its rows are. -/
theorem addJoin_coupled (catalog : Catalog) (source : String) {tableAlias : String} {join : Join}
    {translate : String → Translating Translation}
    {extra : Option (String → Translating Translation)} {out out' : Translation}
    {ts es : List Twin} (hs : SameAliases w w') (ha : Plain tableAlias)
    (ht : Couples join.query w.supply w'.supply translate)
    (hte : ∀ {tableAlias w t v}, outcome (translate tableAlias) w = (.ok t, v) →
      Effect (sourcesOf join.query.sites) w v)
    (he : CouplesExtra (w.supply.after (sourcesOf join.query.sites))
      (w'.supply.after (sourcesOf join.query.sites)) es extra)
    (ho : out.Twins ts out') (hout : out.allowJoin = true) :
    Coupled (fun t t' => t.Twins (ts ++ ((twins w.supply w'.supply join.query.sites).map
        (Twin.move (join.query.joinedPlace join.kind)) ++ es)) t')
      (outcome (addJoin catalog source tableAlias join translate extra out) w)
      (outcome (addJoin catalog source tableAlias join translate extra out') w') := by
  unfold addJoin
  refine .bind (.ensure _ _ hs) fun _ _ x x' hx hx' hxs _ => ?_
  refine .bind (.nextAlias hxs) fun joinAlias _ y y' hy hy' hys hj => ?_
  obtain ⟨rfl, hj⟩ := hj
  have h₁ := (ensure_effect hx).after_none (nextAlias_effect hy)
  have h₁' := (ensure_effect hx').after_none (nextAlias_effect hy')
  refine .bind (ht joinAlias y y' hj hys h₁.supply h₁'.supply) fun n n' z z' hz hz' hzs hr => ?_
  have h₂ := h₁.after_none (hte hz)
  have h₂' := h₁'.after_none (hte hz')
  refine .bind (joinedAlias_coupled hzs hj hr.twins) fun targetAlias _ u u' hu hu' hus hta => ?_
  obtain ⟨rfl, hta⟩ := hta
  have h₃ := h₂.before_none (joinedAlias_effect hu)
  have h₃' := h₂'.before_none (joinedAlias_effect hu')
  rw [← h₃.supply, ← h₃'.supply] at he
  have hw := hr.writeJoin catalog source ho hout ha hj hta
  refine .bind (requireExtra_coupled hus hta he hw) fun extended extended' r r' _ _ hrs hx => ?_
  obtain ⟨hx, hshape⟩ := hx
  have hallow : extended.allowJoin = true :=
    (congrArg Shape.allowJoin (hshape.trans (liftConditions_shape join n out))).trans hout
  exact .pure hrs (hr.joined hallow hx)

/-- The test for a missing match names no parameter. -/
theorem missingTest_twins (catalog : Catalog) (entity property : String) {tableAlias : String}
    (ha : Plain tableAlias) :
    (missingTest catalog entity property tableAlias).Twins []
      (missingTest catalog entity property tableAlias) := by
  have hcondition : Literal (missingTest catalog entity property tableAlias).condition := by
    unfold missingTest
    dsimp only
    rw [String.append_assoc]
    exact .literal_append (literal_qualify ha _) (.plain (by decide)) (delimits_append (by decide) _)
  exact ⟨rfl, Alike.empty.congr (marksAt_nil _).symm, hcondition.congr (marksAt_nil _).symm, rfl,
    ⟨rfl, by simp [missingTest]⟩, AlikeAll.nil.congr (marksAt_nil _).symm,
    AlikeAll.nil.congr (marksAt_nil _).symm, AlikeAll.nil.congr (marksAt_nil _).symm,
    AlikeAll.nil.congr (marksAt_nil _).symm, rfl, rfl⟩

/-- Set operations that become joins are coupled when their queries are. -/
theorem addMatch_coupled (catalog : Catalog) (source : String) {tableAlias : String}
    {entry : Combine}
    {translate : String → Translating Translation} {out out' : Translation} {ts : List Twin}
    (hs : SameAliases w w') (ha : Plain tableAlias)
    (ht : entry.kind.isNative = false → Couples entry.query w.supply w'.supply translate)
    (hte : ∀ {tableAlias w t v}, outcome (translate tableAlias) w = (.ok t, v) →
      Effect (sourcesOf entry.query.sites) w v)
    (ho : out.Twins ts out') (hout : out.allowJoin = true) :
    Coupled (fun t t' => t.Twins (ts ++ twins w.supply w'.supply
        (if entry.kind.isNative then []
          else entry.query.sites.map (.move (entry.query.joinedPlace .inner)))) t')
      (outcome (addMatch catalog source tableAlias entry translate out) w)
      (outcome (addMatch catalog source tableAlias entry translate out') w') := by
  unfold addMatch
  refine .bind (.lift _ hs) fun matched _ v v' hv hv' hvs hm => ?_
  obtain ⟨rfl, hm⟩ := hm
  have hsupply := (lift_effect hv).supply
  have hsupply' := (lift_effect hv').supply
  cases matched with
  | none =>
    simp only [Combine.isNative_of_asJoin hm, if_true, twins, List.append_nil]
    exact .pure hvs ho
  | some join =>
    have hjoin := Combine.becomes_of_asJoin hm
    have hk := hjoin.not_native
    have hq := hjoin.query_eq
    have hplace : join.query.joinedPlace join.kind = entry.query.joinedPlace .inner := by
      cases hjoin <;> rfl
    have hextra : CouplesExtra (v.supply.after (sourcesOf join.query.sites))
        (v'.supply.after (sourcesOf join.query.sites)) []
        (join.extra.map fun _ tableAlias => Pure.pure (missingTest catalog entry.query.entity
          ((join.fields.head?.map (·.1)).getD "") tableAlias)) := by
      cases join.extra with
      | none => rfl
      | some extra =>
        exact ⟨[], rfl, fun _ _ _ hp hs _ _ => .pure hs (missingTest_twins catalog _ _ hp)⟩
    have hv₁ : v.supply = w.supply := hsupply
    have hv₂ : v'.supply = w'.supply := hsupply'
    have htranslate := ht hk
    rw [← hq, ← hv₁, ← hv₂] at htranslate
    rw [← hq] at hte
    have hj := addJoin_coupled catalog source hvs ha htranslate hte hextra ho hout
    simp only [hk, Bool.false_eq_true, if_false, twins_move]
    rw [hplace, List.append_nil, hv₁, hv₂, hq] at hj
    exact hj

/-- Sites that can all be read can be read in either part. -/
theorem readable_append {first second : List Site} :
    Readable (first ++ second) ↔ Readable first ∧ Readable second := List.forall_mem_append

/-- Moving sites changes nothing about reading them. -/
theorem readable_move {f : Place → Place} {sites : List Site} :
    Readable (sites.map (.move f)) ↔ Readable sites := by
  simp [Readable, Site.move]

/-- A statement text is alike to itself. -/
theorem ofText_twins {raw : RawText} (h : (Source.text raw).Readable) (left right : NameSupply) :
    (Translation.ofText raw.text).Twins (twins left right [⟨.text raw, .statement⟩])
      (Translation.ofText raw.text) := by
  obtain ⟨names, hn⟩ := h
  obtain ⟨tokens, hr, hm⟩ := read_of_placeholders hn
  have hmentioned : raw.mentioned = names := by rw [RawText.mentioned, hn]
  have hstatement : marksAt .statement (twins left right [⟨.text raw, .statement⟩]) =
      {names | names.1 = names.2 ∧ Token.mark names.1 ∈ tokens} := by
    rw [twins, twins, marksAt_singleton, if_pos rfl, Source.marks, hmentioned, ← hm]
    simp only [mem_filterMap_name]
  have hother : ∀ place, place ≠ .statement →
      marksAt place (twins left right [⟨.text raw, .statement⟩]) = ∅ := by
    intro place hp
    rw [twins, twins, marksAt_singleton, if_neg fun he => hp he.symm]
  exact ⟨rfl, (Alike.self hr).congr hstatement.symm,
    Alike.empty.congr (hother _ (by decide)).symm, rfl, ⟨rfl, by simp [Translation.ofText]⟩,
    AlikeAll.nil.congr (hother _ (by decide)).symm, AlikeAll.nil.congr (hother _ (by decide)).symm,
    AlikeAll.nil.congr (hother _ (by decide)).symm, AlikeAll.nil.congr (hother _ (by decide)).symm,
    rfl, rfl⟩

variable {catalog : Catalog}

/-- Twins of translations of one query, as whoever embeds the query sees them. -/
theorem nested_of_twins {q : Query} {useSort : Bool} {tableAlias : String} {t t' : Translation}
    (hsuccess : outcome (q.translateUnder catalog useSort tableAlias) w = (.ok t, v))
    (left right : NameSupply) (h : t.Twins (twins left right q.sites) t') :
    Nested q (twins left right q.sites) t t' := by
  refine ⟨h, (q.translateUnder_effect hsuccess).2, ?_, ?_⟩
  · intro hq
    have hn : q.text = none := by simpa [Query.isText] using hq
    exact marksAt_twins_eq_empty (Query.sites_place hn) left right
  · intro hq place hp
    obtain ⟨entity, text, conditions, sorts, joins, combines, recurve, paging, size, fields,
      isolation⟩ := q
    cases text with
    | none => simp [Query.isText] at hq
    | some raw =>
      refine marksAt_twins_eq_empty (fun site hs => ?_) left right
      rw [Query.sites] at hs
      obtain rfl := List.mem_singleton.mp hs
      exact fun he => hp he.symm

/-- No conditions yet. -/
theorem ConditionList.Twins.nil : ConditionList.Twins [] {} {} :=
  ⟨Alike.empty.congr (marksAt_nil _).symm, rfl, AlikeAll.nil.congr (marksAt_nil _).symm, rfl⟩

/-- Conditions alone start alike translations. -/
theorem toTranslation_clauses {clauses : List Clause} {c c' : ConditionList}
    {left right : NameSupply} (h : c.Twins (twins left right (clauseSites clauses)) c')
    {sorts : List String} (hs : ∀ s ∈ sorts, Literal s) :
    Translation.Twins (twins left right (clauseSites clauses)) { c.toTranslation with sorts }
      { c'.toTranslation with sorts } := by
  refine h.toTranslation (fun place hp => ?_) hs
  refine marksAt_twins_eq_empty (fun site hm he => ?_) left right
  exact hp (he ▸ clauseSites_place clauses site hm)

/-- Sort entries that were asked for are literal. -/
theorem literal_requestedSorts {useSort : Bool} {entity tableAlias : String} {sorts : List SortKey}
    {entries : List String} (ha : Plain tableAlias)
    (h : requestedSorts catalog useSort entity tableAlias sorts = .ok entries) :
    ∀ s ∈ entries, Literal s := by
  unfold requestedSorts at h
  split at h
  · exact literal_sortEntries ha h
  · obtain rfl := Except.ok.inj h
    simp

/-- A test without a parameter is alike to itself. -/
theorem unaryTest_twins {field : String} (hf : Literal field) (operator : Comparison) :
    ConditionFragment.Twins [] { text := field ++ " " ++ operator.sql }
      { text := field ++ " " ++ operator.sql } := by
  have ho : Plain operator.sql := by cases operator <;> decide
  refine ⟨Alike.congr ?_ (marksAt_nil _).symm, AlikeAll.nil.congr (marksAt_nil _).symm, rfl⟩
  rw [String.append_assoc]
  exact .literal_append hf (.plain_append (by decide) (.plain ho)) (delimits_append (by decide) _)

/-- A criterion is coupled with itself if its comparison is. A test of the property alone binds
nothing. -/
theorem criterion_coupled {entity tableAlias field : String} {conversion : Option Conversion}
    {operator : Comparison} {sites : List Site} {compare : String → Translating ConditionFragment}
    (ha : Plain tableAlias) (hs : SameAliases w w')
    (hcompare : operator.needsParameter = true → ∀ {reference : String} {v v' : Workspace},
      Literal reference → SameAliases v v' →
      Coupled (fun f f' => f.Twins (twins v.supply v'.supply sites) f')
        (outcome (compare reference) v) (outcome (compare reference) v')) :
    Coupled (fun f f' => f.Twins (twins w.supply w'.supply
        (if operator.needsParameter then sites else [])) f')
      (outcome (do
        let reference ← Translating.lift (catalog.reference entity tableAlias field conversion)
        if operator.needsParameter then compare reference
        else return { text := reference ++ " " ++ operator.sql }) w)
      (outcome (do
        let reference ← Translating.lift (catalog.reference entity tableAlias field conversion)
        if operator.needsParameter then compare reference
        else return { text := reference ++ " " ++ operator.sql }) w') := by
  refine .bind (.lift _ hs) fun reference _ v v' hv hv' hvs hx => ?_
  obtain ⟨rfl, href⟩ := hx
  have hliteral := literal_reference ha href
  have hsupply : v.supply = w.supply := (lift_effect hv).supply
  have hsupply' : v'.supply = w'.supply := (lift_effect hv').supply
  rw [← hsupply, ← hsupply']
  by_cases hp : operator.needsParameter = true
  · simp only [hp, if_true]
    exact hcompare hp hliteral hvs
  · simp only [hp]
    exact .pure hvs (unaryTest_twins hliteral operator)

mutual

/-- A query is coupled with itself. -/
theorem Query.translateUnder_coupled :
    ∀ (q : Query) {useSort : Bool} {tableAlias : String} {w w' : Workspace},
      Readable q.sites → Plain tableAlias → SameAliases w w' →
      Coupled (Nested q (twins w.supply w'.supply q.sites))
        (outcome (q.translateUnder catalog useSort tableAlias) w)
        (outcome (q.translateUnder catalog useSort tableAlias) w')
  | { text := some raw, .. }, useSort, tableAlias, w, w', hr, ha, hs => by
    rw [Query.sites] at hr
    have hraw : (Source.text raw).Readable := hr _ List.mem_cons_self
    have hsame : SameAliases
        ⟨w.names.reserveAll raw.parameters.names, w.parameters.union raw.parameters⟩
        ⟨w'.names.reserveAll raw.parameters.names, w'.parameters.union raw.parameters⟩ := by
      have hl := w.names.aliases_reserveAll raw.parameters.names
      have hl' := w'.names.aliases_reserveAll raw.parameters.names
      exact ⟨(hl.1.trans hs.1).trans hl'.1.symm, (hl.2.trans hs.2).trans hl'.2.symm⟩
    refine Coupled.imp (R := fun t t' => t.Twins
      (twins w.supply w'.supply [⟨.text raw, .statement⟩]) t') ?_
      fun t t' v v' hv _ ht => nested_of_twins hv _ _ ht
    simp only [Query.translateUnder, outcome_bind, outcome_bindText, outcome_pure]
    exact .success hsame (ofText_twins hraw _ _)
  | { entity, text := none, conditions, sorts, joins, combines, recurve, paging, size, fields,
      isolation }, useSort, tableAlias, w, w', hr, ha, hs => by
    have hgathered : Readable (clauseSites conditions ++ armSites combines ++ joinSites joins
        ++ matchSites combines) := by
      cases recurve with
      | none => exact hr
      | some closure => exact readable_move.mp hr
    simp only [readable_append] at hgathered
    obtain ⟨⟨⟨hrc, hra⟩, hrj⟩, hrm⟩ := hgathered
    refine Coupled.imp (R := fun t t' => t.Twins (twins w.supply w'.supply (Query.sites
      { entity, text := none, conditions, sorts, joins, combines, recurve, paging, size, fields,
        isolation })) t') ?_ fun t t' v v' hv _ ht => nested_of_twins hv _ _ ht
    simp only [Query.translateUnder]
    refine .bind (.lift _ hs) fun _ _ w₁ w₁' h h' hs₁ _ => ?_
    have e₁ := (lift_effect h).supply
    have e₁' := (lift_effect h').supply
    refine .bind (translateClauses_coupled conditions hrc ha hs₁ .nil)
      fun list list' w₂ w₂' h h' hs₂ hlist => ?_
    have e₂ := (translateClauses_effect conditions h).supply
    have e₂' := (translateClauses_effect conditions h').supply
    refine .bind (.lift _ hs₂) fun sorted _ w₃ w₃' h h' hs₃ hsorted => ?_
    obtain ⟨rfl, hsorted⟩ := hsorted
    have e₃ := (lift_effect h).supply
    have e₃' := (lift_effect h').supply
    rw [List.nil_append] at hlist
    have hstart := toTranslation_clauses hlist (literal_requestedSorts ha hsorted)
    refine .bind (translateCombines_coupled combines hra hs₃ hstart)
      fun combined combined' w₄ w₄' h h' hs₄ hcombined => ?_
    obtain ⟨e₄, hshape₄⟩ := translateCombines_effect combines h
    have e₄' := (translateCombines_effect combines h').1
    have hallow₄ : combined.allowJoin = true := congrArg Shape.allowJoin hshape₄
    refine .bind (translateJoins_coupled joins hrj ha hs₄ hcombined hallow₄)
      fun joined joined' w₅ w₅' h h' hs₅ hjoined => ?_
    obtain ⟨e₅, hshape₅⟩ := translateJoins_effect joins h
    have e₅' := (translateJoins_effect joins h').1
    have hallow₅ : joined.allowJoin = true := (congrArg Shape.allowJoin hshape₅).trans hallow₄
    refine .bind (translateMatches_coupled combines hrm ha hs₅ hjoined hallow₅)
      fun matched matched' w₆ w₆' h h' hs₆ hmatched => ?_
    have hallow₆ : matched.allowJoin = true :=
      (congrArg Shape.allowJoin (translateMatches_effect combines h).2).trans hallow₅
    have hall : matched.Twins (twins w.supply w'.supply (clauseSites conditions
        ++ armSites combines ++ joinSites joins ++ matchSites combines)) matched' := by
      rw [e₅.supply, e₅'.supply, e₄.supply, e₄'.supply, e₃, e₃', e₂, e₂', e₁, e₁'] at hmatched
      simp only [twins_append, sourcesOf_append, NameSupply.after, ledger_append]
      exact hmatched
    cases recurve with
    | none => exact .pure hs₆ hall
    | some closure =>
      refine .bind (.nextClosure hs₆) fun table _ w₇ w₇' _ _ hs₇ htable => ?_
      obtain ⟨rfl, hname, hshort⟩ := htable
      refine .pure hs₇ ?_
      rw [Query.sites, twins_move]
      exact hall.closeRows catalog hallow₆ ha hname hshort entity closure

/-- Conditions are coupled with themselves, after alike conditions. -/
theorem translateClauses_coupled :
    ∀ (clauses : List Clause) {entity tableAlias : String} {list list' : ConditionList}
      {ts : List Twin} {w w' : Workspace},
      Readable (clauseSites clauses) → Plain tableAlias → SameAliases w w' → list.Twins ts list' →
      Coupled (fun c c' => c.Twins (ts ++ twins w.supply w'.supply (clauseSites clauses)) c')
        (outcome (translateClauses catalog entity tableAlias clauses list) w)
        (outcome (translateClauses catalog entity tableAlias clauses list') w')
  | [], _, _, list, list', ts, w, w', hr, ha, hs, h => by
    rw [translateClauses, translateClauses, clauseSites, twins, List.append_nil]
    exact .pure hs h
  | ⟨connector, condition⟩ :: rest, _, _, list, list', ts, w, w', hr, ha, hs, h => by
    rw [clauseSites] at hr
    obtain ⟨hc, hrest⟩ := readable_append.mp hr
    rw [translateClauses, translateClauses, clauseSites, twins_append, ← List.append_assoc]
    refine .bind (condition.translate_coupled hc ha hs) fun f f' v v' hf hf' hvs hx => ?_
    rw [← (condition.translate_effect hf).supply, ← (condition.translate_effect hf').supply]
    exact translateClauses_coupled rest hrest ha hvs (h.push hx connector)

/-- A condition is coupled with itself. -/
theorem Condition.translate_coupled :
    ∀ (condition : Condition) {entity tableAlias : String} {w w' : Workspace},
      Readable condition.sites → Plain tableAlias → SameAliases w w' →
      Coupled (fun f f' => f.Twins (twins w.supply w'.supply condition.sites) f')
        (outcome (condition.translate catalog entity tableAlias) w)
        (outcome (condition.translate catalog entity tableAlias) w')
  | .group { conditions := [], .. }, _, _, w, w', hr, ha, hs => by
    rw [Condition.translate, Condition.sites, clauseSites, twins]
    exact .pure hs ⟨Alike.empty.congr (marksAt_nil _).symm, AlikeAll.nil.congr (marksAt_nil _).symm,
      rfl⟩
  | .group { conditions := [⟨_, only⟩], .. }, _, _, w, w', hr, ha, hs => by
    rw [Condition.sites, clauseSites, clauseSites, List.append_nil] at hr ⊢
    rw [Condition.translate]
    exact only.translate_coupled hr ha hs
  | .group { conditions := first :: second :: rest, .. }, _, _, w, w', hr, ha, hs => by
    rw [Condition.sites] at hr ⊢
    rw [Condition.translate]
    refine .bind (translateClauses_coupled (first :: second :: rest) hr ha hs .nil)
      fun c c' v v' _ _ hvs hx => ?_
    rw [List.nil_append] at hx
    exact .pure hvs hx.grouped
  | .criterion { field, operator, value := .value value, conversion }, _, _, w, w', hr, ha, hs => by
    rw [Condition.sites] at hr ⊢
    rw [Condition.translate]
    refine criterion_coupled ha hs fun hp {_ _ _} hliteral hvs => ?_
    rw [if_pos hp] at hr
    have hbase : ∀ c ∈ field.toList, isNameCharacter c = true := hr _ List.mem_cons_self
    exact valueComparison_coupled ⟨field, operator, .value value, conversion⟩ hliteral hvs hbase
  | .criterion { field, operator, value := .query query, conversion }, _, _, w, w', hr, ha, hs => by
    rw [Condition.sites] at hr ⊢
    rw [Condition.translate]
    refine criterion_coupled ha hs fun hp {_ _ _} hliteral hvs => ?_
    rw [if_pos hp] at hr
    rw [twins_move]
    exact queryComparison_coupled catalog operator hliteral hvs fun useSort =>
      .of_coupled (query.translateUnder_coupled (readable_move.mp hr))

/-- Set operations that the server has are coupled with themselves. -/
theorem translateCombines_coupled :
    ∀ (combines : List Combine) {source : Query} {out out' : Translation} {ts : List Twin}
      {w w' : Workspace},
      Readable (armSites combines) → SameAliases w w' → out.Twins ts out' →
      Coupled (fun t t' => t.Twins (ts ++ twins w.supply w'.supply (armSites combines)) t')
        (outcome (translateCombines catalog source combines out) w)
        (outcome (translateCombines catalog source combines out') w')
  | [], _, out, out', ts, w, w', hr, hs, ho => by
    rw [translateCombines, translateCombines, armSites, twins, List.append_nil]
    exact .pure hs ho
  | ⟨kind, query⟩ :: rest, _, out, out', ts, w, w', hr, hs, ho => by
    rw [armSites] at hr
    obtain ⟨hq, hrest⟩ := readable_append.mp hr
    have htranslate : kind.isNative = true →
        Couples query w.supply w'.supply (query.translateUnder catalog false) := by
      intro hk
      rw [if_pos hk] at hq
      exact .of_coupled (query.translateUnder_coupled (readable_move.mp hq))
    rw [translateCombines, translateCombines, armSites, twins_append, ← List.append_assoc]
    refine .bind (addNative_coupled catalog _ hs htranslate ho) fun n n' v v' hn hn' hvs hx => ?_
    have he := (addNative_effect (fun h => (query.translateUnder_effect h).1) hn).1
    have he' := (addNative_effect (fun h => (query.translateUnder_effect h).1) hn').1
    rw [sourcesOf_if, sourcesOf_move, sourcesOf_nil, ← he.supply, ← he'.supply]
    exact translateCombines_coupled rest hrest hvs hx

/-- Joins are coupled with themselves. -/
theorem translateJoins_coupled :
    ∀ (joins : List Join) {source tableAlias : String} {out out' : Translation} {ts : List Twin}
      {w w' : Workspace},
      Readable (joinSites joins) → Plain tableAlias → SameAliases w w' → out.Twins ts out' →
      out.allowJoin = true →
      Coupled (fun t t' => t.Twins (ts ++ twins w.supply w'.supply (joinSites joins)) t')
        (outcome (translateJoins catalog source tableAlias joins out) w)
        (outcome (translateJoins catalog source tableAlias joins out') w')
  | [], _, _, out, out', ts, w, w', hr, ha, hs, ho, hj => by
    rw [translateJoins, translateJoins, joinSites, twins, List.append_nil]
    exact .pure hs ho
  | { kind, operator, fields, query, extra := none } :: rest, _, _, out, out', ts, w, w', hr, ha,
      hs, ho, hj => by
    rw [joinSites] at hr
    obtain ⟨hq, hrest⟩ := readable_append.mp hr
    have htranslate : Couples query w.supply w'.supply (query.translateUnder catalog false) :=
      .of_coupled (query.translateUnder_coupled (readable_move.mp hq))
    have hextra : CouplesExtra (w.supply.after (sourcesOf query.sites))
        (w'.supply.after (sourcesOf query.sites)) [] none := rfl
    have hbinds : Binds none [] := rfl
    rw [translateJoins, translateJoins, joinSites, twins_append, ← List.append_assoc, twins_move]
    refine .bind (addJoin_coupled catalog _ hs ha htranslate
      (fun h => (query.translateUnder_effect h).1) hextra ho hj) fun n n' v v' hn hn' hvs hx => ?_
    obtain ⟨he, hshape⟩ := addJoin_effect (fun h => (query.translateUnder_effect h).1) hbinds hn
    have he' := (addJoin_effect (fun h => (query.translateUnder_effect h).1) hbinds hn').1
    have hallow : n.allowJoin = true := (congrArg Shape.allowJoin hshape).trans hj
    rw [List.append_nil] at hx he he'
    rw [sourcesOf_move, ← he.supply, ← he'.supply]
    exact translateJoins_coupled rest hrest ha hvs hx hallow
  | { kind, operator, fields, query, extra := some extra } :: rest, _, _, out, out', ts, w, w', hr,
      ha, hs, ho, hj => by
    rw [joinSites] at hr
    obtain ⟨hboth, hrest⟩ := readable_append.mp hr
    obtain ⟨hq, hx⟩ := readable_append.mp hboth
    have htranslate : Couples query w.supply w'.supply (query.translateUnder catalog false) :=
      .of_coupled (query.translateUnder_coupled (readable_move.mp hq))
    have hextra : CouplesExtra (w.supply.after (sourcesOf query.sites))
        (w'.supply.after (sourcesOf query.sites))
        ((twins (w.supply.after (sourcesOf query.sites)) (w'.supply.after (sourcesOf query.sites))
          extra.sites).map (Twin.move .required)) (some (extra.translateUnder catalog false)) := by
      refine ⟨_, rfl, fun tableAlias x x' hplain hxs hl hl' => ?_⟩
      rw [← hl, ← hl']
      exact (extra.translateUnder_coupled (readable_move.mp hx) hplain hxs).imp
        fun _ _ _ _ _ _ h => h.twins
    have hbinds : Binds (some (extra.translateUnder catalog false)) (sourcesOf extra.sites) :=
      fun _ _ _ _ h => (extra.translateUnder_effect h).1
    rw [translateJoins, translateJoins, joinSites, twins_append, twins_append, ← List.append_assoc,
      twins_move, twins_move]
    refine .bind (addJoin_coupled catalog _ hs ha htranslate
      (fun h => (query.translateUnder_effect h).1) hextra ho hj) fun n n' v v' hn hn' hvs hx => ?_
    obtain ⟨he, hshape⟩ := addJoin_effect (fun h => (query.translateUnder_effect h).1) hbinds hn
    have he' := (addJoin_effect (fun h => (query.translateUnder_effect h).1) hbinds hn').1
    have hallow : n.allowJoin = true := (congrArg Shape.allowJoin hshape).trans hj
    rw [sourcesOf_append, sourcesOf_move, sourcesOf_move, ← he.supply, ← he'.supply]
    exact translateJoins_coupled rest hrest ha hvs hx hallow

/-- Set operations that stand for joins are coupled with themselves. -/
theorem translateMatches_coupled :
    ∀ (combines : List Combine) {source tableAlias : String} {out out' : Translation}
      {ts : List Twin} {w w' : Workspace},
      Readable (matchSites combines) → Plain tableAlias → SameAliases w w' → out.Twins ts out' →
      out.allowJoin = true →
      Coupled (fun t t' => t.Twins (ts ++ twins w.supply w'.supply (matchSites combines)) t')
        (outcome (translateMatches catalog source tableAlias combines out) w)
        (outcome (translateMatches catalog source tableAlias combines out') w')
  | [], _, _, out, out', ts, w, w', hr, ha, hs, ho, hj => by
    rw [translateMatches, translateMatches, matchSites, twins, List.append_nil]
    exact .pure hs ho
  | ⟨kind, query⟩ :: rest, _, _, out, out', ts, w, w', hr, ha, hs, ho, hj => by
    rw [matchSites] at hr
    obtain ⟨hq, hrest⟩ := readable_append.mp hr
    have htranslate : kind.isNative = false →
        Couples query w.supply w'.supply (query.translateUnder catalog false) := by
      intro hk
      rw [if_neg (by simp [hk])] at hq
      exact .of_coupled (query.translateUnder_coupled (readable_move.mp hq))
    rw [translateMatches, translateMatches, matchSites, twins_append, ← List.append_assoc]
    refine .bind (addMatch_coupled catalog _ hs ha htranslate
      (fun h => (query.translateUnder_effect h).1) ho hj) fun n n' v v' hn hn' hvs hx => ?_
    obtain ⟨he, hshape⟩ := addMatch_effect (fun h => (query.translateUnder_effect h).1) hn
    have he' := (addMatch_effect (fun h => (query.translateUnder_effect h).1) hn').1
    have hallow : n.allowJoin = true := (congrArg Shape.allowJoin hshape).trans hj
    rw [sourcesOf_if, sourcesOf_move, sourcesOf_nil, ← he.supply, ← he'.supply]
    exact translateMatches_coupled rest hrest ha hvs hx hallow

end

end AbstractSql
