import AbstractSql.Proofs.Outcome
import AbstractSql.Proofs.Translation.Effect
import Mathlib.Data.List.Forall2

/-!
# Translating with another selection

Which properties of a query are wanted is read in one place: the select lists of its set operations
follow it. Two translations of a query that differ in what is wanted run side by side, fail alike
or leave the same workspace, and give the same clauses but for these lists.
-/

namespace AbstractSql

open Identifier (quote)

variable {ε σ α β γ δ : Type}

/-- Two steps fail alike or return related results, and leave the same state in either case. -/
inductive SameOutcome (R : α → β → Prop) : Except ε α × σ → Except ε β × σ → Prop where
  /-- Both fail in the same way. -/
  | failure (e : ε) (s : σ) : SameOutcome R (.error e, s) (.error e, s)
  /-- Both succeed. -/
  | success {a : α} {b : β} (s : σ) (related : R a b) : SameOutcome R (.ok a, s) (.ok b, s)

namespace SameOutcome

variable {R : α → β → Prop} {Q : γ → δ → Prop}

/-- Results that are related in one way are related in another. -/
theorem imp {S : α → β → Prop} {r : Except ε α × σ} {r' : Except ε β × σ} (h : SameOutcome R r r')
    (hi : ∀ a b, R a b → S a b) : SameOutcome S r r' := by
  cases h with
  | failure e s => exact .failure e s
  | success s related => exact .success s (hi _ _ related)

/-- A step runs as itself. -/
theorem refl (r : Except ε α × σ) : SameOutcome Eq r r := by
  obtain ⟨e | a, s⟩ := r
  · exact .failure e s
  · exact .success s rfl

/-- Steps composed of steps that run alike run alike. -/
theorem bind {first : ExceptT ε (StateM σ) α} {first' : ExceptT ε (StateM σ) β}
    {next : α → ExceptT ε (StateM σ) γ} {next' : β → ExceptT ε (StateM σ) δ} {s : σ}
    (h : SameOutcome R (outcome first s) (outcome first' s))
    (k : ∀ a b t, R a b → SameOutcome Q (outcome (next a) t) (outcome (next' b) t)) :
    SameOutcome Q (outcome (first >>= next) s) (outcome (first' >>= next') s) := by
  rw [outcome_bind, outcome_bind]
  generalize outcome first s = r at h
  generalize outcome first' s = r' at h
  cases h with
  | failure e t => exact .failure e t
  | success t related => exact k _ _ t related

/-- A step followed by others that run alike. -/
theorem bind_left (first : ExceptT ε (StateM σ) α) {next : α → ExceptT ε (StateM σ) γ}
    {next' : α → ExceptT ε (StateM σ) δ} {s : σ}
    (k : ∀ a t, SameOutcome Q (outcome (next a) t) (outcome (next' a) t)) :
    SameOutcome Q (outcome (first >>= next) s) (outcome (first >>= next') s) :=
  bind (refl _) fun a _ t h => h ▸ k a t

end SameOutcome

/-- A set operation with a select whose list follows the given selection, or with a statement text. -/
def armText (catalog : Catalog) (entity : String) (selected : List String) (operator table tableAlias
    joins condition : String) : String :=
  operator ++ " " ++ Text.joinParts
    ["SELECT " ++ catalog.selectList tableAlias entity selected false ++ " FROM " ++ quote table
        ++ " AS " ++ tableAlias,
      joins, condition]

/-- The set operation is the same but for the select list, which follows the selection. -/
def SameButList (catalog : Catalog) (entity : String) (selected selected' : List String)
    (arm arm' : String) : Prop :=
  arm = arm' ∨ ∃ operator table tableAlias joins condition,
    arm = armText catalog entity selected operator table tableAlias joins condition ∧
      arm' = armText catalog entity selected' operator table tableAlias joins condition

namespace Translation

variable {R : String → String → Prop} {change more : Translation → Translation}

/-- The clauses with other set operations. -/
def withCombines (combines : List String) (t : Translation) : Translation := { t with combines }

/-- The clauses are the same but for the set operations, which are related one by one. -/
def SameBut (R : String → String → Prop) (t t' : Translation) : Prop :=
  ∃ combines, t' = t.withCombines combines ∧ List.Forall₂ R t.combines combines

/-- Clauses without set operations are the same. -/
theorem SameBut.of_eq_nil {t : Translation} (h : t.combines = []) : t.SameBut R t :=
  ⟨t.combines, rfl, h ▸ .nil⟩

/-- The change neither reads nor changes the set operations. -/
def KeepsCombines (change : Translation → Translation) : Prop :=
  ∀ combines t, change (withCombines combines t) = withCombines combines (change t)

/-- Such a change leaves the set operations as they are. -/
theorem KeepsCombines.combines_eq (h : KeepsCombines change) (t : Translation) :
    (change t).combines = t.combines := by
  have ht := congrArg combines (h t.combines t)
  exact ht

/-- Such a change leaves the clauses the same but for the set operations. -/
theorem KeepsCombines.sameBut (h : KeepsCombines change) {t t' : Translation} (ht : t.SameBut R t') :
    (change t).SameBut R (change t') := by
  obtain ⟨combines, rfl, hr⟩ := ht
  exact ⟨combines, h combines t, (h.combines_eq t).symm ▸ hr⟩

theorem andCondition_withCombines (combines : List String) (t : Translation) (extra : String) :
    (withCombines combines t).andCondition extra = withCombines combines (t.andCondition extra) := by
  dsimp only [andCondition, withCombines]
  split
  · rfl
  · split
    · rfl
    · split <;> rfl

theorem foldl_andCondition_withCombines (combines : List String) (extras : List String)
    (t : Translation) :
    extras.foldl andCondition (withCombines combines t) =
      withCombines combines (extras.foldl andCondition t) := by
  induction extras generalizing t with
  | nil => rfl
  | cons extra extras ih => rw [List.foldl_cons, List.foldl_cons, andCondition_withCombines, ih]

theorem keepsCombines_mergeJoinExtras : KeepsCombines mergeJoinExtras := fun combines t =>
  foldl_andCondition_withCombines combines t.joinExtras { t with joinExtras := [] }

end Translation

namespace Translating

open Translation

variable {R : String → String → Prop} {catalog : Catalog} {w : Workspace}
  {out out' : Translation}

theorem keepsCombines_liftConditions (join : Join) (translated : Translation) :
    KeepsCombines (liftConditions join translated) := by
  intro combines t
  unfold liftConditions
  split
  · rfl
  · dsimp only
    split
    · rw [andCondition_withCombines, foldl_andCondition_withCombines]
    · rw [foldl_andCondition_withCombines]

theorem keepsCombines_writeJoin (source tableAlias : String) (join : Join)
    (joinAlias targetAlias : String) (translated : Translation) :
    KeepsCombines (writeJoin catalog source tableAlias join joinAlias targetAlias translated) := by
  intro combines t
  unfold writeJoin
  rw [keepsCombines_liftConditions]
  rfl

theorem keepsCombines_addExtra (extra : Translation) : KeepsCombines (addExtra extra) := by
  intro combines t
  unfold addExtra
  split <;> rfl

theorem keepsCombines_liftJoins (translated : Translation) :
    KeepsCombines fun t => (liftJoins translated t).absorb translated := by
  intro combines t
  unfold liftJoins
  split <;> rfl

theorem keepsCombines_closeRows (entity tableAlias : String) (closure : Closure)
    (table : ClosureTable) : KeepsCombines (closeRows catalog entity tableAlias closure table) := by
  intro combines t
  have hmerged := keepsCombines_mergeJoinExtras combines { t with allowJoin := false }
  unfold closeRows
  rw [show ({ withCombines combines t with allowJoin := false } : Translation) =
    withCombines combines { t with allowJoin := false } from rfl, hmerged]
  rfl

/-- Conditions on joined rows do not see the set operations. -/
theorem requireExtra_sameBut (extra : Option (String → Translating Translation))
    (targetAlias : String) (h : out.SameBut R out') :
    SameOutcome (SameBut R) (outcome (requireExtra extra targetAlias out) w)
      (outcome (requireExtra extra targetAlias out') w) := by
  cases extra with
  | none => exact .success w h
  | some translate =>
    refine .bind_left _ fun t v => ?_
    exact .success v ((keepsCombines_addExtra t).sameBut h)

/-- Joins do not see the set operations. -/
theorem addJoin_sameBut (source tableAlias : String) (join : Join)
    (translate : String → Translating Translation)
    (extra : Option (String → Translating Translation)) (h : out.SameBut R out') :
    SameOutcome (SameBut R) (outcome (addJoin catalog source tableAlias join translate extra out) w)
      (outcome (addJoin catalog source tableAlias join translate extra out') w) := by
  refine .bind_left _ fun _ _ => .bind_left _ fun joinAlias _ => .bind_left _ fun translated _ =>
    .bind_left _ fun targetAlias v => ?_
  refine .bind (requireExtra_sameBut extra targetAlias
    ((keepsCombines_writeJoin source tableAlias join joinAlias targetAlias translated).sameBut h)) ?_
  intro t t' v ht
  exact .success v ((keepsCombines_liftJoins translated).sameBut ht)

/-- A join that stands for a set operation does not see the others. -/
theorem addMatch_sameBut (source tableAlias : String) (entry : Combine)
    (translate : String → Translating Translation) (h : out.SameBut R out') :
    SameOutcome (SameBut R) (outcome (addMatch catalog source tableAlias entry translate out) w)
      (outcome (addMatch catalog source tableAlias entry translate out') w) := by
  refine .bind_left _ fun join v => ?_
  cases join with
  | none => exact .success v h
  | some join => exact addJoin_sameBut source tableAlias join translate _ h

/-- Closing the rows does not see the set operations. -/
theorem addClosure_sameBut (entity tableAlias : String) (closure : Closure)
    (h : out.SameBut R out') :
    SameOutcome (SameBut R) (outcome (addClosure catalog entity tableAlias closure out) w)
      (outcome (addClosure catalog entity tableAlias closure out') w) := by
  refine .bind_left _ fun table v => ?_
  exact .success v ((keepsCombines_closeRows entity tableAlias closure table).sameBut h)

end Translating

open Translating Translation

/-- Joins one after the other do not see the set operations. -/
theorem translateJoins_sameBut {R : String → String → Prop} {catalog : Catalog}
    (source tableAlias : String) (joins : List Join) {w : Workspace} {out out' : Translation}
    (h : out.SameBut R out') :
    SameOutcome (SameBut R) (outcome (translateJoins catalog source tableAlias joins out) w)
      (outcome (translateJoins catalog source tableAlias joins out') w) := by
  induction joins generalizing w out out' with
  | nil => exact .success w h
  | cons join rest ih =>
    obtain ⟨kind, operator, fields, query, extra⟩ := join
    cases extra with
    | none => exact .bind (addJoin_sameBut source tableAlias _ _ _ h) fun _ _ _ ht => ih ht
    | some extra => exact .bind (addJoin_sameBut source tableAlias _ _ _ h) fun _ _ _ ht => ih ht

/-- The same set operation, with other properties wanted of its query if the server has it. -/
def Combine.Reselects (entry entry' : Combine) : Prop :=
  entry' = entry ∨ entry.kind.isNative = true ∧
    ∃ fields, entry' = { entry with query := { entry.query with fields } }

/-- The same query, with other properties wanted of it and of the queries in its set operations that
the server has. -/
def Query.Reselects (q q' : Query) : Prop :=
  ∃ fields combines, q' = { q with fields, combines } ∧
    List.Forall₂ Combine.Reselects q.combines combines

/-- Other properties are wanted of a query. -/
theorem Query.reselects_fields (q : Query) (fields : List String) :
    q.Reselects { q with fields } :=
  ⟨fields, q.combines, rfl, List.forall₂_same.mpr fun _ _ => .inl rfl⟩

/-- Which properties are wanted says nothing about what is bound. -/
theorem Query.sites_fields (q : Query) (fields : List String) :
    { q with fields }.sites = q.sites := by
  obtain ⟨entity, text, conditions, sorts, joins, combines, recurve, paging, size, others,
    isolation⟩ := q
  cases text with
  | none => simp only [Query.sites]
  | some raw => simp only [Query.sites]

namespace Combine.Reselects

/-- Other properties again are wanted of a set operation. -/
theorem trans {first second third : Combine} (h : first.Reselects second)
    (k : second.Reselects third) : first.Reselects third := by
  rcases h with rfl | ⟨hn, fields, rfl⟩
  · exact k
  · rcases k with rfl | ⟨-, others, rfl⟩
    · exact .inr ⟨hn, fields, rfl⟩
    · exact .inr ⟨hn, others, rfl⟩

/-- Other properties again are wanted of set operations one by one. -/
theorem forall₂_trans {first second third : List Combine}
    (h : List.Forall₂ Combine.Reselects first second)
    (k : List.Forall₂ Combine.Reselects second third) :
    List.Forall₂ Combine.Reselects first third := by
  induction h generalizing third with
  | nil => exact k
  | cons hentry _ ih =>
    cases k with
    | cons kentry krest => exact .cons (hentry.trans kentry) (ih krest)

/-- The server has both set operations, or neither. -/
theorem any_isNative {entries entries' : List Combine}
    (h : List.Forall₂ Combine.Reselects entries entries') :
    (entries'.any fun entry => entry.kind.isNative) =
      entries.any fun entry => entry.kind.isNative := by
  induction h with
  | nil => rfl
  | cons hentry _ ih =>
    rw [List.any_cons, List.any_cons, ih]
    rcases hentry with rfl | ⟨-, fields, rfl⟩ <;> rfl

/-- The set operations bind the same. -/
theorem sites_eq {entries entries' : List Combine}
    (h : List.Forall₂ Combine.Reselects entries entries') :
    armSites entries' = armSites entries ∧ matchSites entries' = matchSites entries := by
  induction h with
  | nil => exact ⟨rfl, rfl⟩
  | @cons entry entry' _ _ hentry _ ih =>
    obtain ⟨kind, query⟩ := entry
    rcases hentry with rfl | ⟨hn, fields, rfl⟩
    · simp only [armSites, matchSites, ih, and_self]
    · replace hn : kind.isNative = true := hn
      simp only [armSites, matchSites, hn, if_true, query.sites_fields fields, ih, and_self]

end Combine.Reselects

namespace Query.Reselects

variable {q q' : Query}

/-- The same properties are wanted. -/
theorem refl (q : Query) : q.Reselects q := by
  cases q
  exact Query.reselects_fields _ _

/-- Other properties again are wanted of a query. -/
theorem trans {q'' : Query} (h : q.Reselects q') (k : q'.Reselects q'') : q.Reselects q'' := by
  obtain ⟨fields, combines, rfl, hc⟩ := h
  obtain ⟨others, entries, rfl, he⟩ := k
  exact ⟨others, entries, rfl, Combine.Reselects.forall₂_trans hc he⟩

theorem entity_eq (h : q.Reselects q') : q'.entity = q.entity := by
  obtain ⟨fields, combines, rfl, -⟩ := h
  rfl

theorem isText_eq (h : q.Reselects q') : q'.isText = q.isText := by
  obtain ⟨fields, combines, rfl, -⟩ := h
  rfl

/-- Both queries bind the same. -/
theorem sites_eq (h : q.Reselects q') : q'.sites = q.sites := by
  obtain ⟨fields, combines, rfl, hc⟩ := h
  obtain ⟨harms, hmatches⟩ := Combine.Reselects.sites_eq hc
  obtain ⟨entity, text, conditions, sorts, joins, entries, recurve, paging, size, own, isolation⟩ := q
  cases text with
  | none => simp only [Query.sites, harms, hmatches]
  | some raw => simp only [Query.sites]

/-- Both queries have set operations, or neither has. -/
theorem hasArms_eq (h : q.Reselects q') : q'.hasArms = q.hasArms := by
  obtain ⟨fields, combines, rfl, hc⟩ := h
  unfold Query.hasArms
  rw [Combine.Reselects.any_isNative hc]

end Query.Reselects

/-- The queries of two set operations are translated alike, and they are the same where they stand
for joins. -/
structure Combine.RunsAs (catalog : Catalog) (entry entry' : Combine) : Prop where
  /-- The operator. -/
  kind : entry'.kind = entry.kind
  /-- The entity. -/
  entity : entry'.query.entity = entry.query.entity
  /-- Whether the query is a statement text. -/
  text : entry'.query.isText = entry.query.isText
  /-- What stands for a join is the same. -/
  joined : entry.kind.isNative = false → entry' = entry
  /-- The translations of the queries. -/
  translate : ∀ tableAlias w, SameOutcome (SameBut fun _ _ => True)
    (outcome (entry.query.translateUnder catalog false tableAlias) w)
    (outcome (entry'.query.translateUnder catalog false tableAlias) w)

namespace Translating

variable {catalog : Catalog} {w : Workspace} {out out' : Translation}

/-- The select of a set operation is the same but for its list. -/
theorem combineSelect_sameButList {R : String → String → Prop} {source source' : Query}
    (he : source'.entity = source.entity) {target target' : Query}
    (ht : target'.entity = target.entity) (operator tableAlias : String) {t t' : Translation}
    (h : t.SameBut R t') :
    SameButList catalog source.entity source.fields source'.fields
      (operator ++ " " ++ combineSelect catalog source target tableAlias t)
      (operator ++ " " ++ combineSelect catalog source' target' tableAlias t') := by
  obtain ⟨combines, rfl, -⟩ := h
  unfold combineSelect
  have htext : (t.withCombines combines).text = t.text := rfl
  have hjoins : (t.withCombines combines).joinClause = t.joinClause := rfl
  have hwhere : (t.withCombines combines).whereClause = t.whereClause := rfl
  rw [htext, hjoins, hwhere, he, ht]
  cases t.text with
  | some raw =>
    rw [Option.getD_some, Option.getD_some]
    exact .inl rfl
  | none =>
    refine .inr ⟨operator, catalog.table target.entity, tableAlias, t.joinClause, t.whereClause, ?_,
      ?_⟩ <;> rw [armText, Option.getD_none]

/-- A set operation that the server has is the same but for its list. -/
theorem addCombine_sameBut {source source' : Query} (he : source'.entity = source.entity)
    {entry entry' : Combine} (hr : entry.RunsAs catalog entry')
    (h : out.SameBut (SameButList catalog source.entity source.fields source'.fields) out') :
    SameOutcome (SameBut (SameButList catalog source.entity source.fields source'.fields))
      (outcome (addCombine catalog source entry (entry.query.translateUnder catalog false) out) w)
      (outcome (addCombine catalog source' entry' (entry'.query.translateUnder catalog false) out')
        w) := by
  unfold addCombine
  rw [hr.entity, hr.text, hr.kind]
  refine .bind_left _ fun _ _ => .bind_left _ fun operator _ => .bind_left _ fun tableAlias _ => ?_
  refine .bind (hr.translate tableAlias _) fun t t' v ht => .success v ?_
  have hselect : SameButList catalog source.entity source.fields source'.fields _ _ :=
    combineSelect_sameButList he hr.entity operator tableAlias ht
  obtain ⟨combines, rfl, hout⟩ := h
  obtain ⟨others, rfl, -⟩ := ht
  exact ⟨_, rfl, List.rel_append hout (.cons hselect .nil)⟩

/-- A set operation of either kind is the same but for its list. -/
theorem addNative_sameBut {source source' : Query} (he : source'.entity = source.entity)
    {entry entry' : Combine} (hr : entry.RunsAs catalog entry')
    (h : out.SameBut (SameButList catalog source.entity source.fields source'.fields) out') :
    SameOutcome (SameBut (SameButList catalog source.entity source.fields source'.fields))
      (outcome (addNative catalog source entry (entry.query.translateUnder catalog false) out) w)
      (outcome (addNative catalog source' entry' (entry'.query.translateUnder catalog false) out')
        w) := by
  unfold addNative
  rw [hr.kind]
  cases entry.kind.isNative with
  | true => exact addCombine_sameBut he hr h
  | false => exact .success w h

end Translating

open Translating Translation

variable {catalog : Catalog}

/-- Set operations one after the other are the same but for their lists. -/
theorem translateCombines_sameBut {source source' : Query} (he : source'.entity = source.entity)
    {entries entries' : List Combine} (hr : List.Forall₂ (Combine.RunsAs catalog) entries entries')
    {w : Workspace} {out out' : Translation}
    (h : out.SameBut (SameButList catalog source.entity source.fields source'.fields) out') :
    SameOutcome (SameBut (SameButList catalog source.entity source.fields source'.fields))
      (outcome (translateCombines catalog source entries out) w)
      (outcome (translateCombines catalog source' entries' out') w) := by
  induction hr generalizing w out out' with
  | nil => exact .success w h
  | @cons entry entry' _ _ hentry _ ih =>
    cases entry
    cases entry'
    exact .bind (addNative_sameBut he hentry h) fun _ _ _ ht => ih ht

/-- Set operations that stand for joins do not see the others. -/
theorem translateMatches_sameBut {R : String → String → Prop} (source tableAlias : String)
    {entries entries' : List Combine} (hr : List.Forall₂ (Combine.RunsAs catalog) entries entries')
    {w : Workspace} {out out' : Translation} (h : out.SameBut R out') :
    SameOutcome (SameBut R) (outcome (translateMatches catalog source tableAlias entries out) w)
      (outcome (translateMatches catalog source tableAlias entries' out') w) := by
  induction hr generalizing w out out' with
  | nil => exact .success w h
  | @cons entry entry' entries entries' hentry _ ih =>
    have hmatch : SameOutcome (SameBut R)
        (outcome (addMatch catalog source tableAlias entry
          (entry.query.translateUnder catalog false) out) w)
        (outcome (addMatch catalog source tableAlias entry'
          (entry'.query.translateUnder catalog false) out') w) := by
      cases hk : entry.kind.isNative with
      | true =>
        have hnone : ∀ entry : Combine, entry.kind.isNative = true →
            entry.asJoin catalog = .ok none := fun entry hk => by simp [Combine.asJoin, hk]
        unfold addMatch
        rw [hnone entry hk, hnone entry' (hentry.kind.symm ▸ hk)]
        exact .success w h
      | false =>
        obtain rfl := hentry.joined hk
        exact addMatch_sameBut source tableAlias _ _ h
    cases entry
    cases entry'
    exact .bind hmatch fun _ _ _ ht => ih ht

/-- The joins that stand for set operations are the same. -/
theorem matchingJoins_eq {entries entries' : List Combine}
    (hr : List.Forall₂ (Combine.RunsAs catalog) entries entries') :
    catalog.matchingJoins entries' = catalog.matchingJoins entries := by
  induction hr with
  | nil => rfl
  | @cons entry entry' entries entries' hentry _ ih =>
    have hjoin : entry'.asJoin catalog = entry.asJoin catalog := by
      cases hk : entry.kind.isNative with
      | true => simp [Combine.asJoin, hentry.kind, hk]
      | false => rw [hentry.joined hk]
    rw [Catalog.matchingJoins, Catalog.matchingJoins, hjoin, ih]

/-- A query with other properties wanted is translated to the same clauses but for the lists of its
set operations. -/
theorem Query.translateUnder_sameBut (q : Query) (fields : List String) {combines : List Combine}
    (hr : List.Forall₂ (Combine.RunsAs catalog) q.combines combines) (useSort : Bool)
    (tableAlias : String) (w : Workspace) :
    SameOutcome (SameBut (SameButList catalog q.entity q.fields fields))
      (outcome (q.translateUnder catalog useSort tableAlias) w)
      (outcome ({ q with fields, combines }.translateUnder catalog useSort tableAlias) w) := by
  obtain ⟨entity, text, conditions, sorts, joins, entries, recurve, paging, size, own, isolation⟩ := q
  cases text with
  | some raw =>
    simp only [Query.translateUnder]
    exact .bind_left _ fun _ v => .success v (.of_eq_nil rfl)
  | none =>
    have hchecked : SameOutcome (fun _ _ => True)
        (outcome (lift (catalog.withoutMatching
          { entity, conditions, sorts, joins, combines := entries, recurve, paging, size,
            fields := own, isolation })) w)
        (outcome (lift (catalog.withoutMatching
          { entity, conditions, sorts, joins, combines, recurve, paging, size, fields,
            isolation })) w) := by
      rw [outcome_lift, outcome_lift, Catalog.withoutMatching, Catalog.withoutMatching,
        matchingJoins_eq hr]
      cases catalog.matchingJoins entries with
      | error failure => exact .failure failure w
      | ok joins => exact .success w trivial
    simp only [Query.translateUnder]
    refine .bind hchecked fun _ _ _ _ => .bind_left _ fun list _ => .bind_left _ fun sorted _ => ?_
    refine .bind (translateCombines_sameBut (by rfl) hr (.of_eq_nil rfl)) fun _ _ _ hcombined => ?_
    refine .bind (translateJoins_sameBut entity tableAlias joins hcombined) fun _ _ _ hjoined => ?_
    refine .bind (translateMatches_sameBut entity tableAlias hr hjoined) fun _ _ v hmatched => ?_
    cases recurve with
    | none => exact .success v hmatched
    | some closure => exact addClosure_sameBut entity tableAlias closure hmatched

/-- A set operation runs as itself. -/
theorem Combine.RunsAs.refl (entry : Combine) : entry.RunsAs catalog entry where
  kind := rfl
  entity := rfl
  text := rfl
  joined _ := rfl
  translate _ _ := (SameOutcome.refl _).imp fun t _ h =>
    h ▸ ⟨t.combines, rfl, List.forall₂_same.mpr fun _ _ => trivial⟩

/-- A set operation whose query has other properties wanted runs as before. -/
theorem Combine.Reselects.runsAs {entry entry' : Combine} (h : entry.Reselects entry') :
    entry.RunsAs catalog entry' := by
  rcases h with rfl | ⟨hk, fields, rfl⟩
  · exact .refl entry'
  · have hsame : List.Forall₂ (Combine.RunsAs catalog) entry.query.combines entry.query.combines :=
      List.forall₂_same.mpr fun nested _ => .refl nested
    refine ⟨rfl, rfl, rfl, fun hn => absurd (hk.symm.trans hn) (by simp), fun tableAlias w => ?_⟩
    exact (entry.query.translateUnder_sameBut fields hsame false tableAlias w).imp
      fun t t' ⟨combines, ht, hc⟩ => ⟨combines, ht, hc.imp fun _ _ _ => trivial⟩

/-- A query with other properties wanted, of it and of the queries in its set operations, is
translated to the same clauses but for the lists of these. -/
theorem Query.Reselects.translate {q q' : Query} (h : q.Reselects q') (names : NameSupply) :
    SameOutcome (SameBut (SameButList catalog q.entity q.fields q'.fields))
      (q.translate catalog names) (q'.translate catalog names) := by
  obtain ⟨fields, combines, rfl, hc⟩ := h
  have hruns : List.Forall₂ (Combine.RunsAs catalog) q.combines combines :=
    hc.imp fun _ _ => Combine.Reselects.runsAs
  have hrun := q.translateUnder_sameBut fields hruns true NameSupply.mainAlias
    { names := names.resetAliases }
  -- A statement makes its clauses from what the query leaves under the main alias.
  have hwhole : ∀ q : Query, q.translate catalog names =
      ((outcome (q.translateUnder catalog true NameSupply.mainAlias)
          { names := names.resetAliases }).1.map fun t =>
        { t.mergeJoinExtras with parameters :=
            (outcome (q.translateUnder catalog true NameSupply.mainAlias)
              { names := names.resetAliases }).2.parameters },
        (outcome (q.translateUnder catalog true NameSupply.mainAlias)
          { names := names.resetAliases }).2.names) := fun _ => rfl
  rw [hwhole, hwhole]
  generalize outcome (q.translateUnder catalog true NameSupply.mainAlias)
    { names := names.resetAliases } = r at hrun
  generalize outcome ({ q with fields, combines }.translateUnder catalog true NameSupply.mainAlias)
    { names := names.resetAliases } = r' at hrun
  cases hrun with
  | failure e v => exact .failure e v.names
  | success v ht =>
    have hkeeps : KeepsCombines fun t => { t.mergeJoinExtras with parameters := v.parameters } :=
      fun combines t => congrArg (fun merged : Translation => { merged with parameters := v.parameters })
        (keepsCombines_mergeJoinExtras combines t)
    exact .success v.names (hkeeps.sameBut ht)

end AbstractSql
