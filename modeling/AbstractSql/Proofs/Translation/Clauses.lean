import AbstractSql.Proofs.Translation.Fragments

/-!
# Clauses of two translations

The clauses of two translations of one query are alike, with the twins of its sources in them. What
is done with clauses keeps them so: adding conditions, taking over what a nested query defines, and
writing a query into the one around it.
-/

namespace AbstractSql

open Segment Identifier Translating

/-- The joins that a translation still has to write. -/
def Translation.ownJoins (t : Translation) : List String := if t.allowJoin then t.joins else []

/-- Two translations of one query have the same clauses, up to the names of their twins. -/
structure Translation.Twins (ts : List Twin) (t t' : Translation) : Prop where
  /-- The same statement text stands in for the clauses, or none. -/
  text : t.text = t'.text
  /-- A statement text is read to its end. -/
  statement : Alike (marksAt .statement ts) (t.text.getD "") (t.text.getD "")
  /-- The conditions are alike. -/
  condition : Alike (marksAt .condition ts) t.condition t'.condition
  /-- Both conditions have an alternative, or none. -/
  hasOr : t.hasOr = t'.hasOr
  /-- Sort entries name no parameter. -/
  sorts : t.sorts = t'.sorts ∧ ∀ s ∈ t.sorts, Literal s
  /-- The joins that are still written are alike. -/
  joins : AlikeAll (marksAt .joins ts) t.ownJoins t'.ownJoins
  /-- The set operations are alike. -/
  combines : AlikeAll (marksAt .combines ts) t.combines t'.combines
  /-- The definitions are alike. -/
  definitions : AlikeAll (marksAt .definitions ts) t.definitions t'.definitions
  /-- The conditions for the outer statement are alike. -/
  extras : AlikeAll (marksAt .extras ts) t.joinExtras t'.joinExtras
  /-- Both write their joins, or none. -/
  allowJoin : t.allowJoin = t'.allowJoin
  /-- The same closure table was defined last. -/
  closure : t.closure = t'.closure

/-- Two renderings of one condition are the same, up to the names of their twins. -/
structure ConditionFragment.Twins (ts : List Twin) (f f' : ConditionFragment) : Prop where
  /-- The texts are alike. -/
  text : Alike (marksAt .condition ts) f.text f'.text
  /-- The definitions are alike. -/
  definitions : AlikeAll (marksAt .definitions ts) f.definitions f'.definitions
  /-- The same closure table was defined last. -/
  closure : f.closure = f'.closure

/-- Two renderings of the conditions of one query are the same, up to the names of their twins. -/
structure ConditionList.Twins (ts : List Twin) (c c' : ConditionList) : Prop where
  /-- The texts are alike. -/
  text : Alike (marksAt .condition ts) c.text c'.text
  /-- Both have an alternative, or none. -/
  hasOr : c.hasOr = c'.hasOr
  /-- The definitions are alike. -/
  definitions : AlikeAll (marksAt .definitions ts) c.definitions c'.definitions
  /-- The same closure table was defined last. -/
  closure : c.closure = c'.closure

/-- Place of what a nested query defines, taken alone. -/
def Place.defined : Place → Place
  | definitions => definitions
  | _ => lost

namespace Translation.Twins

variable {ts us : List Twin} {t t' n n' : Translation} {marks : Marks} {s s' : String}

/-- Only the twins in clauses count. -/
theorem congr (h : t.Twins ts t') (hm : ∀ place, place ≠ .lost → marksAt place ts = marksAt place us) :
    t.Twins us t' where
  text := h.text
  statement := h.statement.congr (hm _ (by decide))
  condition := h.condition.congr (hm _ (by decide))
  hasOr := h.hasOr
  sorts := h.sorts
  joins := h.joins.congr (hm _ (by decide))
  combines := h.combines.congr (hm _ (by decide))
  definitions := h.definitions.congr (hm _ (by decide))
  extras := h.extras.congr (hm _ (by decide))
  allowJoin := h.allowJoin
  closure := h.closure

/-- Both have set operations, or none. -/
theorem hasCombine (h : t.Twins ts t') : t.hasCombine = t'.hasCombine := by
  have hc := h.combines.eq_nil_iff
  unfold Translation.hasCombine
  rw [Bool.not_inj_iff, Bool.eq_iff_iff, List.isEmpty_iff, List.isEmpty_iff]
  exact hc

/-- Without set operations no names are found in them. -/
theorem combines_eq_empty (h : t.Twins ts t') (hc : t.hasCombine = false) :
    marksAt .combines ts = ∅ := by
  have hn : t.combines = [] := by simpa [Translation.hasCombine] using hc
  exact (hn ▸ h.combines).marks_eq_empty

/-- Without joins to write no names are found in them. -/
theorem joins_eq_empty (h : t.Twins ts t') (hj : t.allowJoin = false) :
    marksAt .joins ts = ∅ := by
  have hn : t.ownJoins = [] := by simp [Translation.ownJoins, hj]
  exact (hn ▸ h.joins).marks_eq_empty

/-- Without a condition no names are found in it. -/
theorem condition_eq_empty (h : t.Twins ts t') (hc : t.condition = "") :
    marksAt .condition ts = ∅ := (hc ▸ h.condition).marks_eq_empty

/-- The conditions with their keyword are alike. -/
theorem whereClause (h : t.Twins ts t') :
    Alike (marksAt .condition ts) t.whereClause t'.whereClause := by
  have hc := h.condition
  unfold Translation.whereClause
  by_cases he : t.condition = ""
  · have he' := hc.eq_empty_iff.mp he
    rw [if_pos he, if_pos he']
    rwa [he, he'] at hc
  · rw [if_neg he, if_neg fun h => he (hc.eq_empty_iff.mpr h)]
    exact .plain_append (by decide) hc

/-- The written joins are alike. -/
theorem joinClause (h : t.Twins ts t') :
    Alike (marksAt .joins ts) t.joinClause t'.joinClause := by
  have hi : Alike (marksAt .joins ts) (String.intercalate " " t.ownJoins)
      (String.intercalate " " t'.ownJoins) :=
    h.joins.intercalate (by decide) (delimits_of_parts (by decide)) (by decide)
  have hj : ∀ t : Translation, t.joinClause = String.intercalate " " t.ownJoins := by
    intro t
    unfold Translation.joinClause Translation.ownJoins
    split <;> rfl
  rwa [hj, hj]

/-- The written set operations are alike. -/
theorem combineClause (h : t.Twins ts t') :
    Alike (marksAt .combines ts) t.combineClause t'.combineClause :=
  h.combines.intercalate (by decide) (delimits_of_parts (by decide)) (by decide)

/-- The written definitions are alike. -/
theorem definitionClause (h : t.Twins ts t') :
    Alike (marksAt .definitions ts) t.definitionClause t'.definitionClause := by
  have hd := h.definitions
  have hi : Alike (marksAt .definitions ts) (String.intercalate "," t.definitions)
      (String.intercalate "," t'.definitions) :=
    hd.intercalate (by decide) (delimits_of_parts (by decide)) (by decide)
  unfold Translation.definitionClause
  cases ht : t.definitions with
  | nil =>
    rw [ht] at hi
    rw [hd.eq_nil_iff.mp ht] at hi ⊢
    exact hi
  | cons first rest =>
    cases ht' : t'.definitions with
    | nil => exact absurd (hd.eq_nil_iff.mpr ht') (by simp [ht])
    | cons first' rest' =>
      rw [ht, ht'] at hi
      exact .plain_append (by decide) hi

/-- The written sort entries are the same and literal. -/
theorem orderClause (h : t.Twins ts t') :
    t.orderClause = t'.orderClause ∧ Literal t.orderClause := by
  obtain ⟨he, hl⟩ := h.sorts
  refine ⟨by rw [Translation.orderClause, Translation.orderClause, he], ?_⟩
  unfold Translation.orderClause
  split
  · exact .empty
  · exact .plain_append (by decide) (literal_intercalate (by decide) (by decide) hl)

/-- More conditions in two translations. -/
private theorem setCondition (h : t.Twins ts t') (k : Alike marks s s')
    (hm : marksAt .condition ts ⊆ marks) :
    Translation.Twins (ts ++ [⟨.condition, marks⟩]) { t with condition := s, hasOr := false }
      { t' with condition := s', hasOr := false } where
  text := h.text
  statement := h.statement.congr (by simp)
  condition := k.congr (by simp [Set.union_eq_self_of_subset_left hm])
  hasOr := rfl
  sorts := h.sorts
  joins := h.joins.congr (by simp)
  combines := h.combines.congr (by simp)
  definitions := h.definitions.congr (by simp)
  extras := h.extras.congr (by simp)
  allowJoin := h.allowJoin
  closure := h.closure

/-- Requiring alike conditions keeps the clauses alike. -/
theorem andCondition (h : t.Twins ts t') (k : Alike marks s s') :
    (t.andCondition s).Twins (ts ++ [⟨.condition, marks⟩]) (t'.andCondition s') := by
  have hc := h.condition
  have hd : Parts " AND " = true := by decide
  have hb : Alike (marksAt .condition ts ∪ marks) (t.condition ++ " AND " ++ s)
      (t'.condition ++ " AND " ++ s') := by
    rw [String.append_assoc, String.append_assoc]
    exact hc.append (.plain_append (by decide) k) (delimits_append hd s)
  have hg : Alike (marksAt .condition ts ∪ marks) ("(" ++ t.condition ++ ") AND " ++ s)
      ("(" ++ t'.condition ++ ") AND " ++ s') := by
    simp only [String.append_assoc]
    exact .plain_append (by decide)
      (hc.append (.plain_append (by decide) k) (delimits_append (by decide) _))
  unfold Translation.andCondition
  by_cases hs : s = ""
  · have hs' := k.eq_empty_iff.mp hs
    rw [if_pos hs, if_pos hs']
    refine h.congr fun place _ => ?_
    simp [(hs ▸ k).marks_eq_empty]
  · rw [if_neg hs, if_neg fun h => hs (k.eq_empty_iff.mpr h)]
    by_cases ht : t.condition = ""
    · rw [if_pos ht, if_pos (hc.eq_empty_iff.mp ht)]
      rw [ht] at hc
      exact h.setCondition k (by rw [hc.marks_eq_empty]; exact Set.empty_subset _)
    · rw [if_neg ht, if_neg fun h => ht (hc.eq_empty_iff.mpr h), ← h.hasOr]
      have hu : marksAt .condition ts ⊆ marksAt .condition ts ∪ marks := Set.subset_union_left
      have hw : ∀ place, place ≠ Place.lost →
          marksAt place (ts ++ [⟨.condition, marksAt .condition ts ∪ marks⟩]) =
            marksAt place (ts ++ [⟨.condition, marks⟩]) := by
        intro place _
        simp only [marksAt_append, marksAt_singleton]
        split
        · next hp => rw [← hp, ← Set.union_assoc, Set.union_self]
        · rfl
      split
      · exact (h.setCondition hg hu).congr hw
      · exact (h.setCondition hb hu).congr hw

/-- Requiring alike conditions one after another keeps the clauses alike. -/
theorem foldl_andCondition {ss ss' : List String} (h : t.Twins ts t')
    (k : AlikeAll marks ss ss') :
    (ss.foldl Translation.andCondition t).Twins (ts ++ [⟨.condition, marks⟩])
      (ss'.foldl Translation.andCondition t') := by
  induction k generalizing ts t t' with
  | nil =>
    refine h.congr fun place _ => ?_
    simp
  | @cons marks others s s' ss ss' first rest ih =>
    refine (ih (h.andCondition first)).congr fun place _ => ?_
    simp only [marksAt_append, marksAt_singleton, Set.union_assoc]
    split
    · rfl
    · simp

/-- More joins that are alike keep the clauses alike, as long as joins are written. -/
theorem addJoins {ss ss' : List String} (h : t.Twins ts t') (hj : t.allowJoin = true)
    (k : AlikeAll marks ss ss') :
    Translation.Twins (ts ++ [⟨.joins, marks⟩]) { t with joins := t.joins ++ ss }
      { t' with joins := t'.joins ++ ss' } := by
  have hj' : t'.allowJoin = true := h.allowJoin ▸ hj
  have hjoins := h.joins
  refine ⟨h.text, h.statement.congr (by simp), h.condition.congr (by simp), h.hasOr, h.sorts, ?_,
    h.combines.congr (by simp), h.definitions.congr (by simp), h.extras.congr (by simp),
    h.allowJoin, h.closure⟩
  simp only [Translation.ownJoins, hj, hj', if_true] at hjoins ⊢
  exact (hjoins.append k).congr (by simp)

/-- Taking over what alike nested queries define. -/
theorem absorb (h : t.Twins ts t') (k : n.Twins us n') :
    (t.absorb n).Twins (ts ++ us.map (.move .defined)) (t'.absorb n') where
  text := h.text
  statement := h.statement.congr (by simp [marksAt_move, Place.defined])
  condition := h.condition.congr (by simp [marksAt_move, Place.defined])
  hasOr := h.hasOr
  sorts := h.sorts
  joins := h.joins.congr (by simp [marksAt_move, Place.defined])
  combines := h.combines.congr (by simp [marksAt_move, Place.defined])
  definitions := (h.definitions.append k.definitions).congr (by simp [marksAt_move, Place.defined])
  extras := h.extras.congr (by simp [marksAt_move, Place.defined])
  allowJoin := h.allowJoin
  closure := by simp only [Translation.absorb, h.closure, k.closure]

end Translation.Twins

namespace ConditionList.Twins

variable {ts us : List Twin} {c c' : ConditionList} {f f' : ConditionFragment}

/-- Adding alike conditions keeps the lists alike. -/
theorem push (h : c.Twins ts c') (k : f.Twins us f') (connector : Connector) :
    (c.push connector f).Twins (ts ++ us) (c'.push connector f') := by
  have hclosure : f.closure.or c.closure = f'.closure.or c'.closure := by
    rw [h.closure, k.closure]
  have hdefinitions : AlikeAll (marksAt .definitions (ts ++ us)) (c.definitions ++ f.definitions)
      (c'.definitions ++ f'.definitions) :=
    (h.definitions.append k.definitions).congr (marksAt_append _ _ _).symm
  unfold ConditionList.push
  by_cases hf : f.text = ""
  · rw [if_pos hf, if_pos (k.text.eq_empty_iff.mp hf)]
    have hn := (hf ▸ k.text).marks_eq_empty
    exact ⟨h.text.congr (by simp [hn]), h.hasOr, hdefinitions, hclosure⟩
  · rw [if_neg hf, if_neg fun he => hf (k.text.eq_empty_iff.mpr he)]
    by_cases hc : c.text = ""
    · rw [if_pos hc, if_pos (h.text.eq_empty_iff.mp hc)]
      have hn := (hc ▸ h.text).marks_eq_empty
      exact ⟨k.text.congr (by simp [hn]), h.hasOr, hdefinitions, hclosure⟩
    · rw [if_neg hc, if_neg fun he => hc (h.text.eq_empty_iff.mpr he)]
      have hp : Plain connector.sql := by cases connector <;> decide
      refine ⟨?_, by dsimp only; rw [h.hasOr], hdefinitions, hclosure⟩
      dsimp only
      simp only [String.append_assoc]
      exact (h.text.append (.plain_append (by decide) (.plain_append hp
        (.plain_append (by decide) k.text))) (delimits_append (by decide) _)).congr
        (marksAt_append _ _ _).symm

/-- A group of alike conditions is alike. -/
theorem grouped (h : c.Twins ts c') : c.grouped.Twins ts c'.grouped := by
  refine ⟨?_, h.definitions, h.closure⟩
  have ht := h.text
  unfold ConditionList.grouped
  dsimp only
  by_cases hc : c.text = ""
  · have hc' := ht.eq_empty_iff.mp hc
    rw [if_pos hc, if_pos hc']
    rwa [hc, hc'] at ht
  · rw [if_neg hc, if_neg fun he => hc (ht.eq_empty_iff.mpr he), String.append_assoc,
      String.append_assoc]
    exact .plain_append (by decide) (ht.append_plain (by decide) (by decide))

/-- Alike conditions start alike translations, when their twins are in conditions. -/
theorem toTranslation (h : c.Twins ts c')
    (hp : ∀ place, ¬ place.ofCondition → marksAt place ts = ∅) {sorts : List String}
    (hs : ∀ s ∈ sorts, Literal s) :
    Translation.Twins ts { c.toTranslation with sorts } { c'.toTranslation with sorts } where
  text := rfl
  statement := Alike.empty.congr (hp _ (by simp [Place.ofCondition])).symm
  condition := h.text
  hasOr := h.hasOr
  sorts := ⟨rfl, hs⟩
  joins := AlikeAll.nil.congr (hp _ (by simp [Place.ofCondition])).symm
  combines := AlikeAll.nil.congr (hp _ (by simp [Place.ofCondition])).symm
  definitions := h.definitions
  extras := AlikeAll.nil.congr (hp _ (by simp [Place.ofCondition])).symm
  allowJoin := rfl
  closure := h.closure

end ConditionList.Twins

end AbstractSql
