import AbstractSql.Proofs.Predicate.Reading
import AbstractSql.Proofs.Translation.Effect
import Mathlib

/-!
# Conditions as predicates

Conditions are translated to the text of a predicate: of the tree of the conditions, in which the text of
each criterion is one atom. So the text means what the tree means.
-/

namespace AbstractSql

open Translating

/-- A criterion that occurs in conditions: which one it is, counted in order, and its text. -/
structure Occurrence where
  /-- Number of criteria before it. -/
  number : Nat
  /-- What it is translated to. -/
  text : String

/-- The text that a criterion of an entity is translated to under an alias, from one of the
workspaces. -/
def Criterion.RenderedAs (catalog : Catalog) (entity tableAlias : String) (c : Criterion)
    (text : String) : Prop :=
  ∃ w fragment v, outcome ((Condition.criterion c).translate catalog entity tableAlias) w =
    (.ok fragment, v) ∧ fragment.text = text

mutual

/-- The tree of a condition, with the text of each criterion for an atom. -/
inductive Condition.Tree (catalog : Catalog) (entity tableAlias : String) :
    Condition → Predicate Occurrence → Prop where
  /-- A criterion is an atom. -/
  | criterion {c : Criterion} {a : Occurrence}
      (rendered : c.RenderedAs catalog entity tableAlias a.text) :
      Condition.Tree catalog entity tableAlias (.criterion c) (.atom a)
  /-- A group has the conditions in it as its parts. -/
  | group {q : Query} {parts : List (Part Occurrence)}
      (inside : Clause.Trees catalog entity tableAlias q.conditions parts) :
      Condition.Tree catalog entity tableAlias (.group q) (.group parts)

/-- The trees of conditions, with the connectors in front of them. -/
inductive Clause.Trees (catalog : Catalog) (entity tableAlias : String) :
    List Clause → List (Part Occurrence) → Prop where
  /-- No conditions. -/
  | nil : Clause.Trees catalog entity tableAlias [] []
  /-- A condition and those after it. -/
  | cons {c : Clause} {rest : List Clause} {p : Predicate Occurrence}
      {parts : List (Part Occurrence)}
      (first : Condition.Tree catalog entity tableAlias c.condition p)
      (others : Clause.Trees catalog entity tableAlias rest parts) :
      Clause.Trees catalog entity tableAlias (c :: rest) ((c.connector, p) :: parts)

end

variable {catalog : Catalog} {entity tableAlias : String}

/-- A text with a space in it is not empty. -/
theorem ne_empty_of_space {text first rest : String} (h : text = first ++ " " ++ rest) :
    text ≠ "" := by
  rintro rfl
  have hl := congrArg String.toList h
  simp at hl

/-- A comparison with another query begins with its field. -/
theorem queryComparison_text {field : String} {operator : Comparison} {q : Query}
    {translate : Bool → String → Translating Translation} {w v : Workspace}
    {fragment : ConditionFragment}
    (h : outcome (queryComparison catalog field operator q translate) w = (.ok fragment, v)) :
    ∃ rest, fragment.text = field ++ " " ++ rest := by
  unfold queryComparison at h
  split at h
  · simp only [outcome_bind_eq_ok, outcome_pure] at h
    obtain ⟨translated, x, -, hp⟩ := h
    obtain rfl := Except.ok.inj (Prod.mk.inj hp).1
    exact ⟨_, by simp only [textComparison, String.append_assoc]; rfl⟩
  · split at h
    · exact absurd h (by simp)
    · simp only [outcome_bind_eq_ok, outcome_pure] at h
      obtain ⟨name, x, -, translated, y, -, hp⟩ := h
      obtain rfl := Except.ok.inj (Prod.mk.inj hp).1
      exact ⟨_, by simp only [subqueryComparison, String.append_assoc]; rfl⟩

/-- The text of a criterion is never empty. -/
theorem Criterion.RenderedAs.ne_empty {c : Criterion} {text : String}
    (h : c.RenderedAs catalog entity tableAlias text) : text ≠ "" := by
  obtain ⟨w, fragment, v, h, rfl⟩ := h
  suffices ∃ first rest, fragment.text = first ++ " " ++ rest by
    obtain ⟨first, rest, ht⟩ := this
    exact ne_empty_of_space ht
  obtain ⟨field, operator, value, conversion⟩ := c
  cases value with
  | value value =>
    simp only [Condition.translate, outcome_bind_eq_ok] at h
    obtain ⟨reference, x, -, h⟩ := h
    split at h
    · simp only [valueComparison, outcome_bind_eq_ok, outcome_pure] at h
      obtain ⟨name, y, -, hp⟩ := h
      obtain rfl := Except.ok.inj (Prod.mk.inj hp).1
      exact ⟨reference, _, by simp only [String.append_assoc]; rfl⟩
    · obtain rfl := Except.ok.inj (Prod.mk.inj h).1
      exact ⟨reference, _, rfl⟩
  | query q =>
    simp only [Condition.translate, outcome_bind_eq_ok] at h
    obtain ⟨reference, x, -, h⟩ := h
    split at h
    · exact ⟨reference, queryComparison_text h⟩
    · obtain rfl := Except.ok.inj (Prod.mk.inj h).1
      exact ⟨reference, _, rfl⟩

namespace Lexeme

/-- Text of a row of lexemes, with criteria for atoms. -/
abbrev sql (lexemes : List (Lexeme Occurrence)) : String := textOf Occurrence.text lexemes

end Lexeme

/-- Lexemes that are not empty texts, of a part of a predicate. -/
structure Describes (lexemes : List (Lexeme Occurrence)) (text : String) : Prop where
  /-- The text is theirs. -/
  text_eq : text = Lexeme.sql lexemes
  /-- No text means no lexemes. -/
  ne_empty : lexemes ≠ [] → text ≠ ""

/-- Lexemes have no text exactly when there are none. -/
theorem Describes.eq_empty_iff {lexemes : List (Lexeme Occurrence)} {text : String}
    (h : Describes lexemes text) : text = "" ↔ lexemes = [] := by
  constructor
  · intro ht
    cases lexemes with
    | nil => rfl
    | cons => exact absurd ht (h.ne_empty (by simp))
  · rintro rfl
    exact h.text_eq

/-- No lexemes at all have no text. -/
theorem Describes.nil : Describes [] "" := ⟨rfl, fun h => absurd rfl h⟩

/-- Where there is a text, there are lexemes. -/
theorem Describes.isEmpty_eq_false {lexemes : List (Lexeme Occurrence)} {text : String}
    (h : Describes lexemes text) (ht : text ≠ "") : lexemes.isEmpty = false := by
  rw [List.isEmpty_eq_false_iff]
  exact fun hn => ht (h.eq_empty_iff.mpr hn)

/-- A list of conditions has the text of these lexemes, and an OR where they have one outside of
parentheses. -/
structure ConditionList.Describes (list : ConditionList) (written : List (Lexeme Occurrence)) :
    Prop where
  /-- The text is that of the lexemes. -/
  text : AbstractSql.Describes written list.text
  /-- The parentheses match. -/
  balanced : Lexeme.Balanced written
  /-- The list knows of an OR. -/
  hasOr : list.hasOr = Lexeme.alternates 0 written

/-- Nothing has been written. -/
theorem ConditionList.Describes.empty : ConditionList.Describes {} [] :=
  ⟨.nil, Lexeme.Flat.nil.balanced, rfl⟩

/-- A condition is added to a list as its lexemes are to those of the list. -/
theorem ConditionList.Describes.push {list : ConditionList} {written part : List (Lexeme Occurrence)}
    {fragment : ConditionFragment} (h : list.Describes written)
    (hp : AbstractSql.Describes part fragment.text) (hf : Lexeme.Flat part) (c : Connector) :
    (list.push c fragment).Describes (Lexeme.push written c part) := by
  unfold ConditionList.push Lexeme.push
  by_cases hpart : fragment.text = ""
  · have hnil : part = [] := hp.eq_empty_iff.mp hpart
    simp only [hpart, hnil, if_true, List.isEmpty_nil]
    exact ⟨h.text, h.balanced, h.hasOr⟩
  have hne : part.isEmpty = false := hp.isEmpty_eq_false hpart
  simp only [hpart, hne, if_false, Bool.false_eq_true]
  by_cases hlist : list.text = ""
  · have hnil : written = [] := h.text.eq_empty_iff.mp hlist
    subst hnil
    simp only [hlist, if_true, List.isEmpty_nil]
    exact ⟨hp, hf.balanced, h.hasOr.trans hf.alternates_eq_false.symm⟩
  have hw : written.isEmpty = false := h.text.isEmpty_eq_false hlist
  simp only [hlist, hw, if_false, Bool.false_eq_true]
  refine ⟨⟨?_, fun _ => ne_empty_of_space rfl⟩, ?_, ?_⟩
  · rw [Lexeme.sql, Lexeme.textOf_append, Lexeme.textOf, h.text.text_eq, hp.text_eq]
    simp only [Lexeme.text, String.append_assoc]
  · have hpush := h.balanced.push hf c
    rwa [Lexeme.push, hne, hw] at hpush
  · rw [h.balanced.alternates_connector hf, h.hasOr]

/-- The conditions of a group have the text of their lexemes in parentheses. -/
theorem ConditionList.Describes.enclose {list : ConditionList} {inner : List (Lexeme Occurrence)}
    (h : list.Describes inner) :
    AbstractSql.Describes (Lexeme.enclose inner) list.grouped.text := by
  unfold Lexeme.enclose ConditionList.grouped
  by_cases hlist : list.text = ""
  · have hnil : inner = [] := h.text.eq_empty_iff.mp hlist
    subst hnil
    simp only [hlist, if_true, List.isEmpty_nil]
    exact .nil
  have hi : inner.isEmpty = false := h.text.isEmpty_eq_false hlist
  simp only [hlist, hi, if_false, Bool.false_eq_true]
  have htext : "(" ++ list.text ++ ")" = Lexeme.sql (Lexeme.opening :: inner ++ [Lexeme.closing]) := by
    rw [Lexeme.sql, List.cons_append, Lexeme.textOf, Lexeme.textOf_append, h.text.text_eq]
    simp only [Lexeme.text, Lexeme.textOf, String.append_empty, String.append_assoc]
  refine ⟨htext, fun _ he => ?_⟩
  have hl := congrArg String.toList he
  simp at hl

/-- Criteria are numbered in order, from the given number on. -/
def Numbered (start : Nat) (occurrences : List Occurrence) : Prop :=
  occurrences.map Occurrence.number = List.range' start occurrences.length

/-- Criteria that are numbered after others are numbered with them. -/
theorem Numbered.append {start : Nat} {first second : List Occurrence} (hf : Numbered start first)
    (hs : Numbered (start + first.length) second) : Numbered start (first ++ second) := by
  rw [Numbered, List.map_append, List.length_append, hf, hs, List.range'_append_1]

mutual

/-- A condition is translated to the text of its tree. -/
theorem Condition.translate_tree (start : Nat) :
    ∀ (c : Condition) {w v : Workspace} {fragment : ConditionFragment},
      outcome (c.translate catalog entity tableAlias) w = (.ok fragment, v) →
      ∃ p, Condition.Tree catalog entity tableAlias c p ∧ Numbered start p.atoms ∧
        Describes p.lexemes fragment.text
  | .group { conditions := [], .. }, w, v, fragment, h => by
    rw [Condition.translate] at h
    obtain rfl := Except.ok.inj (Prod.mk.inj h).1
    exact ⟨.group [], .group .nil, rfl, by rw [Predicate.lexemes]; exact .nil⟩
  | .group { conditions := [⟨connector, only⟩], .. }, w, v, fragment, h => by
    rw [Condition.translate] at h
    obtain ⟨p, htree, hnumbered, htext⟩ := only.translate_tree start h
    refine ⟨.group [(connector, p)], .group (.cons htree .nil), ?_, ?_⟩
    · simpa only [Predicate.atoms, Predicate.atomsOf, List.append_nil] using hnumbered
    · simpa only [Predicate.lexemes] using htext
  | .group { conditions := first :: second :: rest, .. }, w, v, fragment, h => by
    rw [Condition.translate, outcome_bind_eq_ok] at h
    obtain ⟨list, x, hlist, hp⟩ := h
    obtain rfl := Except.ok.inj (Prod.mk.inj hp).1
    obtain ⟨parts, htrees, hnumbered, hdescribes⟩ :=
      translateClauses_tree start (first :: second :: rest) .empty hlist
    refine ⟨.group parts, .group htrees, by rw [Predicate.atoms]; exact hnumbered, ?_⟩
    -- The lexemes of a group depend on the number of its parts, which is that of the conditions.
    cases htrees with
    | cons hfirst hothers =>
      cases hothers with
      | cons hsecond hrest =>
        rw [Predicate.lexemes]
        exact hdescribes.enclose
  | .criterion c, w, v, fragment, h => by
    have hrendered : c.RenderedAs catalog entity tableAlias fragment.text := ⟨w, fragment, v, h, rfl⟩
    refine ⟨.atom ⟨start, fragment.text⟩, .criterion hrendered, ?_, ?_⟩
    · rw [Predicate.atoms]
      rfl
    · rw [Predicate.lexemes]
      exact ⟨(String.append_empty ..).symm, fun _ => hrendered.ne_empty⟩

/-- Conditions are translated to the text of their trees, after what has been written. -/
theorem translateClauses_tree (start : Nat) :
    ∀ (clauses : List Clause) {list list' : ConditionList} {written : List (Lexeme Occurrence)}
      {w v : Workspace}, list.Describes written →
      outcome (translateClauses catalog entity tableAlias clauses list) w = (.ok list', v) →
      ∃ parts, Clause.Trees catalog entity tableAlias clauses parts ∧
        Numbered start (Predicate.atomsOf parts) ∧
        list'.Describes (Predicate.lexemesAfter written parts)
  | [], list, list', written, w, v, hl, h => by
    rw [translateClauses] at h
    obtain rfl := Except.ok.inj (Prod.mk.inj h).1
    exact ⟨[], .nil, rfl, by rw [Predicate.lexemesAfter]; exact hl⟩
  | ⟨connector, condition⟩ :: rest, list, list', written, w, v, hl, h => by
    rw [translateClauses, outcome_bind_eq_ok] at h
    obtain ⟨fragment, x, hfragment, hrest⟩ := h
    obtain ⟨p, htree, hnumbered, htext⟩ := condition.translate_tree start hfragment
    obtain ⟨parts, htrees, hothers, hdescribes⟩ :=
      translateClauses_tree (start + p.atoms.length) rest
        (hl.push htext (Lexeme.flat_lexemes p) connector) hrest
    refine ⟨(connector, p) :: parts, .cons htree htrees, ?_, ?_⟩
    · rw [Predicate.atomsOf]
      exact hnumbered.append hothers
    · rw [Predicate.lexemesAfter]
      exact hdescribes

end

/-- Conditions keep their meaning. Their text is the text of the lexemes of their trees; read with AND
binding tighter than OR it has the value of the trees, whichever criteria hold. It is empty exactly when
no criterion occurs, and the list knows of an OR exactly when one stands outside of all parentheses. -/
theorem translateClauses_reads {clauses : List Clause} {list : ConditionList} {w v : Workspace}
    (h : outcome (translateClauses catalog entity tableAlias clauses {}) w = (.ok list, v)) :
    ∃ parts, Clause.Trees catalog entity tableAlias clauses parts ∧
      Numbered 0 (Predicate.atomsOf parts) ∧
      list.text = Lexeme.sql (Predicate.lexemesAfter [] parts) ∧
      (∀ holds : Occurrence → Bool, Lexeme.read holds (Predicate.lexemesAfter [] parts) =
        Predicate.chained (Predicate.values holds parts)) ∧
      (list.text = "" ↔ Predicate.atomsOf parts = []) ∧
      list.hasOr = Lexeme.alternates 0 (Predicate.lexemesAfter [] parts) := by
  obtain ⟨parts, htrees, hnumbered, hdescribes⟩ := translateClauses_tree 0 clauses .empty h
  exact ⟨parts, htrees, hnumbered, hdescribes.text.text_eq,
    fun holds => Lexeme.read_lexemesAfter holds parts,
    hdescribes.text.eq_empty_iff.trans (Lexeme.lexemesAfter_eq_nil parts), hdescribes.hasOr⟩

/-- An empty group in front is passed over with its connector, the criterion after it is written without
one, and a group of two criteria around an empty group is put in parentheses. -/
theorem translateClauses_reads_groups :
    let isNull field : Condition := .criterion { field, operator := .isNull, value := .value .null }
    let nothing : Condition := .group { entity := "" }
    let pair : Condition := .group
      { entity := "", conditions := [⟨.and, isNull "b"⟩, ⟨.or, nothing⟩, ⟨.and, isNull "c"⟩] }
    let clauses : List Clause := [⟨.or, nothing⟩, ⟨.and, isNull "a"⟩, ⟨.or, pair⟩]
    ∃ list v, outcome (translateClauses {} "User" "TB" clauses {}) {} = (.ok list, v) ∧
      list.text = "TB.`a` IS NULL OR (TB.`b` IS NULL AND TB.`c` IS NULL)" ∧ list.hasOr = true ∧
      ∃ parts, Clause.Trees {} "User" "TB" clauses parts ∧
        list.text = Lexeme.sql (Predicate.lexemesAfter [] parts) ∧
        ∀ holds : Occurrence → Bool, Lexeme.read holds (Predicate.lexemesAfter [] parts) =
          Predicate.chained (Predicate.values holds parts) := by
  intro isNull nothing pair clauses
  have hrun : ∃ list v, outcome (translateClauses {} "User" "TB" clauses {}) {} = (.ok list, v) ∧
      list.text = "TB.`a` IS NULL OR (TB.`b` IS NULL AND TB.`c` IS NULL)" ∧ list.hasOr = true :=
    ⟨_, _, rfl, by cbv, by cbv⟩
  obtain ⟨list, v, hlist, htext, hor⟩ := hrun
  obtain ⟨parts, htrees, -, hsql, hread, -, -⟩ := translateClauses_reads hlist
  exact ⟨list, v, hlist, htext, hor, parts, htrees, hsql, hread⟩

end AbstractSql
