import AbstractSql.Proofs.Query.Twins
import AbstractSql.Translation.OfQuery

/-!
# Fragments of statements

The fragments that a statement is put together from, and how clauses are written around them. A
fragment that names no parameter is alike to itself; one around alike clauses is alike.
-/

namespace AbstractSql

open Segment Identifier Translating

/-- A text that delimits what stands in front of it, whatever follows. -/
def Parts (text : String) : Bool :=
  match text.toList with
  | [] => false
  | c :: _ => !isNameCharacter c && !isQuote c

/-- A delimiting text still delimits when another one follows. -/
theorem delimits_append {text : String} (h : Parts text = true) (rest : String) :
    Delimits (text ++ rest) := by
  unfold Parts at h
  rw [Delimits, String.toList_append]
  split at h
  · exact absurd h (by simp)
  · next c cs hc =>
    rw [hc, List.cons_append]
    simp only [Bool.and_eq_true, Bool.not_eq_true'] at h
    exact delimited_cons h.1 h.2 _

/-- A delimiting text. -/
theorem delimits_of_parts {text : String} (h : Parts text = true) : Delimits text := by
  have ha := delimits_append h ""
  rwa [String.append_empty] at ha

/-- A text that is read to its end and names no parameter. -/
abbrev Literal (text : String) : Prop := Alike ∅ text text

namespace Alike

variable {marks others : Marks} {s s' t t' : String}

/-- A literal text in front of alike ones that delimit it. -/
theorem literal_append (h : Literal s) (k : Alike marks t t') (ht : Delimits t) :
    Alike marks (s ++ t) (s ++ t') := (h.append k ht).congr (Set.empty_union marks)

/-- A literal text after alike ones. -/
theorem append_literal (h : Alike marks s s') (k : Literal t) (ht : Delimits t) :
    Alike marks (s ++ t) (s' ++ t) := (h.append k ht).congr (Set.union_empty marks)

/-- Plain text after alike ones. -/
theorem append_plain (h : Alike marks s s') (hp : Plain t) (ht : Parts t = true) :
    Alike marks (s ++ t) (s' ++ t) := h.append_literal (plain hp) (delimits_of_parts ht)

end Alike

/-- Plain texts in a row are plain. -/
theorem plain_append {s t : String} (hs : Plain s) (ht : Plain t) : Plain (s ++ t) := by
  intro c hc
  rw [String.toList_append] at hc
  rcases List.mem_append.mp hc with hc | hc
  · exact hs c hc
  · exact ht c hc

/-- A number is plain. -/
theorem plain_number (n : Nat) : Plain (toString n) := by
  intro c hc
  rw [Nat.toString_eq_ofList_toDigits, String.toList_ofList] at hc
  have hd := Nat.isDigit_of_mem_toDigits (by decide) (by decide) hc
  simp only [Char.isDigit, Bool.and_eq_true, decide_eq_true_eq] at hd
  have hle : c.toNat ≤ 57 := hd.2
  have hge : 48 ≤ c.toNat := hd.1
  have hne : ∀ d : Char, d.toNat < 48 ∨ 57 < d.toNat → c ≠ d := by
    rintro d hd rfl
    omega
  simp only [isPlain, isQuote, Bool.not_eq_true', Bool.or_eq_false_iff, beq_eq_false_iff_ne]
  exact ⟨⟨⟨hne _ (by decide), hne _ (by decide)⟩, hne _ (by decide)⟩, hne _ (by decide)⟩

/-- The main alias is plain. -/
theorem plain_mainAlias : Plain NameSupply.mainAlias := by decide

/-- The alias of a subquery is plain. -/
theorem plain_nextAlias (names : NameSupply) : Plain names.nextAlias.1 :=
  plain_append (by decide) (plain_number _)

/-- A column behind an alias and a point is literal. -/
theorem literal_under {tableAlias : String} (ha : Plain tableAlias) (column : String) :
    Literal (under tableAlias column) := by
  unfold under
  rw [String.append_assoc]
  exact .plain_append ha (.plain_append (by decide) (.quote column))

/-- A qualified column is literal. -/
theorem literal_qualify {tableAlias : String} (ha : Plain tableAlias) (column : String) :
    Literal (qualify tableAlias column) := by
  unfold qualify
  split
  · exact .quote column
  · exact literal_under ha column

/-- A table under an alias is literal. -/
theorem literal_aliased {tableAlias : String} (ha : Plain tableAlias) (table : String) :
    Literal (quote table ++ " AS " ++ tableAlias) := by
  rw [String.append_assoc]
  exact .literal_append (.quote table) (.plain_append (by decide) (.plain ha))
    (delimits_append (by decide) _)

/-- A reference to a property is literal. -/
theorem literal_reference {catalog : Catalog} {entity tableAlias property reference : String}
    {conversion : Option Conversion} (ha : Plain tableAlias)
    (h : catalog.reference entity tableAlias property conversion = .ok reference) :
    Literal reference := by
  cases conversion with
  | none =>
    obtain rfl := Except.ok.inj h
    exact literal_qualify ha _
  | some conversion =>
    simp only [Catalog.reference, Conversion.render] at h
    split at h
    · obtain rfl := Except.ok.inj h
      rw [String.append_assoc]
      exact .plain_append (by decide)
        ((literal_qualify ha _).append_plain (by decide) (by decide))
    · exact absurd h (by simp)

/-- Literal texts are alike one by one. -/
theorem alikeAll_literal {texts : List String} (h : ∀ s ∈ texts, Literal s) :
    AlikeAll ∅ texts texts := by
  induction texts with
  | nil => exact .nil
  | cons s rest ih =>
    have hr := ih fun t ht => h t (List.mem_cons_of_mem s ht)
    exact (AlikeAll.cons (h s List.mem_cons_self) hr).congr (Set.empty_union ∅)

/-- Literal texts joined by a separator are literal. -/
theorem literal_intercalate {separator : String} (hp : Plain separator)
    (hd : Parts separator = true) {texts : List String} (h : ∀ s ∈ texts, Literal s) :
    Literal (String.intercalate separator texts) := by
  refine (alikeAll_literal h).intercalate hp (delimits_of_parts hd) ?_
  rintro rfl
  exact Bool.noConfusion hd

/-- A select list without templates is literal. -/
theorem literal_selectList {tableAlias : String} (ha : Plain tableAlias) (catalog : Catalog)
    (entity : String) (selected : List String) :
    Literal (catalog.selectList tableAlias entity selected false) := by
  unfold Catalog.selectList
  split
  · exact (Alike.plain ha).append_plain (by decide) (by decide)
  · refine literal_intercalate (by decide) (by decide) fun s hs => ?_
    obtain ⟨field, -, rfl⟩ := List.mem_map.mp hs
    exact literal_qualify ha _

/-- Sort entries are literal. -/
theorem literal_sortEntries {catalog : Catalog} {entity tableAlias : String} (ha : Plain tableAlias)
    {sorts : List SortKey} {entries : List String}
    (h : sortEntries catalog entity tableAlias sorts = .ok entries) : ∀ s ∈ entries, Literal s := by
  induction sorts generalizing entries with
  | nil =>
    obtain rfl := Except.ok.inj h
    simp
  | cons key rest ih =>
    rw [sortEntries] at h
    cases hr : catalog.reference entity tableAlias key.field key.conversion with
    | error failure => simp [hr, Bind.bind, Except.bind] at h
    | ok reference =>
      cases hs : sortEntries catalog entity tableAlias rest with
      | error failure => simp [hr, hs, Bind.bind, Except.bind] at h
      | ok others =>
        simp only [hr, hs, Bind.bind, Except.bind, Pure.pure, Except.pure, Except.ok.injEq] at h
        subst h
        intro s hm
        rcases List.mem_cons.mp hm with rfl | hm
        · refine (literal_reference ha hr).append_plain ?_ ?_ <;> split <;> decide
        · exact ih hs s hm

/-- Column comparisons of a join are literal. -/
theorem literal_joinConditions {sourceAlias targetAlias : String} (hs : Plain sourceAlias)
    (ht : Plain targetAlias) (catalog : Catalog) (source : String) (join : Join) :
    ∀ s ∈ joinConditions catalog source join sourceAlias targetAlias, Literal s := by
  intro s hm
  unfold joinConditions at hm
  split at hm
  · exact absurd hm List.not_mem_nil
  · obtain ⟨pair, -, rfl⟩ := List.mem_map.mp hm
    have ho : Plain join.operator.sql := by cases join.operator <;> decide
    simp only [String.append_assoc]
    exact .literal_append (literal_qualify hs _)
      (.plain_append (by decide) (.plain_append ho (.plain_append (by decide)
        (literal_qualify ht _)))) (delimits_append (by decide) _)

end AbstractSql
