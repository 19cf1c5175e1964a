import AbstractSql.Proofs.Translation.Whole

/-!
# The texts of read statements

A read statement is put together from the clauses of one translated query, a select list and fixed
words. When the clauses are read to their ends and name only given parameters, so is the statement,
whatever tables and columns are called. Templates of select-list entries are left out.
-/

namespace AbstractSql

open Segment Identifier

/-- A text that is read to its end and names only these parameters. -/
def NamesOnly (marks : Marks) (text : String) : Prop := ∃ used, used ⊆ marks ∧ Alike used text text

namespace NamesOnly

variable {marks : Marks} {s t : String}

/-- A literal text names no parameter. -/
theorem literal (h : Literal s) : NamesOnly marks s := ⟨∅, Set.empty_subset marks, h⟩

/-- A text that goes on with another one. -/
theorem append (h : NamesOnly marks s) (k : NamesOnly marks t) (ht : Delimits t) :
    NamesOnly marks (s ++ t) := by
  obtain ⟨used, hu, hs⟩ := h
  obtain ⟨others, ho, hk⟩ := k
  exact ⟨used ∪ others, Set.union_subset hu ho, hs.append hk ht⟩

/-- Plain text in front. -/
theorem plain_append (hp : Plain s) (k : NamesOnly marks t) : NamesOnly marks (s ++ t) := by
  obtain ⟨used, hu, hk⟩ := k
  exact ⟨used, hu, .plain_append hp hk⟩

/-- Plain text behind. -/
theorem append_plain (h : NamesOnly marks s) (hp : Plain t) (ht : Parts t = true) :
    NamesOnly marks (s ++ t) := h.append (.literal (.plain hp)) (delimits_of_parts ht)

/-- Parts put together. -/
theorem joinParts {parts : List String} (h : ∀ s ∈ parts, NamesOnly marks s) :
    NamesOnly marks (Text.joinParts parts) := by
  have hall : ∃ used, used ⊆ marks ∧ AlikeAll used parts parts := by
    induction parts with
    | nil => exact ⟨∅, Set.empty_subset marks, .nil⟩
    | cons s rest ih =>
      obtain ⟨used, hu, hs⟩ := h s List.mem_cons_self
      obtain ⟨others, ho, hrest⟩ := ih fun t ht => h t (List.mem_cons_of_mem s ht)
      exact ⟨used ∪ others, Set.union_subset hu ho, .cons hs hrest⟩
  obtain ⟨used, hu, halike⟩ := hall
  exact ⟨used, hu, halike.joinParts⟩

end NamesOnly

/-- Clauses that are read to their ends and name only these parameters. -/
structure Translation.NamesOnly (t : Translation) (marks : Marks) : Prop where
  /-- The definitions. -/
  definitions : AbstractSql.NamesOnly marks t.definitionClause
  /-- The joins. -/
  joins : AbstractSql.NamesOnly marks t.joinClause
  /-- The condition. -/
  condition : AbstractSql.NamesOnly marks t.whereClause
  /-- The set operations. -/
  combines : AbstractSql.NamesOnly marks t.combineClause
  /-- Sort entries name no parameter. -/
  sorts : ∀ s ∈ t.sorts, Literal s
  /-- Nor does the clause of all of them. -/
  order : Literal t.orderClause

/-- Clauses that are alike to themselves name only what is found in one of them. -/
theorem Translation.Twins.namesOnly {t : Translation} {ts : List Twin} {marks : Marks}
    (h : t.Twins ts t) (hm : ∀ twin ∈ ts, twin.marks ⊆ marks) : t.NamesOnly marks := by
  have hplace : ∀ place, marksAt place ts ⊆ marks := by
    rintro place names ⟨twin, ht, -, hn⟩
    exact hm twin ht hn
  exact ⟨⟨_, hplace _, h.definitionClause⟩, ⟨_, hplace _, h.joinClause⟩,
    ⟨_, hplace _, h.whereClause⟩, ⟨_, hplace _, h.combineClause⟩, h.sorts.2, h.orderClause.2⟩

/-- No entry of a select list has a template. -/
def Catalog.Unformatted (c : Catalog) : Prop :=
  ∀ entry ∈ c.entities, ∀ field ∈ entry.2.fields, field.queryFormat = none

namespace Catalog.Unformatted

variable {c : Catalog} (h : c.Unformatted)

include h

/-- Declared fields have no templates. -/
theorem declared {entity : String} : ∀ field ∈ c.declaredFields entity, field.queryFormat = none := by
  intro field hf
  unfold Catalog.declaredFields at hf
  cases he : c.get? entity with
  | none => simp [he] at hf
  | some e =>
    rw [he] at hf
    obtain ⟨before, after, hl, -⟩ := List.lookup_eq_some_iff.mp he
    exact h (entity, e) (by rw [hl]; simp) field hf

/-- Fields that are looked up have no templates. -/
theorem lookup (entity property : String) : (c.field entity property).queryFormat = none := by
  unfold Catalog.field
  cases hf : (c.get? entity).bind fun e => e.fields.find? fun f => f.property == property with
  | none => rfl
  | some field =>
    obtain ⟨e, he, hfind⟩ := Option.bind_eq_some_iff.mp hf
    refine Catalog.Unformatted.declared h field (?_ : field ∈ c.declaredFields entity)
    simp only [Catalog.declaredFields, he]
    exact List.mem_of_find?_eq_some hfind

/-- Selected fields have no templates. -/
theorem selected {entity : String} {properties : List String} :
    ∀ field ∈ c.selectedFields entity properties, field.queryFormat = none := by
  unfold Catalog.selectedFields
  split
  · intro field hf
    exact h.declared field (List.mem_filter.mp hf).1
  · intro field hf
    obtain ⟨property, -, rfl⟩ := List.mem_map.mp hf
    exact h.lookup entity property

/-- A select list with the names of its properties is literal. -/
theorem literal_selectList {tableAlias : String} (ha : Plain tableAlias) (entity : String)
    (properties : List String) : Literal (c.selectList tableAlias entity properties true) := by
  unfold Catalog.selectList
  split
  · exact (Alike.plain ha).append_plain (by decide) (by decide)
  · refine literal_intercalate (by decide) (by decide) fun s hs => ?_
    obtain ⟨field, hf, rfl⟩ := List.mem_map.mp hs
    have hcolumn := literal_qualify ha field.column
    simp only [Field.selectEntry, h.selected field hf, if_true]
    split
    · exact hcolumn
    · rw [String.append_assoc]
      exact .literal_append hcolumn (.plain_append (by decide) (.quote field.property))
        (delimits_append (by decide) _)

end Catalog.Unformatted

namespace Statement

variable {catalog : Catalog} {t : Translation} {marks : Marks} {list : String}

/-- A select from a table is literal when its list is. -/
theorem literal_selectFrom (hl : Literal list) (table : String) :
    Literal ("SELECT " ++ list ++ " FROM " ++ quote table ++ " AS " ++ NameSupply.mainAlias) := by
  simp only [String.append_assoc]
  have htable := literal_aliased plain_mainAlias table
  rw [String.append_assoc] at htable
  exact .plain_append (by decide)
    (.literal_append hl (.plain_append (by decide) htable) (delimits_append (by decide) _))

/-- A select with its clauses names exactly what they name. -/
theorem baseSelect_alike {joins condition combines : Marks}
    (hj : Alike joins t.joinClause t.joinClause) (hc : Alike condition t.whereClause t.whereClause)
    (ha : Alike combines t.combineClause t.combineClause) (hl : Literal list) (q : Query) :
    Alike (joins ∪ (condition ∪ combines)) (baseSelect catalog q t list)
      (baseSelect catalog q t list) :=
  (AlikeAll.cons (literal_selectFrom hl _) (.cons hj (.cons hc (.single ha)))).joinParts.congr
    (Set.empty_union _)

/-- A select with its clauses names what they name. -/
theorem baseSelect_namesOnly (h : t.NamesOnly marks) (hl : Literal list) (q : Query) :
    NamesOnly marks (baseSelect catalog q t list) := by
  obtain ⟨joins, hj, hjoins⟩ := h.joins
  obtain ⟨condition, hc, hcondition⟩ := h.condition
  obtain ⟨combines, ha, hcombines⟩ := h.combines
  exact ⟨_, Set.union_subset hj (Set.union_subset hc ha),
    baseSelect_alike hjoins hcondition hcombines hl q⟩

/-- The select list inside a derived table is literal. -/
theorem literal_innerList (catalog : Catalog) (q : Query) : Literal (innerList catalog q) :=
  literal_selectList plain_mainAlias catalog q.entity q.fields

/-- A select from a derived table names exactly what the select in it names. -/
theorem selectFromDerived_alike {q : Query}
    (h : Alike marks (baseSelect catalog q t (innerList catalog q))
      (baseSelect catalog q t (innerList catalog q))) (hl : Literal list) :
    Alike marks (selectFromDerived catalog q t list) (selectFromDerived catalog q t list) := by
  unfold selectFromDerived
  simp only [String.append_assoc]
  have hbase : Alike marks
      (baseSelect catalog q t (innerList catalog q) ++ (") AS " ++ NameSupply.mainAlias)) _ :=
    h.append_plain (by decide) (by decide)
  exact .plain_append (by decide) (.literal_append hl (.plain_append (by decide) hbase)
    (delimits_append (by decide) _))

/-- A select from a derived table names what its clauses name. -/
theorem selectFromDerived_namesOnly (h : t.NamesOnly marks) (hl : Literal list) (q : Query) :
    NamesOnly marks (selectFromDerived catalog q t list) := by
  obtain ⟨used, hu, hbase⟩ := baseSelect_namesOnly h (literal_innerList catalog q) q
  exact ⟨used, hu, selectFromDerived_alike hbase hl⟩

/-- A plain read names exactly what its definitions and its select name. -/
theorem selectText_alike {definitions : Marks} (hc : catalog.Unformatted)
    (hd : Alike definitions t.definitionClause t.definitionClause) {q : Query}
    (hb : ∀ {list}, Literal list → Alike marks (baseSelect catalog q t list)
      (baseSelect catalog q t list)) (ho : Literal t.orderClause) :
    Alike (definitions ∪ marks) (selectText catalog q t) (selectText catalog q t) := by
  have hlist : Literal (outputList catalog q) := hc.literal_selectList plain_mainAlias _ _
  let body := if t.hasCombine then selectFromDerived catalog q t (outputList catalog q)
    else baseSelect catalog q t (outputList catalog q)
  have hbody : Alike marks body body := by
    unfold body
    split
    · exact selectFromDerived_alike (hb (literal_innerList catalog q)) hlist
    · exact hb hlist
  have hlimit : Literal (if q.size = 0 then "" else "LIMIT 0," ++ toString q.size.toNat) := by
    refine .plain ?_
    split
    · decide
    · exact AbstractSql.plain_append (by decide) (plain_number _)
  have hparts := AlikeAll.cons hd (.cons hbody (.cons ho (.single hlimit)))
  exact hparts.joinParts.congr (by rw [Set.empty_union, Set.union_empty])

/-- A plain read names what its clauses name. -/
theorem selectText_namesOnly (hc : catalog.Unformatted) (h : t.NamesOnly marks) (q : Query) :
    NamesOnly marks (selectText catalog q t) := by
  obtain ⟨definitions, hd, hdefinitions⟩ := h.definitions
  obtain ⟨joins, hj, hjoins⟩ := h.joins
  obtain ⟨condition, hw, hcondition⟩ := h.condition
  obtain ⟨combines, ha, hcombines⟩ := h.combines
  exact ⟨_, Set.union_subset hd (Set.union_subset hj (Set.union_subset hw ha)),
    selectText_alike hc hdefinitions
      (fun hl => baseSelect_alike hjoins hcondition hcombines hl q) h.order⟩

/-- The select from the common table of a range is literal when its list and its order are. -/
theorem literal_rangeSelect {order : String} (hl : Literal list) (ho : Literal order)
    (column : String) (offset size : Nat) :
    Literal (" SELECT (SELECT COUNT(" ++ (quote column ++ (") FROM PagingTable) AS QueryDataTotalCount,"
      ++ (list ++ (" FROM PagingTable AS " ++ (NameSupply.mainAlias ++ (" ORDER BY " ++ (order
        ++ (" LIMIT " ++ (toString offset ++ ("," ++ toString size))))))))))) := by
  have hlimit : Plain (" LIMIT " ++ (toString offset ++ ("," ++ toString size))) :=
    AbstractSql.plain_append (by decide) (AbstractSql.plain_append (plain_number _)
      (AbstractSql.plain_append (by decide) (plain_number _)))
  have hrows : Literal (list ++ (" FROM PagingTable AS " ++ (NameSupply.mainAlias ++ (" ORDER BY "
      ++ (order ++ (" LIMIT " ++ (toString offset ++ ("," ++ toString size)))))))) :=
    .literal_append hl (.plain_append (by decide) (.plain_append plain_mainAlias
      (.plain_append (by decide)
        (.literal_append ho (.plain hlimit) (delimits_append (by decide) _)))))
      (delimits_append (by decide) _)
  exact .plain_append (by decide) (.literal_append (.quote column)
    (.plain_append (by decide) hrows) (delimits_append (by decide) _))

/-- A range of rows names what its clauses name. -/
theorem rangeText_namesOnly (hc : catalog.Unformatted) (h : t.NamesOnly marks) (q : Query)
    (offset size : Nat) (probe : Field) :
    NamesOnly marks (rangeText catalog q t offset size probe) := by
  have hinner : NamesOnly marks (baseSelect catalog q t (innerList catalog q) ++ ")") :=
    (baseSelect_namesOnly h (literal_innerList catalog q) q).append_plain (by decide) (by decide)
  have hlist : Literal (outputList catalog q) := hc.literal_selectList plain_mainAlias _ _
  unfold rangeText
  simp only [String.append_assoc]
  refine NamesOnly.append ?definitions
    (.literal (literal_rangeSelect hlist ?order probe.column offset size))
    (delimits_append (by decide) _)
  case definitions =>
    split
    · exact h.definitions.append (.plain_append (by decide) hinner) (delimits_append (by decide) _)
    · exact .plain_append (by decide) hinner
  case order =>
    split
    · exact (literal_qualify plain_mainAlias _).append_plain (by decide) (by decide)
    · exact literal_intercalate (by decide) (by decide) h.sorts

/-- A test for rows names what its clauses name. -/
theorem existsText_namesOnly (h : t.NamesOnly marks) (q : Query) :
    NamesOnly marks (existsText catalog q t) := by
  refine .joinParts fun s hs => ?_
  simp only [List.mem_cons, List.not_mem_nil, or_false] at hs
  rcases hs with rfl | rfl
  · exact h.definitions
  · rw [String.append_assoc]
    exact .plain_append (by decide)
      ((baseSelect_namesOnly h (literal_innerList catalog q) q).append_plain (by decide) (by decide))

/-- An aggregate names what its clauses name. -/
theorem aggregateText_namesOnly (h : t.NamesOnly marks) (function : Aggregate) (field : Field)
    (q : Query) : NamesOnly marks (aggregateText catalog function field q t) := by
  have hfunction : Plain function.sql := by cases function <;> decide
  have hexpression : Literal
      (function.sql ++ "(" ++ qualify NameSupply.mainAlias field.column ++ ")") := by
    rw [String.append_assoc, String.append_assoc]
    exact .plain_append hfunction (.plain_append (by decide)
      ((literal_qualify plain_mainAlias _).append_plain (by decide) (by decide)))
  unfold aggregateText
  dsimp only
  split
  · refine .joinParts fun s hs => ?_
    simp only [List.mem_cons, List.not_mem_nil, or_false] at hs
    rcases hs with rfl | rfl
    · exact h.definitions
    · exact selectFromDerived_namesOnly h hexpression q
  · refine .joinParts fun s hs => ?_
    simp only [List.mem_cons, List.not_mem_nil, or_false] at hs
    rcases hs with rfl | rfl | rfl | rfl
    · exact h.definitions
    · exact .literal (literal_selectFrom hexpression _)
    · exact h.joins
    · exact h.condition

end Statement

end AbstractSql
