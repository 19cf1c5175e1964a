import AbstractSql.Proofs.Command.Sites

/-!
# Commands compiled with two supplies

Compiled with two supplies, a command gives alike statements. A statement names exactly what the
written clauses name: an update or a deletion writes the definitions, the joins and the condition of
its filter, and neither its set operations nor a text in its place.
-/

namespace AbstractSql

open Segment hiding placeholder
open Identifier

/-- Whether an update or a deletion writes what is found in a clause of its filter. -/
def Place.isWritten : Place → Bool
  | condition | joins | definitions | extras => true
  | statement | combines | lost => false

/-- The pairs of names found in the written clauses. -/
def writtenMarks (ts : List Twin) : Marks :=
  {names | ∃ t ∈ ts, t.place.isWritten = true ∧ names ∈ t.marks}

/-- The names found in the written clauses, clause by clause. -/
theorem writtenMarks_eq (ts : List Twin) :
    writtenMarks ts =
      marksAt .definitions ts ∪ (marksAt .joins ts ∪ (marksAt .condition ts ∪ marksAt .extras ts)) := by
  ext names
  constructor
  · rintro ⟨t, ht, hw, hn⟩
    have hm : names ∈ marksAt t.place ts := ⟨t, ht, rfl, hn⟩
    cases hp : t.place <;> rw [hp] at hw hm <;>
      simp only [Place.isWritten, Bool.false_eq_true] at hw <;> simp [hm]
  · have hback : ∀ place : Place, place.isWritten = true → names ∈ marksAt place ts →
        names ∈ writtenMarks ts := by
      rintro place hw ⟨t, ht, rfl, hn⟩
      exact ⟨t, ht, hw, hn⟩
    rintro (h | h | h | h)
    · exact hback .definitions rfl h
    · exact hback .joins rfl h
    · exact hback .condition rfl h
    · exact hback .extras rfl h

/-- The written names come from one of two lists. -/
theorem writtenMarks_append (first second : List Twin) :
    writtenMarks (first ++ second) = writtenMarks first ∪ writtenMarks second := by
  ext names
  simp only [writtenMarks, List.mem_append, Set.mem_ofPred_eq, Set.mem_union, or_and_right,
    exists_or]

/-- The clauses of a filter that are written, once the conditions on joined rows are part of the
condition. -/
theorem writtenMarks_merged (ts : List Twin) :
    marksAt .definitions (ts.map (Twin.move .merged)) ∪
        (marksAt .joins (ts.map (Twin.move .merged)) ∪
          marksAt .condition (ts.map (Twin.move .merged))) = writtenMarks ts := by
  rw [writtenMarks_eq]
  simp [marksAt_move, Place.merged]

namespace Command

variable {catalog : Catalog} {c : Command} {left left' : NameSupply} {u : ExecutionUnit}

/-- The table of a command is literal. -/
theorem literal_table (c : Command) (catalog : Catalog) : Literal (c.table catalog) := .quote _

/-- Texts written for assigned properties are alike one by one, when each is for names that can be
read back. -/
theorem assigned_alike (c : Command) (write : String → String → String)
    (hw : ∀ {property name name' : String}, name ≠ "" → name' ≠ "" →
      (∀ a ∈ name.toList, isNameCharacter a = true) →
      (∀ a ∈ name'.toList, isNameCharacter a = true) →
      Alike {(name, name')} (write property name) (write property name'))
    {properties : List String} (hr : Readable (c.assignedSites properties))
    (left right : NameSupply) :
    AlikeAll (writtenMarks (twins left right (c.assignedSites properties)))
      ((properties.zip (left.nextParameters properties).1).map fun entry => write entry.1 entry.2)
      ((properties.zip (right.nextParameters properties).1).map fun entry =>
        write entry.1 entry.2) := by
  induction properties generalizing left right with
  | nil =>
    refine AlikeAll.nil.congr ?_
    ext names
    simp [writtenMarks, assignedSites, twins]
  | cons property rest ih =>
    have hbase : ∀ a ∈ property.toList, isNameCharacter a = true := hr _ List.mem_cons_self
    obtain ⟨hne, hall⟩ := nextParameter_readable hbase left
    obtain ⟨hne', hall'⟩ := nextParameter_readable hbase right
    have hrest := ih (fun site hs => hr site (List.mem_cons_of_mem _ hs))
      (left.nextParameter property).2 (right.nextParameter property).2
    refine (AlikeAll.cons (hw hne hne' hall hall') hrest).congr ?_
    have hfirst : writtenMarks [⟨.condition, {((left.nextParameter property).1,
        (right.nextParameter property).1)}⟩] =
        {((left.nextParameter property).1, (right.nextParameter property).1)} := by
      ext names
      simp [writtenMarks, Place.isWritten]
    rw [← hfirst, ← writtenMarks_append]
    rfl

/-- An assignment names the parameter of its value. -/
theorem assignment_alike (c : Command) (catalog : Catalog) {property name name' : String}
    (hne : name ≠ "") (hne' : name' ≠ "") (hall : ∀ a ∈ name.toList, isNameCharacter a = true)
    (hall' : ∀ a ∈ name'.toList, isNameCharacter a = true) :
    Alike {(name, name')} (c.assignment catalog property name)
      (c.assignment catalog property name') := by
  have hcolumn := literal_qualify plain_mainAlias (catalog.column c.entity property)
  have hmark := Alike.placeholder hne hne' hall hall'
  unfold assignment
  dsimp only
  generalize qualify NameSupply.mainAlias (catalog.column c.entity property) = column at hcolumn
  have hvalue : Alike {(name, name')} (c.assignedValue property column name)
      (c.assignedValue property column name') := by
    unfold assignedValue
    split
    · next operator _ =>
      split
      · have hplain : Plain operator.sql := by cases operator <;> decide
        have hparts : Parts operator.sql = true := by cases operator <;> decide
        rw [String.append_assoc, String.append_assoc]
        exact .literal_append hcolumn (.plain_append hplain hmark) (delimits_append hparts _)
      · exact hmark
    · exact hmark
  rw [String.append_assoc, String.append_assoc]
  exact .literal_append hcolumn (.plain_append (by decide) hvalue) (delimits_append (by decide) _)

/-- Insertions with alike values are alike. -/
theorem insertText_alike (c : Command) (catalog : Catalog) {properties : List String}
    (hr : Readable (c.assignedSites properties)) (left right : NameSupply) :
    Alike (writtenMarks (twins left right (c.assignedSites properties)))
      (c.insertText catalog (left.nextParameters properties).1)
      (c.insertText catalog (right.nextParameters properties).1) := by
  have hmarks := c.assigned_alike (fun _ name => placeholder name)
    (fun hne hne' hall hall' => .placeholder hne hne' hall hall') hr left right
  have hnames : ∀ names : NameSupply,
      ((properties.zip (names.nextParameters properties).1).map fun entry : String × String =>
        placeholder entry.2) = (names.nextParameters properties).1.map placeholder := by
    intro names
    have hsecond : (properties.zip (names.nextParameters properties).1).map Prod.snd =
        (names.nextParameters properties).1 := List.map_snd_zip (by simp)
    rw [← congrArg (List.map placeholder) hsecond, List.map_map]
    rfl
  rw [hnames, hnames] at hmarks
  have hvalues : Alike _ (String.intercalate "," ((left.nextParameters properties).1.map placeholder))
      (String.intercalate "," ((right.nextParameters properties).1.map placeholder)) :=
    hmarks.intercalate (by decide) (delimits_of_parts (by decide)) (by decide)
  have hcolumns : Literal (String.intercalate ","
      ((catalog.editFields c.entity).map fun f => quote f.column)) := by
    refine literal_intercalate (by decide) (by decide) fun s hs => ?_
    obtain ⟨field, -, rfl⟩ := List.mem_map.mp hs
    exact .quote field.column
  unfold insertText
  dsimp only
  simp only [String.append_assoc]
  refine .plain_append (by decide) (.literal_append (c.literal_table catalog)
    (.plain_append (by decide) ?_) (delimits_append (by decide) _))
  exact .literal_append hcolumns (.plain_append (by decide)
    (hvalues.append_plain (by decide) (by decide))) (delimits_append (by decide) _)

/-- Updates with alike values and alike filters are alike. -/
theorem updateText_alike (c : Command) (catalog : Catalog) {left right : NameSupply}
    {t t' : Translation} {ts : List Twin} (hr : Readable (c.assignedSites c.fields))
    (h : t.Twins (ts.map (Twin.move .merged)) t') :
    Alike (writtenMarks (twins left right (c.assignedSites c.fields)) ∪ writtenMarks ts)
      (c.updateText catalog (left.nextParameters c.fields).1 t)
      (c.updateText catalog (right.nextParameters c.fields).1 t') := by
  have hassignments := c.assigned_alike (c.assignment catalog)
    (fun hne hne' hall hall' => c.assignment_alike catalog hne hne' hall hall') hr left right
  have hset := hassignments.intercalate (show Plain ", " by decide)
    (delimits_of_parts (by decide)) (by decide)
  have htable : Literal ("UPDATE " ++ c.table catalog ++ " AS " ++ NameSupply.mainAlias) := by
    rw [String.append_assoc, String.append_assoc]
    exact .plain_append (by decide) (.literal_append (c.literal_table catalog)
      (.plain (by decide)) (delimits_of_parts (by decide)))
  unfold updateText
  dsimp only
  refine (Alike.append_plain (AlikeAll.cons h.definitionClause (.cons htable (.cons h.joinClause
    (.cons (.plain_append (by decide) hset) (.single h.whereClause))))).joinParts (by decide)
    (by decide)).congr ?_
  rw [← writtenMarks_merged ts, Set.empty_union]
  simp only [Set.union_comm, Set.union_left_comm]

/-- Deletions with alike filters are alike. -/
theorem deleteText_alike (c : Command) (catalog : Catalog) {t t' : Translation} {ts : List Twin}
    (h : t.Twins (ts.map (Twin.move .merged)) t') :
    Alike (writtenMarks ts) (c.deleteText catalog t) (c.deleteText catalog t') := by
  have htable : Literal ("DELETE " ++ NameSupply.mainAlias ++ " FROM " ++ c.table catalog ++ " AS "
      ++ NameSupply.mainAlias) := by
    simp only [String.append_assoc]
    exact .plain_append (by decide) (.plain_append (by decide) (.plain_append (by decide)
      (.literal_append (c.literal_table catalog) (.plain (by decide))
        (delimits_of_parts (by decide)))))
  unfold deleteText
  refine (Alike.append_plain (AlikeAll.cons h.definitionClause (.cons htable (.cons h.joinClause
    (.single h.whereClause)))).joinParts (by decide) (by decide)).congr ?_
  rw [← writtenMarks_merged, Set.empty_union]

/-- A command that compiles with one supply compiles with any other, and the statements are
alike. -/
theorem toUnit_alike (hc : c.IsData) (hr : Readable (c.sites catalog)) (right : NameSupply)
    (h : outcome (c.toUnit catalog) left = (.ok u, left')) :
    ∃ u' right' s s', outcome (c.toUnit catalog) right = (.ok u', right') ∧ u.statements = [s] ∧
      u'.statements = [s'] ∧ Alike (writtenMarks (twins left right (c.sites catalog))) s s' := by
  unfold sites at hr ⊢
  rcases hc with hk | hk | hk
  · obtain ⟨hf, rfl, rfl⟩ := (toUnit_insert hk rfl).mp h
    simp only [hk] at hr ⊢
    exact ⟨_, _, _, _, (toUnit_insert hk rfl).mpr ⟨hf, rfl, rfl⟩, rfl, rfl,
      c.insertText_alike catalog hr left right⟩
  · obtain ⟨hf, t, ht, rfl⟩ := (toUnit_update hk).mp h
    simp only [hk] at hr ⊢
    obtain ⟨hassigned, hfilter⟩ := readable_append.mp hr
    obtain ⟨t', right', ht', htwins⟩ :=
      Query.translate_twins hfilter (right.nextParameters c.fields).2 ht
    refine ⟨_, _, _, _, (toUnit_update hk).mpr ⟨hf, t', ht', rfl⟩, rfl, rfl, ?_⟩
    rw [twins_append, writtenMarks_append, (c.ledger_assigned left c.fields).2,
      (c.ledger_assigned right c.fields).2]
    exact c.updateText_alike catalog hassigned htwins
  · obtain ⟨t, ht, rfl⟩ := (toUnit_delete hk).mp h
    simp only [hk] at hr ⊢
    obtain ⟨t', right', ht', htwins⟩ := Query.translate_twins hr right ht
    exact ⟨_, _, _, _, (toUnit_delete hk).mpr ⟨t', ht', rfl⟩, rfl, rfl,
      c.deleteText_alike catalog htwins⟩

end Command

end AbstractSql
