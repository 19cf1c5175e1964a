import Mathlib
import AbstractSql.Proofs.Segment.Chain
import AbstractSql.Proofs.Translation.Coupling

/-!
# Placeholders of issued names

A name is issued for a property as the property with a number behind it, and written behind a mark.
The scanner reads a name as far as its characters go. So it reads back the issued name exactly when
all characters of the property are characters of names; at any other character it stops, and another
name is looked for than was bound.
-/

namespace AbstractSql

open Segment hiding placeholder
open Identifier (placeholder)

variable {name rest : String}

/-- What is read at a mark: the name characters behind it, or the mark alone without any. -/
theorem Segment.head?_scanCharacters_mark (cs : List Char) :
    (scanCharacters ('?' :: cs)).1.head? =
      some (if cs.takeWhile isNameCharacter = [] then sql "?"
        else .placeholder (String.ofList (cs.takeWhile isNameCharacter))) := by
  have hsplit : cs.takeWhile isNameCharacter ++ cs.dropWhile isNameCharacter = cs :=
    List.takeWhile_append_dropWhile
  have hrest := head?_dropWhile_name cs
  by_cases hne : cs.takeWhile isNameCharacter = []
  · rw [hne, List.nil_append] at hsplit
    rw [hsplit] at hrest
    rw [scanCharacters_question hrest, if_pos hne, List.head?_cons]
  · have hscan := scanCharacters_mark hne (fun c hc => List.mem_takeWhile_imp hc) hrest
    rw [hsplit] at hscan
    rw [hscan, if_neg hne, List.head?_cons]

/-- What is read at a placeholder: the name characters of its name, and those of the text behind it
when the name has no others. -/
theorem Segment.head?_scanCharacters_placeholder (name rest : String) :
    (scanCharacters (Identifier.placeholder name ++ rest).toList).1.head? =
      some (if (name.toList ++ rest.toList).takeWhile isNameCharacter = [] then sql "?"
        else .placeholder (String.ofList
          ((name.toList ++ rest.toList).takeWhile isNameCharacter))) := by
  rw [← head?_scanCharacters_mark, Identifier.placeholder, String.toList_append,
    String.toList_append]
  rfl

/-- A placeholder in front of a text is read as itself. -/
structure NameSupply.ReadsBack (name rest : String) : Prop where
  /-- It is the first segment, and the others are those of the text. -/
  scans : ∀ segments, scan (placeholder name ++ rest) = .ok segments ↔
    ∃ others, scan rest = .ok others ∧ segments = .placeholder name :: others
  /-- The parameter of that name is bound in its place. -/
  binds : ∀ parameters p bound, parameters.get? name = some p →
    AbstractSql.bind rest parameters = .ok bound →
      AbstractSql.bind (placeholder name ++ rest) parameters =
        .ok (bound.prepend (Bound.marks p.value) (Bound.scalars p.value))

/-- A name of name characters is read as far as it goes. -/
theorem Segment.scanCharacters_placeholder (hne : name ≠ "")
    (hall : ∀ c ∈ name.toList, isNameCharacter c = true)
    (hr : ∀ c ∈ rest.toList.head?, isNameCharacter c = false) :
    scanCharacters (Identifier.placeholder name ++ rest).toList =
      (.placeholder name :: (scanCharacters rest.toList).1, (scanCharacters rest.toList).2) := by
  have hn : name.toList ≠ [] := fun he => hne (String.toList_eq_nil_iff.mp he)
  have hscan := scanCharacters_mark hn hall hr
  rw [String.ofList_toList] at hscan
  rw [Identifier.placeholder, String.toList_append, String.toList_append]
  exact hscan

/-- A placeholder of name characters is read back. -/
theorem NameSupply.readsBack (hne : name ≠ "") (hall : ∀ c ∈ name.toList, isNameCharacter c = true)
    (hr : ∀ c ∈ rest.toList.head?, isNameCharacter c = false) : ReadsBack name rest := by
  have hscan := scanCharacters_placeholder hne hall hr
  have hscans : ∀ segments, scan (placeholder name ++ rest) = .ok segments ↔
      ∃ others, scan rest = .ok others ∧ segments = .placeholder name :: others := by
    intro segments
    simp only [scan_eq_ok_iff, hscan, Prod.mk.injEq]
    constructor
    · rintro ⟨rfl, hrest⟩
      exact ⟨_, Prod.ext rfl hrest, rfl⟩
    · rintro ⟨others, hothers, rfl⟩
      rw [hothers]
      exact ⟨rfl, rfl⟩
  refine ⟨hscans, fun parameters p bound hp hb => ?_⟩
  cases hrest : scan rest with
  | error failure => simp [AbstractSql.bind, hrest] at hb
  | ok others =>
    have htext := (hscans _).mpr ⟨others, hrest, rfl⟩
    rw [AbstractSql.bind, hrest] at hb
    have hvalue : parameters.value? name = some p.value := by
      rw [ParameterSet.value?, hp, Option.map_some]
    rw [AbstractSql.bind, htext]
    simp only [Bound.ofSegments, hvalue]
    rw [show Bound.ofSegments parameters others = .ok bound from hb]
    rfl

/-- The placeholder of an issued name is read back exactly when its property has name characters
only. Otherwise the name ends at the first other character of the property, and when the property
begins with one the mark is read alone. -/
theorem NameSupply.placeholder_reads_iff (names : NameSupply) (property rest : String)
    (hr : ∀ c ∈ rest.toList.head?, isNameCharacter c = false) :
    let name := (names.nextParameter property).1
    let first := (scanCharacters (placeholder name ++ rest).toList).1.head?
    (first = some (.placeholder name) ↔ ∀ c ∈ property.toList, isNameCharacter c = true) ∧
      ((∀ c ∈ property.toList, isNameCharacter c = true) → ReadsBack name rest) ∧
      ∀ front c back, property.toList = front ++ c :: back →
        (∀ d ∈ front, isNameCharacter d = true) → isNameCharacter c = false →
        first = some (if front = [] then sql "?" else .placeholder (String.ofList front)) := by
  intro name first
  have hfirst : first = _ := head?_scanCharacters_placeholder name rest
  obtain ⟨number, hnumber⟩ : ∃ number : Nat, name = property ++ toString number := ⟨_, rfl⟩
  have hname : name.toList = property.toList ++ (toString number).toList := by
    rw [hnumber, String.toList_append]
  refine ⟨⟨fun h => ?prefixed, fun h => ?whole⟩, fun h => ?back, fun front c back hp hf hc => ?cut⟩
  case back =>
    obtain ⟨hne, hall⟩ := nextParameter_readable h names
    exact readsBack hne hall hr
  case whole =>
    obtain ⟨hne, hall⟩ := nextParameter_readable h names
    change (scanCharacters (placeholder name ++ rest).toList).1.head? = _
    rw [scanCharacters_placeholder hne hall hr, List.head?_cons]
  case prefixed =>
    rw [hfirst, Option.some.injEq] at h
    split at h
    · cases h
    -- All that is read are name characters, so a name that is read whole has no others.
    · have hread : String.ofList ((name.toList ++ rest.toList).takeWhile isNameCharacter) = name :=
        Segment.placeholder.inj h
      intro c hc
      have hmem : c ∈ name.toList := by
        rw [hname]
        exact List.mem_append_left _ hc
      rw [← hread, String.toList_ofList] at hmem
      exact List.mem_takeWhile_imp hmem
  case cut =>
    have htake : (name.toList ++ rest.toList).takeWhile isNameCharacter = front := by
      rw [hname, hp, List.append_assoc, List.append_assoc, List.takeWhile_append_of_pos hf,
        List.cons_append, List.takeWhile_cons_of_neg (by simp [hc]), List.append_nil]
    rw [hfirst, htake]

/-- Letters beyond the first alphabet, a name that the supply has issued before, and a text that
goes on with a comma. -/
theorem NameSupply.placeholder_reads_letters :
    let names : NameSupply := { sequence := 3, issued := ["größe4"] }
    (∀ c ∈ ", 'x'".toList.head?, isNameCharacter c = false) ∧
      (names.nextParameter "größe").1 = "größe5" ∧ ReadsBack "größe5" ", 'x'" ∧
      (scanCharacters (placeholder "größe5" ++ ", 'x'").toList).1.head? =
        some (.placeholder "größe5") := by
  intro names
  have hr : ∀ c ∈ ", 'x'".toList.head?, isNameCharacter c = false := by
    rintro c ⟨⟩
    rfl
  have hall : ∀ c ∈ "größe".toList, isNameCharacter c = true := List.all_eq_true.mp (by decide)
  have hname : (names.nextParameter "größe").1 = "größe5" := by decide
  obtain ⟨hfirst, hback, -⟩ := names.placeholder_reads_iff "größe" ", 'x'" hr
  rw [hname] at hfirst hback
  exact ⟨hr, hname, hback hall, hfirst.mpr hall⟩

/-- Properties with a dash in their names. The placeholder is read as another one, so that a
statement cannot be bound to its own parameters, or is bound to the value of another property. -/
theorem NameSupply.placeholder_cutsOff :
    let name := (({} : NameSupply).nextParameter "first-name").1
    let single := (Query.ofEntity "User").equal "first-name" (.string "Ada")
    let mixed := ((Query.ofEntity "User").equal "id" (.int 5)).equal "id1-x" (.int 7)
    name = "first-name1" ∧
      scan (placeholder name) = .ok [.placeholder "first", .sql "-name1"] ∧
      (∃ st names', outcome (Statement.read {} .select single) {} = (.ok st, names') ∧
        st.text = "SELECT TB.* FROM `User` AS TB WHERE TB.`first-name` = ?first-name1" ∧
        st.parameters.names = ["first-name1"] ∧
        AbstractSql.bind st.text st.parameters = .error (.unknownParameter "first")) ∧
      ∃ st names' bound, outcome (Statement.read {} .select mixed) {} = (.ok st, names') ∧
        st.parameters.names = ["id1", "id1-x2"] ∧
        AbstractSql.bind st.text st.parameters = .ok bound ∧
        bound.sql = "SELECT TB.* FROM `User` AS TB WHERE TB.`id` = ? AND TB.`id1-x` = ?-x2" ∧
        bound.values = [.int 5, .int 5] := by
  intro name single mixed
  exact ⟨by decide, by cbv, ⟨_, _, rfl, by cbv, by cbv, by cbv⟩, _, _,
    ⟨"SELECT TB.* FROM `User` AS TB WHERE TB.`id` = ? AND TB.`id1-x` = ?-x2", [.int 5, .int 5]⟩,
    rfl, by cbv, by cbv, rfl, rfl⟩

end AbstractSql
