import AbstractSql.Proofs.Segment.Pieces
import AbstractSql.Proofs.Segment.Scanning
import Mathlib

/-!
# Quoted names are closed

Every backtick of a name is doubled between the backticks around it, so the reading of the name stays
inside them until its last character, and whatever a name holds is literal. From a quoted name the
name can be read back, and a text behind it is scanned as if it stood alone, unless it begins with
another backtick.
-/

namespace AbstractSql

namespace Identifier

/-- Characters with every pair of backticks made one. A backtick by itself is none of an escaped
name. -/
def unescape? : List Char → Option (List Char)
  | [] => some []
  | '\x60' :: '\x60' :: rest => (unescape? rest).map ('\x60' :: ·)
  | c :: rest => if c = '\x60' then none else (unescape? rest).map (c :: ·)

/-- The name between the outer backticks. -/
def unquote? (text : String) : Option String :=
  match text.toList with
  | [] => none
  | first :: rest =>
    if first = '\x60' ∧ rest.getLast? = some '\x60' then
      (unescape? rest.dropLast).map String.ofList
    else none

/-- Escaped characters are read back. -/
theorem unescape?_escape (cs : List Char) : unescape? (escape cs) = some cs := by
  induction cs with
  | nil => rfl
  | cons c cs ih =>
    unfold escape
    split
    · next hc => simp [unescape?, ih, hc]
    · next hc => simp [unescape?, ih, hc]

/-- What is read back has been escaped. -/
theorem escape_of_unescape? {escaped cs : List Char} (h : unescape? escaped = some cs) :
    escaped = escape cs := by
  fun_induction unescape? escaped generalizing cs with
  | case1 =>
    obtain rfl : [] = cs := by simpa using h
    rfl
  | case2 rest ih =>
    obtain ⟨body, hb, rfl⟩ := Option.map_eq_some_iff.mp h
    simp [escape, ← ih hb]
  | case3 => simp at h
  | case4 c rest _ hc ih =>
    obtain ⟨body, hb, rfl⟩ := Option.map_eq_some_iff.mp h
    simp [escape, hc, ← ih hb]

/-- Just the quoted name is read back as the name. -/
theorem unquote?_eq_some_iff {text name : String} :
    unquote? text = some name ↔ text = quote name := by
  constructor
  · intro h
    unfold unquote? at h
    split at h
    · simp at h
    · next first rest htext =>
      split at h
      · next hticks =>
        obtain ⟨rfl, hlast⟩ := hticks
        obtain ⟨cs, hcs, rfl⟩ := Option.map_eq_some_iff.mp h
        rw [← String.toList_inj, htext, quote, String.toList_ofList, String.toList_ofList,
          List.cons_append, ← escape_of_unescape? hcs, List.dropLast_append_getLast? _ hlast]
      · simp at h
  · rintro rfl
    simp [unquote?, quote, unescape?_escape]

/-- Different names are quoted differently. -/
theorem quote_injective : Function.Injective quote := fun _ _ h =>
  Option.some.inj ((unquote?_eq_some_iff.mpr rfl).symm.trans (unquote?_eq_some_iff.mpr h))

end Identifier

namespace Segment

open Identifier (quote escape unquote?)

variable {name rest : String}

/-- The reading of escaped characters stays between the backticks. -/
theorem Mode.after_escape (cs : List Char) (start byte : Nat) :
    (inside '\x60' start).after byte (escape cs) = inside '\x60' start := by
  induction cs generalizing byte with
  | nil => rfl
  | cons c cs ih =>
    unfold escape
    split
    · simp [after, next, ih]
    · next hc => simp [after, next, hasEscapes, hc, ih]

/-- A quoted name is cut off in one piece. -/
theorem scanCharacters_quote (name : String) {rest : List Char}
    (hr : ∀ c ∈ rest.head?, c ≠ '\x60') :
    scanCharacters ((quote name).toList ++ rest) =
      (sql (quote name) :: (scanCharacters rest).1, (scanCharacters rest).2) := by
  have hclosed := readLiteral_closed (readLiteral_escape name.toList) hr
  rw [List.nil_append] at hclosed
  rw [quote, String.toList_ofList, List.cons_append, List.cons_append,
    scanCharacters_literal (by decide) hclosed]

/-- What becomes of a quoted name in front of a text. -/
structure Contained (name rest : String) : Prop where
  /-- It is the first segment, and the others are those of the text. -/
  scans : ∀ segments, scan (quote name ++ rest) = .ok segments ↔
    ∃ others, scan rest = .ok others ∧ segments = sql (quote name) :: others
  /-- It hides no literal that the text leaves open. -/
  fails : ∀ byte, scan (quote name ++ rest) = .error (.execution (.unterminatedLiteral byte)) ↔
    ∃ start, scan rest = .error (.execution (.unterminatedLiteral start)) ∧
      byte = (quote name).utf8ByteSize + start
  /-- No placeholder is read out of it. -/
  placeholders : ∀ names, placeholders (quote name ++ rest) = .ok names ↔
    placeholders rest = .ok names
  /-- No character of the name ends it: behind any part of the name the reading is between the
  backticks still. -/
  inside : ∀ front back, name = front ++ back →
    Mode.ofText (String.ofList ('\x60' :: escape front.toList)) = .inside '\x60' 0
  /-- Its own last backtick ends it. -/
  closes : Mode.ofText (quote name) = .closing '\x60' 0
  /-- The name can be read back from it, and from no other text. -/
  unquotes : ∀ text, unquote? text = some name ↔ text = quote name
  /-- No other name is quoted like it. -/
  distinct : ∀ other, quote other = quote name → other = name

/-- A quoted name is contained, whatever characters it has. The text behind it must not begin with a
backtick, which would double the last one. -/
theorem quote_contained (name rest : String) (hr : ∀ c ∈ rest.toList.head?, c ≠ '\x60') :
    Contained name rest := by
  have hscan := scanCharacters_quote name hr
  rw [← String.toList_append] at hscan
  have hok : ∀ segments, scan (quote name ++ rest) = .ok segments ↔
      ∃ others, scan rest = .ok others ∧ segments = sql (quote name) :: others := by
    intro segments
    simp only [scan_eq_ok_iff, hscan, Prod.mk.injEq]
    constructor
    · rintro ⟨rfl, hrest⟩
      exact ⟨_, Prod.ext rfl hrest, rfl⟩
    · rintro ⟨others, hothers, rfl⟩
      rw [hothers]
      exact ⟨rfl, rfl⟩
  refine ⟨hok, fun byte => ?_, fun names => ?_, ?_, ?_,
    fun text => Identifier.unquote?_eq_some_iff, fun other h => Identifier.quote_injective h⟩
  · rcases hrest : (scanCharacters rest.toList).2 with _ | ⟨c, left⟩
    · have hscanned := scan_eq_ok_iff.mpr (Prod.ext rfl hrest)
      rw [hscanned, (hok _).mpr ⟨_, hscanned, rfl⟩]
      simp
    · have hall := charactersOf_scanCharacters rest.toList
      rw [hrest] at hall
      have hwhole : (quote name ++ rest).toList =
          ((quote name).toList ++ charactersOf (scanCharacters rest.toList).1) ++ c :: left := by
        rw [String.toList_append, List.append_assoc, hall]
      rw [scan_of_rest hrest hall.symm, scan_of_rest (by rw [hscan]; exact hrest) hwhole,
        String.ofList_append, String.utf8ByteSize_append, String.ofList_toList]
      simp [eq_comm]
  · unfold Segment.placeholders
    rcases hrest : scan rest with failure | others
    · rcases hquoted : scan (quote name ++ rest) with other | segments
      · simp [Except.map]
      · obtain ⟨others, hothers, -⟩ := (hok segments).mp hquoted
        simp [hothers] at hrest
    · have hnone : (sql (quote name) :: others).filterMap name? = others.filterMap name? :=
        List.filterMap_cons_none rfl
      rw [(hok _).mpr ⟨others, hrest, rfl⟩]
      simp [Except.map, hnone]
  · rintro front back rfl
    rw [Mode.ofText, String.toList_ofList]
    exact Mode.after_escape front.toList 0 _
  · rw [Mode.ofText, quote, String.toList_ofList]
    exact Mode.after_literal (readLiteral_escape name.toList) 0 _

/-- A name of backticks, quotes, a backslash and a mark, in front of a placeholder. -/
theorem quote_contained_odd :
    scan (quote "a``?x'\\" ++ " = ?x") =
        .ok [sql (quote "a``?x'\\"), sql " = ", placeholder "x"] ∧
      unquote? (quote "a``?x'\\") = some "a``?x'\\" := by
  have hc := quote_contained "a``?x'\\" " = ?x" (by simp)
  have hrest : scan " = ?x" = .ok [sql " = ", placeholder "x"] := by cbv
  exact ⟨(hc.scans _).mpr ⟨_, hrest, rfl⟩, (hc.unquotes _).mpr rfl⟩

end Segment

end AbstractSql
