import AbstractSql.Proofs.Segment.Pieces
import Mathlib.Data.Set.Insert

/-!
# Texts that differ in their names

Two texts are alike when they are read as the same characters with placeholders at the same places.
The pairs of names at these places are part of the relation. Whatever puts statements together from
pieces turns alike pieces into alike statements.
-/

namespace AbstractSql

open Segment

/-- Pairs of names that stand at the same places of two texts. -/
abbrev Marks := Set (String × String)

/-- What stands at one place of two texts. -/
inductive Glyph where
  /-- The same character in both. -/
  | character (c : Char)
  /-- A placeholder in both. -/
  | mark (names : String × String)

namespace Glyph

/-- What stands in the first text. -/
def left : Glyph → Token
  | character c => .character c
  | mark names => .mark names.1

/-- What stands in the second text. -/
def right : Glyph → Token
  | character c => .character c
  | mark names => .mark names.2

/-- A token at the same place of a text and itself. -/
def ofToken : Token → Glyph
  | .character c => character c
  | .mark name => mark (name, name)

@[simp] theorem left_ofToken (t : Token) : (ofToken t).left = t := by cases t <;> rfl

@[simp] theorem right_ofToken (t : Token) : (ofToken t).right = t := by cases t <;> rfl

/-- Whether a blank stands in both texts. -/
def isBlank : Glyph → Bool
  | character c => Text.isBlank c
  | mark _ => false

@[simp] theorem isBlank_left (g : Glyph) : g.left.isBlank = g.isBlank := by cases g <;> rfl

@[simp] theorem isBlank_right (g : Glyph) : g.right.isBlank = g.isBlank := by cases g <;> rfl

/-- Glyphs without the blanks at either end. -/
def trim (gs : List Glyph) : List Glyph := (gs.dropWhile isBlank).rdropWhile isBlank

/-- Trimming only drops blanks. -/
theorem mark_mem_trim {gs : List Glyph} {names : String × String} :
    mark names ∈ trim gs ↔ mark names ∈ gs := by
  have hd : ∀ l : List Glyph, mark names ∈ l.dropWhile isBlank ↔ mark names ∈ l := by
    intro l
    induction l with
    | nil => rfl
    | cons g l ih =>
      by_cases hg : g.isBlank = true
      · have hne : mark names ≠ g := by
          rintro rfl
          exact Bool.noConfusion hg
        rw [List.dropWhile_cons_of_pos hg, ih, List.mem_cons]
        simp only [hne, false_or]
      · rw [List.dropWhile_cons_of_neg hg]
  rw [trim, List.rdropWhile, List.mem_reverse, hd, List.mem_reverse, hd]

/-- Trimming two texts that are alike drops the same from both. -/
theorem map_trim {side : Glyph → Token} (hs : ∀ g, (side g).isBlank = g.isBlank)
    (gs : List Glyph) : (trim gs).map side = trimTokens (gs.map side) := by
  have hd : ∀ l : List Glyph, (l.dropWhile isBlank).map side =
      (l.map side).dropWhile Token.isBlank := by
    intro l
    rw [List.dropWhile_map]
    simp only [Function.comp_def, hs]
  rw [trim, trimTokens, List.rdropWhile, List.rdropWhile, List.map_reverse, hd, List.map_reverse, hd]

end Glyph

/-- Both texts are read as the same characters, with exactly the given pairs of names at the places
of placeholders. -/
def Alike (marks : Marks) (s t : String) : Prop :=
  ∃ gs : List Glyph, read s.toList = some (gs.map Glyph.left) ∧
    read t.toList = some (gs.map Glyph.right) ∧ {names | Glyph.mark names ∈ gs} = marks

/-- A text that delimits what stands in front of it. -/
abbrev Delimits (text : String) : Prop := Delimited text.toList

/-- A text that holds neither a literal nor a placeholder. -/
def Plain (text : String) : Prop := ∀ c ∈ text.toList, isPlain c = true

/-- Whether a text is plain is decided on its characters, not on all characters there are. -/
instance (text : String) : Decidable (Plain text) :=
  decidable_of_iff (text.toList.all isPlain = true) List.all_eq_true

namespace Alike

variable {marks others : Marks} {s s' t t' : String}

/-- The pairs of names can be written in another way. -/
theorem congr (h : Alike marks s t) (hm : marks = others) : Alike others s t := hm ▸ h

/-- A text that can be read is like itself. -/
theorem self {ts : List Token} (h : read s.toList = some ts) :
    Alike {names | names.1 = names.2 ∧ Token.mark names.1 ∈ ts} s s := by
  refine ⟨ts.map Glyph.ofToken, ?_, ?_, ?_⟩
  · simpa [Function.comp_def] using h
  · simpa [Function.comp_def] using h
  · ext ⟨left, right⟩
    simp only [Set.mem_ofPred_eq, List.mem_map]
    constructor
    · rintro ⟨t, ht, he⟩
      cases t with
      | character c => cases he
      | mark name =>
        cases he
        exact ⟨rfl, ht⟩
    · rintro ⟨rfl, ht⟩
      exact ⟨.mark left, ht, rfl⟩

/-- A text without placeholders is like itself. -/
theorem literal (h : read s.toList = some (s.toList.map Token.character)) : Alike ∅ s s := by
  refine (self h).congr ?_
  ext names
  simp

/-- Plain text is like itself. -/
theorem plain (h : Plain s) : Alike ∅ s s := by
  refine literal ?_
  have hr := read_plain_append h []
  rwa [List.append_nil, read_nil, Option.map_some, List.append_nil] at hr

/-- A quoted name is like itself. -/
theorem quote (name : String) : Alike ∅ (Identifier.quote name) (Identifier.quote name) :=
  literal (read_quoted name)

/-- Two placeholders are alike. -/
theorem placeholder {left right : String} (hl : left ≠ "") (hr : right ≠ "")
    (hcl : ∀ c ∈ left.toList, isNameCharacter c = true)
    (hcr : ∀ c ∈ right.toList, isNameCharacter c = true) :
    Alike {(left, right)} (Identifier.placeholder left) (Identifier.placeholder right) := by
  refine ⟨[.mark (left, right)], read_placeholder hl hcl, read_placeholder hr hcr, ?_⟩
  ext names
  simp

/-- Of two texts that are alike both delimit or none does. -/
theorem delimits (h : Alike marks s t) (hs : Delimits s) : Delimits t := by
  obtain ⟨gs, hl, hr, -⟩ := h
  rw [Delimits, ← characters_of_read hl] at hs
  rw [Delimits, ← characters_of_read hr]
  cases gs with
  | nil => exact hs
  | cons g gs => cases g <;> exact hs

/-- Alike texts go on with alike texts. -/
theorem append (h : Alike marks s s') (k : Alike others t t') (ht : Delimits t) :
    Alike (marks ∪ others) (s ++ t) (s' ++ t') := by
  have ht' := k.delimits ht
  obtain ⟨gs, hl, hr, rfl⟩ := h
  obtain ⟨ks, kl, kr, rfl⟩ := k
  refine ⟨gs ++ ks, ?_, ?_, ?_⟩
  · rw [String.toList_append, read_append ht (.inl (by rw [hl]; rfl)), hl, kl, List.map_append]
    rfl
  · rw [String.toList_append, read_append ht' (.inl (by rw [hr]; rfl)), hr, kr, List.map_append]
    rfl
  · ext names
    simp only [Set.mem_ofPred_eq, List.mem_append, Set.mem_union]

/-- Plain text goes on with any texts that are alike. -/
theorem plain_append (h : Plain s) (k : Alike marks t t') : Alike marks (s ++ t) (s ++ t') := by
  obtain ⟨ks, kl, kr, rfl⟩ := k
  refine ⟨s.toList.map .character ++ ks, ?_, ?_, ?_⟩
  · rw [String.toList_append, read_plain_append h, kl, List.map_append, List.map_map]
    rfl
  · rw [String.toList_append, read_plain_append h, kr, List.map_append, List.map_map]
    rfl
  · ext names
    simp

/-- Of two texts that are alike both are empty or none is. -/
theorem eq_empty_iff (h : Alike marks s t) : s = "" ↔ t = "" := by
  obtain ⟨gs, hl, hr, -⟩ := h
  have hs := @read_eq_nil s.toList
  have ht := @read_eq_nil t.toList
  rw [String.toList_eq_nil_iff, hl, Option.some.injEq, List.map_eq_nil_iff] at hs
  rw [String.toList_eq_nil_iff, hr, Option.some.injEq, List.map_eq_nil_iff] at ht
  exact hs.symm.trans ht

/-- An empty text has no placeholders. -/
theorem marks_eq_empty (h : Alike marks "" t) : marks = ∅ := by
  obtain ⟨gs, hl, -, rfl⟩ := h
  have hg : gs.map Glyph.left = [] := by
    have hn : read "".toList = some [] := read_nil
    exact Option.some.inj (hl.symm.trans hn)
  rw [List.map_eq_nil_iff] at hg
  ext names
  simp [hg]

/-- Trimming keeps texts alike. -/
theorem trim (h : Alike marks s t) : Alike marks (Text.trim s) (Text.trim t) := by
  obtain ⟨gs, hl, hr, rfl⟩ := h
  refine ⟨Glyph.trim gs, ?_, ?_, ?_⟩
  · rw [Text.trim, String.toList_ofList, Glyph.map_trim Glyph.isBlank_left]
    exact read_trimCharacters hl
  · rw [Text.trim, String.toList_ofList, Glyph.map_trim Glyph.isBlank_right]
    exact read_trimCharacters hr
  · ext names
    exact Glyph.mark_mem_trim

/-- Two empty texts are alike. -/
theorem empty : Alike ∅ "" "" := plain (by decide)

end Alike

/-- Texts that are alike one by one. -/
inductive AlikeAll : Marks → List String → List String → Prop where
  /-- No texts. -/
  | nil : AlikeAll ∅ [] []
  /-- The first texts are alike, and so are the others. -/
  | cons {marks others : Marks} {s t : String} {ss ts : List String} (first : Alike marks s t)
      (rest : AlikeAll others ss ts) : AlikeAll (marks ∪ others) (s :: ss) (t :: ts)

namespace AlikeAll

variable {marks others : Marks} {ss ss' ts ts' : List String}

/-- The pairs of names can be written in another way. -/
theorem congr (h : AlikeAll marks ss ts) (hm : marks = others) : AlikeAll others ss ts := hm ▸ h

/-- One text each. -/
theorem single {s t : String} (h : Alike marks s t) : AlikeAll marks [s] [t] :=
  (cons h nil).congr (Set.union_empty marks)

/-- Alike lists followed by alike lists. -/
theorem append (h : AlikeAll marks ss ss') (k : AlikeAll others ts ts') :
    AlikeAll (marks ∪ others) (ss ++ ts) (ss' ++ ts') := by
  induction h with
  | nil => exact k.congr (Set.empty_union others).symm
  | cons first _ ih => exact (cons first ih).congr (Set.union_assoc _ _ _).symm

/-- Both lists are empty or none is. -/
theorem eq_nil_iff (h : AlikeAll marks ss ts) : ss = [] ↔ ts = [] := by
  cases h <;> simp

/-- No texts have no placeholders. -/
theorem marks_eq_empty (h : AlikeAll marks [] ts) : marks = ∅ := by
  cases h
  rfl

/-- Texts joined by a plain separator that delimits. -/
theorem intercalate {separator : String} (hp : Plain separator) (hd : Delimits separator)
    (hne : separator ≠ "") (h : AlikeAll marks ss ts) :
    Alike marks (String.intercalate separator ss) (String.intercalate separator ts) := by
  induction h with
  | nil => exact Alike.empty
  | @cons marks others s t ss ts first rest ih =>
    cases rest with
    | nil => exact first.congr (Set.union_empty _).symm
    | cons second rest =>
      rw [String.intercalate_cons_cons, String.intercalate_cons_cons, String.append_assoc,
        String.append_assoc]
      refine first.append (.plain_append hp ih) ?_
      rw [Delimits, String.toList_append]
      cases hs : separator.toList with
      | nil => exact absurd (String.toList_eq_nil_iff.mp hs) hne
      | cons c cs =>
        rw [Delimits, hs] at hd
        exact hd

/-- Parts put together, where what is blank in one statement is blank in the other. -/
theorem joinParts (h : AlikeAll marks ss ts) :
    Alike marks (Text.joinParts ss) (Text.joinParts ts) := by
  have hf : AlikeAll marks ((ss.map Text.trim).filter fun part => part != "")
      ((ts.map Text.trim).filter fun part => part != "") := by
    induction h with
    | nil => exact .nil
    | @cons marks others s t ss ts first rest ih =>
      rw [List.map_cons, List.map_cons]
      by_cases hs : Text.trim s = ""
      · have ht : Text.trim t = "" := first.trim.eq_empty_iff.mp hs
        have hm : marks = ∅ := (hs ▸ first.trim).marks_eq_empty
        rw [List.filter_cons_of_neg (by simp [hs]), List.filter_cons_of_neg (by simp [ht])]
        exact ih.congr (by rw [hm, Set.empty_union])
      · have ht : Text.trim t ≠ "" := fun he => hs (first.trim.eq_empty_iff.mpr he)
        rw [List.filter_cons_of_pos (by simp [hs]), List.filter_cons_of_pos (by simp [ht])]
        exact .cons first.trim ih
  have hblank : Delimits " " := by
    have hs : " ".toList = [' '] := by decide
    rw [Delimits, hs]
    exact delimited_cons (by decide) (by decide) []
  exact hf.intercalate (by decide) hblank (by decide)

end AlikeAll

end AbstractSql
