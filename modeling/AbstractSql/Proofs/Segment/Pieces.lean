import AbstractSql.Binding
import AbstractSql.Identifier
import AbstractSql.Proofs.Segment.Reading
import AbstractSql.Text.Parts
import Mathlib.Data.List.DropRight

/-!
# Reading the pieces of a statement

How the pieces that statements are put together from are read: trimmed texts, quoted names,
placeholders and numbers. At the end, what binding makes of a text that has been read.
-/

namespace AbstractSql.Segment

open Text (isBlank trimCharacters)

/-- A blank neither prolongs a name nor starts a literal or a placeholder. -/
theorem isBlank_plain {c : Char} (h : isBlank c = true) :
    isNameCharacter c = false ∧ isPlain c = true := by
  let blanks : List Nat := [0x09, 0x0A, 0x0B, 0x0C, 0x0D, 0x20, 0x85, 0xA0, 0x1680, 0x2000, 0x2001,
    0x2002, 0x2003, 0x2004, 0x2005, 0x2006, 0x2007, 0x2008, 0x2009, 0x200A, 0x2028, 0x2029, 0x202F,
    0x205F, 0x3000]
  have hall : ∀ code ∈ blanks,
      isNameCharacter (Char.ofNat code) = false ∧ isPlain (Char.ofNat code) = true := by
    decide +kernel
  have hm : c.toNat ∈ blanks := by
    simp only [isBlank, Bool.or_eq_true, Bool.and_eq_true, decide_eq_true_eq, beq_iff_eq] at h
    simp only [blanks, List.mem_cons, List.not_mem_nil, or_false]
    omega
  have hc := hall c.toNat hm
  rwa [Char.ofNat_toNat] at hc

/-- Characters that prolong no name and open no literal delimit what stands in front of them. -/
theorem delimited_cons {c : Char} (hn : isNameCharacter c = false) (hq : isQuote c = false)
    (rest : List Char) : Delimited (c :: rest) := by
  rintro d hd
  obtain rfl : c = d := by simpa using hd
  exact ⟨hn, hq⟩

/-- Whether a token is a blank character. -/
def Token.isBlank : Token → Bool
  | .character c => Text.isBlank c
  | .mark _ => false

/-- A blank token at the front comes from a blank at the front. -/
theorem read_dropWhile {cs : List Char} {ts : List Token} (h : read cs = some ts) :
    read (cs.dropWhile isBlank) = some (ts.dropWhile Token.isBlank) := by
  induction cs generalizing ts with
  | nil =>
    obtain rfl : [] = ts := by simpa using h
    exact read_nil
  | cons c cs ih =>
    by_cases hc : isBlank c = true
    · rw [read_plain (isBlank_plain hc).2] at h
      obtain ⟨tail, ht, rfl⟩ := Option.map_eq_some_iff.mp h
      have hb : Token.isBlank (.character c) = true := hc
      rw [List.dropWhile_cons_of_pos hc, List.dropWhile_cons_of_pos hb]
      exact ih ht
    · rw [List.dropWhile_cons_of_neg hc, h]
      cases ts with
      | nil => rfl
      | cons t ts =>
        have ht : ¬ t.isBlank = true := by
          intro hb
          have hs := characters_of_read h
          cases t with
          | mark name => exact Bool.noConfusion hb
          | character d =>
            obtain rfl : d = c := (List.cons.inj hs).1
            exact hc hb
        rw [List.dropWhile_cons_of_neg ht]

/-- A blank token at the end comes from a blank at the end. -/
theorem read_rdropWhile {cs : List Char} {ts : List Token} (h : read cs = some ts) :
    read (cs.rdropWhile isBlank) = some (ts.rdropWhile Token.isBlank) := by
  induction cs using List.reverseRecOn generalizing ts with
  | nil =>
    obtain rfl : [] = ts := by simpa using h
    exact read_nil
  | append_singleton cs c ih =>
    by_cases hc : isBlank c = true
    · obtain ⟨hn, hp⟩ := isBlank_plain hc
      have hq : isQuote c = false := by
        simp only [isPlain, Bool.not_eq_true', Bool.or_eq_false_iff] at hp
        exact hp.1
      rw [read_append (delimited_cons hn hq []) (.inr (by simpa using hq)), read_plain hp,
        read_nil] at h
      obtain ⟨init, hi, ht⟩ := Option.bind_eq_some_iff.mp h
      obtain rfl : init ++ [.character c] = ts := by simpa using ht
      have hb : Token.isBlank (.character c) = true := hc
      rw [List.rdropWhile_concat_pos _ _ _ hc, List.rdropWhile_concat_pos _ _ _ hb]
      exact ih hi
    · rw [List.rdropWhile_concat_neg _ _ _ hc, h]
      have hs : ts.rdropWhile Token.isBlank = ts := by
        rw [List.rdropWhile_eq_self_iff]
        intro hne hb
        have hl := characters_of_read h
        rw [← List.dropLast_append_getLast hne, List.flatMap_append] at hl
        generalize ts.getLast hne = t at hb hl
        cases t with
        | mark name => exact Bool.noConfusion hb
        | character d =>
          have hd := (List.append_inj' hl (by simp [Token.characters])).2
          obtain rfl : d = c := by simpa [Token.characters] using hd
          exact hc hb
      rw [hs]

/-- Tokens without the blank characters at either end. -/
def trimTokens (ts : List Token) : List Token :=
  (ts.dropWhile Token.isBlank).rdropWhile Token.isBlank

/-- Trimming takes blank tokens off the ends and changes no other. -/
theorem read_trimCharacters {cs : List Char} {ts : List Token} (h : read cs = some ts) :
    read (trimCharacters cs) = some (trimTokens ts) :=
  read_rdropWhile (read_dropWhile h)

/-- A name whose backticks are doubled is closed by the next backtick. -/
theorem readLiteral_escape (cs : List Char) :
    readLiteral '\x60' (Identifier.escape cs ++ ['\x60']) =
      some (Identifier.escape cs ++ ['\x60'], []) := by
  induction cs with
  | nil => rfl
  | cons c cs ih =>
    unfold Identifier.escape
    by_cases hc : c = '\x60'
    · simp [hc, readLiteral, ih]
    · rw [if_neg hc, List.cons_append]
      rcases ht : Identifier.escape cs ++ ['\x60'] with _ | ⟨d, tail⟩
      · simp at ht
      · rw [ht] at ih
        simp [readLiteral, hc, hasEscapes, ih]

/-- A quoted name is literal, whatever it holds. -/
theorem read_quoted (name : String) :
    read (Identifier.quote name).toList =
      some ((Identifier.quote name).toList.map Token.character) := by
  rw [Identifier.quote, String.toList_ofList, List.cons_append, read_quote (by decide),
    readLiteral_escape]
  simp

/-- The digits of a number are characters of names. -/
theorem isNameCharacter_digits (n : Nat) :
    ∀ c ∈ (toString n).toList, isNameCharacter c = true := by
  intro c hc
  rw [Nat.toString_eq_ofList_toDigits, String.toList_ofList] at hc
  have hd := Nat.isDigit_of_mem_toDigits (by decide) (by decide) hc
  have hl : c.toNat < 128 := by
    simp only [Char.isDigit, Bool.and_eq_true, decide_eq_true_eq] at hd
    have h57 : c.toNat ≤ 57 := hd.2
    omega
  simp [isNameCharacter, Text.isAlphanumeric, hl, Char.isAlphanum, hd]

/-- A placeholder is read as one, when its name has only characters of names. -/
theorem read_placeholder {name : String} (hne : name ≠ "")
    (hall : ∀ c ∈ name.toList, isNameCharacter c = true) :
    read (Identifier.placeholder name).toList = some [.mark name] := by
  have hn : name.toList ≠ [] := fun he => hne (String.toList_eq_nil_iff.mp he)
  have hm := @read_mark name.toList [] hn hall (by simp)
  rw [List.append_nil, read_nil, String.ofList_toList] at hm
  rw [Identifier.placeholder, String.toList_append]
  exact hm

/-- A scanned text has been read to its end. -/
theorem scan_of_read {text : String} {ts : List Token} (h : read text.toList = some ts) :
    ∃ segments, scan text = .ok segments ∧ segments.flatMap tokens = ts := by
  unfold read at h
  unfold scan
  rcases hs : scanCharacters text.toList with ⟨segments, _ | ⟨c, rest⟩⟩
  · rw [hs] at h
    exact ⟨segments, rfl, Option.some.inj h⟩
  · rw [hs] at h
    exact absurd h (by simp [finish])

/-- The placeholder that a token is. -/
def Token.name? : Token → Option String
  | .character _ => none
  | .mark name => some name

/-- The placeholders of a text are those it is read with. -/
theorem placeholders_of_read {text : String} {ts : List Token} (h : read text.toList = some ts) :
    placeholders text = .ok (ts.filterMap Token.name?) := by
  obtain ⟨segments, hs, rfl⟩ := scan_of_read h
  rw [placeholders, hs]
  have hf : ∀ segments : List Segment,
      segments.filterMap name? = (segments.flatMap tokens).filterMap Token.name? := by
    intro segments
    induction segments with
    | nil => rfl
    | cons segment rest ih =>
      rw [List.flatMap_cons, List.filterMap_append, ← ih]
      cases segment with
      | sql text =>
        have ht : (tokens (sql text)).filterMap Token.name? = [] := by
          simp [tokens, List.filterMap_map, Function.comp_def, Token.name?]
        rw [ht, List.nil_append]
        exact List.filterMap_cons_none rfl
      | placeholder name => rfl
  exact congrArg Except.ok (hf segments)

/-- A text whose placeholders are known has been read to its end. -/
theorem read_of_placeholders {text : String} {names : List String}
    (h : placeholders text = .ok names) :
    ∃ ts, read text.toList = some ts ∧ ts.filterMap Token.name? = names := by
  unfold placeholders scan at h
  rcases hs : scanCharacters text.toList with ⟨segments, _ | ⟨c, rest⟩⟩
  · have hr : read text.toList = some (segments.flatMap tokens) := by
      unfold read
      rw [hs]
      rfl
    rw [hs] at h
    have hp := placeholders_of_read hr
    unfold placeholders scan at hp
    rw [hs] at hp
    exact ⟨_, hr, Except.ok.inj (hp.symm.trans h)⟩
  · rw [hs] at h
    exact absurd h (by simp [Except.map])

/-- The placeholders of tokens are the names of their marks. -/
theorem mem_filterMap_name {ts : List Token} {name : String} :
    name ∈ ts.filterMap Token.name? ↔ Token.mark name ∈ ts := by
  rw [List.mem_filterMap]
  constructor
  · rintro ⟨t, ht, hn⟩
    cases t with
    | character c => exact absurd hn (by simp [Token.name?])
    | mark other =>
      obtain rfl : other = name := Option.some.inj hn
      exact ht
  · intro ht
    exact ⟨_, ht, rfl⟩

end AbstractSql.Segment
