import AbstractSql.Proofs.Segment.Reading

/-!
# The grammar as ordered alternatives

The grammar of statements put together from readers: one of several alternatives is taken in order,
and an alternative is repeated as long as it can be read, without going back. A repetition fails
when what it repeats passes over nothing. This never happens here, and the segments that the
alternatives cut off are those of the scanner.
-/

namespace AbstractSql.Segment.Grammar

/-- Reads a value off the front of a text and returns it with what follows, or fails. -/
abbrev Reader (α : Type) := List Char → Option (α × List Char)

variable {α β : Type}

/-- Any character. -/
def anyCharacter : Reader Char
  | [] => none
  | c :: rest => some (c, rest)

/-- One character. -/
def character (expected : Char) : Reader Char
  | [] => none
  | c :: rest => if c = expected then some (c, rest) else none

/-- One text. -/
def tag (expected : List Char) : Reader (List Char) := fun cs =>
  if expected.isPrefixOf cs then some (expected, cs.drop expected.length) else none

/-- All the characters of a kind at the front, at least one. -/
def oneOrMore (kind : Char → Bool) : Reader (List Char) := fun cs =>
  if (cs.takeWhile kind).isEmpty then none else some (cs.takeWhile kind, cs.dropWhile kind)

/-- All characters up to one of the given, at least one. -/
def noneOf (stops : List Char) : Reader (List Char) := oneOrMore fun c => !stops.contains c

/-- The value of a reader, changed. -/
def map (f : α → β) (reader : Reader α) : Reader β := fun cs =>
  (reader cs).map fun read => (f read.1, read.2)

/-- Two readers in a row. -/
def pair (first : Reader α) (second : Reader β) : Reader (α × β) := fun cs =>
  (first cs).bind fun read => (second read.2).map fun next => ((read.1, next.1), next.2)

/-- Two readers in a row, of which the second gives the value. -/
def preceded (first : Reader α) (second : Reader β) : Reader β := map Prod.snd (pair first second)

/-- What a reader passes over. -/
def recognize (reader : Reader α) : Reader (List Char) := fun cs =>
  (reader cs).map fun read => (cs.take (cs.length - read.2.length), read.2)

/-- The first reader that does not fail. -/
def alternatives : List (Reader α) → Reader α
  | [], _ => none
  | reader :: readers, cs => (reader cs).or (alternatives readers cs)

/-- A reader again and again until it fails. The repetition itself fails when the reader does not
and passes over nothing. -/
def many (reader : Reader α) (cs : List Char) : Option (List α × List Char) :=
  match reader cs with
  | none => some ([], cs)
  | some (a, rest) =>
    if rest.length < cs.length then (many reader rest).map fun read => (a :: read.1, read.2)
    else none
termination_by cs.length

/-- How often a reader goes on until it fails. -/
def manyCount (reader : Reader α) : Reader Nat := map List.length (many reader)

/-- A backslash with the next character. -/
def escape : Reader (List Char) := recognize (pair (character '\\') anyCharacter)

/-- A part of a literal: the quote twice, a backslash with the next character where there are
escapes, or characters in between. -/
def part (quote : Char) : Reader (List Char) :=
  if hasEscapes quote then
    alternatives [tag [quote, quote], escape, noneOf [quote, '\\']]
  else alternatives [tag [quote, quote], noneOf [quote]]

/-- A literal with its quotes. -/
def literal (quote : Char) : Reader (List Char) :=
  recognize (pair (character quote) (pair (manyCount (part quote)) (character quote)))

/-- A placeholder, without its mark. -/
def named : Reader (List Char) := preceded (character '?') (oneOrMore isNameCharacter)

/-- A text that is no placeholder: a literal, characters outside of literals or a mark alone. -/
def unnamed : Reader (List Char) :=
  alternatives
    [literal '\x27', literal '\x22', literal '\x60', noneOf ['\x27', '\x22', '\x60', '?'],
      recognize (character '?')]

/-- A segment. -/
def segment : Reader Segment :=
  alternatives
    [map (fun name => placeholder (String.ofList name)) named,
      map (fun text => sql (String.ofList text)) unnamed]

/-- No quote is a backslash. -/
theorem ne_backslash {quote : Char} (h : isQuote quote = true) : quote ≠ '\\' := by
  rintro rfl
  exact absurd h (by decide)

/-- Whether a character stands for itself in a literal. -/
def isBetween (quote : Char) (c : Char) : Bool := c != quote && !(hasEscapes quote && c == '\\')

theorem isBetween_iff {quote c : Char} :
    isBetween quote c = true ↔ c ≠ quote ∧ (hasEscapes quote && c == '\\') = false := by
  simp only [isBetween, Bool.and_eq_true, bne_iff_ne, Bool.not_eq_true']

section

variable {quote c : Char} {cs run rest : List Char}

/-- What is passed over by a reader that leaves the rest. -/
theorem recognize_eq (run : List Char) {reader : Reader α} {a : α} (h : reader (run ++ rest) = some (a, rest)) :
    recognize reader (run ++ rest) = some (run, rest) := by
  simp [recognize, h]

/-- A kind of characters is read as far as it goes. -/
theorem oneOrMore_cons {kind : Char → Bool} (h : kind c = true) :
    oneOrMore kind (c :: cs) = some (c :: cs.takeWhile kind, cs.dropWhile kind) := by
  simp [oneOrMore, h]

/-- A kind of characters is not read from another. -/
theorem oneOrMore_eq_none {kind : Char → Bool} (h : ∀ c ∈ cs.head?, kind c = false) :
    oneOrMore kind cs = none := by
  cases cs with
  | nil => rfl
  | cons c cs => simp [oneOrMore, h c rfl]

/-- The parts of a literal, with the backslash as part of one alternative. -/
theorem part_eq (quote : Char) (cs : List Char) :
    part quote cs = (tag [quote, quote] cs).or
      ((if hasEscapes quote then escape cs else none).or (oneOrMore (isBetween quote) cs)) := by
  cases he : hasEscapes quote with
  | true =>
    have hkind : (fun c => ! [quote, '\\'].contains c) = isBetween quote := by
      funext c
      rw [Bool.eq_iff_iff]
      simp [isBetween, he]
    rw [part, if_pos he, alternatives, alternatives, alternatives, alternatives, Option.or_none,
      if_pos rfl, noneOf, hkind]
  | false =>
    have hkind : (fun c => ! [quote].contains c) = isBetween quote := by
      funext c
      rw [Bool.eq_iff_iff]
      simp [isBetween, he]
    rw [part, if_neg (by simp [he]), alternatives, alternatives, alternatives, Option.or_none,
      if_neg (by simp), Option.none_or, noneOf, hkind]

/-- The quote twice. -/
theorem part_double (quote : Char) (rest : List Char) :
    part quote (quote :: quote :: rest) = some ([quote, quote], rest) := by
  simp [part_eq, tag]

/-- The quote once is no part of the literal. -/
theorem part_quote (hq : isQuote quote = true) (h : ∀ c ∈ cs.head?, c ≠ quote) :
    part quote (quote :: cs) = none := by
  have htag : tag [quote, quote] (quote :: cs) = none := by
    cases cs with
    | nil => simp [tag]
    | cons c cs => simp [tag, Ne.symm (h c rfl)]
  have hescape : escape (quote :: cs) = none := by
    simp [escape, recognize, pair, character, ne_backslash hq]
  rw [part_eq, htag, hescape, oneOrMore_eq_none (by simp [isBetween])]
  simp

/-- A backslash with the next character. -/
theorem part_escape (he : hasEscapes quote = true) (hq : quote ≠ '\\') (c : Char)
    (rest : List Char) : part quote ('\\' :: c :: rest) = some (['\\', c], rest) := by
  have htag : tag [quote, quote] ('\\' :: c :: rest) = none := by simp [tag, hq]
  have hescape : escape ('\\' :: c :: rest) = some (['\\', c], rest) :=
    recognize_eq ['\\', c] rfl
  rw [part_eq, htag, if_pos he, hescape]
  rfl

/-- A backslash at the end is no part of the literal. -/
theorem part_backslash (he : hasEscapes quote = true) (hq : quote ≠ '\\') :
    part quote ['\\'] = none := by
  simp [part_eq, tag, hq, he, escape, recognize, pair, character, anyCharacter, oneOrMore,
    isBetween]

/-- Characters in between are one part. -/
theorem part_between (h : isBetween quote c = true) :
    part quote (c :: cs) =
      some (c :: cs.takeWhile (isBetween quote), cs.dropWhile (isBetween quote)) := by
  obtain ⟨hc, he⟩ := isBetween_iff.mp h
  have htag : tag [quote, quote] (c :: cs) = none := by simp [tag, Ne.symm hc]
  have hescape : (if hasEscapes quote then escape (c :: cs) else none) = none := by
    simp only [Bool.and_eq_false_iff, beq_eq_false_iff_ne] at he
    rcases he with he | he
    · simp [he]
    · simp [escape, recognize, pair, character, he]
  rw [part_eq, htag, hescape, oneOrMore_cons h]
  rfl

/-- Characters in between belong to the literal. -/
theorem readLiteral_between (h : ∀ c ∈ run, isBetween quote c = true) :
    readLiteral quote (run ++ rest) =
      (readLiteral quote rest).map fun read => (run ++ read.1, read.2) := by
  induction run with
  | nil => simp
  | cons c run ih =>
    obtain ⟨hc, he⟩ := isBetween_iff.mp (h c List.mem_cons_self)
    have hcons : readLiteral quote (c :: (run ++ rest)) =
        (readLiteral quote (run ++ rest)).map fun read => (c :: read.1, read.2) := by
      cases run ++ rest with
      | nil => simp [readLiteral, hc]
      | cons d cs => rw [readLiteral, if_neg hc, if_neg (by simp [he])]
    rw [List.cons_append, hcons, ih fun d hd => h d (List.mem_cons_of_mem c hd), Option.map_map]
    rfl

/-- A part of a literal belongs to it. Where no part can be read, the quote closes the literal or it
is never closed. -/
theorem readLiteral_part (hq : isQuote quote = true) (cs : List Char) :
    match part quote cs with
    | none => readLiteral quote cs = (character quote cs).map fun read => ([quote], read.2)
    | some (run, rest) => run ≠ [] ∧ run ++ rest = cs ∧
        readLiteral quote cs = (readLiteral quote rest).map fun read => (run ++ read.1, read.2) := by
  cases cs with
  | nil =>
    have hnone : part quote [] = none := by
      simp [part_eq, tag, escape, recognize, pair, character, oneOrMore]
    rw [hnone]
    rfl
  | cons c tail =>
    by_cases hc : c = quote
    · subst hc
      cases tail with
      | nil =>
        rw [part_quote hq (by simp)]
        simp [readLiteral, character]
      | cons d tail =>
        by_cases hd : d = c
        · subst hd
          rw [part_double]
          exact ⟨by simp, rfl, by simp [readLiteral]⟩
        · rw [part_quote hq (by simpa using hd)]
          simp [readLiteral, character, hd]
    · cases hb : isBetween quote c with
      | true =>
        have hrun : ∀ d ∈ c :: tail.takeWhile (isBetween quote), isBetween quote d = true := by
          intro d hd
          rcases List.mem_cons.mp hd with rfl | hd
          · exact hb
          · exact List.all_eq_true.mp List.all_takeWhile d hd
        have hall : c :: tail.takeWhile (isBetween quote) ++ tail.dropWhile (isBetween quote) =
            c :: tail := by
          rw [List.cons_append, List.takeWhile_append_dropWhile]
        rw [part_between hb]
        exact ⟨List.cons_ne_nil _ _, hall, hall ▸ readLiteral_between hrun⟩
      | false =>
        obtain ⟨he, rfl⟩ : hasEscapes quote = true ∧ c = '\\' := by simpa [isBetween, hc] using hb
        have hne := ne_backslash hq
        cases tail with
        | nil =>
          rw [part_backslash he hne]
          simp [readLiteral, character, hc]
        | cons d tail =>
          rw [part_escape he hne]
          exact ⟨by simp, rfl, by simp [readLiteral, hc, he]⟩

/-- The parts of a literal are read up to the quote that closes it. -/
theorem many_part (hq : isQuote quote = true) (cs : List Char) :
    ∃ parts run rest, many (part quote) cs = some (parts, rest) ∧ run ++ rest = cs ∧
      readLiteral quote cs =
        (character quote rest).map fun read => (run ++ [quote], read.2) := by
  have hpart := readLiteral_part hq cs
  rw [many]
  cases hp : part quote cs with
  | none =>
    rw [hp] at hpart
    exact ⟨[], [], cs, rfl, rfl, hpart⟩
  | some read =>
    obtain ⟨run, rest⟩ := read
    rw [hp] at hpart
    obtain ⟨hne, rfl, hl⟩ := hpart
    have hlen : rest.length < (run ++ rest).length := by
      simpa using List.length_pos_iff.mpr hne
    obtain ⟨parts, more, after, hm, rfl, hr⟩ := many_part hq rest
    refine ⟨run :: parts, run ++ more, after, ?_, List.append_assoc _ _ _, ?_⟩
    · simp only [if_pos hlen, hm, Option.map_some]
    · rw [hl, hr, Option.map_map]
      simp [Function.comp_def]
termination_by cs.length

/-- A literal is read up to its closing quote, and not at all when it has none. -/
theorem literal_eq (hq : isQuote quote = true) (cs : List Char) :
    literal quote (quote :: cs) =
      (readLiteral quote cs).map fun read => (quote :: read.1, read.2) := by
  obtain ⟨parts, run, rest, hm, rfl, hl⟩ := many_part hq cs
  have hquote : character quote (quote :: (run ++ rest)) = some (quote, run ++ rest) := if_pos rfl
  have hpair : pair (character quote) (pair (manyCount (part quote)) (character quote))
      (quote :: (run ++ rest)) =
        (character quote rest).map fun read => ((quote, parts.length, read.1), read.2) := by
    simp only [pair, manyCount, map, hquote, hm, Option.map_some, Option.bind_some, Option.map_map,
      Function.comp_def]
  rw [hl, literal]
  cases hc : character quote rest with
  | none => simp [recognize, hpair, hc]
  | some read =>
    obtain ⟨c, after⟩ := read
    obtain ⟨rfl, rfl⟩ : c = quote ∧ rest = c :: after := by
      cases rest with
      | nil => cases hc
      | cons d rest =>
        obtain ⟨rfl, rfl, rfl⟩ : d = quote ∧ d = c ∧ rest = after := by
          simpa [character] using hc
        exact ⟨rfl, rfl⟩
    have hsplit : c :: (run ++ c :: after) = (c :: run ++ [c]) ++ after := by simp
    rw [hc, hsplit] at hpair
    rw [hsplit, recognize_eq _ hpair]
    rfl

/-- A literal does not begin with another character. -/
theorem literal_eq_none (hc : c ≠ quote) (cs : List Char) : literal quote (c :: cs) = none := by
  simp [literal, recognize, pair, character, hc]

/-- The characters outside of literals and placeholders are the plain ones. -/
theorem noneOf_eq : noneOf ['\x27', '\x22', '\x60', '?'] = oneOrMore isPlain := by
  rw [noneOf]
  congr 1
  funext c
  rw [Bool.eq_iff_iff]
  simp [isPlain, isQuote, and_assoc]

/-- A mark alone is a text. -/
theorem unnamed_question (cs : List Char) : unnamed ('?' :: cs) = some (['?'], cs) := by
  have hmark : recognize (character '?') ('?' :: cs) = some (['?'], cs) :=
    recognize_eq ['?'] rfl
  have hplain : oneOrMore isPlain ('?' :: cs) = none :=
    oneOrMore_eq_none (by simp [isPlain])
  simp [unnamed, alternatives, literal_eq_none, noneOf_eq, hplain, hmark]

/-- What begins with a quote is read as a literal or not at all. -/
theorem unnamed_quote (hq : isQuote c = true) (cs : List Char) :
    unnamed (c :: cs) = literal c (c :: cs) := by
  have hmark : recognize (character '?') (c :: cs) = none := by
    simp [recognize, character, ne_question hq]
  have hplain : oneOrMore isPlain (c :: cs) = none := oneOrMore_eq_none (by simp [isPlain, hq])
  have hc : (c = '\x27' ∨ c = '\x22') ∨ c = '\x60' := by simpa [isQuote] using hq
  rcases hc with (rfl | rfl) | rfl <;>
    simp [unnamed, alternatives, literal_eq_none, noneOf_eq, hplain, hmark]

/-- Plain characters are read as far as they go. -/
theorem unnamed_plain (hp : isPlain c = true) (cs : List Char) :
    unnamed (c :: cs) = some (c :: cs.takeWhile isPlain, cs.dropWhile isPlain) := by
  have hliteral : ∀ quote, isQuote quote = true → literal quote (c :: cs) = none := by
    intro quote hquote
    refine literal_eq_none ?_ cs
    rintro rfl
    exact Bool.noConfusion ((isPlain_iff.mp hp).2.symm.trans hquote)
  rw [unnamed, alternatives, hliteral _ (by decide), alternatives, hliteral _ (by decide),
    alternatives, hliteral _ (by decide), alternatives, noneOf_eq, oneOrMore_cons hp]
  rfl

/-- The alternatives cut off the front of a text what the scanner cuts off, and never nothing. -/
theorem scanCharacters_segment (c : Char) (cs : List Char) :
    match segment (c :: cs) with
    | none => scanCharacters (c :: cs) = ([], c :: cs)
    | some (first, rest) => rest.length ≤ cs.length ∧
        scanCharacters (c :: cs) =
          (first :: (scanCharacters rest).1, (scanCharacters rest).2) := by
  have hsegment : segment (c :: cs) =
      ((named (c :: cs)).map fun read => (placeholder (String.ofList read.1), read.2)).or
        ((unnamed (c :: cs)).map fun read => (sql (String.ofList read.1), read.2)) := by
    simp [segment, alternatives, map]
  have hdrop : ∀ kind, (cs.dropWhile kind).length ≤ cs.length := fun kind =>
    (List.dropWhile_suffix kind).sublist.length_le
  by_cases hm : c = '?'
  · subst hm
    have hnamed : named ('?' :: cs) = oneOrMore isNameCharacter cs := by
      simp [named, preceded, map, pair, character, Function.comp_def]
    rw [hsegment, hnamed, unnamed_question, oneOrMore, scanCharacters, if_pos rfl]
    cases hname : (cs.takeWhile isNameCharacter).isEmpty with
    | true => exact ⟨Nat.le_refl _, by simp only [hname, if_true]⟩
    | false =>
      exact ⟨hdrop isNameCharacter, by simp only [hname, Bool.false_eq_true, if_false]⟩
  · have hnamed : named (c :: cs) = none := by simp [named, preceded, map, pair, character, hm]
    rw [hsegment, hnamed, Option.map_none, Option.none_or]
    cases hq : isQuote c with
    | true =>
      rw [unnamed_quote hq, literal_eq hq]
      cases hl : readLiteral c cs with
      | none => exact scanCharacters_open hq hl
      | some read => exact ⟨length_rest_le hl, scanCharacters_literal hq hl⟩
    | false =>
      have hp : isPlain c = true := isPlain_iff.mpr ⟨hm, hq⟩
      rw [unnamed_plain hp]
      exact ⟨hdrop isPlain, scanCharacters_run hp⟩

/-- The alternatives repeated as long as they can be read give the segments of the scanner, and
leave over what it leaves over. The repetition never fails. -/
theorem many_segment (cs : List Char) : many segment cs = some (scanCharacters cs) := by
  rw [many]
  cases cs with
  | nil =>
    have hnone : segment [] = none := by decide
    rw [hnone, scanCharacters]
  | cons c cs =>
    have hcut := scanCharacters_segment c cs
    cases hs : segment (c :: cs) with
    | none =>
      rw [hs] at hcut
      exact congrArg some hcut.symm
    | some read =>
      obtain ⟨first, rest⟩ := read
      rw [hs] at hcut
      obtain ⟨hlen, hcut⟩ := hcut
      have hshort : rest.length < (c :: cs).length := Nat.lt_succ_of_le hlen
      simp only [if_pos hshort, many_segment rest, Option.map_some, hcut]
termination_by cs.length

end

end AbstractSql.Segment.Grammar
