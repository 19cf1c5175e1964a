import AbstractSql.Segment

/-!
# Reading a text character by character

The scanner cuts a text into segments. `Segment.read` forgets where literal text was cut, so that
what is left of a text is its characters and its placeholders. A text put together from two is then
read as both of them are, unless the second one begins with a character that prolongs the last name
or the last literal of the first.
-/

namespace AbstractSql.Segment

/-- The characters that a segment was read from. -/
def characters : Segment → List Char
  | sql text => text.toList
  | placeholder name => '?' :: name.toList

/-- The characters that segments were read from. -/
def charactersOf (segments : List Segment) : List Char := segments.flatMap characters

@[simp] theorem charactersOf_nil : charactersOf [] = [] := rfl

@[simp] theorem charactersOf_cons (segment : Segment) (segments : List Segment) :
    charactersOf (segment :: segments) = segment.characters ++ charactersOf segments := rfl

@[simp] theorem charactersOf_append (front back : List Segment) :
    charactersOf (front ++ back) = charactersOf front ++ charactersOf back := List.flatMap_append

@[simp] theorem characters_sql (cs : List Char) : (sql (String.ofList cs)).characters = cs :=
  String.toList_ofList

@[simp] theorem characters_placeholder (name : List Char) :
    (placeholder (String.ofList name)).characters = '?' :: name := by
  rw [characters, String.toList_ofList]

/-- Scanning loses no character. -/
theorem charactersOf_scanCharacters (cs : List Char) :
    charactersOf (scanCharacters cs).1 ++ (scanCharacters cs).2 = cs := by
  fun_induction scanCharacters cs with
  | case1 => rfl
  | case2 rest name hn scanned ih =>
    have hm : (sql "?").characters = ['?'] := by decide
    rw [charactersOf_cons, List.append_assoc, ih, hm, List.singleton_append]
  | case3 rest name hn scanned ih =>
    rw [charactersOf_cons, List.append_assoc, ih, characters_placeholder, List.cons_append,
      List.takeWhile_append_dropWhile]
  | case4 => rfl
  | case5 c rest hm hq literal after hl scanned ih =>
    rw [charactersOf_cons, List.append_assoc, ih, characters_sql, List.cons_append, readLiteral_append hl]
  | case6 c rest hm hq scanned ih =>
    rw [charactersOf_cons, List.append_assoc, ih, characters_sql, List.cons_append, List.takeWhile_append_dropWhile]

/-- What a text is read as. -/
inductive Token where
  /-- A character that stays as it is. -/
  | character (c : Char)
  /-- A placeholder, by its name without the mark. -/
  | mark (name : String)
  deriving DecidableEq

/-- The tokens of a segment. -/
def tokens : Segment → List Token
  | sql text => text.toList.map .character
  | placeholder name => [.mark name]

/-- The tokens of scanned segments, when nothing is left over. -/
def finish : List Segment × List Char → Option (List Token)
  | (segments, []) => some (segments.flatMap tokens)
  | (_, _ :: _) => none

/-- What characters are read as, unless they end inside a literal. -/
def read (cs : List Char) : Option (List Token) := finish (scanCharacters cs)

/-- The tokens of the first segment come first. -/
theorem finish_cons (segment : Segment) (scanned : List Segment × List Char) :
    finish (segment :: scanned.1, scanned.2) = (finish scanned).map (segment.tokens ++ ·) := by
  obtain ⟨segments, _ | ⟨c, rest⟩⟩ := scanned <;> rfl

@[simp] theorem read_nil : read [] = some [] := by
  rw [read, scanCharacters]
  rfl

/-- The mark of a placeholder is no quote. -/
theorem isQuote_question : isQuote '?' = false := by decide

/-- What opens a literal is no mark. -/
theorem ne_question {c : Char} (h : isQuote c = true) : c ≠ '?' := by
  rintro rfl
  exact Bool.noConfusion (isQuote_question.symm.trans h)

/-- A plain character is neither a mark nor a quote. -/
theorem isPlain_iff {c : Char} : isPlain c = true ↔ c ≠ '?' ∧ isQuote c = false := by
  simp only [isPlain, Bool.not_eq_true', Bool.or_eq_false_iff, beq_eq_false_iff_ne]
  exact and_comm

section

variable {c : Char} {cs rest : List Char}

/-- A mark without a name after it is cut off. -/
theorem scanCharacters_question (h : ∀ c ∈ cs.head?, isNameCharacter c = false) :
    scanCharacters ('?' :: cs) = (sql "?" :: (scanCharacters cs).1, (scanCharacters cs).2) := by
  have hname : cs.takeWhile isNameCharacter = [] := by
    cases cs with
    | nil => rfl
    | cons c cs => simp [h c rfl]
  rw [scanCharacters, if_pos rfl]
  simp only [hname, List.isEmpty_nil, if_true]

/-- A mark is cut off with its name. -/
theorem scanCharacters_mark {name : List Char} (hne : name ≠ [])
    (hall : ∀ c ∈ name, isNameCharacter c = true)
    (h : ∀ c ∈ cs.head?, isNameCharacter c = false) :
    scanCharacters ('?' :: (name ++ cs)) =
      (placeholder (String.ofList name) :: (scanCharacters cs).1, (scanCharacters cs).2) := by
  have hcs : cs.takeWhile isNameCharacter = [] ∧ cs.dropWhile isNameCharacter = cs := by
    cases cs with
    | nil => exact ⟨rfl, rfl⟩
    | cons c cs => simp [h c rfl]
  have htake : (name ++ cs).takeWhile isNameCharacter = name := by
    rw [List.takeWhile_append_of_pos hall, hcs.1, List.append_nil]
  have hdrop : (name ++ cs).dropWhile isNameCharacter = cs := by
    rw [List.dropWhile_append_of_pos hall, hcs.2]
  have hempty : name.isEmpty = false := by simpa using hne
  rw [scanCharacters, if_pos rfl]
  simp only [htake, hdrop, hempty, Bool.false_eq_true, if_false]

/-- A literal is cut off with its quotes. -/
theorem scanCharacters_literal {literal : List Char} (hq : isQuote c = true)
    (h : readLiteral c cs = some (literal, rest)) :
    scanCharacters (c :: cs) =
      (sql (String.ofList (c :: literal)) :: (scanCharacters rest).1,
        (scanCharacters rest).2) := by
  rw [scanCharacters, if_neg (ne_question hq), if_pos hq]
  split
  · next hnone => simp [hnone] at h
  · next l after hsome =>
    obtain ⟨rfl, rfl⟩ : l = literal ∧ after = rest := by simpa [hsome] using h
    rfl

/-- A literal that is never closed is left over. -/
theorem scanCharacters_open (hq : isQuote c = true) (h : readLiteral c cs = none) :
    scanCharacters (c :: cs) = ([], c :: cs) := by
  rw [scanCharacters, if_neg (ne_question hq), if_pos hq]
  split
  · rfl
  · next hsome => simp [hsome] at h

/-- All plain characters at the front are cut off at once. -/
theorem scanCharacters_run (hc : isPlain c = true) :
    scanCharacters (c :: cs) =
      (sql (String.ofList (c :: cs.takeWhile isPlain)) ::
          (scanCharacters (cs.dropWhile isPlain)).1,
        (scanCharacters (cs.dropWhile isPlain)).2) := by
  obtain ⟨hm, hq⟩ := isPlain_iff.mp hc
  rw [scanCharacters, if_neg hm, if_neg (by simp [hq])]

end

/-- A quote opens a literal. -/
theorem read_quote {c : Char} (hc : isQuote c = true) (rest : List Char) :
    read (c :: rest) = (readLiteral c rest).bind fun r =>
      (read r.2).map ((c :: r.1).map Token.character ++ ·) := by
  rw [read]
  cases h : readLiteral c rest with
  | none => rw [scanCharacters_open hc h]; rfl
  | some scanned =>
    rw [scanCharacters_literal hc h, finish_cons, tokens, String.toList_ofList]
    rfl

/-- A mark without a name after it stays as it is. -/
theorem read_question {rest : List Char} (hr : ∀ c ∈ rest.head?, isNameCharacter c = false) :
    read ('?' :: rest) = (read rest).map (.character '?' :: ·) := by
  rw [read, scanCharacters_question hr, finish_cons]
  rfl

/-- A mark with a name after it is a placeholder. -/
theorem read_mark {name rest : List Char} (hn : name ≠ [])
    (hall : ∀ c ∈ name, isNameCharacter c = true)
    (hr : ∀ c ∈ rest.head?, isNameCharacter c = false) :
    read ('?' :: (name ++ rest)) = (read rest).map (.mark (String.ofList name) :: ·) := by
  rw [read, scanCharacters_mark hn hall hr, finish_cons]
  rfl

/-- A character of a plain run stays as it is. The scanner reads the whole run at once, so the
characters after this one are part of the run, or the run ends here. -/
theorem read_plain {c : Char} (hc : isPlain c = true) (rest : List Char) :
    read (c :: rest) = (read rest).map (.character c :: ·) := by
  have hs : ∀ (d : Char) (tail : List Char), isPlain d = true →
      read (d :: tail) = (read (tail.dropWhile isPlain)).map
        ((d :: tail.takeWhile isPlain).map Token.character ++ ·) := by
    intro d tail hd
    rw [read, scanCharacters_run hd, finish_cons, tokens, String.toList_ofList]
    rfl
  rw [hs c rest hc]
  cases rest with
  | nil => rfl
  | cons d tail =>
    cases hd : isPlain d with
    | false => simp [hd]
    | true =>
      rw [hs d tail hd]
      simp [hd, Function.comp_def]

/-- Plain characters are read one by one. -/
theorem read_plain_append {cs : List Char} (hc : ∀ c ∈ cs, isPlain c = true) (rest : List Char) :
    read (cs ++ rest) = (read rest).map (cs.map Token.character ++ ·) := by
  induction cs with
  | nil => simp
  | cons c cs ih =>
    rw [List.cons_append, read_plain (hc c List.mem_cons_self),
      ih fun d hd => hc d (List.mem_cons_of_mem c hd), Option.map_map]
    rfl

/-- The text begins with no character that could prolong a name or a literal in front of it. -/
def Delimited (cs : List Char) : Prop :=
  ∀ c ∈ cs.head?, isNameCharacter c = false ∧ isQuote c = false

/-- A literal that is closed stays closed in front of any character but its quote. -/
theorem readLiteral_closed {quote : Char} {cs literal after : List Char}
    (h : readLiteral quote cs = some (literal, after)) {rest : List Char}
    (hr : ∀ c ∈ rest.head?, c ≠ quote) :
    readLiteral quote (cs ++ rest) = some (literal, after ++ rest) := by
  fun_induction readLiteral quote cs generalizing literal after with
  | case1 => simp at h
  | case2 =>
    obtain ⟨rfl, rfl⟩ : [quote] = literal ∧ [] = after := by simpa using h
    cases rest with
    | nil => simp [readLiteral]
    | cons d tail => simp [readLiteral, hr d rfl]
  | case3 => simp at h
  | case4 tail ih =>
    obtain ⟨⟨body, left⟩, hb, he⟩ := Option.map_eq_some_iff.mp h
    obtain ⟨rfl, rfl⟩ := Prod.mk.inj he
    simp [readLiteral, ih hb]
  | case5 d tail hd =>
    obtain ⟨rfl, rfl⟩ : [quote] = literal ∧ d :: tail = after := by simpa using h
    simp [readLiteral, hd]
  | case6 c d tail hc hb ih =>
    obtain ⟨⟨body, left⟩, hl, he⟩ := Option.map_eq_some_iff.mp h
    obtain ⟨rfl, rfl⟩ := Prod.mk.inj he
    simp [readLiteral, hc, hb, ih hl]
  | case7 c d tail hc hb ih =>
    obtain ⟨⟨body, left⟩, hl, he⟩ := Option.map_eq_some_iff.mp h
    obtain ⟨rfl, rfl⟩ := Prod.mk.inj he
    have hi := ih hl
    rw [List.cons_append] at hi
    simp [readLiteral, hc, hb, hi]

/-- A literal that is closed stays closed in front of a delimited text. -/
theorem readLiteral_delimited {quote : Char} (hq : isQuote quote = true)
    {cs literal after : List Char} (h : readLiteral quote cs = some (literal, after))
    {rest : List Char} (hr : Delimited rest) :
    readLiteral quote (cs ++ rest) = some (literal, after ++ rest) := by
  refine readLiteral_closed h fun c hc => ?_
  rintro rfl
  exact Bool.noConfusion ((hr c hc).2.symm.trans hq)

/-- A literal is not closed by a text without quotes. -/
theorem readLiteral_unquoted {quote : Char} (hq : isQuote quote = true) {cs rest : List Char}
    (h : readLiteral quote cs = none) (hr : ∀ c ∈ rest, isQuote c = false) :
    readLiteral quote (cs ++ rest) = none := by
  have hne : ∀ c ∈ rest, c ≠ quote := by
    rintro c hc rfl
    exact Bool.noConfusion ((hr c hc).symm.trans hq)
  have hall : ∀ tail : List Char, (∀ c ∈ tail, c ≠ quote) → readLiteral quote tail = none := by
    intro tail ht
    fun_induction readLiteral quote tail with
    | case1 => rfl
    | case2 => simp at ht
    | case3 => rfl
    | case4 => simp at ht
    | case5 => simp at ht
    | case6 c d tail hc hb ih => simp [ih fun e he => ht e (by simp [he])]
    | case7 c d tail hc hb ih => simp [ih fun e he => ht e (List.mem_cons_of_mem c he)]
  fun_induction readLiteral quote cs with
  | case1 => exact hall rest hne
  | case2 => simp at h
  | case3 c hc =>
    cases rest with
    | nil => simp [readLiteral, hc]
    | cons d tail =>
      have ht : readLiteral quote tail = none :=
        hall tail fun e he => hne e (List.mem_cons_of_mem d he)
      have hdt : readLiteral quote (d :: tail) = none := hall (d :: tail) hne
      simp [readLiteral, hc, ht, hdt]
  | case4 tail ih =>
    have hn := ih (Option.map_eq_none_iff.mp h)
    simp [readLiteral, hn]
  | case5 => simp at h
  | case6 c d tail hc hb ih =>
    have hn := ih (Option.map_eq_none_iff.mp h)
    simp [readLiteral, hc, hb, hn]
  | case7 c d tail hc hb ih =>
    have hn := ih (Option.map_eq_none_iff.mp h)
    rw [List.cons_append] at hn
    simp [readLiteral, hc, hb, hn]

/-- What follows the name characters at the front does not begin with another. -/
theorem head?_dropWhile_name (cs : List Char) :
    ∀ c ∈ (cs.dropWhile isNameCharacter).head?, isNameCharacter c = false := by
  intro c hc
  have hn := List.head?_dropWhile_not isNameCharacter cs
  rw [hc] at hn
  simpa using hn

/-- A text in front of a delimited one is read as if it stood alone. When it ends inside a literal,
the text after it must not close that. The induction is on the length, for the scanner passes over
names and literals in one step. -/
theorem read_append {cs rest : List Char} (hd : Delimited rest)
    (hq : (read cs).isSome = true ∨ ∀ c ∈ rest, isQuote c = false) :
    read (cs ++ rest) = (read cs).bind fun ts => (read rest).map (ts ++ ·) := by
  match cs with
  | [] => simp
  | c :: tail =>
    cases hqc : isQuote c with
    | true =>
      rw [List.cons_append, read_quote hqc, read_quote hqc]
      rw [read_quote hqc] at hq
      cases hl : readLiteral c tail with
      | none =>
        have hu : ∀ c ∈ rest, isQuote c = false := by simpa [hl] using hq
        rw [readLiteral_unquoted hqc hl hu]
        rfl
      | some scanned =>
        obtain ⟨literal, after⟩ := scanned
        have hlen := length_rest_le hl
        have hq' : (read after).isSome = true ∨ ∀ c ∈ rest, isQuote c = false := by
          simpa [hl] using hq
        rw [readLiteral_delimited hqc hl hd]
        simp only [Option.bind_some]
        rw [read_append hd hq']
        cases read after <;> cases read rest <;> simp
    | false =>
      by_cases hm : c = '?'
      · subst hm
        have hsplit := List.takeWhile_append_dropWhile (p := isNameCharacter) (l := tail)
        have hhead := head?_dropWhile_name tail
        have hlen := (List.dropWhile_suffix (l := tail) isNameCharacter).sublist.length_le
        generalize hname : tail.takeWhile isNameCharacter = name at hsplit
        generalize tail.dropWhile isNameCharacter = after at hsplit hhead hlen
        have hall : ∀ c ∈ name, isNameCharacter c = true := fun c hc =>
          List.all_eq_true.mp List.all_takeWhile c (hname ▸ hc)
        have hafter : ∀ c ∈ (after ++ rest).head?, isNameCharacter c = false := by
          intro c hc
          rw [List.head?_append] at hc
          cases after with
          | nil => exact (hd c (by simpa using hc)).1
          | cons e after => exact hhead c hc
        rw [List.cons_append, ← hsplit, List.append_assoc]
        rw [← hsplit] at hq
        by_cases hn : name = []
        · subst hn
          simp only [List.nil_append] at hq ⊢
          rw [read_question hhead] at hq
          rw [read_question hhead, read_question hafter,
            read_append hd (by simpa using hq)]
          cases read after <;> cases read rest <;> simp
        · rw [read_mark hn hall hhead] at hq
          rw [read_mark hn hall hhead, read_mark hn hall hafter,
            read_append hd (by simpa using hq)]
          cases read after <;> cases read rest <;> simp
      · have hp : isPlain c = true := by simp [isPlain, hqc, hm]
        rw [read_plain hp] at hq
        rw [List.cons_append, read_plain hp, read_plain hp,
          read_append hd (by simpa using hq)]
        cases read tail <;> cases read rest <;> simp
termination_by cs.length

/-- The characters of a token. -/
def Token.characters : Token → List Char
  | .character c => [c]
  | .mark name => '?' :: name.toList

/-- Reading loses no character. -/
theorem characters_of_read {cs : List Char} {ts : List Token} (h : read cs = some ts) :
    ts.flatMap Token.characters = cs := by
  have htokens : ∀ segment : Segment, segment.tokens.flatMap Token.characters = segment.characters := by
    intro segment
    cases segment with
    | sql text =>
      rw [tokens, characters]
      induction text.toList with
      | nil => rfl
      | cons c cs ih => simp [Token.characters, ih]
    | placeholder name => simp [tokens, characters, Token.characters]
  have hcs := charactersOf_scanCharacters cs
  unfold read at h
  rcases hs : scanCharacters cs with ⟨segments, _ | ⟨c, rest⟩⟩
  · rw [hs] at h hcs
    obtain rfl := Option.some.inj h
    rw [List.flatMap_assoc]
    simpa [htokens, charactersOf] using hcs
  · rw [hs] at h
    exact absurd h (by simp [finish])

/-- Only the empty text is read as nothing. -/
theorem read_eq_nil {cs : List Char} : read cs = some [] ↔ cs = [] := by
  constructor
  · intro h
    exact (characters_of_read h).symm
  · rintro rfl
    exact read_nil

end AbstractSql.Segment
