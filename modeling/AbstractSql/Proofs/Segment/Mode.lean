import AbstractSql.Proofs.Segment.Chain

/-!
# Reading with one state

A reading from left to right needs to know no more than whether it stands inside a literal, in
which one, and whether its last character was a backslash or the quote. Outside of literals it
passes over the segments of the scanner one after another, and it ends inside a literal exactly
when the scanner leaves that literal over.
-/

namespace AbstractSql.Segment

/-- Where a reading from left to right stands. A literal is known by its quote and by the byte of
the quote that opened it. -/
inductive Mode where
  /-- Outside of literals. -/
  | outside
  /-- Inside a literal. -/
  | inside (quote : Char) (start : Nat)
  /-- Inside a literal, behind a backslash that takes the next character with it. -/
  | escaping (quote : Char) (start : Nat)
  /-- Behind the quote of a literal, which is closed unless its quote comes again. -/
  | closing (quote : Char) (start : Nat)
  deriving DecidableEq

namespace Mode

/-- The mode behind a character outside of literals that stands at the byte. -/
def opening (byte : Nat) (c : Char) : Mode := if isQuote c then inside c byte else outside

/-- The mode behind a character that stands at the byte. -/
def next (byte : Nat) (c : Char) : Mode → Mode
  | outside => opening byte c
  | inside quote start =>
    if c = quote then closing quote start
    else if hasEscapes quote && c == '\\' then escaping quote start
    else inside quote start
  | escaping quote start => inside quote start
  | closing quote start => if c = quote then inside quote start else opening byte c

/-- The mode behind characters, the first of which stands at the byte. -/
def after (mode : Mode) (byte : Nat) : List Char → Mode
  | [] => mode
  | c :: cs => (mode.next byte c).after (byte + c.utf8Size) cs

/-- The mode in which the reading of a text ends. -/
def ofText (text : String) : Mode := outside.after 0 text.toList

/-- Whether a text may end in the mode. -/
def isOutside : Mode → Bool
  | outside | closing _ _ => true
  | inside _ _ | escaping _ _ => false

/-- The byte at which the open literal begins. -/
def openedAt? : Mode → Option Nat
  | inside _ start | escaping _ start => some start
  | outside | closing _ _ => none

/-- A literal is open in just the modes in which no text may end. -/
theorem openedAt?_eq_none_iff {mode : Mode} : mode.openedAt? = none ↔ mode.isOutside = true := by
  cases mode <;> simp [openedAt?, isOutside]

/-- The mode reads what follows as if it were outside. Behind a quote this asks for a character
that is not the quote again. -/
def Idle (cs : List Char) : Mode → Prop
  | outside => True
  | closing quote _ => ∀ c ∈ cs.head?, c ≠ quote
  | inside _ _ | escaping _ _ => False

theorem idle_outside (cs : List Char) : outside.Idle cs := trivial

theorem Idle.isOutside {mode : Mode} {cs : List Char} (h : mode.Idle cs) :
    mode.isOutside = true := by
  cases mode <;> first | rfl | exact h.elim

/-- An idle mode goes on as outside of literals. -/
theorem Idle.next {mode : Mode} {c : Char} {cs : List Char} (h : mode.Idle (c :: cs))
    (byte : Nat) : mode.next byte c = opening byte c := by
  cases mode with
  | outside => rfl
  | closing quote start => exact if_neg (h c rfl)
  | inside _ _ => exact h.elim
  | escaping _ _ => exact h.elim

/-- Reading on from where a reading has come to. -/
theorem after_append (mode : Mode) (byte : Nat) (front back : List Char) :
    mode.after byte (front ++ back) =
      (mode.after byte front).after (byte + (String.ofList front).utf8ByteSize) back := by
  induction front generalizing mode byte with
  | nil => simp [after]
  | cons c front ih => simp [after, ih, String.ofList_cons, Nat.add_assoc]

/-- Characters that open no literal are passed over outside. -/
theorem after_unquoted {mode : Mode} {cs : List Char} (hi : mode.Idle cs) (hne : cs ≠ [])
    (hq : ∀ c ∈ cs, isQuote c = false) (byte : Nat) : mode.after byte cs = outside := by
  induction cs generalizing mode byte with
  | nil => exact absurd rfl hne
  | cons c cs ih =>
    have hc : mode.next byte c = outside := by
      rw [hi.next, opening, hq c List.mem_cons_self]
      rfl
    rw [after, hc]
    cases cs with
    | nil => rfl
    | cons d cs =>
      exact ih (idle_outside _) (List.cons_ne_nil d cs) (fun e he => hq e (List.mem_cons_of_mem c he)) _

section

variable {quote : Char} {cs literal rest : List Char}

/-- The reading of a literal ends behind its closing quote. -/
theorem after_literal (h : readLiteral quote cs = some (literal, rest)) (start byte : Nat) :
    (inside quote start).after byte literal = closing quote start := by
  fun_induction readLiteral quote cs generalizing literal rest byte with
  | case1 => simp at h
  | case2 =>
    obtain ⟨rfl, rfl⟩ : [quote] = literal ∧ [] = rest := by simpa using h
    simp [after, next]
  | case3 => simp at h
  | case4 tail ih =>
    obtain ⟨⟨body, left⟩, hb, he⟩ := Option.map_eq_some_iff.mp h
    obtain ⟨rfl, rfl⟩ := Prod.mk.inj he
    simp [after, next, ih hb]
  | case5 d tail hd =>
    obtain ⟨rfl, rfl⟩ : [quote] = literal ∧ d :: tail = rest := by simpa using h
    simp [after, next]
  | case6 c d tail hc hb ih =>
    obtain ⟨⟨body, left⟩, hl, he⟩ := Option.map_eq_some_iff.mp h
    obtain ⟨rfl, rfl⟩ := Prod.mk.inj he
    simp [after, next, hc, hb, ih hl]
  | case7 c d tail hc hb ih =>
    obtain ⟨⟨body, left⟩, hl, he⟩ := Option.map_eq_some_iff.mp h
    obtain ⟨rfl, rfl⟩ := Prod.mk.inj he
    simp [after, next, hc, hb, ih hl]

/-- The reading of a literal that is never closed ends inside of it. -/
theorem openedAt?_after_unclosed (h : readLiteral quote cs = none) (start byte : Nat) :
    ((inside quote start).after byte cs).openedAt? = some start := by
  fun_induction readLiteral quote cs generalizing byte with
  | case1 => rfl
  | case2 => simp at h
  | case3 c hc =>
    rw [after, next, if_neg hc]
    split <;> rfl
  | case4 tail ih => simp [after, next, ih (Option.map_eq_none_iff.mp h)]
  | case5 => simp at h
  | case6 c d tail hc hb ih => simp [after, next, hc, hb, ih (Option.map_eq_none_iff.mp h)]
  | case7 c d tail hc hb ih =>
    rw [after, next, if_neg hc, if_neg hb]
    exact ih (Option.map_eq_none_iff.mp h) _

end

/-- A piece is read from outside to outside. -/
theorem Idle.after_piece {mode : Mode} {segment : Segment} {rest : List Char}
    (hi : mode.Idle segment.characters) (h : Piece segment)
    (hends : ∀ c ∈ rest.head?, segment.endsBefore c = true) (byte : Nat) :
    (mode.after byte segment.characters).Idle rest := by
  cases h with
  | run nonempty plain =>
    rw [characters_sql] at hi ⊢
    rw [after_unquoted hi nonempty fun c hc => (isPlain_iff.mp (plain c hc)).2]
    trivial
  | mark =>
    rw [after_unquoted hi (by decide) (List.forall_mem_singleton.mpr isQuote_question)]
    trivial
  | @literal quote cs opens closes =>
    rw [characters_sql] at hi ⊢
    rw [after, hi.next, opening, if_pos opens, after_literal closes]
    intro c hc
    simpa [endsBefore, ne_question opens, opens] using hends c hc
  | @placeholder name nonempty names =>
    rw [characters_placeholder] at hi ⊢
    rw [after_unquoted hi (List.cons_ne_nil _ _)]
    · trivial
    · intro c hc
      rcases List.mem_cons.mp hc with rfl | hc
      · exact isQuote_question
      · exact isQuote_of_name (names c hc)

/-- A chain is read from outside to outside. -/
theorem Idle.after_chain {mode : Mode} {segments : List Segment} {rest : List Char}
    (hi : mode.Idle (charactersOf segments ++ rest)) (h : Chain rest segments) (byte : Nat) :
    (mode.after byte (charactersOf segments)).Idle rest := by
  induction h generalizing mode byte with
  | nil => exact hi
  | @cons segment segments piece ends _ ih =>
    have hfirst : mode.Idle segment.characters := by
      obtain ⟨c, cs, hc⟩ := piece.exists_cons
      cases mode with
      | closing quote start => simpa [Idle, hc] using hi
      | _ => exact hi
    rw [charactersOf_cons, after_append]
    exact ih (hfirst.after_piece piece ends byte) _

/-- A text ends outside of literals, and nothing of it is left over, or it ends inside a literal,
and what is left over begins with the quote that opens it. -/
theorem ofText_cases (text : String) :
    ((scanCharacters text.toList).2 = [] ∧ (ofText text).isOutside = true) ∨
      ∃ front quote rest, (scanCharacters text.toList).2 = quote :: rest ∧
        text.toList = front ++ quote :: rest ∧ (ofText (String.ofList front)).isOutside = true ∧
        isQuote quote = true ∧ readLiteral quote rest = none ∧
        (ofText text).openedAt? = some (String.ofList front).utf8ByteSize := by
  have hchain := (idle_outside _).after_chain (chain_scanCharacters text.toList) 0
  have hall := charactersOf_scanCharacters text.toList
  generalize charactersOf (scanCharacters text.toList).1 = front at hchain hall
  rcases rest_scanCharacters text.toList with hnone | ⟨quote, rest, hrest, hq, hl⟩
  · rw [hnone, List.append_nil] at hall
    rw [hall] at hchain
    exact .inl ⟨hnone, hchain.isOutside⟩
  · rw [hrest] at hall hchain
    refine .inr ⟨front, quote, rest, hrest, hall.symm, ?_, hq, hl, ?_⟩
    · rw [ofText, String.toList_ofList]
      exact hchain.isOutside
    · rw [ofText, ← hall, after_append, after, hchain.next, opening, if_pos hq, Nat.zero_add]
      exact openedAt?_after_unclosed hl _ _

end Mode

end AbstractSql.Segment
