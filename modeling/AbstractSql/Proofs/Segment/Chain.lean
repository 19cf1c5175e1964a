import AbstractSql.Identifier
import AbstractSql.Proofs.Segment.Reading

/-!
# Segments in a row

The scanner cuts a text where it can: at placeholders, at bare marks, at literals and between runs
of plain characters. A row of such pieces is a chain when no piece could have taken a character of
what follows it. The text of a chain is cut into just these pieces again, except that runs next to
each other become one.
-/

namespace AbstractSql.Segment

/-- What the scanner cuts off the front of a text. -/
inductive Piece : Segment → Prop where
  /-- Plain characters. -/
  | run {cs : List Char} (nonempty : cs ≠ []) (plain : ∀ c ∈ cs, isPlain c = true) :
    Piece (sql (String.ofList cs))
  /-- A mark without a name. -/
  | mark : Piece (sql "?")
  /-- A literal with its quotes. -/
  | literal {quote : Char} {cs : List Char} (opens : isQuote quote = true)
    (closes : readLiteral quote cs = some (cs, [])) : Piece (sql (String.ofList (quote :: cs)))
  /-- A mark with its name. -/
  | placeholder {name : List Char} (nonempty : name ≠ [])
    (names : ∀ c ∈ name, isNameCharacter c = true) : Piece (placeholder (String.ofList name))

/-- Whether a segment ends in front of the character. A mark goes on with characters of a name, and
a literal with its own quote. Runs end anywhere, for they are put together again. -/
def endsBefore (c : Char) : Segment → Bool
  | placeholder _ => !isNameCharacter c
  | sql text =>
    match text.toList.head? with
    | none => true
    | some d => if d = '?' then !isNameCharacter c else if isQuote d then c != d else true

/-- Segments in front of other characters, each of which ends where the next one begins. -/
inductive Chain (rest : List Char) : List Segment → Prop where
  /-- No segments. -/
  | nil : Chain rest []
  /-- A piece that ends in front of a chain. -/
  | cons {segment : Segment} {segments : List Segment} (piece : Piece segment)
    (ends : ∀ c ∈ (charactersOf segments ++ rest).head?, segment.endsBefore c = true)
    (chain : Chain rest segments) : Chain rest (segment :: segments)

/-- Whether a segment is a run of plain characters. -/
def isRun : Segment → Bool
  | placeholder _ => false
  | sql text => text.toList.head?.any isPlain

/-- Put a segment in front of others. A run takes in the run behind it. -/
def attach : Segment → List Segment → List Segment
  | sql text, sql next :: rest =>
    if isRun (sql text) && isRun (sql next) then sql (text ++ next) :: rest
    else sql text :: sql next :: rest
  | segment, rest => segment :: rest

/-- Segments with runs next to each other put together. -/
def fuse (segments : List Segment) : List Segment := segments.foldr attach []

theorem fuse_cons (segment : Segment) (segments : List Segment) :
    fuse (segment :: segments) = attach segment (fuse segments) := rfl

/-- Characters of names are no quotes. -/
theorem isQuote_of_name {c : Char} (h : isNameCharacter c = true) : isQuote c = false := by
  have hall : ['\x27', '\x22', '\x60'].all (fun q => !isNameCharacter q) = true := by decide
  cases hq : isQuote c with
  | false => rfl
  | true =>
    simp only [isQuote, Bool.or_eq_true, beq_iff_eq] at hq
    have hc : isNameCharacter c = false := by
      simpa using List.all_eq_true.mp hall c (by simpa [or_assoc] using hq)
    exact absurd h (by simp [hc])

/-- Text is written as it is, and a name behind its mark. -/
def render : Segment → String
  | sql text => text
  | placeholder name => Identifier.placeholder name

/-- A piece is not empty. -/
theorem Piece.exists_cons {segment : Segment} (h : Piece segment) :
    ∃ c cs, segment.characters = c :: cs := by
  cases h with
  | run nonempty _ =>
    obtain ⟨c, cs, rfl⟩ := List.exists_cons_of_ne_nil nonempty
    exact ⟨c, cs, characters_sql _⟩
  | mark => exact ⟨'?', [], by decide⟩
  | literal _ _ => exact ⟨_, _, characters_sql _⟩
  | placeholder _ _ => exact ⟨_, _, characters_placeholder _⟩

/-- A run begins with a plain character. -/
theorem isPlain_of_isRun {segment : Segment} (h : segment.isRun = true) :
    ∃ c cs, segment.characters = c :: cs ∧ isPlain c = true := by
  cases segment with
  | placeholder name => exact absurd h (by simp [isRun])
  | sql text =>
    simp only [isRun, characters] at h ⊢
    cases ht : text.toList with
    | nil => simp [ht] at h
    | cons c cs => exact ⟨c, cs, rfl, by simpa [ht] using h⟩

/-- Nothing is taken in by a segment in front of one that is no run. -/
theorem attach_of_not_isRun (segment : Segment) {segments : List Segment}
    (h : ∀ next ∈ segments.head?, next.isRun = false) :
    attach segment segments = segment :: segments := by
  unfold attach
  split
  · next text next rest => rw [if_neg (by simp [h _ rfl])]
  · rfl

/-- Only a run takes in what is behind it. -/
theorem attach_eq_cons {segment : Segment} (h : segment.isRun = false) (segments : List Segment) :
    attach segment segments = segment :: segments := by
  unfold attach
  split
  · next text next rest => rw [if_neg (by simp [h])]
  · rfl

/-- What a run takes in is the run behind it. -/
theorem attach_run {text next : String} (ht : isRun (sql text) = true)
    (hn : isRun (sql next) = true) (rest : List Segment) :
    attach (sql text) (sql next :: rest) = sql (text ++ next) :: rest := by
  rw [attach, if_pos (by rw [ht, hn]; rfl)]

/-- Attaching loses no character. -/
theorem charactersOf_attach (segment : Segment) (segments : List Segment) :
    charactersOf (attach segment segments) = segment.characters ++ charactersOf segments := by
  unfold attach
  split
  · split <;> simp [characters]
  · rfl

/-- The first segment begins the text. -/
theorem head?_isRun {segments : List Segment} {rest : List Char} {c : Char}
    (hc : c ∈ (charactersOf segments ++ rest).head?) (hp : isPlain c = false) :
    ∀ next ∈ segments.head?, next.isRun = false := by
  intro next hn
  cases segments with
  | nil => cases hn
  | cons first segments =>
    obtain rfl : first = next := by simpa using hn
    cases hrun : first.isRun with
    | false => rfl
    | true =>
      obtain ⟨d, cs, hd, hplain⟩ := isPlain_of_isRun hrun
      obtain rfl : d = c := by simpa [hd] using hc
      exact Bool.noConfusion (hp.symm.trans hplain)

/-- A literal is closed where it ends, and its quote does not follow. -/
theorem readLiteral_self {quote : Char} {cs literal after : List Char}
    (h : readLiteral quote cs = some (literal, after)) :
    readLiteral quote literal = some (literal, []) ∧ ∀ c ∈ after.head?, c ≠ quote := by
  fun_induction readLiteral quote cs generalizing literal after with
  | case1 => simp at h
  | case2 =>
    obtain ⟨rfl, rfl⟩ : [quote] = literal ∧ [] = after := by simpa using h
    simp [readLiteral]
  | case3 => simp at h
  | case4 tail ih =>
    obtain ⟨⟨body, left⟩, hb, he⟩ := Option.map_eq_some_iff.mp h
    obtain ⟨rfl, rfl⟩ := Prod.mk.inj he
    obtain ⟨hbody, hleft⟩ := ih hb
    exact ⟨by simp [readLiteral, hbody], hleft⟩
  | case5 d tail hd =>
    obtain ⟨rfl, rfl⟩ : [quote] = literal ∧ d :: tail = after := by simpa using h
    simp [readLiteral, hd]
  | case6 c d tail hc hb ih =>
    obtain ⟨⟨body, left⟩, hl, he⟩ := Option.map_eq_some_iff.mp h
    obtain ⟨rfl, rfl⟩ := Prod.mk.inj he
    obtain ⟨hbody, hleft⟩ := ih hl
    exact ⟨by simp [readLiteral, hc, hb, hbody], hleft⟩
  | case7 c d tail hc hb ih =>
    obtain ⟨⟨body, left⟩, hl, he⟩ := Option.map_eq_some_iff.mp h
    obtain ⟨rfl, rfl⟩ := Prod.mk.inj he
    obtain ⟨hbody, hleft⟩ := ih hl
    refine ⟨?_, hleft⟩
    cases body with
    | nil => simp [readLiteral] at hbody
    | cons e body => simp [readLiteral, hc, hb, hbody]

/-- A piece is cut off the front of a text that it ends in front of. -/
theorem scanCharacters_piece {segment : Segment} (h : Piece segment) {rest : List Char}
    (hends : ∀ c ∈ rest.head?, segment.endsBefore c = true) :
    scanCharacters (segment.characters ++ rest) =
      (attach segment (scanCharacters rest).1, (scanCharacters rest).2) := by
  cases h with
  | @run cs nonempty plain =>
    obtain ⟨c, cs, rfl⟩ := List.exists_cons_of_ne_nil nonempty
    have hc := plain c List.mem_cons_self
    have hcs : ∀ d ∈ cs, isPlain d = true := fun d hd => plain d (List.mem_cons_of_mem c hd)
    have hrun : isRun (sql (String.ofList (c :: cs))) = true := by simp [isRun, hc]
    rw [characters_sql, List.cons_append, scanCharacters_run hc,
      List.takeWhile_append_of_pos hcs, List.dropWhile_append_of_pos hcs]
    cases rest with
    | nil => simp [scanCharacters, attach]
    | cons d rest =>
      cases hd : isPlain d with
      | true =>
        have hnext : isRun (sql (String.ofList (d :: rest.takeWhile isPlain))) = true := by
          simp [isRun, hd]
        rw [List.takeWhile_cons_of_pos hd, List.dropWhile_cons_of_pos hd, scanCharacters_run hd,
          attach_run hrun hnext, ← String.ofList_append, List.cons_append]
      | false =>
        rw [List.takeWhile_cons_of_neg (by simp [hd]), List.dropWhile_cons_of_neg (by simp [hd]),
          List.append_nil, attach_of_not_isRun]
        exact head?_isRun (by rw [charactersOf_scanCharacters]; rfl) hd
  | mark =>
    have hm : (sql "?").characters = ['?'] := by decide
    rw [hm, List.singleton_append, attach_eq_cons (by decide), scanCharacters_question]
    intro c hc
    simpa [endsBefore] using hends c hc
  | @literal quote cs opens closes =>
    have hne : ∀ c ∈ rest.head?, c ≠ quote := by
      intro c hc
      simpa [endsBefore, ne_question opens, opens] using hends c hc
    have hrun : isRun (sql (String.ofList (quote :: cs))) = false := by simp [isRun, isPlain, opens]
    rw [characters_sql, List.cons_append, attach_eq_cons hrun]
    exact scanCharacters_literal opens (readLiteral_closed closes hne)
  | placeholder nonempty names =>
    rw [characters_placeholder, List.cons_append, attach_eq_cons rfl]
    refine scanCharacters_mark nonempty names fun c hc => ?_
    simpa [endsBefore] using hends c hc

/-- A chain is cut off the front of a text, with runs next to each other put together. -/
theorem scanCharacters_chain {segments : List Segment} {rest : List Char}
    (h : Chain rest segments) :
    scanCharacters (charactersOf segments ++ rest) =
      (segments.foldr attach (scanCharacters rest).1, (scanCharacters rest).2) := by
  induction h with
  | nil => rfl
  | @cons segment segments piece ends _ ih =>
    rw [charactersOf_cons, List.append_assoc, scanCharacters_piece piece ends, ih]
    rfl

/-- What is cut off a text is a chain in front of what is left over. -/
theorem chain_scanCharacters (cs : List Char) :
    Chain (scanCharacters cs).2 (scanCharacters cs).1 := by
  fun_induction scanCharacters cs with
  | case1 => exact .nil
  | case2 rest name hn scanned ih =>
    refine .cons .mark ?_ ih
    intro c hc
    rw [charactersOf_scanCharacters] at hc
    have hempty : rest.takeWhile isNameCharacter = [] := List.isEmpty_iff.mp hn
    cases rest with
    | nil => cases hc
    | cons d rest =>
      obtain rfl : d = c := by simpa using hc
      simpa [endsBefore, List.takeWhile_cons] using hempty
  | case3 rest name hn scanned ih =>
    refine .cons (.placeholder (by simpa using hn) fun c hc => ?_) ?_ ih
    · exact List.all_eq_true.mp List.all_takeWhile c hc
    · intro c hc
      rw [charactersOf_scanCharacters] at hc
      simp [endsBefore, head?_dropWhile_name rest c hc]
  | case4 => exact .nil
  | case5 c rest hm hq literal after hl scanned ih =>
    obtain ⟨hself, hafter⟩ := readLiteral_self hl
    refine .cons (.literal hq hself) ?_ ih
    intro d hd
    rw [charactersOf_scanCharacters] at hd
    simp [endsBefore, hm, hq, hafter d hd]
  | case6 c rest hm hq scanned ih =>
    refine .cons (.run (List.cons_ne_nil _ _) ?_) ?_ ih
    · intro d hd
      rcases List.mem_cons.mp hd with rfl | hd
      · exact isPlain_iff.mpr ⟨hm, by simpa using hq⟩
      · exact List.all_eq_true.mp List.all_takeWhile d hd
    · intro d hd
      simp [endsBefore, hm, hq]

/-- What is left over is nothing, or a literal that is never closed. -/
theorem rest_scanCharacters (cs : List Char) :
    (scanCharacters cs).2 = [] ∨ ∃ quote rest, (scanCharacters cs).2 = quote :: rest ∧
      isQuote quote = true ∧ readLiteral quote rest = none := by
  fun_induction scanCharacters cs with
  | case1 => exact .inl rfl
  | case2 rest name hn scanned ih => exact ih
  | case3 rest name hn scanned ih => exact ih
  | case4 c rest hm hq hl => exact .inr ⟨c, rest, rfl, hq, hl⟩
  | case5 c rest hm hq literal after hl scanned ih => exact ih
  | case6 c rest hm hq scanned ih => exact ih

/-- A scan succeeds when nothing is left over. -/
theorem scan_eq_ok_iff {text : String} {segments : List Segment} :
    scan text = .ok segments ↔ scanCharacters text.toList = (segments, []) := by
  unfold scan
  rcases scanCharacters text.toList with ⟨found, _ | ⟨c, rest⟩⟩ <;> simp

/-- The segments of a text are a chain up to its end. -/
theorem chain_scan {text : String} {segments : List Segment} (h : scan text = .ok segments) :
    Chain [] segments ∧ charactersOf segments = text.toList := by
  have hs := scan_eq_ok_iff.mp h
  have hchain := chain_scanCharacters text.toList
  have hcharacters := charactersOf_scanCharacters text.toList
  rw [hs] at hchain hcharacters
  exact ⟨hchain, by simpa using hcharacters⟩

section

variable {rest : List Char} {front back segments : List Segment}

/-- A chain in front of a chain is one with it. -/
theorem Chain.append (hf : Chain (charactersOf back ++ rest) front) (hb : Chain rest back) :
    Chain rest (front ++ back) := by
  induction hf with
  | nil => exact hb
  | cons piece ends _ ih =>
    refine .cons piece (fun c hc => ends c ?_) ih
    rwa [List.append_eq, charactersOf_append, List.append_assoc] at hc

/-- Both parts of a chain are chains. -/
theorem Chain.of_append (h : Chain rest (front ++ back)) :
    Chain (charactersOf back ++ rest) front ∧ Chain rest back := by
  induction front with
  | nil => exact ⟨.nil, h⟩
  | cons segment front ih =>
    cases h with
    | cons piece ends chain =>
      refine ⟨.cons piece (fun c hc => ends c ?_) (ih chain).1, (ih chain).2⟩
      rwa [List.append_eq, charactersOf_append, List.append_assoc]

/-- A chain that nothing follows may be followed by whatever its segments end in front of. -/
theorem Chain.before (h : Chain [] segments)
    (hends : ∀ segment, Piece segment → ∀ c ∈ rest.head?, segment.endsBefore c = true) :
    Chain rest segments := by
  induction h with
  | nil => exact .nil
  | @cons segment segments piece ends chain ih =>
    refine .cons piece (fun c hc => ?_) ih
    cases chain with
    | nil => exact hends segment piece c hc
    | cons next _ _ =>
      obtain ⟨d, cs, hd⟩ := next.exists_cons
      refine ends c ?_
      simpa [hd] using hc

end

/-- A character that belongs to no name and is no quote prolongs nothing. -/
theorem Piece.endsBefore_of {segment : Segment} (h : Piece segment) {c : Char}
    (hn : isNameCharacter c = false) (hq : isQuote c = false) : segment.endsBefore c = true := by
  cases h with
  | run nonempty plain =>
    obtain ⟨d, cs, rfl⟩ := List.exists_cons_of_ne_nil nonempty
    obtain ⟨hd, hdq⟩ := isPlain_iff.mp (plain d List.mem_cons_self)
    simp [endsBefore, hd, hdq]
  | mark => simp [endsBefore, hn]
  | @literal quote cs opens closes =>
    have hne : c ≠ quote := by
      rintro rfl
      exact Bool.noConfusion (hq.symm.trans opens)
    simp [endsBefore, ne_question opens, opens, hne]
  | placeholder _ _ => simp [endsBefore, hn]

/-- Plain characters in front of a chain. -/
theorem Chain.run {text : String} (hne : text ≠ "") (hplain : text.toList.all isPlain = true)
    {rest : List Char} {segments : List Segment} (chain : Chain rest segments) :
    Chain rest (sql text :: segments) := by
  have hall : ∀ c ∈ text.toList, isPlain c = true := List.all_eq_true.mp hplain
  have hpiece : Piece (sql (String.ofList text.toList)) := .run (by simpa using hne) hall
  rw [String.ofList_toList] at hpiece
  refine .cons hpiece (fun c _ => ?_) chain
  cases ht : text.toList with
  | nil => simp [endsBefore, ht]
  | cons d cs =>
    obtain ⟨hm, hq⟩ := isPlain_iff.mp (hall d (by simp [ht]))
    simp [endsBefore, ht, hm, hq]

/-- A mark in front of a chain that does not begin with a character of a name. -/
theorem Chain.mark {rest : List Char} {segments : List Segment}
    (h : ∀ c ∈ (charactersOf segments ++ rest).head?, isNameCharacter c = false)
    (chain : Chain rest segments) : Chain rest (sql "?" :: segments) := by
  refine .cons .mark (fun c hc => ?_) chain
  simpa [endsBefore] using h c hc

/-- What a segment takes in is next to it. -/
theorem attach_append (segment first : Segment) (front back : List Segment) :
    attach segment (first :: front ++ back) = attach segment (first :: front) ++ back := by
  cases segment with
  | placeholder name => rfl
  | sql text =>
    cases first with
    | placeholder name => rfl
    | sql next =>
      rw [List.cons_append, attach, attach]
      split <;> rfl

/-- Segments in front of one that is no run are put together by themselves. -/
theorem foldr_attach (front : List Segment) {back : List Segment}
    (h : ∀ next ∈ back.head?, next.isRun = false) :
    front.foldr attach back = fuse front ++ back := by
  induction front with
  | nil => rfl
  | cons segment front ih =>
    rw [List.foldr_cons, ih, fuse_cons]
    cases fuse front with
    | nil =>
      rw [List.nil_append, attach_of_not_isRun segment h, attach_of_not_isRun segment (by simp)]
      rfl
    | cons first front => exact attach_append segment first front back

/-- Segments on both sides of one that is no run are put together by themselves. -/
theorem fuse_append_cons {segment : Segment} (h : segment.isRun = false)
    (front back : List Segment) :
    fuse (front ++ segment :: back) = fuse front ++ segment :: fuse back := by
  rw [fuse, List.foldr_append, List.foldr_cons, attach_eq_cons h]
  exact foldr_attach front (by simpa using h)

/-- Putting runs together loses no character. -/
theorem charactersOf_fuse (segments : List Segment) :
    charactersOf (fuse segments) = charactersOf segments := by
  induction segments with
  | nil => rfl
  | cons segment segments ih =>
    rw [fuse_cons, charactersOf_attach, charactersOf_cons, ih]

/-- What does not count runs counts the same whether they are put together or not. -/
theorem countP_fuse {p : Segment → Bool} (h : ∀ segment, segment.isRun = true → p segment = false)
    (segments : List Segment) : (fuse segments).countP p = segments.countP p := by
  have hattach : ∀ segment others, (attach segment others).countP p =
      (segment :: others).countP p := by
    intro segment others
    unfold attach
    split
    · next text next rest =>
      split
      · next hruns =>
        obtain ⟨ht, hn⟩ := Bool.and_eq_true_iff.mp hruns
        have hboth : isRun (sql (text ++ next)) = true := by
          obtain ⟨c, cs, hc, hp⟩ := isPlain_of_isRun ht
          simp only [characters] at hc
          simp [isRun, hc, hp]
        simp [h _ ht, h _ hn, h _ hboth]
      · rfl
    · rfl
  induction segments with
  | nil => rfl
  | cons segment segments ih =>
    rw [fuse_cons, hattach, List.countP_cons, List.countP_cons, ih]

/-- A chain up to the end of a text is what the scanner makes of it. -/
theorem scan_chain {segments : List Segment} {text : String} (h : Chain [] segments)
    (ht : charactersOf segments = text.toList) : scan text = .ok (fuse segments) := by
  have hs := scanCharacters_chain h
  rw [List.append_nil, ht] at hs
  rw [scan_eq_ok_iff, hs, scanCharacters]
  rfl

/-- The segments of a text put together are the text. -/
theorem toList_join_render (segments : List Segment) :
    (String.join (segments.map render)).toList = charactersOf segments := by
  have hrender : ∀ segment : Segment, segment.render.toList = segment.characters := by
    intro segment
    cases segment with
    | sql text => rfl
    | placeholder name => simp [render, Identifier.placeholder, characters]
  rw [String.toList_join, List.flatMap_map]
  exact congrArg (List.flatMap · segments) (funext hrender)

/-- Putting runs together leaves the text as it is. -/
theorem join_fuse (segments : List Segment) :
    String.join ((fuse segments).map render) = String.join (segments.map render) := by
  rw [← String.toList_inj, toList_join_render, toList_join_render, charactersOf_fuse]

/-- Putting runs together leaves the bare marks as they are. -/
theorem count_fuse (segments : List Segment) :
    (fuse segments).count (sql "?") = segments.count (sql "?") := by
  refine countP_fuse (fun segment h => ?_) segments
  rw [beq_eq_false_iff_ne]
  rintro rfl
  exact absurd h (by decide)

end AbstractSql.Segment
