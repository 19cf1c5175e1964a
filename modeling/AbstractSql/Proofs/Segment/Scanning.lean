import AbstractSql.Proofs.Segment.Alternatives
import AbstractSql.Proofs.Segment.Mode

/-!
# What scanning promises

A text is scanned exactly when its reading ends outside of literals. The segments are then the text
again, and its placeholders are the marks outside of literals with the names behind them.
-/

namespace AbstractSql.Segment

/-- The segment stands among the others between two parts of the text. -/
def Stands (segments : List Segment) (front : String) (segment : Segment) (back : String) : Prop :=
  ∃ left right, segments = left ++ segment :: right ∧
    String.join (left.map render) = front ∧ String.join (right.map render) = back

/-- What scanning a text promises. -/
structure Scanned (text : String) : Prop where
  /-- It succeeds exactly when the reading of the text ends outside of literals. -/
  succeeds : (∃ segments, scan text = .ok segments) ↔ (Mode.ofText text).isOutside = true
  /-- The segments are the text again. -/
  restores : ∀ segments, scan text = .ok segments → String.join (segments.map render) = text
  /-- The placeholders are the marks outside of literals with the longest names behind them. -/
  placeholders : ∀ segments, scan text = .ok segments → ∀ front name back,
    Stands segments front (placeholder name) back ↔
      text = front ++ Identifier.placeholder name ++ back ∧
        (Mode.ofText front).isOutside = true ∧ name ≠ "" ∧
        (∀ c ∈ name.toList, isNameCharacter c = true) ∧
        ∀ c ∈ back.toList.head?, isNameCharacter c = false
  /-- A mark outside of literals without a name behind it is text. -/
  questions : ∀ segments, scan text = .ok segments → ∀ front back,
    Stands segments front (sql "?") back ↔
      text = front ++ "?" ++ back ∧ (Mode.ofText front).isOutside = true ∧
        ∀ c ∈ back.toList.head?, isNameCharacter c = false
  /-- It fails only with the byte of the quote of a literal that the reading leaves open. -/
  fails : ∀ failure, scan text = .error failure ↔
    ∃ start, (Mode.ofText text).openedAt? = some start ∧
      failure = .execution (.unterminatedLiteral start)
  /-- The literal left open begins with a quote outside of literals and is never closed. -/
  opens : ∀ start, (Mode.ofText text).openedAt? = some start →
    ∃ front quote rest, text = front ++ String.ofList (quote :: rest) ∧
      start = front.utf8ByteSize ∧ (Mode.ofText front).isOutside = true ∧ isQuote quote = true ∧
      readLiteral quote rest = none
  /-- The alternatives of the grammar can be repeated without end, which gives the segments and
  leaves over the literal that is not closed. -/
  alternatives : Grammar.many Grammar.segment text.toList = some (scanCharacters text.toList)

section

variable {text front back : String} {segment : Segment} {segments : List Segment}

/-- A text that ends outside of literals is scanned. -/
theorem scan_of_isOutside (h : (Mode.ofText text).isOutside = true) :
    ∃ segments, scan text = .ok segments := by
  rcases Mode.ofText_cases text with ⟨hrest, -⟩ | ⟨_, _, _, -, -, -, -, -, hopen⟩
  · exact ⟨(scanCharacters text.toList).1, scan_eq_ok_iff.mpr (Prod.ext rfl hrest)⟩
  · rw [Mode.openedAt?_eq_none_iff.mpr h] at hopen
    cases hopen

/-- A segment is read outside of literals and ends where the next one begins. -/
theorem Stands.split (hs : Stands segments front segment back) (h : scan text = .ok segments) :
    text.toList = front.toList ++ segment.characters ++ back.toList ∧
      (Mode.ofText front).isOutside = true ∧ Piece segment ∧
      ∀ c ∈ back.toList.head?, segment.endsBefore c = true := by
  obtain ⟨left, right, rfl, rfl, rfl⟩ := hs
  obtain ⟨hchain, hall⟩ := chain_scan h
  obtain ⟨hleft, hrest⟩ := hchain.of_append
  rw [toList_join_render, toList_join_render]
  cases hrest with
  | cons piece ends _ =>
    refine ⟨?_, ?_, piece, fun c hc => ends c (by simpa using hc)⟩
    · rw [← hall, charactersOf_append, charactersOf_cons, List.append_assoc]
    · rw [Mode.ofText, toList_join_render]
      exact ((Mode.idle_outside _).after_chain hleft 0).isOutside

/-- A mark that is read outside of literals is cut off. -/
theorem stands_of_split (h : scan text = .ok segments)
    (ht : text.toList = front.toList ++ segment.characters ++ back.toList)
    (hf : (Mode.ofText front).isOutside = true) (hp : Piece segment)
    (hm : segment.characters.head? = some '?')
    (hends : ∀ c ∈ back.toList.head?, segment.endsBefore c = true) :
    Stands segments front segment back := by
  obtain ⟨left, hleft⟩ := scan_of_isOutside hf
  obtain ⟨hchain, hfront⟩ := chain_scan hleft
  have hbefore : Chain (segment.characters ++ back.toList) left := by
    refine hchain.before fun piece hpiece c hc => ?_
    obtain rfl : '?' = c := by simpa [List.head?_append, hm] using hc
    exact hpiece.endsBefore_of (by decide) isQuote_question
  have hrun : segment.isRun = false := by
    cases hr : segment.isRun with
    | false => rfl
    | true =>
      obtain ⟨c, cs, hc, hplain⟩ := isPlain_of_isRun hr
      obtain rfl : c = '?' := by simpa [hc] using hm
      exact absurd hplain (by decide)
  have hscan := scan_eq_ok_iff.mp h
  rw [ht, ← hfront, List.append_assoc, scanCharacters_chain hbefore,
    scanCharacters_piece hp hends, attach_eq_cons hrun,
    foldr_attach left (by simpa using hrun)] at hscan
  obtain ⟨rfl, hrest⟩ := Prod.mk.inj hscan
  have hback := charactersOf_scanCharacters back.toList
  rw [hrest, List.append_nil] at hback
  refine ⟨_, _, rfl, ?_, ?_⟩
  · rw [← String.toList_inj, toList_join_render, charactersOf_fuse, hfront]
  · rw [← String.toList_inj, toList_join_render, hback]

/-- A placeholder stands where a mark outside of literals has a name behind it. -/
theorem stands_placeholder_iff (h : scan text = .ok segments) {name : String} :
    Stands segments front (placeholder name) back ↔
      text = front ++ Identifier.placeholder name ++ back ∧
        (Mode.ofText front).isOutside = true ∧ name ≠ "" ∧
        (∀ c ∈ name.toList, isNameCharacter c = true) ∧
        ∀ c ∈ back.toList.head?, isNameCharacter c = false := by
  constructor
  · intro hstands
    obtain ⟨htext, hout, hpiece, hends⟩ := hstands.split h
    refine ⟨?_, hout, ?_, ?_, by simpa [endsBefore] using hends⟩
    · rw [← String.toList_inj, htext]
      simp [characters, Identifier.placeholder]
    · cases hpiece with
      | placeholder nonempty _ => simpa using nonempty
    · cases hpiece with
      | placeholder _ names => simpa using names
  · rintro ⟨rfl, hout, hne, hnames, hback⟩
    refine stands_of_split h (by simp [characters, Identifier.placeholder]) hout ?_ rfl
      (by simpa [endsBefore] using hback)
    rw [← String.ofList_toList (s := name)]
    exact .placeholder (by simpa using hne) hnames

/-- A bare mark stands where a mark outside of literals has no name behind it. -/
theorem stands_question_iff (h : scan text = .ok segments) :
    Stands segments front (sql "?") back ↔
      text = front ++ "?" ++ back ∧ (Mode.ofText front).isOutside = true ∧
        ∀ c ∈ back.toList.head?, isNameCharacter c = false := by
  constructor
  · intro hstands
    obtain ⟨htext, hout, -, hends⟩ := hstands.split h
    refine ⟨?_, hout, by simpa [endsBefore] using hends⟩
    rw [← String.toList_inj, htext]
    simp [characters]
  · rintro ⟨rfl, hout, hback⟩
    exact stands_of_split h (by simp [characters]) hout .mark rfl
      (by simpa [endsBefore] using hback)

end

/-- What is left over is counted from the end. -/
theorem scan_of_rest {text : String} {front : List Char} {quote : Char} {rest : List Char}
    (hr : (scanCharacters text.toList).2 = quote :: rest)
    (ht : text.toList = front ++ quote :: rest) :
    scan text =
      .error (.execution (.unterminatedLiteral (String.ofList front).utf8ByteSize)) := by
  have htext : text = String.ofList front ++ String.ofList (quote :: rest) := by
    rw [← String.ofList_append, ← ht, String.ofList_toList]
  have hbyte : text.utf8ByteSize - (String.ofList (quote :: rest)).utf8ByteSize =
      (String.ofList front).utf8ByteSize := by
    rw [htext, String.utf8ByteSize_append, Nat.add_sub_cancel]
  unfold scan
  rcases hs : scanCharacters text.toList with ⟨segments, left⟩
  obtain rfl : left = quote :: rest := by simpa [hs] using hr
  simp only [hbyte]

/-- Scanning keeps its promise for every text. -/
theorem scan_reads (text : String) : Scanned text where
  succeeds := by
    refine ⟨?_, scan_of_isOutside⟩
    rintro ⟨segments, hs⟩
    rcases Mode.ofText_cases text with ⟨-, hout⟩ | ⟨_, _, _, hrest, -⟩
    · exact hout
    · simp [scan_eq_ok_iff.mp hs] at hrest
  restores := by
    intro segments hs
    rw [← String.toList_inj, toList_join_render]
    exact (chain_scan hs).2
  placeholders := fun _ hs _ _ _ => stands_placeholder_iff hs
  questions := fun _ hs _ _ => stands_question_iff hs
  fails := by
    intro failure
    rcases Mode.ofText_cases text with ⟨-, hout⟩ | ⟨front, quote, rest, hrest, htext, -, -, -, hopen⟩
    · obtain ⟨segments, hs⟩ := scan_of_isOutside hout
      simp [hs, Mode.openedAt?_eq_none_iff.mpr hout]
    · rw [scan_of_rest hrest htext, hopen]
      simp [eq_comm]
  opens := by
    intro start hstart
    rcases Mode.ofText_cases text with ⟨-, hout⟩ | ⟨front, quote, rest, -, htext, hout, hq, hl, hopen⟩
    · simp [Mode.openedAt?_eq_none_iff.mpr hout] at hstart
    · obtain rfl := Option.some.inj (hopen.symm.trans hstart)
      refine ⟨_, quote, rest, ?_, rfl, hout, hq, hl⟩
      rw [← String.ofList_append, ← htext, String.ofList_toList]
  alternatives := Grammar.many_segment text.toList

end AbstractSql.Segment
