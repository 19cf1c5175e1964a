import AbstractSql.Proofs.Segment.Alike

/-!
# Binding what has been read

Binding a statement depends on what it is read as and on the values of its placeholders. Statements
that are alike are therefore bound alike, as soon as the names at the same places have the same
value.
-/

namespace AbstractSql

open Segment

variable {parameters : ParameterSet}

/-- What a token is in a bound statement. -/
def Segment.Token.sql (parameters : ParameterSet) : Token → String
  | .character c => String.singleton c
  | .mark name => Bound.marks ((parameters.value? name).getD .null)

/-- The values that a token binds. -/
def Segment.Token.values (parameters : ParameterSet) : Token → List Value
  | .character _ => []
  | .mark name => Bound.scalars ((parameters.value? name).getD .null)

/-- The bound statement that tokens make. -/
def Bound.ofTokens (parameters : ParameterSet) : List Token → Bound
  | [] => {}
  | t :: ts => prepend (t.sql parameters) (t.values parameters) (ofTokens parameters ts)

/-- Literal characters are bound as they stand. -/
theorem Bound.ofTokens_characters (cs : List Char) (ts : List Token) :
    ofTokens parameters (cs.map Token.character ++ ts) =
      prepend (String.ofList cs) [] (ofTokens parameters ts) := by
  induction cs with
  | nil => simp [prepend]
  | cons c cs ih =>
    have hc : String.ofList (c :: cs) = String.singleton c ++ String.ofList cs := by
      rw [← String.toList_inj]
      simp
    rw [List.map_cons, List.cons_append, ofTokens, ih, hc]
    simp [prepend, Token.sql, Token.values, String.append_assoc]

/-- Segments whose placeholders all have values are bound as their tokens. -/
theorem Bound.ofSegments_eq {segments : List Segment}
    (hb : ∀ name, Token.mark name ∈ segments.flatMap tokens → ∃ v, parameters.value? name = some v) :
    ofSegments parameters segments = .ok (ofTokens parameters (segments.flatMap tokens)) := by
  induction segments with
  | nil => rfl
  | cons segment rest ih =>
    have hr := ih fun name hn => hb name (List.mem_append_right _ hn)
    rw [List.flatMap_cons]
    cases segment with
    | sql text =>
      rw [ofSegments, hr, tokens, ofTokens_characters, String.ofList_toList]
      rfl
    | placeholder name =>
      obtain ⟨v, hv⟩ := hb name List.mem_cons_self
      rw [ofSegments, hv, hr]
      simp [tokens, ofTokens, Token.sql, Token.values, hv, Except.map]

/-- A text whose placeholders all have values is bound as its tokens. -/
theorem bind_of_read {text : String} {ts : List Token} (h : read text.toList = some ts)
    (hb : ∀ name, Token.mark name ∈ ts → ∃ v, parameters.value? name = some v) :
    bind text parameters = .ok (Bound.ofTokens parameters ts) := by
  obtain ⟨segments, hs, rfl⟩ := scan_of_read h
  rw [bind, hs]
  exact Bound.ofSegments_eq hb

/-- Statements that are alike are bound alike, when the names at the same places have the same
values. -/
theorem Alike.bind_eq {marks : Marks} {s t : String} (h : Alike marks s t)
    {own others : ParameterSet}
    (hm : ∀ names ∈ marks, ∃ v, own.value? names.1 = some v ∧ others.value? names.2 = some v) :
    ∃ bound, bind s own = .ok bound ∧ bind t others = .ok bound := by
  obtain ⟨gs, hl, hr, rfl⟩ := h
  refine ⟨_, bind_of_read hl ?_, (bind_of_read hr ?_).trans (congrArg _ ?_)⟩
  · intro name hn
    obtain ⟨g, hg, he⟩ := List.mem_map.mp hn
    cases g with
    | character c => cases he
    | mark names =>
      cases he
      obtain ⟨v, hv, -⟩ := hm names hg
      exact ⟨v, hv⟩
  · intro name hn
    obtain ⟨g, hg, he⟩ := List.mem_map.mp hn
    cases g with
    | character c => cases he
    | mark names =>
      cases he
      obtain ⟨v, -, hv⟩ := hm names hg
      exact ⟨v, hv⟩
  · clear hl hr
    induction gs with
    | nil => rfl
    | cons g gs ih =>
      have hi := ih fun names hn => hm names (List.mem_cons_of_mem g hn)
      rw [List.map_cons, List.map_cons, Bound.ofTokens, Bound.ofTokens, hi]
      cases g with
      | character c => rfl
      | mark names =>
        obtain ⟨v, hv, hw⟩ := hm names List.mem_cons_self
        simp [Glyph.left, Glyph.right, Token.sql, Token.values, hv, hw]

end AbstractSql
